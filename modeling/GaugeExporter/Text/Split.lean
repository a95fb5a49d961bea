/-!
# Splitting text

`split` cuts a text at every character of a class and keeps the empty pieces;
`pieces` leaves them out. Every piece is free of the class.
-/

namespace GaugeExporter.Text

def split (separator : Char → Bool) : List Char → List (List Char)
  | [] => [[]]
  | c :: rest =>
    match split separator rest with
    | [] => [[c]]
    | piece :: later => if separator c then [] :: piece :: later else (c :: piece) :: later

def pieces (separator : Char → Bool) (text : List Char) : List (List Char) :=
  (split separator text).filter (!·.isEmpty)

theorem split_ne_nil (separator : Char → Bool) (text : List Char) : split separator text ≠ [] := by
  cases text with
  | nil => exact List.cons_ne_nil _ _
  | cons c rest =>
    rw [split]
    split
    · exact List.cons_ne_nil _ _
    · split
      · exact List.cons_ne_nil _ _
      · exact List.cons_ne_nil _ _

theorem not_separator_of_mem_split {separator : Char → Bool} {text piece : List Char} {c : Char}
    (hp : piece ∈ split separator text) (hc : c ∈ piece) : separator c = false := by
  induction text generalizing piece with
  | nil => simp [split] at hp; subst hp; simp at hc
  | cons d rest ih =>
    rw [split] at hp
    cases hs : split separator rest with
    | nil => exact absurd hs (split_ne_nil separator rest)
    | cons first later =>
      rw [hs] at hp ih
      cases hd : separator d with
      | true =>
        simp only [hd, if_true, List.mem_cons] at hp
        rcases hp with rfl | hp
        · simp at hc
        · exact ih (List.mem_cons.mpr hp) hc
      | false =>
        simp only [hd, Bool.false_eq_true, if_false, List.mem_cons] at hp
        rcases hp with rfl | hp
        · rcases List.mem_cons.mp hc with rfl | hc
          · exact hd
          · exact ih List.mem_cons_self hc
        · exact ih (List.mem_cons_of_mem _ hp) hc

end GaugeExporter.Text
