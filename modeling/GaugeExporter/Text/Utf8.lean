/-!
# Bytes of text

`utf8` encodes characters; `decode?` reads bytes that are well-formed. `lossy`
reads any bytes: each maximal ill-formed subpart becomes one replacement
character.
-/

namespace GaugeExporter

abbrev Bytes := List UInt8

namespace Text

def utf8 (text : List Char) : Bytes := text.flatMap String.utf8EncodeChar

def bytes (s : String) : Bytes := utf8 s.toList

def decode? (bs : Bytes) : Option String := String.fromUTF8? ⟨bs.toArray⟩

@[simp] theorem utf8_nil : utf8 [] = [] := rfl

@[simp] theorem utf8_append (s t : List Char) : utf8 (s ++ t) = utf8 s ++ utf8 t :=
  List.flatMap_append

@[simp] theorem utf8_cons (c : Char) (s : List Char) :
    utf8 (c :: s) = String.utf8EncodeChar c ++ utf8 s := rfl

/-! ## Ill-formed bytes -/

def isContinuation (b : UInt8) : Bool := 0x80 ≤ b && b ≤ 0xbf

def payload (b : UInt8) : Nat := b.toNat % 64

/-- The second bytes that may follow a leading byte of a three-byte or
four-byte character: they exclude overlong forms, surrogates and code points
out of range. -/
def secondRange (lead : UInt8) : UInt8 × UInt8 :=
  if lead = 0xe0 then (0xa0, 0xbf)
  else if lead = 0xed then (0x80, 0x9f)
  else if lead = 0xf0 then (0x90, 0xbf)
  else if lead = 0xf4 then (0x80, 0x8f)
  else (0x80, 0xbf)

def follows (lead second : UInt8) : Bool :=
  (secondRange lead).1 ≤ second && second ≤ (secondRange lead).2

/-- The first character of a nonempty run of bytes with the number of bytes
after the first that it takes, a replacement character for an ill-formed
subpart. -/
def leading (lead : UInt8) (rest : Bytes) : Char × Nat :=
  let replacement := Char.ofNat 0xfffd
  if lead < 0x80 then (Char.ofNat lead.toNat, 0)
  else if 0xc2 ≤ lead && lead ≤ 0xdf then
    match rest with
    | b :: _ =>
      if isContinuation b then (Char.ofNat (lead.toNat % 32 * 64 + payload b), 1)
      else (replacement, 0)
    | [] => (replacement, 0)
  else if 0xe0 ≤ lead && lead ≤ 0xef then
    match rest with
    | b :: c :: _ =>
      if !follows lead b then (replacement, 0)
      else if !isContinuation c then (replacement, 1)
      else (Char.ofNat ((lead.toNat % 16 * 64 + payload b) * 64 + payload c), 2)
    | [b] => (replacement, if follows lead b then 1 else 0)
    | [] => (replacement, 0)
  else if 0xf0 ≤ lead && lead ≤ 0xf4 then
    match rest with
    | b :: c :: d :: _ =>
      if !follows lead b then (replacement, 0)
      else if !isContinuation c then (replacement, 1)
      else if !isContinuation d then (replacement, 2)
      else
        (Char.ofNat (((lead.toNat % 8 * 64 + payload b) * 64 + payload c) * 64 + payload d), 3)
    | [b, c] =>
      (replacement, if !follows lead b then 0 else if !isContinuation c then 1 else 2)
    | [b] => (replacement, if follows lead b then 1 else 0)
    | [] => (replacement, 0)
  else (replacement, 0)

def lossy : Bytes → List Char
  | [] => []
  | lead :: rest =>
    let (c, taken) := leading lead rest
    c :: lossy (rest.drop taken)
termination_by bs => bs.length
decreasing_by simp only [List.length_cons, List.length_drop]; omega

end Text

end GaugeExporter
