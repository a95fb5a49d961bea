/-!
# Faults of file operations

Why a file operation failed, with the operating system's wording.
-/

namespace GaugeExporter.Files

/-- The cause of a failed file operation. -/
inductive Fault where
  | notFound
  | isDirectory
  | notDirectory
  | resourceBusy
  | nameTooLong
  -- A path holds the character that ends paths.
  | endInPath
  -- The bytes of a text file are not well-formed.
  | notText
  -- Any other cause, with the system's number and wording.
  | other (code : Nat) (text : String)
  deriving DecidableEq, Repr

def Fault.message : Fault → String
  | .notFound => "No such file or directory (os error 2)"
  | .isDirectory => "Is a directory (os error 21)"
  | .notDirectory => "Not a directory (os error 20)"
  | .resourceBusy => "Device or resource busy (os error 16)"
  | .nameTooLong => "File name too long (os error 36)"
  | .endInPath => "file name contained an unexpected NUL byte"
  | .notText => "stream did not contain valid UTF-8"
  | .other code text => s!"{text} (os error {code})"

/-- The fault with the system's number; the wording is needed for numbers that
have no fault of their own. -/
def Fault.ofCode (code : Nat) (text : String) : Fault :=
  match code with
  | 2 => .notFound
  | 21 => .isDirectory
  | 20 => .notDirectory
  | 16 => .resourceBusy
  | 36 => .nameTooLong
  | 13 => .other 13 "Permission denied"
  | _ => .other code text

end GaugeExporter.Files
