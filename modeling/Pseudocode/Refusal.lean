import Pseudocode.Text.Quoted

/-!
# Refusals

Requests that name something that does not exist or ask for something that cannot be done.
The message of a refusal is `Refusal.message`.
-/

namespace Pseudocode

/-- Why a request is refused. -/
inductive Refusal where
  /-- No kind of token has the name. -/
  | unknownKind (name : Text)
  /-- No source is open under the name, or it has not been scanned yet. -/
  | unknownSource (name : Text)
  /-- No scan has been given out with the number. -/
  | unknownScan (number : Nat)
  /-- A token never changes, so nothing can be assigned to its fields. -/
  | frozenField (field : Text)
  /-- A text of another length stands where one character is asked for. -/
  | notOneCharacter (length : Nat)
  /-- The text does not write a number. -/
  | notANumber (text : Text)
  /-- A path with a null character names nothing that a file system could hold. -/
  | nullCharacter
  /-- An integer to be written has more digits than the limit allows. -/
  | tooManyDigits
deriving DecidableEq

namespace Refusal

def message : Refusal → Text
  | unknownKind name => name.quoted
  | unknownSource name => name.quoted
  | unknownScan number => Text.ofNat number
  | frozenField field => "cannot assign to field ".toList ++ field.quoted
  | notOneCharacter length =>
    "ord() expected a character, but string of length ".toList ++ Text.ofNat length ++
      " found".toList
  | notANumber text => "could not convert string to float: ".toList ++ text.quoted
  | nullCharacter => "embedded null byte".toList
  | tooManyDigits =>
    "Exceeds the limit (".toList ++ Text.ofNat Text.digitLimit ++
      " digits) for integer string conversion; ".toList ++
      "use sys.set_int_max_str_digits() to increase the limit".toList

end Refusal

end Pseudocode
