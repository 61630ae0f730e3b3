import Pseudocode.Scan
import Pseudocode.Text.LineEnd
import Pseudocode.Utf8

/-!
# Sources from files

The bytes of a file are a source if they are UTF-8; its lines may end in any of the three ways
(`Source.ofBytes`). Every way in which reading a file as text can fail is a `ReadFailure`; it has
a message and, for those who look after the program, a trace.
-/

namespace Pseudocode

/-- Why a file cannot be read as text. Failures of the file system know the path. -/
inductive ReadFailure where
  | missing (path : Text)
  | forbidden (path : Text)
  | directory (path : Text)
  /-- A file stands where the path goes on as if it were a directory. -/
  | notDirectory (path : Text)
  | nameTooLong (path : Text)
  /-- No path holds a null character. -/
  | nullCharacter
  | undecodable (e : Utf8.DecodeError)
  /-- Anything else, in the words of the file system. -/
  | other (kind words : Text)
deriving DecidableEq

namespace ReadFailure

/-- The number and words of a system error, and the quoted path. -/
def systemMessage (number : Nat) (words : String) (path : Text) : Text :=
  "[Errno ".toList ++ Text.ofNat number ++ "] ".toList ++ words.toList ++ ": ".toList ++
    path.quoted

def message : ReadFailure → Text
  | missing path => systemMessage 2 "No such file or directory" path
  | forbidden path => systemMessage 13 "Permission denied" path
  | directory path => systemMessage 21 "Is a directory" path
  | notDirectory path => systemMessage 20 "Not a directory" path
  | nameTooLong path => systemMessage 36 "File name too long" path
  | nullCharacter => "embedded null byte".toList
  | undecodable e => e.message
  | other _ words => words

/-- The name for failures of this kind. -/
def kind : ReadFailure → Text
  | missing _ => "FileNotFoundError".toList
  | forbidden _ => "PermissionError".toList
  | directory _ => "IsADirectoryError".toList
  | notDirectory _ => "NotADirectoryError".toList
  | nameTooLong _ => "OSError".toList
  | nullCharacter => "ValueError".toList
  | undecodable _ => "UnicodeDecodeError".toList
  | other kind _ => kind

/-- The failure under the name for its kind, with its message if there is one. -/
def named (e : ReadFailure) : Text :=
  if e.message.isEmpty then e.kind else e.kind ++ ": ".toList ++ e.message

/-- The trace of a failure that came through the frames: these, from the outermost to the one in
    which it arose, and below them the failure itself. -/
def trace (e : ReadFailure) (frames : List Text) : Text :=
  Text.joinLines ("Traceback (most recent call last):".toList :: frames ++ [e.named])

end ReadFailure

/-- The source that the bytes of a file hold, with all line ends made alike. -/
def Source.ofBytes (bytes : List UInt8) (file : Text) : Except ReadFailure Source :=
  match Utf8.decode bytes with
  | .ok text => .ok (.ofText text.unifyLineEnds file)
  | .error e => .error (.undecodable e)

end Pseudocode
