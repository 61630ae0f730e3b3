import Pseudocode.Lexeme
import Pseudocode.Refusal

/-!
# Tokens

A token is a lexeme with its kind, its literal value and the line on which it ends. A token
can also be put together from parts that no lexeme has, which is why it holds all of them.

* `Token.display` is the form for users: kind, lexeme and literal.
* `Token.debugForm` is the form for developers: every text in it is quoted, so that two
  different tokens never look the same.
-/

namespace Pseudocode

structure Token where
  kind : Kind
  /-- The exact source text; empty for the end of the source. -/
  lexeme : Text
  literal : Option Literal
  line : Int
deriving DecidableEq

/-- The kind of that name, which must be one. -/
def Kind.named (name : Text) : Except Refusal Kind :=
  (Kind.ofName? name).elim (.error (.unknownKind name)) .ok

/-- The literal of the number that the text writes, which must be one. -/
def Literal.ofNumberText (text : Text) : Except Refusal Literal :=
  (Double.parse? text).elim (.error (.notANumber text)) (.ok ∘ .number)

/-- The token of a lexeme that ends on the line. -/
def Lexeme.token (l : Lexeme) (line : Int) : Token :=
  ⟨l.kind, l.text, l.literal, line⟩

/-- A text literal shows as it is, a number in its written form. -/
def Literal.display : Literal → Text
  | .text s => s
  | .number x => x.text

/-- A text literal shows between quotes. -/
def Literal.debugForm : Literal → Text
  | .text s => s.quoted
  | .number x => x.text

namespace Token

/-- The end of a source whose last line is `line`. -/
def eof (line : Int) : Token := ⟨.eof, [], none, line⟩

/-- Kind, lexeme and literal, with blanks between; a missing literal shows as `null`. -/
def display (t : Token) : Text :=
  t.kind.name ++ ' ' :: t.lexeme ++ ' ' :: (t.literal.map Literal.display).getD "null".toList

/-- Kind, quoted lexeme, literal if there is one, and line, in brackets. -/
def debugForm (t : Token) : Text :=
  "Token(".toList ++ t.kind.name ++ ", ".toList ++ t.lexeme.quoted ++
    (t.literal.map fun l => ", ".toList ++ l.debugForm).getD [] ++
    ", L".toList ++ Text.ofInt t.line ++ [')']

/-- Whether the lexeme is a keyword and the kind is that keyword. -/
def isKeyword (t : Token) : Bool :=
  match Keyword.ofText? t.lexeme with
  | some k => t.kind = .keyword k
  | none => false

/-- Whether the token names a primitive type. -/
def isTypeName (t : Token) : Bool :=
  t.kind.isTypeName

/-- Equality of tokens with literals compared by value. -/
def agrees (s t : Token) : Bool :=
  s.kind = t.kind && s.lexeme = t.lexeme && s.line = t.line &&
    match s.literal, t.literal with
    | none, none => true
    | some a, some b => a.agrees b
    | _, _ => false

/-- A token is immutable: whatever the field, assigning to it is refused. -/
def assign (_ : Token) (field : Text) : Except Refusal Token :=
  .error (.frozenField field)

end Token

end Pseudocode
