import Pseudocode.Text

/-!
# Kinds of lexemes

The vocabulary of the language: its operators, its keywords (French words, among them the
names of the primitive types) and the kinds that a lexeme can have. Each operator and each
keyword has exactly one spelling, and each kind has a name for display.

`Kind.all` and `Keyword.all` list all kinds and all keywords, in the order in which they are
presented to users.
-/

namespace Pseudocode

/-! ## Operators -/

/-- Punctuation and operator signs. -/
inductive Operator where
  | leftParen | rightParen | leftBrace | rightBrace
  | comma | dot | minus | plus | semicolon | slash | star | caret
  | bang | bangEqual | equal | equalEqual | greater | greaterEqual | less | lessEqual
deriving DecidableEq

namespace Operator

def all : List Operator :=
  [leftParen, rightParen, leftBrace, rightBrace, comma, dot, minus, plus, semicolon, slash,
   star, caret, bang, bangEqual, equal, equalEqual, greater, greaterEqual, less, lessEqual]

def spelling : Operator → Text
  | leftParen => ['(']
  | rightParen => [')']
  | leftBrace => ['{']
  | rightBrace => ['}']
  | comma => [',']
  | dot => ['.']
  | minus => ['-']
  | plus => ['+']
  | semicolon => [';']
  | slash => ['/']
  | star => ['*']
  | caret => ['^']
  | bang => ['!']
  | bangEqual => ['!', '=']
  | equal => ['=']
  | equalEqual => ['=', '=']
  | greater => ['>']
  | greaterEqual => ['>', '=']
  | less => ['<']
  | lessEqual => ['<', '=']

def name : Operator → Text
  | leftParen => "LEFT_PAREN".toList
  | rightParen => "RIGHT_PAREN".toList
  | leftBrace => "LEFT_BRACE".toList
  | rightBrace => "RIGHT_BRACE".toList
  | comma => "COMMA".toList
  | dot => "DOT".toList
  | minus => "MINUS".toList
  | plus => "PLUS".toList
  | semicolon => "SEMICOLON".toList
  | slash => "SLASH".toList
  | star => "STAR".toList
  | caret => "CARET".toList
  | bang => "BANG".toList
  | bangEqual => "BANG_EQUAL".toList
  | equal => "EQUAL".toList
  | equalEqual => "EQUAL_EQUAL".toList
  | greater => "GREATER".toList
  | greaterEqual => "GREATER_EQUAL".toList
  | less => "LESS".toList
  | lessEqual => "LESS_EQUAL".toList

/-- The operator that the character alone spells. -/
def ofChar? : Char → Option Operator
  | '(' => some leftParen
  | ')' => some rightParen
  | '{' => some leftBrace
  | '}' => some rightBrace
  | ',' => some comma
  | '.' => some dot
  | '-' => some minus
  | '+' => some plus
  | ';' => some semicolon
  | '/' => some slash
  | '*' => some star
  | '^' => some caret
  | '!' => some bang
  | '=' => some equal
  | '>' => some greater
  | '<' => some less
  | _ => none

/-- The operator with an equals sign added to its spelling. -/
def withEqual? : Operator → Option Operator
  | bang => some bangEqual
  | equal => some equalEqual
  | greater => some greaterEqual
  | less => some lessEqual
  | _ => none

theorem mem_all (o : Operator) : o ∈ all := by
  cases o <;> decide

theorem spelling_of_ofChar? {c : Char} {o : Operator} (h : ofChar? c = some o) :
    o.spelling = [c] := by
  unfold ofChar? at h
  split at h <;> simp_all [spelling, eq_comm]

theorem spelling_of_withEqual? {o o' : Operator} (h : o.withEqual? = some o') :
    o'.spelling = o.spelling ++ ['='] := by
  cases o <;> simp_all [withEqual?, spelling, eq_comm]

end Operator

/-! ## Keywords -/

/-- The primitive types. -/
inductive TypeName where
  | integer | real | character | text | record | array
deriving DecidableEq

/-- The words that are reserved. The constructors carry the words themselves, but for the names
    of types. -/
inductive Keyword where
  | si | sinon | sinonsi | pour | tantque | faire | jusqua | retourne | fonction
  | algorithme | debut | fin | finsi | finpour | fintantque
  | typeName (t : TypeName)
deriving DecidableEq

namespace TypeName

def all : List TypeName := [integer, real, character, text, record, array]

def spelling : TypeName → Text
  | integer => "entier".toList
  | real => "reel".toList
  | character => "charactere".toList
  | text => "chaine".toList
  | record => "structure".toList
  | array => "tableau".toList

def name : TypeName → Text
  | integer => "INT".toList
  | real => "REAL".toList
  | character => "CHAR".toList
  | text => "STRING_TYPE".toList
  | record => "STRUCT".toList
  | array => "ARRAY".toList

theorem mem_all (t : TypeName) : t ∈ all := by
  cases t <;> decide

end TypeName

namespace Keyword

/-- All keywords: control flow, then the frame of a program and the ends of its blocks, then
    the names of types. -/
def all : List Keyword :=
  [si, sinon, sinonsi, pour, tantque, faire, jusqua, retourne, fonction,
   algorithme, debut, fin, finsi, finpour, fintantque] ++ TypeName.all.map typeName

def spelling : Keyword → Text
  | si => "si".toList
  | sinon => "sinon".toList
  | sinonsi => "sinonsi".toList
  | pour => "pour".toList
  | tantque => "tantque".toList
  | faire => "faire".toList
  | jusqua => "jusqua".toList
  | retourne => "retourne".toList
  | fonction => "fonction".toList
  | algorithme => "algorithme".toList
  | debut => "debut".toList
  | fin => "fin".toList
  | finsi => "finsi".toList
  | finpour => "finpour".toList
  | fintantque => "fintantque".toList
  | typeName t => t.spelling

def name : Keyword → Text
  | si => "IF".toList
  | sinon => "ELSE".toList
  | sinonsi => "ELIF".toList
  | pour => "FOR".toList
  | tantque => "WHILE".toList
  | faire => "DO".toList
  | jusqua => "UNTIL".toList
  | retourne => "RETURN".toList
  | fonction => "FUN".toList
  | algorithme => "ALGO".toList
  | debut => "START".toList
  | fin => "END".toList
  | finsi => "ENDIF".toList
  | finpour => "ENDFOR".toList
  | fintantque => "ENDWHILE".toList
  | typeName t => t.name

/-- The keyword that the text spells. Case matters, and so does every character. -/
def ofText? (s : Text) : Option Keyword :=
  all.find? fun k => k.spelling = s

theorem mem_all (k : Keyword) : k ∈ all := by
  cases k with
  | typeName t => cases t <;> decide
  | _ => decide

theorem spelling_of_ofText? {s : Text} {k : Keyword} (h : ofText? s = some k) :
    k.spelling = s := by
  simpa using List.find?_some h

theorem ofText?_spelling (k : Keyword) : ofText? k.spelling = some k := by
  cases k with
  | typeName t => cases t <;> decide
  | _ => decide

/-- Spelling and recognising are inverse to each other. -/
theorem ofText?_eq_some_iff {s : Text} {k : Keyword} : ofText? s = some k ↔ s = k.spelling :=
  ⟨fun h => (spelling_of_ofText? h).symm, fun h => h ▸ ofText?_spelling k⟩

end Keyword

/-! ## Kinds -/

/-- What a token is. `eof` marks the end of the source and belongs to no lexeme. -/
inductive Kind where
  | operator (o : Operator)
  | identifier
  | string
  | number
  | keyword (k : Keyword)
  | eof
deriving DecidableEq

namespace Kind

/-- All kinds: operators, then literals, then keywords by their roles, then the end. -/
def all : List Kind :=
  Operator.all.map operator ++ [identifier, string, number] ++
    [Keyword.si, .sinon, .sinonsi, .algorithme, .debut, .fin, .fonction, .retourne, .pour,
     .tantque, .faire, .jusqua, .finsi, .finpour, .fintantque].map keyword ++
    TypeName.all.map (keyword ∘ .typeName) ++ [eof]

def name : Kind → Text
  | operator o => o.name
  | identifier => "IDENTIFIER".toList
  | string => "STRING".toList
  | number => "NUMBER".toList
  | keyword k => k.name
  | eof => "EOF".toList

/-- The kind with that name. -/
def ofName? (s : Text) : Option Kind :=
  all.find? fun k => k.name = s

/-- Whether the kind is the name of a primitive type. -/
def isTypeName : Kind → Bool
  | keyword (.typeName _) => true
  | _ => false

/-- The kind of a word: a keyword if it spells one, an identifier otherwise. -/
def ofWord (s : Text) : Kind :=
  match Keyword.ofText? s with
  | some k => keyword k
  | none => identifier

theorem mem_all (k : Kind) : k ∈ all := by
  cases k with
  | operator o => cases o <;> decide
  | keyword k =>
      cases k with
      | typeName t => cases t <;> decide
      | _ => decide
  | _ => decide

theorem ofName?_name (k : Kind) : ofName? k.name = some k := by
  cases k with
  | operator o => cases o <;> decide
  | keyword k =>
      cases k with
      | typeName t => cases t <;> decide
      | _ => decide
  | _ => decide

/-- No two kinds share a name. -/
theorem name_injective {k l : Kind} (h : k.name = l.name) : k = l := by
  have same := congrArg ofName? h
  rwa [ofName?_name, ofName?_name, Option.some.injEq] at same

end Kind

end Pseudocode
