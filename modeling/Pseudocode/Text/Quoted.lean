import Pseudocode.Text.Printable

/-!
# Quoted text

A quoted text stands between two equal quotes and shows every character in print: the quote,
the backslash and every unprintable character are escaped. The quote is chosen so that a text
with apostrophes only needs no escape for them.
-/

namespace Pseudocode.Text

/-- The quote that a text is put between: an apostrophe, unless the text holds an apostrophe
    and no double quote. -/
def quoteMark (s : Text) : Char :=
  if '\'' ∈ s ∧ '"' ∉ s then '"' else '\''

/-- An unprintable character by its code point: `\xhh`, `\uhhhh` or `\Uhhhhhhhh`, whichever is
    the first that holds it. -/
def codeEscape (c : Char) : Text :=
  if c.toNat < 0x100 then '\\' :: 'x' :: hex 2 c.toNat
  else if c.toNat < 0x10000 then '\\' :: 'u' :: hex 4 c.toNat
  else '\\' :: 'U' :: hex 8 c.toNat

/-- A character as it stands between two quotes `mark`. -/
def escaped (mark c : Char) : Text :=
  if c = mark ∨ c = '\\' then ['\\', c]
  else if c = '\n' then ['\\', 'n']
  else if c = '\r' then ['\\', 'r']
  else if c = '\t' then ['\\', 't']
  else if isPrintable c then [c]
  else codeEscape c

/-- The text between quotes, every character in print. -/
def quoted (s : Text) : Text :=
  quoteMark s :: s.flatMap (escaped (quoteMark s)) ++ [quoteMark s]

end Pseudocode.Text
