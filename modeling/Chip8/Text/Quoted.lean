import Chip8.Text.Printable
import Chip8.Text.Radix

/-!
# Quoted text

Text stands in apostrophes, or in quotation marks where it holds an apostrophe
and no quotation mark.  The delimiter and the backslash are escaped by a
backslash, three controls by a letter, and other characters that do not print
by their code points.
-/

namespace Chip8.Text

/-- A code point as lower-case hexadecimal digits, filled with zeros. -/
def codePoint (width : Nat) (c : Char) : List Char :=
  (Radix.padded 16 width c.toNat).map Char.toLower

def escape (delimiter : Char) (c : Char) : List Char :=
  if c = delimiter ∨ c = '\\' then ['\\', c]
  else if c = '\t' then ['\\', 't']
  else if c = '\n' then ['\\', 'n']
  else if c = '\r' then ['\\', 'r']
  else if isPrintable c then [c]
  else if c.toNat < 0x100 then '\\' :: 'x' :: codePoint 2 c
  else if c.toNat < 0x10000 then '\\' :: 'u' :: codePoint 4 c
  else '\\' :: 'U' :: codePoint 8 c

def delimiter (cs : List Char) : Char :=
  if '\'' ∈ cs ∧ '"' ∉ cs then '"' else '\''

def quoted (text : String) : String :=
  let mark := delimiter text.toList
  String.ofList (mark :: text.toList.flatMap (escape mark) ++ [mark])

end Chip8.Text
