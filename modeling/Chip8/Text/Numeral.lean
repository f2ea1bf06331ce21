/-!
# Reading integers

An integer may have blanks around it, a sign, and single underscores between
its digits.  Digits are the decimal digits of any script.
-/

namespace Chip8.Text

def blanks : List Nat :=
  [0x9, 0xA, 0xB, 0xC, 0xD, 0x20, 0x85, 0xA0, 0x1680, 0x2000, 0x2001, 0x2002,
   0x2003, 0x2004, 0x2005, 0x2006, 0x2007, 0x2008, 0x2009, 0x200A, 0x2028,
   0x2029, 0x202F, 0x205F, 0x3000]

def isBlank (c : Char) : Bool := blanks.contains c.toNat

/-- The code points of the digits zero; the other nine of a script follow. -/
def zeros : List Nat :=
  [0x30, 0x660, 0x6F0, 0x7C0, 0x966, 0x9E6, 0xA66, 0xAE6, 0xB66, 0xBE6,
   0xC66, 0xCE6, 0xD66, 0xDE6, 0xE50, 0xED0, 0xF20, 0x1040, 0x1090, 0x17E0,
   0x1810, 0x1946, 0x19D0, 0x1A80, 0x1A90, 0x1B50, 0x1BB0, 0x1C40, 0x1C50,
   0xA620, 0xA8D0, 0xA900, 0xA9D0, 0xA9F0, 0xAA50, 0xABF0, 0xFF10, 0x104A0,
   0x10D30, 0x11066, 0x110F0, 0x11136, 0x111D0, 0x112F0, 0x11450, 0x114D0,
   0x11650, 0x116C0, 0x11730, 0x118E0, 0x11950, 0x11C50, 0x11D50, 0x11DA0,
   0x16A60, 0x16AC0, 0x16B50, 0x1D7CE, 0x1D7D8, 0x1D7E2, 0x1D7EC, 0x1D7F6,
   0x1E140, 0x1E2F0, 0x1E950, 0x1FBF0]

def decimalDigit? (c : Char) : Option Nat :=
  (zeros.find? fun first => first ≤ c.toNat && c.toNat < first + 10).map
    (c.toNat - ·)

def isDecimalDigit (c : Char) : Bool := (decimalDigit? c).isSome

def trimBlanks (cs : List Char) : List Char :=
  ((cs.dropWhile isBlank).reverse.dropWhile isBlank).reverse

/-- The digits of a numeral, where an underscore may stand between two. -/
def digits? : List Char → Option (List Nat)
  | [] => none
  | [c] => (decimalDigit? c).map fun d => [d]
  | c :: '_' :: rest =>
      match decimalDigit? c with
      | some d => (digits? rest).map (d :: ·)
      | none => none
  | c :: rest =>
      match decimalDigit? c with
      | some d => (digits? rest).map (d :: ·)
      | none => none

def maxDigits : Nat := 4300

def natural? (cs : List Char) : Option Nat :=
  match digits? cs with
  | some ds =>
      if ds.length ≤ maxDigits then some (ds.foldl (fun n d => n * 10 + d) 0)
      else none
  | none => none

def integer? (text : String) : Option Int :=
  match trimBlanks text.toList with
  | '-' :: rest => (natural? rest).map fun n => -(n : Int)
  | '+' :: rest => (natural? rest).map fun n => (n : Int)
  | rest => (natural? rest).map fun n => (n : Int)

end Chip8.Text
