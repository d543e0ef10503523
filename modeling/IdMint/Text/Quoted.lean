/-!
# Quoted text

A text value is shown between double quotes. A quote and a backslash are escaped by a backslash,
the four control characters that have a letter of their own by that letter, and every other control
character by its code point in hexadecimal. All else, the single quote included, stands for itself.
-/

namespace IdMint.Text.Quoted

/-- The control characters: the two ranges of code points that Unicode sets aside for them. -/
def isControl (c : Char) : Bool := c.toNat < 0x20 || (0x7f ≤ c.toNat && c.toNat < 0xa0)

def escape (c : Char) : List Char :=
  match c with
  | '"' => ['\\', '"']
  | '\\' => ['\\', '\\']
  | '\t' => ['\\', 't']
  | '\n' => ['\\', 'n']
  | '\r' => ['\\', 'r']
  | '\x00' => ['\\', '0']
  | c =>
    if isControl c then
      ['\\', 'u', '\x7b'] ++ Nat.toDigits 16 c.toNat ++ ['\x7d']
    else [c]

def encode (text : List Char) : List Char := '"' :: text.flatMap escape ++ ['"']

/-- A text as a caller sees it quoted. -/
def quote (text : String) : String := String.ofList (encode text.toList)

end IdMint.Text.Quoted
