import WireGuardControl.Text.Printable
/-!
Quoted texts, as messages show a value that may hold any character.

* `Quoted.escape`: one character inside quotes; the quote in use, the backslash and
  the four named controls are escaped by a backslash, and a hidden character is
  written by its number.
* `Quoted.text` and `Quoted.char`: a text between double quotes, a character
  between single quotes.
-/

namespace WireGuardControl.Text.Quoted

/-- The digits of `n` in base sixteen, in lower case and without leading zeros. -/
def hexDigits (n : Nat) : List Char := Nat.toDigits 16 n

/-- One character between quotes of the kind `quote`. -/
def escape (quote c : Char) : List Char :=
  if c = quote then ['\\', quote]
  else match c with
    | '\x00' => ['\\', '0']
    | '\t' => ['\\', 't']
    | '\n' => ['\\', 'n']
    | '\r' => ['\\', 'r']
    | '\\' => ['\\', '\\']
    | c =>
        if Printable.isHidden c then '\\' :: 'u' :: '\x7b' :: (hexDigits c.toNat ++ ['\x7d'])
        else [c]

/-- A text between double quotes. -/
def text (s : List Char) : List Char := '"' :: (s.flatMap (escape '"') ++ ['"'])

/-- A character between single quotes. -/
def char (c : Char) : List Char := '\'' :: (escape '\'' c ++ ['\''])

end WireGuardControl.Text.Quoted
