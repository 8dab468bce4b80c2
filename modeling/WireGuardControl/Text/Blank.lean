/-!
Blank space as the Unicode standard has it.

* `Blank.isBlank`: the twenty-five characters of the White_Space property.
* `Blank.trim`: a text without the blanks at its two ends.
-/

namespace WireGuardControl.Text.Blank

/-- Whether `c` has the White_Space property. -/
def isBlank (c : Char) : Bool :=
  let n := c.toNat
  (0x09 ≤ n && n ≤ 0x0D) || n == 0x20 || n == 0x85 || n == 0xA0 || n == 0x1680 ||
    (0x2000 ≤ n && n ≤ 0x200A) || n == 0x2028 || n == 0x2029 || n == 0x202F ||
    n == 0x205F || n == 0x3000

/-- A text without its leading and trailing blanks. -/
def trim (s : List Char) : List Char :=
  ((s.dropWhile isBlank).reverse.dropWhile isBlank).reverse

end WireGuardControl.Text.Blank
