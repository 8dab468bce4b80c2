/-!
Whole numbers in decimal, written and read.

* `Decimal.ofNat`: the digits of a number without leading zeros, and `Decimal.text`
  the same as a string.
* `Decimal.Range`: the numbers a field can hold; `Decimal.read` reads an optional
  sign and at least one digit into a range, and says otherwise which `Decimal.Fault`
  the text has. The first fault met from the left is the one reported.
-/

namespace WireGuardControl.Text.Decimal

/-! ### Writing -/

/-- The character of a digit below ten. -/
def digit (d : Nat) : Char := Char.ofNat (48 + d)

/-- The decimal digits of `n`, without leading zeros. -/
def ofNat (n : Nat) : List Char :=
  if n < 10 then [digit n] else ofNat (n / 10) ++ [digit (n % 10)]

/-- The decimal text of a number. -/
def text (n : Nat) : String := String.ofList (ofNat n)

/-- The decimal text of `n`, filled up with leading zeros to `width` digits. -/
def filled (width n : Nat) : String :=
  String.ofList (List.replicate (width - (ofNat n).length) '0' ++ ofNat n)

/-- The decimal text of a signed number. -/
def signedText (n : Int) : String := if n < 0 then "-" ++ text n.natAbs else text n.natAbs

/-! ### Reading -/

/-- Why a text is no number of a field. -/
inductive Fault where
  /-- There is no character at all. -/
  | empty
  /-- A character is no digit, or a sign stands alone. -/
  | invalidDigit
  /-- The number lies above the range. -/
  | tooLarge
  /-- The number lies below the range. -/
  | tooSmall
  deriving DecidableEq, Repr

/-- The fault in words. -/
def Fault.message : Fault → String
  | .empty => "cannot parse integer from empty string"
  | .invalidDigit => "invalid digit found in string"
  | .tooLarge => "number too large to fit in target type"
  | .tooSmall => "number too small to fit in target type"

/-- The numbers a field can hold: from `-below` to `above`. -/
structure Range where
  /-- The greatest number. -/
  above : Nat
  /-- The magnitude of the least number; zero for a field without signs. -/
  below : Nat := 0

namespace Range

/-- Numbers of eight bits. -/
def u8 : Range where above := 255

/-- Numbers of sixteen bits. -/
def u16 : Range where above := 65535

/-- Numbers of thirty-two bits. -/
def u32 : Range where above := 4294967295

/-- Numbers of sixty-four bits. -/
def u64 : Range where above := 18446744073709551615

/-- Signed numbers of thirty-two bits. -/
def i32 : Range where
  above := 2147483647
  below := 2147483648

end Range

/-- The value of a decimal digit. -/
def value? (c : Char) : Option Nat :=
  if 48 ≤ c.toNat ∧ c.toNat ≤ 57 then some (c.toNat - 48) else none

/-- Reads the digits `s` behind a number `n` read so far, none above `limit`; `excess` is the
fault of a number above it. -/
def readDigits (limit : Nat) (excess : Fault) (n : Nat) : List Char → Except Fault Nat
  | [] => .ok n
  | c :: rest =>
      match value? c with
      | none => .error .invalidDigit
      | some d =>
          if limit < 10 * n + d then .error excess else readDigits limit excess (10 * n + d) rest

/-- Reads a number of the range `r`: an optional sign, a minus only where the range has
numbers below zero, and at least one digit. -/
def read (r : Range) (s : List Char) : Except Fault Int :=
  match s with
  | [] => .error .empty
  | '+' :: [] => .error .invalidDigit
  | '-' :: [] => .error .invalidDigit
  | '+' :: digits => (readDigits r.above .tooLarge 0 digits).map Int.ofNat
  | '-' :: digits =>
      if r.below = 0 then .error .invalidDigit
      else (readDigits r.below .tooSmall 0 digits).map fun n => -(n : Int)
  | digits => (readDigits r.above .tooLarge 0 digits).map Int.ofNat

/-- Reads a number of sixteen bits. -/
def readUInt16 (s : List Char) : Except Fault UInt16 :=
  (read .u16 s).map fun n => UInt16.ofNat n.toNat

/-- Reads a number of thirty-two bits. -/
def readUInt32 (s : List Char) : Except Fault UInt32 :=
  (read .u32 s).map fun n => UInt32.ofNat n.toNat

/-- Reads a number of sixty-four bits. -/
def readUInt64 (s : List Char) : Except Fault UInt64 :=
  (read .u64 s).map fun n => UInt64.ofNat n.toNat

/-- Reads a signed number of thirty-two bits. -/
def readInt32 (s : List Char) : Except Fault Int32 :=
  (read .i32 s).map Int32.ofInt

end WireGuardControl.Text.Decimal
