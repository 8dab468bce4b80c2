import WireGuardControl.Bytes
/-!
Octets in the standard base-64 alphabet with padding.

* `Base64.encode`: four characters for each group of three octets, the last group
  filled up with the padding mark.
* `Base64.decode`: reads exactly such texts. `Base64.Fault` names the first octet
  that is no letter of the alphabet, a length that no octets have, padding that is
  missing or superfluous, or a last letter whose unused bits are not zero.

All groups but the last are judged first, from the left; the last group of at most
four letters is judged by `lastGroup`, since only it may hold padding.

The program takes its base 64 from a package that is no part of it. That the package reads
exactly these texts, and finds the faults of all others in this order, is assumed.
-/

namespace WireGuardControl.Text.Base64

/-! ### The alphabet -/

/-- The letter of a value below sixty-four. -/
def letter (v : Nat) : UInt8 :=
  UInt8.ofNat (if v < 26 then 65 + v else if v < 52 then 71 + v else if v < 62 then v - 4
    else if v = 62 then 43 else 47)

/-- The value of a letter of the alphabet. -/
def value? (c : UInt8) : Option Nat :=
  let n := c.toNat
  if 65 ≤ n ∧ n ≤ 90 then some (n - 65)
  else if 97 ≤ n ∧ n ≤ 122 then some (n - 71)
  else if 48 ≤ n ∧ n ≤ 57 then some (n + 4)
  else if n = 43 then some 62
  else if n = 47 then some 63
  else none

/-- The padding mark, an equals sign. -/
def pad : UInt8 := 61

/-! ### Writing -/

/-- The letters of a row of octets, padded to a multiple of four. -/
def encodeBytes : Bytes → Bytes
  | [] => []
  | [a] => [letter (a.toNat / 4), letter (a.toNat % 4 * 16), pad, pad]
  | [a, b] =>
      [letter (a.toNat / 4), letter (a.toNat % 4 * 16 + b.toNat / 16),
        letter (b.toNat % 16 * 4), pad]
  | a :: b :: c :: rest =>
      letter (a.toNat / 4) :: letter (a.toNat % 4 * 16 + b.toNat / 16) ::
        letter (b.toNat % 16 * 4 + c.toNat / 64) :: letter (c.toNat % 64) :: encodeBytes rest

/-- The text of a row of octets. -/
def encode (b : Bytes) : List Char := (encodeBytes b).map fun c => Char.ofNat c.toNat

/-! ### Reading -/

/-- Why a text is no padded base-64 text. -/
inductive Fault where
  /-- The octet `byte` at the offset `index` does not belong there. -/
  | invalidByte (index : Nat) (byte : UInt8)
  /-- No octets have a text of this many letters. -/
  | invalidLength (length : Nat)
  /-- The last letter `byte`, at the offset `index`, has bits beyond the last octet. -/
  | invalidLastSymbol (index : Nat) (byte : UInt8)
  /-- The padding does not complete the last group. -/
  | invalidPadding
  deriving DecidableEq, Repr

/-- The fault in words. -/
def Fault.message : Fault → String
  | .invalidByte index byte => s!"Invalid symbol {byte.toNat}, offset {index}."
  | .invalidLength length => s!"Invalid input length: {length}"
  | .invalidLastSymbol index byte => s!"Invalid last symbol {byte.toNat}, offset {index}."
  | .invalidPadding => "Invalid padding"

/-- What the last group has shown up to some letter of it. -/
structure Tail where
  /-- The values of its letters. -/
  values : List Nat := []
  /-- Its last letter. -/
  lastLetter : UInt8 := 0
  /-- The offset of its first padding mark. -/
  firstPad : Option Nat := none
  /-- How many padding marks it has. -/
  pads : Nat := 0

/-- Reads the letters and padding marks of the last group, which starts at the offset
`start`; the next one is number `index` of it. -/
def readTail (start : Nat) (index : Nat) (t : Tail) : Bytes → Except Fault Tail
  | [] => .ok t
  | c :: rest =>
      if c = pad then
        if index < 2 then .error (.invalidByte (start + index) pad)
        else
          readTail start (index + 1)
            { t with firstPad := some (t.firstPad.getD (start + index)), pads := t.pads + 1 } rest
      else match t.firstPad, value? c with
        | some first, _ => .error (.invalidByte first pad)
        | none, none => .error (.invalidByte (start + index) c)
        | none, some v =>
            readTail start (index + 1) { t with values := t.values ++ [v], lastLetter := c } rest

/-- The octets of the last group of at most four letters, which starts at the offset
`start`. -/
def lastGroup (start : Nat) (s : Bytes) : Except Fault Bytes := do
  let t ← readTail start 0 {} s
  let count := t.values.length
  if s ≠ [] ∧ count < 2 then throw (.invalidLength (start + count))
  if (t.pads + count) % 4 ≠ 0 then throw .invalidPadding
  let last := Fault.invalidLastSymbol (start + count - 1) t.lastLetter
  match t.values with
  | [v, w] =>
      if w % 16 ≠ 0 then throw last
      return [UInt8.ofNat (4 * v + w / 16)]
  | [v, w, x] =>
      if x % 4 ≠ 0 then throw last
      return [UInt8.ofNat (4 * v + w / 16), UInt8.ofNat (w % 16 * 16 + x / 4)]
  | [v, w, x, y] =>
      return [UInt8.ofNat (4 * v + w / 16), UInt8.ofNat (w % 16 * 16 + x / 4),
        UInt8.ofNat (x % 4 * 64 + y)]
  | _ => return []

/-- The octets of the letters from the offset `start` on: a group of four that more letters
follow is complete, and the rest is the last group. -/
def decodeGroups (start : Nat) : Bytes → Except Fault Bytes
  | a :: b :: c :: d :: e :: rest =>
      match value? a, value? b, value? c, value? d with
      | none, _, _, _ => .error (.invalidByte start a)
      | _, none, _, _ => .error (.invalidByte (start + 1) b)
      | _, _, none, _ => .error (.invalidByte (start + 2) c)
      | _, _, _, none => .error (.invalidByte (start + 3) d)
      | some v, some w, some x, some y =>
          (decodeGroups (start + 4) (e :: rest)).map fun bytes =>
            UInt8.ofNat (4 * v + w / 16) :: UInt8.ofNat (w % 16 * 16 + x / 4) ::
              UInt8.ofNat (x % 4 * 64 + y) :: bytes
  | s => lastGroup start s

/-- Reads the octets of a text. A single letter behind complete groups is judged before
all others when it is neither a letter of the alphabet nor padding. -/
def decode (s : Bytes) : Except Fault Bytes :=
  match s.getLast? with
  | some c =>
      if s.length % 4 = 1 ∧ c ≠ pad ∧ value? c = none then
        .error (.invalidByte (s.length - 1) c)
      else decodeGroups 0 s
  | none => .ok []

end WireGuardControl.Text.Base64
