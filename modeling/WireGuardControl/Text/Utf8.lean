import WireGuardControl.Bytes
/-!
Texts as octets in UTF-8.

* `Utf8.encode`: one to four octets for each character.
* `Utf8.decode`: reads exactly such octets; a `Utf8.Fault` says how far the octets are
  a text and how many of the next ones begin no character.
* `Utf8.lossy`: reads any octets, each longest run that begins no character becoming
  one replacement character.
-/

namespace WireGuardControl.Text.Utf8

/-! ### Writing -/

/-- The octets of a character. -/
def encodeChar (c : Char) : Bytes :=
  let n := c.toNat
  if n < 0x80 then [UInt8.ofNat n]
  else if n < 0x800 then [UInt8.ofNat (0xC0 + n / 64), UInt8.ofNat (0x80 + n % 64)]
  else if n < 0x10000 then
    [UInt8.ofNat (0xE0 + n / 4096), UInt8.ofNat (0x80 + n / 64 % 64), UInt8.ofNat (0x80 + n % 64)]
  else
    [UInt8.ofNat (0xF0 + n / 262144), UInt8.ofNat (0x80 + n / 4096 % 64),
      UInt8.ofNat (0x80 + n / 64 % 64), UInt8.ofNat (0x80 + n % 64)]

/-- The octets of a text. -/
def encode (s : List Char) : Bytes := s.flatMap encodeChar

/-! ### Reading one character -/

/-- The ranges of the octets that complete a character begun by `lead`. -/
def continuations? (lead : UInt8) : Option (List (Nat × Nat)) :=
  let n := lead.toNat
  let tail := (0x80, 0xBF)
  if n < 0x80 then some []
  else if 0xC2 ≤ n ∧ n ≤ 0xDF then some [tail]
  else if n = 0xE0 then some [(0xA0, 0xBF), tail]
  else if n = 0xED then some [(0x80, 0x9F), tail]
  else if 0xE1 ≤ n ∧ n ≤ 0xEF then some [tail, tail]
  else if n = 0xF0 then some [(0x90, 0xBF), tail, tail]
  else if 0xF1 ≤ n ∧ n ≤ 0xF3 then some [tail, tail, tail]
  else if n = 0xF4 then some [(0x80, 0x8F), tail, tail]
  else none

/-- What stands at the head of some octets. -/
inductive Head where
  /-- The character `c`, completed by `width` octets behind the first. -/
  | char (c : Char) (width : Nat)
  /-- `width` octets behind the first that begin no character together with it. -/
  | broken (width : Nat)
  /-- The octets end inside a character. -/
  | unfinished
  deriving DecidableEq, Repr

/-- Reads the octets that complete a character whose bits so far spell `n` and which has
`width` octets behind its first already. -/
def complete (n width : Nat) : List (Nat × Nat) → Bytes → Head
  | [], _ => .char (Char.ofNat n) width
  | _ :: _, [] => .unfinished
  | (low, high) :: ranges, b :: rest =>
      if low ≤ b.toNat ∧ b.toNat ≤ high then
        complete (n * 64 + b.toNat % 64) (width + 1) ranges rest
      else .broken width

/-- The bits of a character that its first octet holds. -/
def leadBits (lead : UInt8) : Nat :=
  let n := lead.toNat
  if n < 0x80 then n else if n < 0xE0 then n % 32 else if n < 0xF0 then n % 16 else n % 8

/-- What `lead` begins, with `rest` behind it. -/
def head (lead : UInt8) (rest : Bytes) : Head :=
  match continuations? lead with
  | none => .broken 0
  | some ranges => complete (leadBits lead) 0 ranges rest

/-! ### Reading a text -/

/-- Where octets stop to be a text. -/
structure Fault where
  /-- The number of octets in front that are a text. -/
  validLength : Nat
  /-- How many octets from there on begin no character; none if the octets end inside
  one. -/
  brokenLength : Option Nat
  deriving DecidableEq, Repr

/-- The fault in words. -/
def Fault.message (f : Fault) : String :=
  match f.brokenLength with
  | some n => s!"invalid utf-8 sequence of {n} bytes from index {f.validLength}"
  | none => s!"incomplete utf-8 byte sequence from index {f.validLength}"

/-- Reads octets that stand behind `index` octets of text. -/
def decodeFrom (index : Nat) : Bytes → Except Fault (List Char)
  | [] => .ok []
  | b :: rest =>
      match head b rest with
      | .char c width => (decodeFrom (index + width + 1) (rest.drop width)).map (c :: ·)
      | .broken width => .error ⟨index, some (width + 1)⟩
      | .unfinished => .error ⟨index, none⟩
  termination_by b => b.length
  decreasing_by simp only [List.length_drop, List.length_cons]; omega

/-- Reads octets as a text. -/
def decode (b : Bytes) : Except Fault (List Char) := decodeFrom 0 b

/-- The character that stands for octets which are no text. -/
def replacement : Char := '\uFFFD'

/-- Reads octets as a text, with a replacement character for each run that is none. -/
def lossy : Bytes → List Char
  | [] => []
  | b :: rest =>
      match head b rest with
      | .char c width => c :: lossy (rest.drop width)
      | .broken width => replacement :: lossy (rest.drop width)
      | .unfinished => [replacement]
  termination_by b => b.length
  decreasing_by all_goals simp only [List.length_drop, List.length_cons]; omega

/-- The octets of a string. -/
def ofString (s : String) : Bytes := encode s.toList

/-- Reads octets as a string. -/
def toString? (b : Bytes) : Except Fault String := (decode b).map String.ofList

end WireGuardControl.Text.Utf8
