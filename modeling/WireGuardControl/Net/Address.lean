import WireGuardControl.Bytes
import WireGuardControl.Text.Decimal
import WireGuardControl.Text.Hex
/-!
Internet addresses, their octets and their text.

* `IPv4` and `IPv6`: four octets and eight sixteen-bit groups; `IPv6.octets` and
  `IPv6.ofOctets` are inverse (`ofOctets_octets`).
* `IPv4.chars` and `IPv6.chars`: the dotted form, and the form in which the first of the
  longest runs of at least two zero groups is written as a double colon and a mapped
  IPv4 address keeps its dots.
* `Address.Grammar`: what two grammars of address texts disagree on; `Address.strict`
  and `Address.lenient` are the two in use.
* `IPv4.read` and `IPv6.read`: an address at the head of a text, and what follows it.

That `Address.lenient` is the grammar of the package from which networks are taken is assumed.
-/

namespace WireGuardControl

open Text

/-- An IPv4 address, as four octets. -/
structure IPv4 where
  /-- The first octet. -/
  a : UInt8
  /-- The second octet. -/
  b : UInt8
  /-- The third octet. -/
  c : UInt8
  /-- The fourth octet. -/
  d : UInt8
  deriving DecidableEq

/-- An IPv6 address, as eight groups of sixteen bits. -/
structure IPv6 where
  /-- The groups, from the left. -/
  groups : List UInt16
  /-- There are eight groups. -/
  length_groups : groups.length = 8
  deriving DecidableEq

/-- An address of either family. -/
inductive IpAddress where
  /-- An IPv4 address. -/
  | v4 (address : IPv4)
  /-- An IPv6 address. -/
  | v6 (address : IPv6)
  deriving DecidableEq

/-! ### Octets -/

namespace IPv4

/-- The octets of an address, from the left. -/
def octets (x : IPv4) : Bytes := [x.a, x.b, x.c, x.d]

/-- The address of a record of four octets. -/
def ofOctets : (b : Bytes) → b.length = 4 → IPv4
  | [a, b, c, d], _ => ⟨a, b, c, d⟩

/-- The address whose octets spell `n`, most significant first. -/
def ofUInt32 (n : UInt32) : IPv4 :=
  ofOctets (Bytes.ofUInt32BE n) (Bytes.length_ofUInt32BE n)

@[simp] theorem length_octets (x : IPv4) : x.octets.length = 4 := rfl

@[simp] theorem ofOctets_octets (x : IPv4) : ofOctets x.octets x.length_octets = x := rfl

/-- The address that four zero octets spell. -/
def unspecified : IPv4 := ⟨0, 0, 0, 0⟩

end IPv4

namespace IPv6

/-- The two octets of a group. -/
def groupOctets (g : UInt16) : Bytes := Bytes.ofUInt16BE g

/-- The octets of an address, from the left. -/
def octets (x : IPv6) : Bytes := x.groups.flatMap groupOctets

/-- The groups that octets spell two by two. -/
def pairUp : Bytes → List UInt16
  | high :: low :: rest => Bytes.toUInt16BE [high, low] :: pairUp rest
  | _ => []

theorem length_pairUp : (b : Bytes) → (pairUp b).length = b.length / 2
  | [] => rfl
  | [_] => by simp [pairUp]
  | _ :: _ :: rest => by
      rw [pairUp, List.length_cons, length_pairUp rest]
      simp only [List.length_cons]
      omega

/-- The address of a record of sixteen octets. -/
def ofOctets (b : Bytes) (h : b.length = 16) : IPv6 :=
  ⟨pairUp b, by rw [length_pairUp, h]⟩

theorem pairUp_flatMap (gs : List UInt16) : pairUp (gs.flatMap groupOctets) = gs := by
  induction gs with
  | nil => rfl
  | cons g rest ih =>
      have h := Bytes.toUInt16BE_ofUInt16BE g
      rw [List.flatMap_cons, groupOctets]
      rcases hb : Bytes.ofUInt16BE g with _ | ⟨x, _ | ⟨y, _ | ⟨z, t⟩⟩⟩
      · exact absurd (congrArg List.length hb) (by simp)
      · exact absurd (congrArg List.length hb) (by simp)
      · rw [hb] at h
        simp [pairUp, h, ih]
      · exact absurd (congrArg List.length hb) (by simp)

@[simp] theorem length_octets (x : IPv6) : x.octets.length = 16 := by
  have h : ∀ gs : List UInt16, (gs.flatMap groupOctets).length = 2 * gs.length := by
    intro gs
    induction gs with
    | nil => rfl
    | cons g rest ih =>
        rw [List.flatMap_cons, List.length_append, ih, List.length_cons, groupOctets,
          Bytes.length_ofUInt16BE]
        omega
  rw [octets, h, x.length_groups]

@[simp] theorem ofOctets_octets (x : IPv6) : ofOctets x.octets x.length_octets = x := by
  rcases x with ⟨gs, h⟩
  simp only [ofOctets, octets, pairUp_flatMap]

end IPv6

namespace IpAddress

/-- The octets of an address. -/
def octets : IpAddress → Bytes
  | .v4 x => x.octets
  | .v6 x => x.octets

/-- Whether an address is an IPv4 address. -/
def isIPv4 : IpAddress → Bool
  | .v4 _ => true
  | .v6 _ => false

end IpAddress

/-! ### Writing -/

/-- The four octets in decimal, divided by dots. -/
def IPv4.chars (x : IPv4) : List Char :=
  Decimal.ofNat x.a.toNat ++ '.' :: Decimal.ofNat x.b.toNat ++ '.' ::
    Decimal.ofNat x.c.toNat ++ '.' :: Decimal.ofNat x.d.toNat

namespace IPv6

/-- A group in base sixteen, without leading zeros. -/
def groupChars (g : UInt16) : List Char :=
  let n := g.toNat
  if n < 0x10 then [Hex.digit n]
  else if n < 0x100 then [Hex.digit (n / 16), Hex.digit (n % 16)]
  else if n < 0x1000 then [Hex.digit (n / 256), Hex.digit (n / 16 % 16), Hex.digit (n % 16)]
  else
    [Hex.digit (n / 4096), Hex.digit (n / 256 % 16), Hex.digit (n / 16 % 16), Hex.digit (n % 16)]

/-- Groups divided by colons. -/
def groupsChars : List UInt16 → List Char
  | [] => []
  | [g] => groupChars g
  | g :: rest => groupChars g ++ ':' :: groupsChars rest

/-- How many zero groups stand in front. -/
def leadingZeros (gs : List UInt16) : Nat := (gs.takeWhile (· == 0)).length

/-- The start and the length of the first of the longest runs of zero groups in `gs`, the
first of which is number `index`. -/
def longestZeros (index : Nat) : List UInt16 → Nat × Nat
  | [] => (index, 0)
  | g :: rest =>
      let here := leadingZeros (g :: rest)
      let later := longestZeros (index + 1) rest
      if later.2 ≤ here then (index, here) else later

/-- The IPv4 address that a mapped address stands for. -/
def mapped? (x : IPv6) : Option IPv4 :=
  match x.groups with
  | [0, 0, 0, 0, 0, 0xFFFF, g, h] =>
      some ⟨(g >>> 8).toUInt8, g.toUInt8, (h >>> 8).toUInt8, h.toUInt8⟩
  | _ => none

/-- The text of an address: a mapped IPv4 address in dotted form behind its six leading
groups, otherwise the first of the longest runs of at least two zero groups shortened to a
double colon. -/
def chars (x : IPv6) : List Char :=
  match x.mapped? with
  | some y => [':', ':', 'f', 'f', 'f', 'f', ':'] ++ y.chars
  | none =>
      let run := longestZeros 0 x.groups
      if 1 < run.2 then
        groupsChars (x.groups.take run.1) ++ ':' :: ':' ::
          groupsChars (x.groups.drop (run.1 + run.2))
      else groupsChars x.groups

end IPv6

namespace IpAddress

/-- The text of an address. -/
def chars : IpAddress → List Char
  | .v4 x => x.chars
  | .v6 x => x.chars

/-- The text of an address, as a string. -/
def text (x : IpAddress) : String := String.ofList x.chars

end IpAddress

/-! ### Reading -/

namespace Address

/-- What grammars of address texts disagree on. -/
structure Grammar where
  /-- Octets may be written with leading zeros. -/
  leadingZeros : Bool
  /-- A double colon may stand for no group at all. -/
  emptyGap : Bool

/-- The grammar of endpoints: no leading zeros in octets, and a double colon stands for at
least one group. -/
def strict : Grammar where
  leadingZeros := false
  emptyGap := false

/-- The grammar of networks: octets may have leading zeros, and a double colon may stand
for no group. -/
def lenient : Grammar where
  leadingZeros := true
  emptyGap := true

/-- The value of a digit in a base up to sixteen. -/
def digitValue? (base : Nat) (c : Char) : Option Nat :=
  let n := c.toNat
  let v := if 48 ≤ n ∧ n ≤ 57 then n - 48
    else if 65 ≤ n ∧ n ≤ 70 then n - 55
    else if 97 ≤ n ∧ n ≤ 102 then n - 87
    else 16
  if v < base then some v else none

/-- The number that digits spell behind a number `n` read so far. -/
def digitsValue (base : Nat) (n : Nat) (digits : List Char) : Nat :=
  digits.foldl (fun n c => n * base + (digitValue? base c).getD 0) n

/-- What a number at the head of a text may look like. -/
structure NumberForm where
  /-- The base of its digits. -/
  base : Nat
  /-- The greatest number of digits, if there is one. -/
  maxDigits : Option Nat
  /-- The greatest value. -/
  limit : Nat
  /-- Whether more than one digit may begin with a zero. -/
  leadingZeros : Bool := true

/-- Reads the longest run of digits at the head of a text as a number of the form `f`. -/
def readNumber (f : NumberForm) (s : List Char) : Option (Nat × List Char) :=
  let isDigit := fun c => (digitValue? f.base c).isSome
  let digits := s.takeWhile isDigit
  let value := digitsValue f.base 0 digits
  if digits.isEmpty then none
  else if (f.maxDigits.any fun most => most < digits.length) then none
  else if f.leadingZeros = false ∧ digits.head? = some '0' ∧ 1 < digits.length then none
  else if f.limit < value then none
  else some (value, s.dropWhile isDigit)

/-- Takes the character `c` off the head of a text. -/
def expect (c : Char) : List Char → Option (List Char)
  | [] => none
  | x :: rest => if x = c then some rest else none

end Address

open Address

/-- Reads one octet of an address. -/
def IPv4.readOctet (g : Grammar) (s : List Char) : Option (UInt8 × List Char) :=
  let form : NumberForm := ⟨10, some 3, 255, g.leadingZeros⟩
  (readNumber form s).map fun r => (UInt8.ofNat r.1, r.2)

/-- Reads an address at the head of a text. -/
def IPv4.read (g : Grammar) (s : List Char) : Option (IPv4 × List Char) := do
  let (a, s) ← readOctet g s
  let (b, s) ← readOctet g (← expect '.' s)
  let (c, s) ← readOctet g (← expect '.' s)
  let (d, s) ← readOctet g (← expect '.' s)
  return (⟨a, b, c, d⟩, s)

namespace IPv6

/-- A run of groups at the head of a text. -/
structure Run where
  /-- The groups that were read. -/
  groups : List UInt16
  /-- Whether the last two of them were written as an IPv4 address. -/
  dotted : Bool
  /-- The text behind them. -/
  rest : List Char

/-- Reads one group. -/
def readGroup (s : List Char) : Option (UInt16 × List Char) :=
  let form : NumberForm := ⟨16, some 4, 65535, true⟩
  (readNumber form s).map fun r => (UInt16.ofNat r.1, r.2)

/-- Reads up to `most` groups, each but the first of the run behind a colon; an IPv4 address
in place of two groups ends the run. -/
def readGroups (g : Grammar) : (most : Nat) → (first : Bool) → List Char → Run
  | 0, _, s => ⟨[], false, s⟩
  | most + 1, first, s =>
      match if first then some s else expect ':' s with
      | none => ⟨[], false, s⟩
      | some body =>
          match if most = 0 then none else IPv4.read g body with
          | some (x, rest) =>
              ⟨[Bytes.toUInt16BE [x.a, x.b], Bytes.toUInt16BE [x.c, x.d]], true, rest⟩
          | none =>
              match readGroup body with
              | none => ⟨[], false, s⟩
              | some (group, rest) =>
                  let run := readGroups g most false rest
                  ⟨group :: run.groups, run.dotted, run.rest⟩

/-- The address of eight groups. -/
def ofGroups? (gs : List UInt16) : Option IPv6 :=
  if h : gs.length = 8 then some ⟨gs, h⟩ else none

/-- Reads an address at the head of a text: eight groups, or fewer on both sides of a double
colon, which stands for the zero groups that are missing. -/
def read (g : Grammar) (s : List Char) : Option (IPv6 × List Char) := do
  let front := readGroups g 8 true s
  let count := front.groups.length
  if count = 8 then return (← ofGroups? front.groups, front.rest)
  if front.dotted then none
  let gap ← expect ':' (← expect ':' front.rest)
  let back := readGroups g (8 - count - (if g.emptyGap then 0 else 1)) true gap
  let zeros := List.replicate (8 - count - back.groups.length) 0
  return (← ofGroups? (front.groups ++ zeros ++ back.groups), back.rest)

/-- Reads a text that is an address and nothing more. -/
def read? (g : Grammar) (s : List Char) : Option IPv6 :=
  match read g s with
  | some (x, []) => some x
  | _ => none

end IPv6

end WireGuardControl
