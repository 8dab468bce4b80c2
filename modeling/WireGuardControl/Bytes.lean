/-!
Octet strings and the fixed-width numbers written in them.

* `Bytes.ofNatLE` / `Bytes.toNatLE`: a number as a run of octets, least
  significant first; `toNatLE_ofNatLE` and `ofNatLE_toNatLE` make the two inverse
  on numbers below the `Bytes.capacity` of the width. `ofNatBE` / `toNatBE` are the
  same runs read from the other end.
* `Bytes.padding` and `Bytes.padded`: the zero octets that carry a length to the
  next multiple of four, `length_padded_mod` being the reason for them.
* `Bytes.field`: the octets of a record between two offsets; `Block n` is a record
  of exactly `n` octets, so that a field inside it never falls short
  (`Block.length_field`).

The kernel has the words of its messages and records in the order of the machine, which is assumed
to put the least significant octet first. Only numbers of the network, such as ports, have the other
order on every machine.
-/

namespace WireGuardControl

/-- A run of octets. -/
abbrev Bytes := List UInt8

namespace Bytes

/-! ### Numbers as octets -/

/-- How many numbers have room in `width` octets. -/
def capacity : (width : Nat) → Nat
  | 0 => 1
  | width + 1 => 256 * capacity width

/-- The `width` low octets of `n`, least significant first. -/
def ofNatLE : (width : Nat) → (n : Nat) → Bytes
  | 0, _ => []
  | width + 1, n => UInt8.ofNat n :: ofNatLE width (n / 256)

/-- The number whose octets, least significant first, are `b`. -/
def toNatLE : Bytes → Nat
  | [] => 0
  | x :: rest => x.toNat + 256 * toNatLE rest

/-- The `width` low octets of `n`, most significant first. -/
def ofNatBE (width n : Nat) : Bytes := (ofNatLE width n).reverse

/-- The number whose octets, most significant first, are `b`. -/
def toNatBE (b : Bytes) : Nat := toNatLE b.reverse

@[simp] theorem length_ofNatLE (width n : Nat) : (ofNatLE width n).length = width := by
  induction width generalizing n with
  | zero => rfl
  | succ w ih => simp [ofNatLE, ih]

@[simp] theorem length_ofNatBE (width n : Nat) : (ofNatBE width n).length = width := by
  simp [ofNatBE]

/-- Writing and reading back keeps what fits into the width. -/
theorem toNatLE_ofNatLE (width n : Nat) : toNatLE (ofNatLE width n) = n % capacity width := by
  induction width generalizing n with
  | zero => rw [ofNatLE, toNatLE, capacity, Nat.mod_one]
  | succ w ih =>
      have h : (UInt8.ofNat n).toNat = n % 256 := by simp
      rw [ofNatLE, toNatLE, ih, h, capacity, Nat.mod_mul]

/-- A run of octets is the written form of the number it spells. -/
theorem ofNatLE_toNatLE (b : Bytes) : ofNatLE b.length (toNatLE b) = b := by
  induction b with
  | nil => rfl
  | cons x rest ih =>
      have hx : x.toNat < 256 := x.toNat_lt
      have h1 : UInt8.ofNat (x.toNat + 256 * toNatLE rest) = x := by
        apply UInt8.toNat_inj.mp
        simp only [UInt8.toNat_ofNat']
        omega
      have h2 : (x.toNat + 256 * toNatLE rest) / 256 = toNatLE rest := by omega
      rw [toNatLE, List.length_cons, ofNatLE, h1, h2, ih]

theorem toNatLE_lt (b : Bytes) : toNatLE b < capacity b.length := by
  induction b with
  | nil => exact Nat.one_pos
  | cons x rest ih =>
      have hx : x.toNat < 256 := x.toNat_lt
      rw [toNatLE, List.length_cons, capacity]
      omega

theorem toNatBE_ofNatBE (width n : Nat) : toNatBE (ofNatBE width n) = n % capacity width := by
  simp [toNatBE, ofNatBE, toNatLE_ofNatLE]

theorem ofNatBE_toNatBE (b : Bytes) : ofNatBE b.length (toNatBE b) = b := by
  have h := ofNatLE_toNatLE b.reverse
  rw [List.length_reverse] at h
  rw [ofNatBE, toNatBE, h, List.reverse_reverse]

/-! ### Words -/

/-- Two octets, least significant first. -/
def ofUInt16LE (x : UInt16) : Bytes := ofNatLE 2 x.toNat

/-- Two octets, most significant first. -/
def ofUInt16BE (x : UInt16) : Bytes := ofNatBE 2 x.toNat

/-- Four octets, least significant first. -/
def ofUInt32LE (x : UInt32) : Bytes := ofNatLE 4 x.toNat

/-- Four octets, most significant first. -/
def ofUInt32BE (x : UInt32) : Bytes := ofNatBE 4 x.toNat

/-- Eight octets, least significant first. -/
def ofUInt64LE (x : UInt64) : Bytes := ofNatLE 8 x.toNat

@[simp] theorem length_ofUInt16LE (x : UInt16) : (ofUInt16LE x).length = 2 := by simp [ofUInt16LE]
@[simp] theorem length_ofUInt16BE (x : UInt16) : (ofUInt16BE x).length = 2 := by simp [ofUInt16BE]
@[simp] theorem length_ofUInt32LE (x : UInt32) : (ofUInt32LE x).length = 4 := by simp [ofUInt32LE]
@[simp] theorem length_ofUInt32BE (x : UInt32) : (ofUInt32BE x).length = 4 := by simp [ofUInt32BE]
@[simp] theorem length_ofUInt64LE (x : UInt64) : (ofUInt64LE x).length = 8 := by simp [ofUInt64LE]

/-- The word that two octets, least significant first, spell. -/
def toUInt16LE (b : Bytes) : UInt16 := UInt16.ofNat (toNatLE b)

/-- The word that two octets, most significant first, spell. -/
def toUInt16BE (b : Bytes) : UInt16 := UInt16.ofNat (toNatBE b)

/-- The word that four octets, least significant first, spell. -/
def toUInt32LE (b : Bytes) : UInt32 := UInt32.ofNat (toNatLE b)

/-- The word that four octets, most significant first, spell. -/
def toUInt32BE (b : Bytes) : UInt32 := UInt32.ofNat (toNatBE b)

/-- The word that eight octets, least significant first, spell. -/
def toUInt64LE (b : Bytes) : UInt64 := UInt64.ofNat (toNatLE b)

/-- The signed word of four octets in two's complement. -/
def toInt32LE (b : Bytes) : Int32 := (toUInt32LE b).toInt32

/-- The signed word of eight octets in two's complement. -/
def toInt64LE (b : Bytes) : Int64 := (toUInt64LE b).toInt64

@[simp] theorem toUInt16LE_ofUInt16LE (x : UInt16) : toUInt16LE (ofUInt16LE x) = x := by
  have := x.toNat_lt
  apply UInt16.toNat_inj.mp
  simp [toUInt16LE, ofUInt16LE, toNatLE_ofNatLE, capacity]

@[simp] theorem toUInt16BE_ofUInt16BE (x : UInt16) : toUInt16BE (ofUInt16BE x) = x := by
  have := x.toNat_lt
  apply UInt16.toNat_inj.mp
  simp [toUInt16BE, ofUInt16BE, toNatBE_ofNatBE, capacity]

@[simp] theorem toUInt32LE_ofUInt32LE (x : UInt32) : toUInt32LE (ofUInt32LE x) = x := by
  have := x.toNat_lt
  apply UInt32.toNat_inj.mp
  simp [toUInt32LE, ofUInt32LE, toNatLE_ofNatLE, capacity]

@[simp] theorem toUInt32BE_ofUInt32BE (x : UInt32) : toUInt32BE (ofUInt32BE x) = x := by
  have := x.toNat_lt
  apply UInt32.toNat_inj.mp
  simp [toUInt32BE, ofUInt32BE, toNatBE_ofNatBE, capacity]

@[simp] theorem toUInt64LE_ofUInt64LE (x : UInt64) : toUInt64LE (ofUInt64LE x) = x := by
  have := x.toNat_lt
  apply UInt64.toNat_inj.mp
  simp [toUInt64LE, ofUInt64LE, toNatLE_ofNatLE, capacity]

/-! ### Alignment -/

/-- How many octets carry the length `n` to the next multiple of four. -/
def padding (n : Nat) : Nat := (4 - n % 4) % 4

/-- The least multiple of four that is not below `n`. -/
def aligned (n : Nat) : Nat := n + padding n

/-- A run of octets carried to the next multiple of four by zero octets. -/
def padded (b : Bytes) : Bytes := b ++ List.replicate (padding b.length) 0

@[simp] theorem length_padded (b : Bytes) : (padded b).length = aligned b.length := by
  simp [padded, aligned]

theorem aligned_mod (n : Nat) : aligned n % 4 = 0 := by
  unfold aligned padding; omega

theorem length_padded_mod (b : Bytes) : (padded b).length % 4 = 0 := by
  rw [length_padded, aligned_mod]

/-! ### Fields of records -/

/-- The `width` octets of `b` from the offset `start` on. -/
def field (b : Bytes) (start width : Nat) : Bytes := (b.drop start).take width

theorem length_field (b : Bytes) (start width : Nat) (h : start + width ≤ b.length) :
    (field b start width).length = width := by
  simp only [field, List.length_take, List.length_drop]
  omega

/-- The octets before the first zero octet. -/
def untilNul (b : Bytes) : Bytes := b.takeWhile (· != 0)

end Bytes

/-- A record of exactly `n` octets. -/
structure Block (n : Nat) where
  /-- The octets of the record. -/
  bytes : Bytes
  /-- The record has its full length. -/
  length_bytes : bytes.length = n
  deriving DecidableEq

namespace Block

variable {n : Nat}

/-- The field of `width` octets from the offset `start` on. -/
def field (b : Block n) (start width : Nat) : Bytes := b.bytes.field start width

theorem length_field (b : Block n) (start width : Nat) (h : start + width ≤ n) :
    (b.field start width).length = width :=
  Bytes.length_field b.bytes start width (by rw [b.length_bytes]; exact h)

/-- The first `n` octets of a long enough run, and what follows them. -/
def split? (n : Nat) (b : Bytes) : Option (Block n × Bytes) :=
  if h : (b.take n).length = n then some (⟨b.take n, h⟩, b.drop n) else none

end Block

end WireGuardControl
