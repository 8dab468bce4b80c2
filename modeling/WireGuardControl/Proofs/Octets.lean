import Mathlib.Tactic
import WireGuardControl.Key
import WireGuardControl.Net.Network
/-!
What octets determine.

* `Bytes.ofUInt16LE_injective` and its like: octets that are read back are octets of one number.
  `Bytes.ofUInt16LE_toUInt16LE` and its like: they are the octets of the number that is read.
* `Bytes.field_append` and its like: a field of octets that are put together.
* `IPv4.ofOctets_of_eq`, `IPv6.ofOctets_of_eq`: an address is read from octets that are its own, and
  `IPv4.octets_injective`, `IPv6.octets_injective`: it is the only one that has them.
* `Network.bits_le`: the leading bits of a network are a number of eight bits.
-/

namespace WireGuardControl

/-! ### Numbers -/

namespace Bytes

lemma ofUInt16LE_injective : Function.Injective ofUInt16LE :=
  Function.LeftInverse.injective toUInt16LE_ofUInt16LE

lemma ofUInt16BE_injective : Function.Injective ofUInt16BE :=
  Function.LeftInverse.injective toUInt16BE_ofUInt16BE

lemma ofUInt32LE_injective : Function.Injective ofUInt32LE :=
  Function.LeftInverse.injective toUInt32LE_ofUInt32LE

lemma ofNatLE_toNatLE_of_length {b : Bytes} {width : ℕ} (h : b.length = width) :
    ofNatLE width (toNatLE b) = b := by
  rw [← h, ofNatLE_toNatLE]

lemma ofUInt16LE_toUInt16LE {b : Bytes} (h : b.length = 2) : ofUInt16LE (toUInt16LE b) = b := by
  have hlt : toNatLE b < UInt16.size := (toNatLE_lt b).trans_eq (by rw [h]; rfl)
  rw [ofUInt16LE, toUInt16LE, UInt16.toNat_ofNat_of_lt' hlt, ofNatLE_toNatLE_of_length h]

lemma ofUInt32LE_toUInt32LE {b : Bytes} (h : b.length = 4) : ofUInt32LE (toUInt32LE b) = b := by
  have hlt : toNatLE b < UInt32.size := (toNatLE_lt b).trans_eq (by rw [h]; rfl)
  rw [ofUInt32LE, toUInt32LE, UInt32.toNat_ofNat_of_lt' hlt, ofNatLE_toNatLE_of_length h]

/-! ### Fields -/

lemma field_append {front m rest : Bytes} {start width : ℕ} (hfront : front.length = start)
    (hm : m.length = width) : (front ++ (m ++ rest)).field start width = m := by
  rw [field, ← hfront, ← hm, List.drop_left, List.take_left]

lemma field_append_left {x : Bytes} {start width : ℕ} (h : start + width ≤ x.length) (y : Bytes) :
    (x ++ y).field start width = x.field start width := by
  rw [field, field, List.drop_append_of_le_length (by omega),
    List.take_append_of_le_length (by rw [List.length_drop]; omega)]

/-- The octets at the offset of a field are the field. -/
lemma field_flatten {fields : List Bytes} (i : ℕ) {x : Bytes} {offset width : ℕ}
    (hx : fields[i]? = some x) (hwidth : x.length = width)
    (hoffset : ((fields.take i).map List.length).sum = offset) :
    field fields.flatten offset width = x := by
  obtain ⟨hi, rfl⟩ := List.getElem?_eq_some_iff.mp hx
  have hfields : fields.flatten =
      (fields.take i).flatten ++ (fields[i] ++ (fields.drop (i + 1)).flatten) := by
    rw [← List.flatten_cons, ← List.flatten_append, List.getElem_cons_drop, List.take_append_drop]
  rw [hfields]
  exact field_append (by rw [List.length_flatten, hoffset]) hwidth

lemma field_field (b : Bytes) {start width i w : ℕ} (h : i + w ≤ width) :
    (b.field start width).field i w = b.field (start + i) w := by
  rw [field, field, field, List.drop_take, List.take_take, List.drop_drop,
    min_eq_left (by omega)]

/-- A field and the field behind it. -/
lemma field_append_field (b : Bytes) (start m n : ℕ) :
    b.field start m ++ b.field (start + m) n = b.field start (m + n) := by
  rw [field, field, field, List.take_add, List.drop_drop]

/-- A field and all that is behind it. -/
lemma field_append_drop (b : Bytes) (start width : ℕ) :
    b.field start width ++ b.drop (start + width) = b.drop start := by
  rw [field, ← List.drop_drop, List.take_append_drop]

lemma field_zero (b : Bytes) (width : ℕ) : b.field 0 width = b.take width := rfl

end Bytes

lemma Key.bytes_injective : Function.Injective Key.bytes := by
  rintro ⟨b, hb⟩ ⟨b', hb'⟩ h
  cases h
  rfl

/-! ### Addresses -/

lemma IPv4.ofOctets_of_eq {x : IPv4} {b : Bytes} (hb : b = x.octets) (h : b.length = 4) :
    IPv4.ofOctets b h = x := by
  subst hb
  exact x.ofOctets_octets

lemma IPv6.ofOctets_of_eq {x : IPv6} {b : Bytes} (hb : b = x.octets) (h : b.length = 16) :
    IPv6.ofOctets b h = x := by
  subst hb
  exact x.ofOctets_octets

lemma IPv4.octets_injective : Function.Injective IPv4.octets := by
  intro x y h
  rw [← x.ofOctets_octets]
  exact IPv4.ofOctets_of_eq h x.length_octets

lemma IPv6.octets_injective : Function.Injective IPv6.octets := by
  intro x y h
  rw [← x.ofOctets_octets]
  exact IPv6.ofOctets_of_eq h x.length_octets

/-! ### Networks -/

lemma Network.bits_le (n : Network) : n.bits ≤ 128 := by
  cases n with
  | v4 x bits => exact Nat.le_trans (Nat.lt_succ_iff.mp bits.isLt) (by decide)
  | v6 x bits => exact Nat.lt_succ_iff.mp bits.isLt

end WireGuardControl
