import Mathlib.Tactic
import WireGuardControl.Net.Network
import WireGuardControl.Proofs.Net.Address
/-!
Networks read back from their text.

* `readV4_chars`, `readV6_chars`: the networks of either family.
* `read?_chars`: a network reads back with all bits of its address.
* `mem_chars`: the characters of a network.
-/

namespace WireGuardControl.Network

open Text Address

lemma endsAddress_slash (s : List Char) : IPv6.EndsAddress ('/' :: s) :=
  ⟨⟨.cons (by decide) s, by simp⟩, by simp⟩

/-- The number of bits behind an address reads back. -/
lemma readNumber_bits {width bits : ℕ} (k : ℕ) (hbits : bits ≤ width)
    (hwidth : width < 10 ^ (k + 1)) :
    readNumber ⟨10, some (k + 1), width, true⟩ (Decimal.ofNat bits) = some (bits, []) := by
  have hlen : ∀ m, some (k + 1) = some m → (Decimal.ofNat bits).length ≤ m := by
    intro m hm
    rw [← Option.some.inj hm]
    exact Decimal.length_ofNat_le k (by omega)
  have hread := readNumber_ofNat true hbits hlen (stops_nil 10)
  rwa [List.append_nil] at hread

lemma readV4_chars (x : IPv4) (bits : Fin 33) :
    readV4 (chars (.v4 x bits)) = some (.v4 x bits, []) := by
  have hnumber := readNumber_bits 1 (Nat.lt_succ_iff.mp bits.isLt) (by decide)
  have hends := endsAddress_slash (Decimal.ofNat bits.val)
  have haddress := IPv4.read_chars lenient x (IPv6.stops_ten hends.stops)
  have hnetwork := ofAddress?_address (.v4 x bits)
  rw [readV4]
  change (IPv4.read lenient (x.chars ++ '/' :: Decimal.ofNat bits.val)).bind _ = _
  rw [haddress]
  simp only [Option.bind_eq_bind, Option.bind_some, expect, if_true, hnumber]
  change (ofAddress? (address (.v4 x bits)) (Network.bits (.v4 x bits))).bind _ = _
  rw [hnetwork]
  rfl

lemma readV6_chars (x : IPv6) (bits : Fin 129) :
    readV6 (chars (.v6 x bits)) = some (.v6 x bits, []) := by
  have hnumber := readNumber_bits 2 (Nat.lt_succ_iff.mp bits.isLt) (by decide)
  have haddress := IPv6.read_chars lenient x (endsAddress_slash (Decimal.ofNat bits.val))
  have hnetwork := ofAddress?_address (.v6 x bits)
  rw [readV6]
  change (IPv6.read lenient (x.chars ++ '/' :: Decimal.ofNat bits.val)).bind _ = _
  rw [haddress]
  simp only [Option.bind_eq_bind, Option.bind_some, expect, if_true, hnumber]
  change (ofAddress? (address (.v6 x bits)) (Network.bits (.v6 x bits))).bind _ = _
  rw [hnetwork]
  rfl

/-- The text of an IPv6 network is no IPv4 network. -/
lemma readV4_chars_v6 (x : IPv6) (bits : Fin 129) : readV4 (chars (.v6 x bits)) = none := by
  have haddress := IPv6.readV4_chars lenient x
    (endsAddress_slash (Decimal.ofNat bits.val)).toEndsGroup
  rw [readV4]
  change (IPv4.read lenient (x.chars ++ '/' :: Decimal.ofNat bits.val)).bind _ = _
  rw [haddress]
  rfl

/-- **A network reads back** with all bits of its address. -/
theorem read?_chars (n : Network) : read? n.chars = some n := by
  cases n with
  | v4 x bits => rw [read?, readV4_chars]; rfl
  | v6 x bits => rw [read?, readV4_chars_v6, readV6_chars]; rfl

/-- The text of a network consists of digits and of the marks between its parts. -/
lemma mem_chars {n : Network} {c : Char} (h : c ∈ n.chars) :
    (∃ d < 16, c = Hex.digit d) ∨ c ∈ [':', '.', '/'] := by
  rw [chars, List.mem_append, List.mem_cons] at h
  rcases h with h | h | h
  · rcases IpAddress.mem_chars h with hd | rfl | rfl
    · exact .inl hd
    · exact .inr (by simp)
    · exact .inr (by simp)
  · exact .inr (by simp [h])
  · exact .inl (Hex.mem_ofNat h)

end WireGuardControl.Network
