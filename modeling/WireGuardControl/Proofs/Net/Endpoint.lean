import Mathlib.Data.List.TakeWhile
import Mathlib.Tactic
import WireGuardControl.Net.Endpoint
import WireGuardControl.Proofs.Net.Local
/-!
Endpoints and the texts that they are read from.

* `Spelled`: digits that a form of numbers admits. They are what is read off the head of a text
  (`exists_of_readNumber`), and they are read as a whole (`Decimal.read_of_spelled`).
* `readPort_ofNat`, `readScope_zone`: the parts behind the address.
* `read?_chars`: an endpoint reads back but for its flow information.
* `mem_chars`: the characters of an endpoint.
* `exists_of_readV6`: what is read as an endpoint in brackets is an address, perhaps a scope, and a
  port.
-/

namespace WireGuardControl

open Text Address

/-! ### Numbers -/

namespace Address

/-- Digits of a number that a form admits. -/
structure Spelled (f : NumberForm) (digits : List Char) (n : ℕ) : Prop where
  ne_nil : digits ≠ []
  isDigit : ∀ c ∈ digits, (digitValue? f.base c).isSome
  value : digitsValue f.base 0 digits = n
  le : n ≤ f.limit

/-- A number is read off the digits in front of what follows. -/
lemma exists_of_readNumber {f : NumberForm} {s rest : List Char} {n : ℕ}
    (h : readNumber f s = some (n, rest)) : ∃ digits, s = digits ++ rest ∧ Spelled f digits n := by
  have hrest := rest_of_readNumber h
  simp only [readNumber] at h
  split_ifs at h with hempty hlong hzero hlimit
  obtain ⟨hvalue, -⟩ := Prod.mk.inj (Option.some.inj h)
  refine ⟨s.takeWhile fun c => (digitValue? f.base c).isSome, ?_, ?_, ?_, hvalue, ?_⟩
  · rw [hrest, List.takeWhile_append_dropWhile]
  · simpa using hempty
  · intro c hc
    exact List.mem_takeWhile_imp (p := fun c => (digitValue? f.base c).isSome) hc
  · rw [← hvalue]
    exact not_lt.mp hlimit

lemma digitValue?_ten (c : Char) : digitValue? 10 c = Decimal.value? c := by
  simp only [digitValue?, Decimal.value?]
  split_ifs <;> first | rfl | omega

lemma le_digitsValue (n : ℕ) (digits : List Char) : n ≤ digitsValue 10 n digits := by
  induction digits generalizing n with
  | nil => exact le_rfl
  | cons c digits ih =>
      rw [digitsValue, List.foldl_cons]
      calc n ≤ n * 10 + (digitValue? 10 c).getD 0 := by omega
        _ ≤ digitsValue 10 (n * 10 + (digitValue? 10 c).getD 0) digits := ih _

end Address

namespace Text.Decimal

/-- Digits are read as the number that they spell, also behind others and with zeros in front. -/
lemma readDigits_of_digits {limit : ℕ} (excess : Fault) {n : ℕ} {digits : List Char}
    (hdigits : ∀ c ∈ digits, (digitValue? 10 c).isSome) (h : digitsValue 10 n digits ≤ limit) :
    readDigits limit excess n digits = .ok (digitsValue 10 n digits) := by
  induction digits generalizing n with
  | nil => rfl
  | cons c digits ih =>
      obtain ⟨hc, hdigits⟩ := List.forall_mem_cons.mp hdigits
      obtain ⟨d, hd⟩ := Option.isSome_iff_exists.mp hc
      have hvalue : digitsValue 10 n (c :: digits) = digitsValue 10 (10 * n + d) digits := by
        rw [digitsValue, List.foldl_cons, hd, Option.getD_some, Nat.mul_comm n 10, digitsValue]
      rw [hvalue] at h ⊢
      have hle := le_digitsValue (10 * n + d) digits
      rw [digitValue?_ten] at hd
      rw [readDigits, hd]
      simp only
      rw [if_neg (by omega), ih hdigits h]

/-- **Digits of a number in base ten are read as this number** by every range that holds it. -/
lemma read_of_spelled {r : Range} {most : Option ℕ} {leading : Bool} {digits : List Char} {n : ℕ}
    (h : Spelled ⟨10, most, r.above, leading⟩ digits n) : read r digits = .ok n := by
  obtain ⟨c, s, rfl⟩ := List.exists_cons_of_ne_nil h.ne_nil
  have hdigits : ∀ x ∈ c :: s, (digitValue? 10 x).isSome := h.isDigit
  have hvalue : digitsValue 10 0 (c :: s) = n := h.value
  have hc := hdigits c List.mem_cons_self
  have hplus : c ≠ '+' := by
    rintro rfl
    exact absurd hc (by decide)
  have hminus : c ≠ '-' := by
    rintro rfl
    exact absurd hc (by decide)
  rw [read_of_not_sign r hplus hminus,
    readDigits_of_digits .tooLarge hdigits (hvalue.trans_le h.le), hvalue]
  rfl

end Text.Decimal

namespace Endpoint

/-! ### Endpoints that are written -/

/-- The scope of an IPv6 endpoint behind its address, if it is not zero. -/
def zone (scope : UInt32) : List Char :=
  if scope = 0 then [] else '%' :: Decimal.ofNat scope.toNat

lemma chars_v6 (x : IPv6) (port : UInt16) (flow scope : UInt32) :
    chars (.v6 x port flow scope) =
      '[' :: (x.chars ++ zone scope ++ ']' :: ':' :: Decimal.ofNat port.toNat) := rfl

/-- A port reads back. -/
lemma readPort_ofNat (port : UInt16) : readPort (Decimal.ofNat port.toNat) = some (port, []) := by
  have hlimit : port.toNat ≤ 65535 := Nat.lt_succ_iff.mp port.toNat_lt
  have hread := @readNumber_ofNat none _ _ true [] hlimit (by simp) (stops_nil 10)
  rw [List.append_nil] at hread
  rw [readPort]
  simp only [hread, Option.map_some, UInt16.ofNat_toNat]

/-- A scope reads back, also a zero one, which has no text. -/
lemma readScope_zone (scope : UInt32) (rest : List Char) :
    readScope (zone scope ++ ']' :: rest) = (scope, ']' :: rest) := by
  rw [zone]
  split_ifs with hzero
  · rw [hzero]
    rfl
  · have hlimit : scope.toNat ≤ 4294967295 := Nat.lt_succ_iff.mp scope.toNat_lt
    have hread := @readNumber_ofNat none _ _ true (']' :: rest) hlimit (by simp)
      (.cons (by decide) rest)
    rw [List.cons_append, readScope, expect, if_pos rfl, Option.bind_some]
    simp only [hread, UInt32.ofNat_toNat]

/-- The marks behind an address. -/
lemma endsAddress_mark {mark : Char} (h : mark = ']' ∨ mark = '%') (rest : List Char) :
    IPv6.EndsAddress (mark :: rest) := by
  rcases h with rfl | rfl
  · exact ⟨⟨.cons (by decide) rest, by simp⟩, by simp⟩
  · exact ⟨⟨.cons (by decide) rest, by simp⟩, by simp⟩

lemma endsAddress_zone (scope : UInt32) (rest : List Char) :
    IPv6.EndsAddress (zone scope ++ ']' :: rest) := by
  rw [zone]
  split_ifs
  · exact endsAddress_mark (.inl rfl) rest
  · exact endsAddress_mark (.inr rfl) _

/-- A text in brackets is no IPv4 endpoint. -/
lemma readV4_bracket (s : List Char) : readV4 ('[' :: s) = none := by
  have hoctet : IPv4.readOctet strict ('[' :: s) = none := by
    rw [IPv4.readOctet, readNumber_of_stops (.cons (by decide) s)]
    rfl
  rw [readV4, IPv4.read, hoctet]
  rfl

/-- **An endpoint reads back** but for its flow information. -/
theorem read?_chars (e : Endpoint) : read? e.chars = some e.withoutFlow := by
  cases e with
  | v4 x port =>
      have haddress := IPv4.read_chars strict x
        (.cons (by decide) (Decimal.ofNat port.toNat) : Stops 10 (':' :: Decimal.ofNat port.toNat))
      have hport := readPort_ofNat port
      rw [read?, chars, readV4, haddress]
      simp only [Option.bind_eq_bind, Option.bind_some, expect, if_true, hport]
      rfl
  | v6 x port flow scope =>
      have haddress := IPv6.read_chars strict x
        (endsAddress_zone scope (':' :: Decimal.ofNat port.toNat))
      have hscope := readScope_zone scope (':' :: Decimal.ofNat port.toNat)
      have hport := readPort_ofNat port
      rw [read?, chars_v6, readV4_bracket, List.append_assoc, readV6]
      simp only [Option.bind_eq_bind, Option.bind_some, Option.orElse_none, expect, if_true,
        haddress, hscope, hport]
      rfl

/-- The text of an endpoint consists of digits and of the marks between its parts. -/
lemma mem_chars {e : Endpoint} {c : Char} (h : c ∈ e.chars) :
    (∃ d < 16, c = Hex.digit d) ∨ c ∈ [':', '.', '[', '%', ']'] := by
  have haddress : ∀ {x : IpAddress}, c ∈ x.chars →
      (∃ d < 16, c = Hex.digit d) ∨ c ∈ [':', '.', '[', '%', ']'] := by
    intro x hc
    rcases IpAddress.mem_chars hc with hd | rfl | rfl
    · exact .inl hd
    · exact .inr (by simp)
    · exact .inr (by simp)
  cases e with
  | v4 x port =>
      rw [chars, List.mem_append, List.mem_cons] at h
      rcases h with h | h | h
      · exact @haddress (.v4 x) h
      · exact .inr (by simp [h])
      · exact .inl (Hex.mem_ofNat h)
  | v6 x port flow scope =>
      rw [chars_v6, zone] at h
      simp only [List.mem_cons, List.mem_append] at h
      rcases h with h | (h | h) | h | h | h
      · exact .inr (by simp [h])
      · exact @haddress (.v6 x) h
      · split_ifs at h
        · cases h
        · rcases List.mem_cons.mp h with h | h
          · exact .inr (by simp [h])
          · exact .inl (Hex.mem_ofNat h)
      · exact .inr (by simp [h])
      · exact .inr (by simp [h])
      · exact .inl (Hex.mem_ofNat h)

/-! ### Endpoints that are read -/

/-- What is read to the end as a port is a port. -/
lemma readUInt16_of_readPort {s : List Char} {p : UInt16} (h : readPort s = some (p, [])) :
    Decimal.readUInt16 s = .ok p := by
  obtain ⟨⟨n, rest⟩, hread, hp⟩ := Option.map_eq_some_iff.mp h
  obtain ⟨rfl, rfl⟩ := Prod.mk.inj hp
  obtain ⟨digits, rfl, hspelled⟩ := exists_of_readNumber hread
  have hdigits := Decimal.read_of_spelled (r := .u16) hspelled
  rw [List.append_nil, Decimal.readUInt16, hdigits]
  rfl

/-- A scope is none, or a number behind its mark. -/
lemma exists_of_readScope {s rest : List Char} {scope : UInt32} (h : readScope s = (scope, rest)) :
    s = rest ∧ scope = 0 ∨ ∃ digits, s = '%' :: digits ++ rest ∧
      Decimal.readUInt32 digits = .ok scope ∧ ∀ c ∈ digits, (digitValue? 10 c).isSome := by
  rw [readScope] at h
  cases hnumber : (expect '%' s).bind (readNumber ⟨10, none, 4294967295, true⟩) with
  | none =>
      simp only [hnumber] at h
      obtain ⟨hscope, hrest⟩ := Prod.mk.inj h
      exact .inl ⟨hrest, hscope.symm⟩
  | some r =>
      obtain ⟨n, rest'⟩ := r
      simp only [hnumber] at h
      obtain ⟨rfl, rfl⟩ := Prod.mk.inj h
      obtain ⟨t, hmark, hread⟩ := Option.bind_eq_some_iff.mp hnumber
      obtain rfl := expect_eq_some_iff.mp hmark
      obtain ⟨digits, rfl, hspelled⟩ := exists_of_readNumber hread
      have hdigits := Decimal.read_of_spelled (r := .u32) hspelled
      refine .inr ⟨digits, rfl, ?_, hspelled.isDigit⟩
      rw [Decimal.readUInt32, hdigits]
      rfl

/-- **An endpoint in brackets** is an address, perhaps a scope, and a port. -/
lemma exists_of_readV6 {s : List Char} {e : Endpoint} (h : readV6 s = some (e, [])) :
    ∃ address x behind scope port p, s = '[' :: (address ++ behind) ∧
      (IPv6.read? strict address = some x ∧ ']' ∉ address ∧ '%' ∉ address) ∧
      readScope behind = (scope, ']' :: ':' :: port) ∧ readPort port = some (p, []) ∧
      e = .v6 x p 0 scope := by
  simp only [readV6, Option.bind_eq_bind, Option.bind_eq_some_iff, expect_eq_some_iff] at h
  obtain ⟨t, rfl, ⟨x, behind⟩, haddress, h⟩ := h
  obtain ⟨_, hbehind, port, rfl, ⟨p, rest⟩, hport, h⟩ := h
  obtain ⟨rfl, rfl⟩ := Prod.mk.inj (Option.some.inj h)
  have hscope : readScope behind = ((readScope behind).1, ']' :: ':' :: port) :=
    Prod.ext rfl hbehind
  have hends : IPv6.EndsAddress behind := by
    rcases exists_of_readScope hscope with ⟨h, -⟩ | ⟨digits, h, -⟩
    · rw [h]
      exact endsAddress_mark (.inl rfl) _
    · rw [h]
      exact endsAddress_mark (.inr rfl) _
  obtain ⟨address, rfl, hread, hmark⟩ := IPv6.exists_of_read haddress hends
  exact ⟨address, x, behind, _, port, p, rfl, ⟨hread, hmark _ (endsAddress_mark (.inl rfl)),
    hmark _ (endsAddress_mark (.inr rfl))⟩, hscope, hport, rfl⟩

lemma readV6_of_read? {s : List Char} {e : Endpoint} (h : read? ('[' :: s) = some e) :
    readV6 ('[' :: s) = some (e, []) := by
  rw [read?, readV4_bracket, Option.orElse_none] at h
  split at h
  · next e' heq =>
      rw [heq, Option.some.inj h]
  · cases h

end Endpoint

end WireGuardControl
