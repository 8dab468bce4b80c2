import Mathlib.Tactic
import WireGuardControl.Proofs.Net.Endpoint
import WireGuardControl.Proofs.Text.Lines
import WireGuardControl.Uapi.Response
/-!
The texts of endpoints, as responses are read and as the grammar of endpoints has them.

* `bracketed?_zone`, `bracketed?_plain`: a text in brackets is read part by part.
* `readEndpoint_of_read?`: what the grammar of endpoints accepts is read as the same endpoint.
  `readEndpoint_chars`: so an endpoint reads back but for its flow information.
* `endpoint_texts`: both, and that a zone which is no number is passed over.
-/

namespace WireGuardControl.Uapi

open Text Lines Address

/-! ### Parts -/

/-- An endpoint of its parts; a zone that is no number counts as zero. -/
def ofParts? (address zone port : List Char) : Option Endpoint :=
  (IPv6.read? strict address).bind fun x => (Decimal.readUInt16 port).toOption.map fun p =>
    .v6 x p 0 ((Decimal.readUInt32 zone).toOption.getD 0)

section Bracketed

variable {address zone : List Char}

/-- A text in brackets without a zone is read part by part. -/
lemma bracketed?_plain (hmark : '%' ∉ address) (h : ¬ [']', ':'] <:+: address) (port : List Char) :
    bracketed? (address ++ ']' :: ':' :: port) = ofParts? address [] port := by
  rw [bracketed?, cut_pair (by decide) h]
  simp only [Option.bind_eq_bind, Option.bind_some, cut_of_notMem [] hmark, Option.getD_none,
    ofParts?, Option.map_eq_bind]
  rfl

/-- A text in brackets with a zone is read part by part. -/
lemma bracketed?_zone (hmark : '%' ∉ address) (haddress : ¬ [']', ':'] <:+: address)
    (hzone : ¬ [']', ':'] <:+: zone) (port : List Char) :
    bracketed? (address ++ '%' :: zone ++ ']' :: ':' :: port) = ofParts? address zone port := by
  have hhost : ¬ [']', ':'] <:+: address ++ '%' :: zone :=
    not_infix_append haddress hzone (by decide) (by decide)
  have hcut := cut_append [] hmark zone
  rw [List.append_assoc, List.singleton_append] at hcut
  rw [bracketed?, cut_pair (by decide) hhost]
  simp only [Option.bind_eq_bind, Option.bind_some, hcut, Option.getD_some, ofParts?,
    Option.map_eq_bind]
  rfl

end Bracketed

/-! ### Texts -/

lemma readEndpoint_bracket_eq_ok_iff {s : List Char} {e : Endpoint} :
    readEndpoint ('[' :: s) = .ok e ↔ bracketed? s = some e := by
  rw [readEndpoint]
  cases bracketed? s <;> simp

/-- The parts of an endpoint in brackets are those that its text is read in. -/
lemma bracketed?_of_readV6 {s : List Char} {e : Endpoint}
    (h : Endpoint.readV6 ('[' :: s) = some (e, [])) : bracketed? s = some e := by
  obtain ⟨address, x, behind, scope, port, p, hs, ⟨hread, hbracket, hmark⟩, hscope, hport, rfl⟩ :=
    Endpoint.exists_of_readV6 h
  obtain rfl := (List.cons.inj hs).2
  have haddress : ¬ [']', ':'] <:+: address := not_infix_of_notMem hbracket
  have hport := Endpoint.readUInt16_of_readPort hport
  rcases Endpoint.exists_of_readScope hscope with ⟨rfl, rfl⟩ | ⟨digits, rfl, hnumber, hdigits⟩
  · rw [bracketed?_plain hmark haddress, ofParts?, hread, hport]
    rfl
  · have hzone : ¬ [']', ':'] <:+: digits := not_infix_of_notMem fun hmem => by
      exact absurd (hdigits _ hmem) (by decide)
    have hparts := bracketed?_zone hmark haddress hzone port
    rw [List.append_assoc] at hparts
    rw [hparts, ofParts?, hread, hport, hnumber]
    rfl

/-- **What the grammar of endpoints accepts is read as the same endpoint.** -/
lemma readEndpoint_of_read? {s : List Char} {e : Endpoint} (h : Endpoint.read? s = some e) :
    readEndpoint s = .ok e := by
  by_cases hbracket : ∃ t, s = '[' :: t
  · obtain ⟨t, rfl⟩ := hbracket
    exact readEndpoint_bracket_eq_ok_iff.mpr (bracketed?_of_readV6 (Endpoint.readV6_of_read? h))
  · rw [readEndpoint, h]
    exact fun t ht => hbracket ⟨t, ht⟩

/-- **An endpoint reads back** but for its flow information. -/
lemma readEndpoint_chars (e : Endpoint) : readEndpoint e.chars = .ok e.withoutFlow :=
  readEndpoint_of_read? (Endpoint.read?_chars e)

/-- A zone that is no number counts as none. -/
lemma ofParts?_of_not_number {zone : List Char} (h : ∀ n, Decimal.readUInt32 zone ≠ .ok n)
    (address port : List Char) : ofParts? address zone port = ofParts? address [] port := by
  cases hzone : Decimal.readUInt32 zone with
  | ok n => exact absurd hzone (h n)
  | error fault =>
      rw [ofParts?, hzone]
      rfl

lemma exists_of_ofParts? {address port : List Char} {e : Endpoint}
    (h : ofParts? address [] port = some e) : ∃ x p, e = .v6 x p 0 0 := by
  obtain ⟨x, -, hx⟩ := Option.bind_eq_some_iff.mp h
  obtain ⟨p, -, rfl⟩ := Option.map_eq_some_iff.mp hx
  exact ⟨x, p, rfl⟩

/-- **The texts of endpoints.** A written endpoint is read without its flow information, and what
the grammar of endpoints accepts is read as the same endpoint. Where a zone is no number, a text in
brackets is read as it is without the zone, and the scope is zero. -/
theorem endpoint_texts :
    (∀ e : Endpoint, readEndpoint e.chars = .ok e.withoutFlow) ∧
      (∀ s e, Endpoint.read? s = some e → readEndpoint s = .ok e) ∧
      ∀ address zone port : List Char, '%' ∉ address → ¬ [']', ':'] <:+: address →
        ¬ [']', ':'] <:+: zone → (∀ n, Decimal.readUInt32 zone ≠ .ok n) → ∀ e,
          (readEndpoint ('[' :: (address ++ '%' :: zone ++ ']' :: ':' :: port)) = .ok e ↔
            readEndpoint ('[' :: (address ++ ']' :: ':' :: port)) = .ok e) ∧
          (readEndpoint ('[' :: (address ++ ']' :: ':' :: port)) = .ok e →
            ∃ x p, e = .v6 x p 0 0) := by
  refine ⟨readEndpoint_chars, fun s e => readEndpoint_of_read?, ?_⟩
  intro address zone port hmark haddress hzone hnumber e
  rw [readEndpoint_bracket_eq_ok_iff, readEndpoint_bracket_eq_ok_iff,
    bracketed?_zone hmark haddress hzone, bracketed?_plain hmark haddress,
    ofParts?_of_not_number hnumber]
  exact ⟨Iff.rfl, exists_of_ofParts?⟩

/-- An endpoint with flow information and a scope; a mapped address with zeros in front of its scope
and its port; and a zone with a name. -/
theorem endpoint_texts_zones :
    let written : Endpoint := .v6 ⟨[0xFE80, 0, 0, 0, 0, 0, 0, 1], rfl⟩ 51820 9 3
    let mapped : Endpoint := .v6 ⟨[0, 0, 0, 0, 0, 0xFFFF, 0x0102, 0x0304], rfl⟩ 80 0 7
    let named : Endpoint := .v6 ⟨[0xFE80, 0, 0, 0, 0, 0, 0, 1], rfl⟩ 80 0 0
    let zeros := "[::ffff:1.2.3.4%007]:00080".toList
    let address := "fe80::1".toList
    let zone := "eth0".toList
    let port := "80".toList
    readEndpoint written.chars = .ok (.v6 ⟨[0xFE80, 0, 0, 0, 0, 0, 0, 1], rfl⟩ 51820 0 3) ∧
      (Endpoint.read? zeros = some mapped ∧ readEndpoint zeros = .ok mapped) ∧
      ('%' ∉ address ∧ ¬ [']', ':'] <:+: address ∧ ¬ [']', ':'] <:+: zone ∧
        (∀ n, Decimal.readUInt32 zone ≠ .ok n)) ∧
      readEndpoint ('[' :: (address ++ ']' :: ':' :: port)) = .ok named ∧
      readEndpoint ('[' :: (address ++ '%' :: zone ++ ']' :: ':' :: port)) = .ok named := by
  intro written mapped named zeros address zone port
  have hzeros : Endpoint.read? zeros = some mapped := by decide
  have hnumber : ∀ n, Decimal.readUInt32 zone ≠ .ok n := by
    intro n h
    have hfault : Decimal.readUInt32 zone = .error .invalidDigit := rfl
    rw [hfault] at h
    cases h
  have hnamed : readEndpoint ('[' :: (address ++ ']' :: ':' :: port)) = .ok named := rfl
  have hmark : '%' ∉ address := by decide
  have haddress : ¬ [']', ':'] <:+: address := by decide
  have hzone : ¬ [']', ':'] <:+: zone := by decide
  refine ⟨endpoint_texts.1 written, ⟨hzeros, endpoint_texts.2.1 zeros mapped hzeros⟩,
    ⟨hmark, haddress, hzone, hnumber⟩, hnamed, ?_⟩
  exact (endpoint_texts.2.2 address zone port hmark haddress hzone hnumber named).1.mpr hnamed

end WireGuardControl.Uapi
