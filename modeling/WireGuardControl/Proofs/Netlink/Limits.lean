import Mathlib.Tactic
import WireGuardControl.Proofs.Netlink.Readback
import WireGuardControl.Proofs.Netlink.Room
/-!
What one message of an update can hold.

* `length_name_le_of_encodeConfig`, `keepalive_le_of_encodeConfig`: a written update has its name
  and its intervals of keepalives in range.
* `encodeConfig_of_mem_batches`: nothing else keeps a batch out of a message, and no batch makes a
  long one.
-/

namespace WireGuardControl.Netlink

open Text

variable {name : String} {c : Config} {message : Bytes}

/-- The entries of a written array are written. -/
lemma Item.exists_encodeAll_of_mem_entries {α : Type} {items : α → List Item} {xs : List α}
    {start : ℕ} {b : Bytes} (h : encodeAll (entries start (xs.map items)) = .ok b) {x : α}
    (hx : x ∈ xs) : ∃ b', encodeAll (items x) = .ok b' := by
  induction xs generalizing start b with
  | nil => simp at hx
  | cons y rest ih =>
      rw [List.map_cons, entries] at h
      obtain ⟨kind, payload, b', hc, -, hrest, -⟩ := encodeAll_cons_eq_ok_iff.mp h
      rcases List.mem_cons.mp hx with rfl | hx
      · exact ⟨payload, exists_of_content_entry hc⟩
      · exact ih hrest hx

/-- The name of a written update has room in its attribute. -/
lemma length_name_le_of_encodeConfig (h : encodeConfig name c = .ok message) :
    (Utf8.ofString name).length + 5 ≤ Encoder.maxLength := by
  rw [encodeConfig, configItems] at h
  simp only [List.cons_append] at h
  obtain ⟨kind, payload, -, hc, hle, -, -⟩ := Item.encodeAll_cons_eq_ok_iff.mp h
  obtain ⟨-, rfl⟩ := Prod.mk.inj (Except.ok.inj hc)
  simp only [List.length_append, List.length_singleton, attributeHeaderLength] at hle
  omega

/-- The intervals of keepalives of a written update have room in their attributes. -/
lemma keepalive_le_of_encodeConfig (h : encodeConfig name c = .ok message) :
    ∀ p ∈ c.peers, ∀ i, p.keepalive = some i → i.seconds.toNat ≤ maxKeepalive := by
  intro p hp i hi
  obtain ⟨b, hb⟩ := exists_encodeAll_peers h (List.ne_nil_of_mem hp)
  obtain ⟨b', hb'⟩ := Item.exists_encodeAll_of_mem_entries hb hp
  exact keepalive_le_of_encodeAll hb' hi

/-- **Every batch of an update has room in one message.** It is written if and only if its name
has room in an attribute and its intervals of keepalives are in range, and it is one of these that
is given as the reason if it is not written. Besides the name the message has at most 14400
octets. -/
theorem encodeConfig_of_mem_batches {b : Config} (hb : b ∈ c.batches) :
    ((∃ message, encodeConfig name b = .ok message) ↔
      (Utf8.ofString name).length + 5 ≤ Encoder.maxLength ∧
        ∀ p ∈ b.peers, ∀ i, p.keepalive = some i → i.seconds.toNat ≤ maxKeepalive) ∧
    (∀ e, encodeConfig name b = .error e →
      NameTooLong name e ∨ ∃ p ∈ b.peers, KeepaliveTooLong p e) ∧
    ∀ message, encodeConfig name b = .ok message →
      message.length ≤
        14400 + Bytes.aligned (attributeHeaderLength + ((Utf8.ofString name).length + 1)) := by
  have hfits := fitsOr_configItems name (Config.isLarge_of_mem_batches hb)
  refine ⟨⟨?_, ?_⟩, ?_, ?_⟩
  · rintro ⟨message, hm⟩
    exact ⟨length_name_le_of_encodeConfig hm, keepalive_le_of_encodeConfig hm⟩
  · rintro ⟨hname, hkeepalive⟩
    exact exists_encodeConfig hname hkeepalive (Config.isLarge_of_mem_batches hb)
  · intro e he
    rcases hfits with ⟨message, hm, -⟩ | ⟨e', he', hreason⟩
    · exact absurd (hm.symm.trans he) (by simp)
    · obtain rfl := Except.error.inj (he.symm.trans he')
      exact hreason
  · intro message hm
    rcases hfits with ⟨message', hm', hlen⟩ | ⟨e, he, -⟩
    · obtain rfl := Except.ok.inj (hm.symm.trans hm')
      omega
    · exact absurd (hm.symm.trans he) (by simp)

/-- The second batch of an update of a peer with more networks than one message is given. -/
theorem encodeConfig_of_mem_batches_later :
    let n : Network := .v4 ⟨10, 0, 0, 0⟩ 8
    let c : Config :=
      { replacePeers := true
        peers := [{ keepalive := some ⟨70000, 0⟩, allowedIps := List.replicate 300 n }] }
    let b : Config := { peers := [{ allowedIps := List.replicate 44 n }] }
    b ∈ c.batches ∧ ∃ message, encodeConfig "wg0" b = .ok message ∧ message.length ≤ 14408 := by
  intro n c b
  have hb : b ∈ c.batches := by decide +kernel
  obtain ⟨hwritten, -, hlength⟩ := @encodeConfig_of_mem_batches "wg0" c b hb
  have hkeepalive : ∀ p ∈ b.peers, ∀ i, p.keepalive = some i → i.seconds.toNat ≤ maxKeepalive := by
    intro p hp i hi
    rw [List.mem_singleton.mp hp] at hi
    cases hi
  obtain ⟨message, hm⟩ := hwritten.mpr ⟨by decide, hkeepalive⟩
  exact ⟨hb, message, hm, hlength message hm⟩

end WireGuardControl.Netlink
