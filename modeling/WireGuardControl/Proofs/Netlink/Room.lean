import Mathlib.Tactic
import WireGuardControl.Netlink.Request
import WireGuardControl.Proofs.Batch.Parts
import WireGuardControl.Proofs.Netlink.Row
/-!
How much room an update takes in a message.

* `Item.Fits`: items that can be written, in at most so many octets. A plain item, a nested item
  and an array fit by what is inside of them.
* `Item.FitsOr P`: items that fit, or cannot be written for a reason with the property `P`.
* `fits_networkItems`, `fitsOr_peerItems`, `fitsOr_configItems`: the room for a network, for the
  update of a peer and for an update of a device that is not large. The intervals of keepalives
  and the name alone can be out of bounds (`KeepaliveTooLong`, `NameTooLong`).
* `exists_encodeConfig_of_mem_batches`: every batch of an update has room.
* `kind_of_encodeConfig_error`: an update of any size that cannot be written is an argument that
  cannot be used.
-/

namespace WireGuardControl.Netlink

open Text

/-! ### Items -/

namespace Item

/-- Items can be written, in at most `n` octets. -/
def Fits (items : List Item) (n : ℕ) : Prop := ∃ b, encodeAll items = .ok b ∧ b.length ≤ n

lemma fits_nil (n : ℕ) : Fits [] n := ⟨[], encodeAll_nil, Nat.zero_le n⟩

lemma Fits.mono {items : List Item} {m n : ℕ} (h : Fits items m) (hmn : m ≤ n) :
    Fits items n := by
  obtain ⟨b, hb, hlen⟩ := h
  exact ⟨b, hb, hlen.trans hmn⟩

/-- One list of items is written behind another. -/
lemma encodeAll_append (xs ys : List Item) :
    encodeAll (xs ++ ys) = (encodeAll xs).bind fun x => (encodeAll ys).map (x ++ ·) := by
  induction xs with
  | nil =>
      rw [List.nil_append, encodeAll_nil]
      cases encodeAll ys <;> rfl
  | cons i rest ih =>
      rw [List.cons_append, encodeAll_cons, encodeAll_cons, ih]
      cases i.octets with
      | error cause => rfl
      | ok x =>
          cases encodeAll rest with
          | error cause => rfl
          | ok b =>
              cases encodeAll ys with
              | error cause => rfl
              | ok b' => simp [Except.bind, Except.map]

lemma Fits.append {xs ys : List Item} {m n : ℕ} (hx : Fits xs m) (hy : Fits ys n) :
    Fits (xs ++ ys) (m + n) := by
  obtain ⟨x, hx, hxlen⟩ := hx
  obtain ⟨y, hy, hylen⟩ := hy
  refine ⟨x ++ y, ?_, ?_⟩
  · rw [encodeAll_append, hx, hy]
    rfl
  · rw [List.length_append]
    omega

lemma aligned_mono {m n : ℕ} (h : m ≤ n) : Bytes.aligned m ≤ Bytes.aligned n := by
  simp only [Bytes.aligned, Bytes.padding]
  omega

lemma encodeAll_singleton {i : Item} {kind : UInt16} {payload : Bytes}
    (hc : i.content = .ok (kind, payload))
    (h : attributeHeaderLength + payload.length ≤ Encoder.maxLength) :
    encodeAll [i] = .ok (record kind payload) := by
  rw [encodeAll_cons, octets_eq_ok_iff.mpr ⟨kind, payload, hc, h, rfl⟩, encodeAll_nil]
  simp [Except.bind, Except.map]

lemma fits_plain {kind : UInt16} {payload : Bytes} {len n : ℕ} (hlen : payload.length ≤ len)
    (h : attributeHeaderLength + len ≤ Encoder.maxLength)
    (hn : Bytes.aligned (attributeHeaderLength + len) ≤ n) : Fits [plain kind payload] n := by
  refine ⟨record kind payload, encodeAll_singleton rfl (by omega), ?_⟩
  rw [length_record]
  exact (aligned_mono (by omega)).trans hn

/-- A plain item with a payload of a few octets. -/
lemma fits_short {kind : UInt16} {payload : Bytes} (len : ℕ) (hlen : payload.length ≤ len)
    (h : len ≤ 32) : Fits [plain kind payload] (Bytes.aligned (attributeHeaderLength + len)) := by
  refine fits_plain hlen ?_ le_rfl
  simp only [attributeHeaderLength, Encoder.maxLength]
  omega

lemma fits_key (kind : UInt16) (k : Key) : Fits [plain kind k.bytes] 36 :=
  fits_short 32 k.length_bytes.le le_rfl

lemma fits_u16 (kind v : UInt16) : Fits [u16 kind v] 8 :=
  fits_short 2 (Bytes.length_ofUInt16LE v).le (by omega)

lemma fits_u32 (kind : UInt16) (v : UInt32) : Fits [u32 kind v] 8 :=
  fits_short 4 (Bytes.length_ofUInt32LE v).le (by omega)

/-- A nested item takes a header more than what is inside. -/
lemma Fits.nested {kind : UInt16} {items : List Item} {n : ℕ} (h : Fits items n)
    (hn : attributeHeaderLength + n ≤ Encoder.maxLength) :
    Fits [nested kind items] (Bytes.aligned (attributeHeaderLength + n)) := by
  obtain ⟨b, hb, hlen⟩ := h
  refine ⟨record (kind ||| nestedFlag) b, encodeAll_singleton ?_ (by omega), ?_⟩
  · rw [content, hb]
    rfl
  · rw [length_record]
    exact aligned_mono (by omega)

lemma fits_toList {α : Type} {o : Option α} {item : α → Item} {n : ℕ}
    (h : ∀ x, o = some x → Fits [item x] n) : Fits (o.map item).toList n := by
  cases o with
  | none => exact fits_nil n
  | some x => exact h x rfl

lemma fits_ite {c : Prop} [Decidable c] {xs ys : List Item} {n : ℕ} (hx : c → Fits xs n)
    (hy : ¬ c → Fits ys n) : Fits (if c then xs else ys) n := by
  split_ifs with hc
  · exact hx hc
  · exact hy hc

/-- Items fit, or they cannot be written for a reason with the property `P`. -/
def FitsOr (P : Error → Prop) (items : List Item) (n : ℕ) : Prop :=
  Fits items n ∨ ∃ e, encodeAll items = .error e ∧ P e

section FitsOr

variable {P Q : Error → Prop} {xs ys : List Item} {m n : ℕ}

lemma FitsOr.mono (h : FitsOr P xs m) (hmn : m ≤ n) : FitsOr P xs n :=
  h.imp_left fun hx => hx.mono hmn

lemma FitsOr.imp (h : FitsOr P xs n) (hPQ : ∀ e, P e → Q e) : FitsOr Q xs n :=
  h.imp_right fun ⟨e, he, hP⟩ => ⟨e, he, hPQ e hP⟩

lemma FitsOr.fits (h : FitsOr P xs n) (hP : ∀ e, ¬ P e) : Fits xs n :=
  h.resolve_right fun ⟨e, _, he⟩ => hP e he

/-- Of two lists of items, the first that cannot be written gives the reason. -/
lemma FitsOr.append (hx : FitsOr P xs m) (hy : FitsOr P ys n) : FitsOr P (xs ++ ys) (m + n) := by
  rcases hx with hx | ⟨e, he, hP⟩
  · rcases hy with hy | ⟨e, he, hP⟩
    · exact .inl (hx.append hy)
    · obtain ⟨x, hx, -⟩ := hx
      exact .inr ⟨e, by rw [encodeAll_append, hx, he]; rfl, hP⟩
  · exact .inr ⟨e, by rw [encodeAll_append, he]; rfl, hP⟩

/-- A nested item can be written if what is inside can, and there is room for it. -/
lemma FitsOr.nested {kind : UInt16} (h : FitsOr P xs n)
    (hn : attributeHeaderLength + n ≤ Encoder.maxLength) :
    FitsOr P [nested kind xs] (Bytes.aligned (attributeHeaderLength + n)) := by
  rcases h with h | ⟨e, he, hP⟩
  · exact .inl (h.nested hn)
  · refine .inr ⟨e, ?_, hP⟩
    rw [encodeAll_cons, octets, content, he]
    rfl

/-- An array takes a header more for each of its entries. -/
lemma fitsOr_entries {α : Type} {items : α → List Item} {xs : List α} (start : ℕ) (size : α → ℕ)
    (hindex : start + xs.length ≤ 65536) (hitems : ∀ x ∈ xs, FitsOr P (items x) (size x))
    (hsize : ∀ x ∈ xs, attributeHeaderLength + size x ≤ Encoder.maxLength) :
    FitsOr P (entries start (xs.map items))
      (xs.map fun x => Bytes.aligned (attributeHeaderLength + size x)).sum := by
  induction xs generalizing start with
  | nil => exact .inl (fits_nil _)
  | cons x rest ih =>
      rw [List.length_cons] at hindex
      have hrest := ih (start + 1) (by omega) (fun y hy => hitems y (by simp [hy]))
        fun y hy => hsize y (by simp [hy])
      rw [List.map_cons, entries, entry, if_pos (by omega), List.map_cons, List.sum_cons]
      exact ((hitems x (by simp)).nested (hsize x (by simp))).append hrest

end FitsOr

end Item

/-! ### Networks -/

open Item

lemma length_octets_le (x : IpAddress) : x.octets.length ≤ 16 := by
  cases x with
  | v4 x => exact (show (4 : ℕ) ≤ 16 by decide)
  | v6 x => exact (IPv6.length_octets x).le

lemma fits_networkItems (n : Network) : Fits (networkItems n) 36 := by
  have haddress : Fits [.plain NetworkField.address n.address.octets] 20 :=
    fits_short 16 (length_octets_le n.address) (by omega)
  have hbits : Fits [.u8 NetworkField.bits (UInt8.ofNat n.bits)] 8 :=
    fits_short 1 (List.length_singleton).le (by omega)
  exact ((fits_u16 NetworkField.family _).append haddress).append hbits

/-- Networks take forty octets each. -/
lemma fits_networks {ns : List Network} (h : ns.length ≤ networksPerBatch) :
    Fits (entries 0 (ns.map networkItems)) (40 * ns.length) := by
  rw [networksPerBatch] at h
  have hindex : 0 + ns.length ≤ 65536 := by omega
  have hentries := fitsOr_entries (P := fun _ => False) 0 (fun _ => 36) hindex
    (fun n _ => .inl (fits_networkItems n)) fun _ _ => by decide
  refine (hentries.fits fun _ => id).mono ?_
  rw [List.map_const', List.sum_replicate, smul_eq_mul, Nat.mul_comm]
  exact Nat.mul_le_mul_right _ (by decide)

/-! ### Peers -/

lemma length_encode_le (e : Endpoint) : (SocketAddress.encode e).length ≤ 28 := by
  cases e <;> simp [SocketAddress.encode]

/-- What is wrong with an interval of keepalives that no attribute has room for. -/
def keepaliveOverflow (i : Interval) : Error :=
  .invalidArgument s!"persistent keepalive interval {i.seconds}s exceeds {maxKeepalive}s"

/-- The interval of keepalives of the update of a peer is out of range, which is the reason `e`. -/
def KeepaliveTooLong (p : PeerConfig) (e : Error) : Prop :=
  ∃ i, p.keepalive = some i ∧ maxKeepalive < i.seconds.toNat ∧ e = keepaliveOverflow i

lemma fitsOr_keepalive (p : PeerConfig) :
    FitsOr (KeepaliveTooLong p) (p.keepalive.map keepaliveItem).toList 8 := by
  cases hi : p.keepalive with
  | none => exact .inl (fits_nil 8)
  | some i =>
      rw [Option.map_some, Option.toList_some, keepaliveItem]
      split_ifs with h
      · exact .inl (fits_u16 PeerField.keepalive _)
      · exact .inr ⟨keepaliveOverflow i, encodeAll_cons _ _, i, hi, not_le.mp h, rfl⟩

/-- The update of a peer with as many networks as one message is given. -/
lemma fitsOr_peerItems {p : PeerConfig} (hn : p.allowedIps.length ≤ networksPerBatch) :
    FitsOr (KeepaliveTooLong p) (peerItems p) (124 + 40 * p.allowedIps.length) := by
  have hpublicKey : Fits [.plain PeerField.publicKey p.publicKey.bytes] 36 :=
    fits_key PeerField.publicKey p.publicKey
  have hflags : Fits (if peerFlags p = 0 then [] else [.u32 PeerField.flags (peerFlags p)]) 8 :=
    fits_ite (fun _ => fits_nil 8) fun _ => fits_u32 PeerField.flags _
  have hpresharedKey : Fits
      (p.presharedKey.map fun key => Item.plain PeerField.presharedKey key.bytes).toList 36 :=
    fits_toList fun key _ => fits_key PeerField.presharedKey key
  have hendpoint : Fits
      (p.endpoint.map fun e => Item.plain PeerField.endpoint (SocketAddress.encode e)).toList 32 :=
    fits_toList fun e _ => fits_short 28 (length_encode_le e) (by omega)
  have hsettings := ((hpublicKey.append hflags).append hpresharedKey).append hendpoint
  have hnets : Fits (if p.allowedIps = [] then []
      else [.nested PeerField.allowedIps (entries 0 (p.allowedIps.map networkItems))])
        (4 + 40 * p.allowedIps.length) := by
    refine fits_ite (fun _ => fits_nil _) fun _ => ?_
    refine ((fits_networks hn).nested ?_).mono ?_
    · simp only [networksPerBatch] at hn
      simp only [attributeHeaderLength, Encoder.maxLength]
      omega
    · simp only [attributeHeaderLength, Bytes.aligned, Bytes.padding]
      omega
  have hall := (FitsOr.append (.inl hsettings) (fitsOr_keepalive p)).append (.inl hnets)
  exact hall.mono (by omega)

/-! ### Devices -/

/-- The room for updates of peers, by their number and by the number of their networks. -/
lemma sum_aligned (ps : List PeerConfig) :
    (ps.map fun p =>
        Bytes.aligned (attributeHeaderLength + (124 + 40 * p.allowedIps.length))).sum =
      128 * ps.length + 40 * (ps.flatMap (·.allowedIps)).length := by
  induction ps with
  | nil => rfl
  | cons p rest ih =>
      rw [List.map_cons, List.sum_cons, ih, List.length_cons, List.flatMap_cons,
        List.length_append]
      simp only [attributeHeaderLength, Bytes.aligned, Bytes.padding]
      omega

/-- The updates of peers of an update that is not large. -/
lemma fitsOr_peers {ps : List PeerConfig} (hps : ps.length ≤ peersPerBatch)
    (hns : (ps.flatMap (·.allowedIps)).length ≤ networksPerBatch) :
    FitsOr (fun e => ∃ p ∈ ps, KeepaliveTooLong p e) (entries 0 (ps.map peerItems)) 14336 := by
  have hn : ∀ p ∈ ps, p.allowedIps.length ≤ networksPerBatch := fun p hp => by
    refine le_trans ?_ hns
    rw [List.length_flatMap]
    exact List.le_sum_of_mem (List.mem_map_of_mem hp)
  have hitems : ∀ p ∈ ps, FitsOr (fun e => ∃ p ∈ ps, KeepaliveTooLong p e) (peerItems p)
      (124 + 40 * p.allowedIps.length) := fun p hp =>
    (fitsOr_peerItems (hn p hp)).imp fun e he => ⟨p, hp, he⟩
  simp only [peersPerBatch, networksPerBatch] at hps hns hn
  refine (fitsOr_entries 0 (fun p : PeerConfig => 124 + 40 * p.allowedIps.length) (by omega)
    hitems fun p hp => ?_).mono ?_
  · have := hn p hp
    simp only [attributeHeaderLength, Encoder.maxLength]
    omega
  · rw [sum_aligned]
    omega

/-- The name of a device has no room in an attribute, which is the reason `e`. -/
def NameTooLong (name : String) (e : Error) : Prop :=
  Encoder.maxLength < (Utf8.ofString name).length + 5 ∧
    e = overflow DeviceField.name (Utf8.ofString name ++ [0])

lemma fitsOr_name (name : String) : FitsOr (NameTooLong name) [.string DeviceField.name name]
    (Bytes.aligned (attributeHeaderLength + ((Utf8.ofString name).length + 1))) := by
  have hlen : (Utf8.ofString name ++ [0]).length = (Utf8.ofString name).length + 1 := by
    rw [List.length_append, List.length_singleton]
  by_cases h : (Utf8.ofString name).length + 5 ≤ Encoder.maxLength
  · refine .inl (fits_plain hlen.le ?_ le_rfl)
    simp only [attributeHeaderLength]
    omega
  · refine .inr ⟨_, ?_, not_le.mp h, rfl⟩
    rw [Item.string, encodeAll_cons, octets, content]
    simp only [Except.bind]
    rw [if_neg]
    simp only [hlen, attributeHeaderLength]
    omega

/-- **An update that is not large has room** in one message, unless its name has no room in one
attribute or an interval of keepalives is out of range. -/
lemma fitsOr_configItems (name : String) {c : Config} (hc : c.isLarge = false) :
    FitsOr (fun e => NameTooLong name e ∨ ∃ p ∈ c.peers, KeepaliveTooLong p e)
      (configItems name c)
      (Bytes.aligned (attributeHeaderLength + ((Utf8.ofString name).length + 1)) + 14400) := by
  rw [Config.isLarge, Bool.or_eq_false_iff, decide_eq_false_iff_not, decide_eq_false_iff_not,
    not_lt, not_lt] at hc
  have hprivateKey : Fits
      (c.privateKey.map fun key => Item.plain DeviceField.privateKey key.bytes).toList 36 :=
    fits_toList fun key _ => fits_key DeviceField.privateKey key
  have hlistenPort : Fits (c.listenPort.map (Item.u16 DeviceField.listenPort)).toList 8 :=
    fits_toList fun v _ => fits_u16 DeviceField.listenPort v
  have hfirewallMark : Fits (c.firewallMark.map (Item.u32 DeviceField.firewallMark)).toList 8 :=
    fits_toList fun v _ => fits_u32 DeviceField.firewallMark v
  have hflags : Fits
      (if c.replacePeers then [.u32 DeviceField.flags DeviceField.replacePeers] else []) 8 :=
    fits_ite (fun _ => fits_u32 DeviceField.flags _) fun _ => fits_nil 8
  have hpeers : FitsOr (fun e => ∃ p ∈ c.peers, KeepaliveTooLong p e) (if c.peers = [] then []
      else [.nested DeviceField.peers (entries 0 (c.peers.map peerItems))]) 14340 := by
    split_ifs
    · exact .inl (fits_nil _)
    · exact ((fitsOr_peers hc.1 hc.2).nested (by decide)).mono (by decide)
  have hsettings := (((((fitsOr_name name).append (.inl hprivateKey)).append
    (.inl hlistenPort)).append (.inl hfirewallMark)).append (.inl hflags))
  exact ((hsettings.imp fun _ => Or.inl).append (hpeers.imp fun _ => Or.inr)).mono (by omega)

/-- An update that is not large can be written if its name and its intervals are in range. -/
lemma exists_encodeConfig {name : String} {c : Config}
    (hname : (Utf8.ofString name).length + 5 ≤ Encoder.maxLength)
    (hkeepalive : ∀ p ∈ c.peers, ∀ i, p.keepalive = some i → i.seconds.toNat ≤ maxKeepalive)
    (hc : c.isLarge = false) : ∃ message, encodeConfig name c = .ok message := by
  rcases fitsOr_configItems name hc with
    ⟨message, hm, -⟩ | ⟨e, -, hlong | ⟨p, hp, i, hi, hlong, -⟩⟩
  · exact ⟨message, hm⟩
  · exact absurd hname (not_le.mpr hlong.1)
  · exact absurd (hkeepalive p hp i hi) (not_le.mpr hlong)

/-! ### Batches -/

/-- The intervals of keepalives of batches are those of the update. -/
lemma keepalive_le_of_mem_batches {c b : Config}
    (h : ∀ p ∈ c.peers, ∀ i, p.keepalive = some i → i.seconds.toNat ≤ maxKeepalive)
    (hb : b ∈ c.batches) :
    ∀ p ∈ b.peers, ∀ i, p.keepalive = some i → i.seconds.toNat ≤ maxKeepalive := by
  intro q hq i hi
  cases hlarge : c.isLarge with
  | false =>
      rw [Config.batches_of_not_isLarge hlarge, List.mem_singleton] at hb
      exact h q (hb ▸ hq) i hi
  | true =>
      obtain ⟨part, hpart, hpeers⟩ := Config.exists_peers_of_mem_batches hlarge hb
      rw [hpeers, List.mem_singleton] at hq
      obtain ⟨p, hp, seen, hqp⟩ := PeerConfig.exists_of_mem_allParts hpart
      rcases PeerConfig.keepalive_of_mem_parts hqp with hnone | hsame
      · rw [hq, hnone] at hi
        cases hi
      · exact h p hp i (by rw [← hsame, ← hq, hi])

/-- Every batch of an update can be written. -/
lemma exists_encodeConfig_of_mem_batches {name : String} {c b : Config}
    (hname : (Utf8.ofString name).length + 5 ≤ Encoder.maxLength)
    (hkeepalive : ∀ p ∈ c.peers, ∀ i, p.keepalive = some i → i.seconds.toNat ≤ maxKeepalive)
    (hb : b ∈ c.batches) : ∃ message, encodeConfig name b = .ok message :=
  exists_encodeConfig hname (keepalive_le_of_mem_batches hkeepalive hb)
    (Config.isLarge_of_mem_batches hb)

/-! ### Updates that cannot be written -/

/-- An item that can only fail to be written as an argument that cannot be used. -/
def Item.FailsByArgument (i : Item) : Prop := ∀ e, i.octets = .error e → e.kind = .invalidArgument

lemma kind_of_encodeAll_error {items : List Item} (h : ∀ i ∈ items, i.FailsByArgument) {e : Error}
    (he : encodeAll items = .error e) : e.kind = .invalidArgument := by
  induction items with
  | nil =>
      rw [encodeAll_nil] at he
      cases he
  | cons i rest ih =>
      rw [encodeAll_cons] at he
      cases hi : i.octets with
      | error cause =>
          rw [hi] at he
          obtain rfl := Except.error.inj he
          exact h i (by simp) cause hi
      | ok x =>
          cases hrest : encodeAll rest with
          | error cause =>
              rw [hi, hrest] at he
              obtain rfl := Except.error.inj he
              exact ih (fun j hj => h j (by simp [hj])) hrest
          | ok b =>
              rw [hi, hrest] at he
              cases he

lemma failsByArgument_of_content {i : Item}
    (h : ∀ e, i.content = .error e → e.kind = .invalidArgument) : i.FailsByArgument := by
  intro e he
  rw [octets] at he
  cases hc : i.content with
  | error cause =>
      rw [hc] at he
      obtain rfl := Except.error.inj he
      exact h cause hc
  | ok c =>
      rw [hc] at he
      simp only [Except.bind] at he
      split_ifs at he
      obtain rfl := Except.error.inj he
      rfl

lemma failsByArgument_plain (kind : UInt16) (payload : Bytes) :
    (plain kind payload).FailsByArgument :=
  failsByArgument_of_content fun _ he => by cases he

lemma failsByArgument_nested {kind : UInt16} {items : List Item}
    (h : ∀ i ∈ items, i.FailsByArgument) : (nested kind items).FailsByArgument := by
  refine failsByArgument_of_content fun _ he => ?_
  rw [content] at he
  cases hitems : encodeAll items with
  | error cause =>
      rw [hitems] at he
      obtain rfl := Except.error.inj he
      exact kind_of_encodeAll_error h hitems
  | ok b =>
      rw [hitems] at he
      cases he

lemma failsByArgument_refused {cause : Error} (h : cause.kind = .invalidArgument) :
    (refused cause).FailsByArgument :=
  failsByArgument_of_content fun _ he => Except.error.inj he ▸ h

lemma failsByArgument_entries {xss : List (List Item)}
    (h : ∀ xs ∈ xss, ∀ i ∈ xs, i.FailsByArgument) (start : ℕ) :
    ∀ i ∈ entries start xss, i.FailsByArgument := by
  induction xss generalizing start with
  | nil => simp [entries]
  | cons xs rest ih =>
      rw [entries, List.forall_mem_cons]
      refine ⟨?_, ih (fun ys hys => h ys (by simp [hys])) _⟩
      rw [entry]
      split_ifs
      · exact failsByArgument_nested (h xs (by simp))
      · exact failsByArgument_refused rfl

/-- An array can only fail as an argument if its entries can only fail so. -/
lemma failsByArgument_array {α : Type} {kind : UInt16} {items : α → List Item} {xs : List α}
    (h : ∀ x, ∀ i ∈ items x, i.FailsByArgument) :
    (nested kind (entries 0 (xs.map items))).FailsByArgument := by
  refine failsByArgument_nested (failsByArgument_entries (fun is his => ?_) 0)
  obtain ⟨x, -, rfl⟩ := List.mem_map.mp his
  exact h x

lemma failsByArgument_toList {α : Type} {o : Option α} {item : α → Item}
    (h : ∀ x, (item x).FailsByArgument) : ∀ i ∈ (o.map item).toList, i.FailsByArgument := by
  cases o with
  | none => simp
  | some x => simpa using h x

lemma failsByArgument_ite {c : Prop} [Decidable c] {i : Item} (h : i.FailsByArgument) :
    ∀ j ∈ (if c then [] else [i]), j.FailsByArgument := by
  split_ifs
  · simp
  · exact List.forall_mem_singleton.mpr h

lemma failsByArgument_networkItems (n : Network) : ∀ i ∈ networkItems n, i.FailsByArgument := by
  simp only [networkItems, Item.u16, Item.u8, List.forall_mem_cons]
  exact ⟨failsByArgument_plain _ _, failsByArgument_plain _ _, failsByArgument_plain _ _, by simp⟩

lemma failsByArgument_keepaliveItem (i : Interval) : (keepaliveItem i).FailsByArgument := by
  rw [keepaliveItem]
  split_ifs
  · exact failsByArgument_plain _ _
  · exact failsByArgument_refused rfl

lemma failsByArgument_peerItems (p : PeerConfig) : ∀ i ∈ peerItems p, i.FailsByArgument := by
  have hpresharedKey : ∀ key : Key, (plain PeerField.presharedKey key.bytes).FailsByArgument :=
    fun key => failsByArgument_plain _ _
  have hendpoint : ∀ e, (plain PeerField.endpoint (SocketAddress.encode e)).FailsByArgument :=
    fun e => failsByArgument_plain _ _
  simp only [peerItems, List.forall_mem_append, List.forall_mem_singleton]
  refine ⟨⟨⟨⟨⟨failsByArgument_plain _ _, failsByArgument_ite (failsByArgument_plain _ _)⟩, ?_⟩, ?_⟩,
    ?_⟩, failsByArgument_ite (failsByArgument_array failsByArgument_networkItems)⟩
  · exact failsByArgument_toList hpresharedKey
  · exact failsByArgument_toList hendpoint
  · exact failsByArgument_toList failsByArgument_keepaliveItem

lemma failsByArgument_configItems (name : String) (c : Config) :
    ∀ i ∈ configItems name c, i.FailsByArgument := by
  have hprivateKey : ∀ key : Key, (plain DeviceField.privateKey key.bytes).FailsByArgument :=
    fun key => failsByArgument_plain _ _
  have hflags : ∀ i ∈ (if c.replacePeers then [.u32 DeviceField.flags DeviceField.replacePeers]
      else [] : List Item), i.FailsByArgument := by
    split_ifs
    · exact List.forall_mem_singleton.mpr (failsByArgument_plain _ _)
    · simp
  simp only [configItems, List.forall_mem_append, List.forall_mem_singleton]
  refine ⟨⟨⟨⟨⟨failsByArgument_plain _ _, failsByArgument_toList hprivateKey⟩, ?_⟩, ?_⟩, hflags⟩,
    failsByArgument_ite (failsByArgument_array failsByArgument_peerItems)⟩
  · exact failsByArgument_toList fun v => failsByArgument_plain DeviceField.listenPort _
  · exact failsByArgument_toList fun v => failsByArgument_plain DeviceField.firewallMark _

/-- An update that cannot be written is an argument that cannot be used. -/
lemma kind_of_encodeConfig_error {name : String} {c : Config} {e : Error}
    (h : encodeConfig name c = .error e) : e.kind = .invalidArgument :=
  kind_of_encodeAll_error (failsByArgument_configItems name c) h

end WireGuardControl.Netlink
