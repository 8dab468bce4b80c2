import Mathlib.Tactic
import WireGuardControl.Config.Precision
import WireGuardControl.Proofs.Netlink.Readback
import WireGuardControl.Proofs.Tables
/-!
What the attributes of an update determine.

* `record_append_inj`: an attribute and the row behind it are determined by their octets, and
  `map_tagged_eq`: so are the kinds and payloads of all items of a row.
* `forall₂_of_entries`: an array is determined entry by entry, and so is how many it has.
* `peer_of_octets` and `network_of_octets`: the attributes of a peer determine its update, but for
  the part of its interval below one second, and those of a network determine the network.
* `encodeConfig_eq_iff`: two updates, each for a device, have one message exactly if the devices are
  the same and the updates differ in parts of seconds only.
-/

namespace WireGuardControl.Netlink

open Text Table

/-! ### Rows -/

/-- The octets of an attribute determine it and what follows. -/
lemma record_append_inj {kind kind' : UInt16} {payload payload' rest rest' : Bytes}
    (h : attributeHeaderLength + payload.length ≤ Encoder.maxLength)
    (h' : attributeHeaderLength + payload'.length ≤ Encoder.maxLength)
    (heq : record kind payload ++ rest = record kind' payload' ++ rest') :
    kind = kind' ∧ payload = payload' ∧ rest = rest' := by
  simp only [record, Bytes.padded, List.append_assoc] at heq
  obtain ⟨hlengths, heq⟩ := List.append_inj heq (by simp)
  obtain ⟨hkinds, heq⟩ := List.append_inj heq (by simp)
  have hlength : payload.length = payload'.length := by
    have hnat := congrArg UInt16.toNat (Bytes.ofUInt16LE_injective hlengths)
    simp only [UInt16.toNat_ofNat', Encoder.maxLength, attributeHeaderLength] at hnat h h'
    omega
  obtain ⟨hpayloads, heq⟩ := List.append_inj heq hlength
  obtain ⟨-, hrest⟩ := List.append_inj heq (by simp [hlength])
  exact ⟨Bytes.ofUInt16LE_injective hkinds, hpayloads, hrest⟩

lemma record_append_ne_nil (kind : UInt16) (payload rest : Bytes) :
    record kind payload ++ rest ≠ [] := by
  intro h
  have hlength := congrArg List.length h
  simp only [List.length_append, length_record, Bytes.aligned, attributeHeaderLength,
    List.length_nil] at hlength
  omega

namespace Item

/-- The kind and the payload of an item, which may not have one. -/
def tagged : Item → UInt16 × Except Error Bytes
  | .plain kind payload => (kind, .ok payload)
  | .nested kind items => (kind ||| nestedFlag, encodeAll items)
  | .refused cause => (0, .error cause)

lemma tagged_of_content {i : Item} {kind : UInt16} {payload : Bytes}
    (h : i.content = .ok (kind, payload)) : i.tagged = (kind, .ok payload) := by
  cases i with
  | plain kind' payload' =>
      obtain ⟨rfl, rfl⟩ := Prod.mk.inj (Except.ok.inj h)
      rfl
  | nested kind' items =>
      rw [content] at h
      rw [tagged]
      cases hitems : encodeAll items with
      | error e => rw [hitems] at h; cases h
      | ok b =>
          rw [hitems] at h
          obtain ⟨rfl, rfl⟩ := Prod.mk.inj (Except.ok.inj h)
          rfl
  | refused cause => cases h

/-- **The octets of items determine** their kinds and payloads. -/
lemma map_tagged_eq {xs ys : List Item} {b : Bytes} (hx : encodeAll xs = .ok b)
    (hy : encodeAll ys = .ok b) : xs.map tagged = ys.map tagged := by
  induction xs generalizing ys b with
  | nil =>
      rw [encodeAll_nil] at hx
      cases ys with
      | nil => rfl
      | cons y ys =>
          obtain ⟨kind, payload, b', -, -, -, rfl⟩ := encodeAll_cons_eq_ok_iff.mp hy
          exact absurd (Except.ok.inj hx).symm (record_append_ne_nil kind payload b')
  | cons x xs ih =>
      obtain ⟨kind, payload, b', hc, hle, hrest, rfl⟩ := encodeAll_cons_eq_ok_iff.mp hx
      cases ys with
      | nil =>
          rw [encodeAll_nil] at hy
          exact absurd (Except.ok.inj hy).symm (record_append_ne_nil kind payload b')
      | cons y ys =>
          obtain ⟨kind', payload', b'', hc', hle', hrest', heq⟩ := encodeAll_cons_eq_ok_iff.mp hy
          obtain ⟨rfl, rfl, rfl⟩ := record_append_inj hle hle' heq
          rw [List.map_cons, List.map_cons, tagged_of_content hc, tagged_of_content hc',
            ih hrest hrest']

/-- Two lists of items are written alike. -/
def SameOctets (xs ys : List Item) : Prop := ∃ b, encodeAll xs = .ok b ∧ encodeAll ys = .ok b

/-- An array is determined entry by entry. -/
lemma forall₂_of_entries {α : Type} {items : α → List Item} {start : ℕ} {xs ys : List α}
    (h : SameOctets (entries start (xs.map items)) (entries start (ys.map items))) :
    List.Forall₂ (fun x y => SameOctets (items x) (items y)) xs ys := by
  obtain ⟨b, hx, hy⟩ := h
  induction xs generalizing start ys b with
  | nil =>
      rw [List.map_nil, entries, encodeAll_nil] at hx
      cases ys with
      | nil => exact .nil
      | cons y ys =>
          obtain ⟨kind, payload, b', -, -, -, rfl⟩ := encodeAll_cons_eq_ok_iff.mp hy
          exact absurd (Except.ok.inj hx).symm (record_append_ne_nil kind payload b')
  | cons x xs ih =>
      obtain ⟨kind, payload, b', hc, hle, hrest, rfl⟩ := encodeAll_cons_eq_ok_iff.mp hx
      cases ys with
      | nil =>
          rw [List.map_nil, entries, encodeAll_nil] at hy
          exact absurd (Except.ok.inj hy).symm (record_append_ne_nil kind payload b')
      | cons y ys =>
          obtain ⟨kind', payload', b'', hc', hle', hrest', heq⟩ := encodeAll_cons_eq_ok_iff.mp hy
          obtain ⟨rfl, rfl, rfl⟩ := record_append_inj hle hle' heq
          exact .cons ⟨payload, exists_of_content_entry hc, exists_of_content_entry hc'⟩
            (ih _ hrest hrest')

/-- The values of an attribute that holds an array; an empty array has no attribute. -/
def arrayValues {α : Type} (items : α → List Item) (xs : List α) : List (Except Error Bytes) :=
  if xs = [] then [] else [encodeAll (entries 0 (xs.map items))]

/-- An array of which every entry is written is determined by its attribute. -/
lemma forall₂_of_arrayValues {α : Type} {items : α → List Item} {xs ys : List α}
    (hx : xs ≠ [] → ∃ b, encodeAll (entries 0 (xs.map items)) = .ok b)
    (h : arrayValues items xs = arrayValues items ys) :
    List.Forall₂ (fun x y => SameOctets (items x) (items y)) xs ys := by
  rw [arrayValues, arrayValues] at h
  by_cases hxs : xs = []
  · by_cases hys : ys = []
    · rw [hxs, hys]
      exact .nil
    · rw [if_pos hxs, if_neg hys] at h
      cases h
  · by_cases hys : ys = []
    · rw [if_neg hxs, if_pos hys] at h
      cases h
    · rw [if_neg hxs, if_neg hys] at h
      obtain ⟨b, hb⟩ := hx hxs
      exact forall₂_of_entries ⟨b, hb, (List.cons.inj h).1 ▸ hb⟩

end Item

open Item

/-! ### Networks and peers -/

lemma network_of_octets {n n' : Network} (h : SameOctets (networkItems n) (networkItems n')) :
    n = n' := by
  obtain ⟨b, hn, hn'⟩ := h
  have hread := readNetwork_eq n (a := ⟨0, true, b⟩) hn
  rw [readNetwork_eq n' hn'] at hread
  exact (Except.ok.inj hread).symm

lemma encodeAddress_injective : Function.Injective SocketAddress.encode := by
  intro e e' h
  have hread := congrArg SocketAddress.decode h
  rw [SocketAddress.decode_encode, SocketAddress.decode_encode] at hread
  exact Except.ok.inj hread

/-- The values of the attribute of flags, which is left out if no flag is set. -/
def flagValues (flags : UInt32) : List (Except Error Bytes) :=
  if flags = 0 then [] else [.ok (Bytes.ofUInt32LE flags)]

lemma flagValues_injective : Function.Injective flagValues := by
  intro x y h
  rw [flagValues, flagValues] at h
  split_ifs at h with hx hy hy
  · rw [hx, hy]
  · exact Bytes.ofUInt32LE_injective (Except.ok.inj (List.cons.inj h).1)

/-- The settings of a peer in an update. -/
def peerTable (p : PeerConfig) : List (UInt16 × List (Except Error Bytes)) :=
  [(PeerField.publicKey, [.ok p.publicKey.bytes]), (PeerField.flags, flagValues (peerFlags p)),
    (PeerField.presharedKey, (p.presharedKey.map fun key => .ok key.bytes).toList),
    (PeerField.endpoint, (p.endpoint.map fun e => .ok (SocketAddress.encode e)).toList),
    (PeerField.keepalive,
      (p.keepalive.map fun i => .ok (Bytes.ofUInt16LE i.seconds.toUInt16)).toList),
    (PeerField.allowedIps ||| nestedFlag, arrayValues networkItems p.allowedIps)]

/-- The kinds of the settings of a peer. -/
def peerLabels : List UInt16 :=
  [PeerField.publicKey, PeerField.flags, PeerField.presharedKey, PeerField.endpoint,
    PeerField.keepalive, PeerField.allowedIps ||| nestedFlag]

lemma labels_peerTable (p : PeerConfig) : (peerTable p).map Prod.fst = peerLabels := rfl

lemma tagged_flags (kind : UInt16) (flags : UInt32) :
    (if flags = 0 then [] else [Item.u32 kind flags]).map tagged =
      (flagValues flags).map (kind, ·) := by
  rw [flagValues]
  split_ifs <;> rfl

lemma tagged_array {α : Type} (kind : UInt16) (items : α → List Item) (xs : List α) :
    (if xs = [] then [] else [Item.nested kind (entries 0 (xs.map items))]).map tagged =
      (arrayValues items xs).map (kind ||| nestedFlag, ·) := by
  rw [arrayValues]
  split_ifs <;> rfl

lemma tagged_peerItems {p : PeerConfig}
    (h : ∀ i, p.keepalive = some i → i.seconds.toNat ≤ maxKeepalive) :
    (peerItems p).map tagged = spread (peerTable p) := by
  have hkeepalive : (p.keepalive.map keepaliveItem).toList.map tagged =
      (p.keepalive.map fun i => .ok (Bytes.ofUInt16LE i.seconds.toUInt16)).toList.map
        (PeerField.keepalive, ·) := by
    cases hk : p.keepalive with
    | none => rfl
    | some i =>
        rw [Option.map_some, Option.toList_some, keepaliveItem, if_pos (h i hk)]
        rfl
  rw [peerItems, peerTable, spread]
  simp only [List.map_append, hkeepalive, tagged_flags, tagged_array]
  simp only [List.flatMap_cons, List.flatMap_nil, List.append_nil, Option.toList_map,
    List.map_map, List.append_assoc]
  rfl

lemma peerFlags_tests (p : PeerConfig) :
    (peerFlags p &&& PeerField.remove = 0 ↔ p.remove = false) ∧
      (peerFlags p &&& PeerField.replaceAllowedIps = 0 ↔ p.replaceAllowedIps = false) ∧
      (peerFlags p &&& PeerField.updateOnly = 0 ↔ p.updateOnly = false) := by
  rw [peerFlags]
  generalize p.remove = removes, p.replaceAllowedIps = replaces, p.updateOnly = updates
  revert removes replaces updates
  decide

/-- The seconds that are written determine an interval but for the part below one second. -/
lemma keepalive_of_octets {o o' : Option Interval}
    (h : ∀ i, o = some i → i.seconds.toNat ≤ maxKeepalive)
    (h' : ∀ i, o' = some i → i.seconds.toNat ≤ maxKeepalive)
    (heq : (o.map fun i => (Except.ok (Bytes.ofUInt16LE i.seconds.toUInt16) :
        Except Error Bytes)).toList =
      (o'.map fun i => .ok (Bytes.ofUInt16LE i.seconds.toUInt16)).toList) :
    o.map Interval.wholeSeconds = o'.map Interval.wholeSeconds := by
  rcases o with _ | i <;> rcases o' with _ | j
  · rfl
  · cases heq
  · cases heq
  · have hword := Bytes.ofUInt16LE_injective (Except.ok.inj (List.cons.inj heq).1)
    have hnat := congrArg UInt16.toNat hword
    have hi := h i rfl
    have hj := h' j rfl
    have hseconds : i.seconds = j.seconds := by
      apply UInt64.toNat_inj.mp
      rw [UInt64.toNat_toUInt16, UInt64.toNat_toUInt16] at hnat
      rw [maxKeepalive] at hi hj
      omega
    simp only [Option.map_some, Interval.wholeSeconds, hseconds]

lemma ok_injective : Function.Injective (Except.ok : Bytes → Except Error Bytes) :=
  fun _ _ => Except.ok.inj

/-- The attributes of a peer determine its update but for the part of its interval below one
second. -/
lemma peer_of_octets {p q : PeerConfig} (h : SameOctets (peerItems p) (peerItems q)) :
    p.inWholeSeconds = q.inWholeSeconds := by
  obtain ⟨b, hp, hq⟩ := h
  have htagged := map_tagged_eq hp hq
  have hseconds := fun i => keepalive_le_of_encodeAll hp (i := i)
  have hseconds' := fun i => keepalive_le_of_encodeAll hq (i := i)
  rw [tagged_peerItems hseconds, tagged_peerItems hseconds'] at htagged
  have htable := spread_inj (by decide) (labels_peerTable p) (labels_peerTable q) htagged
  simp only [peerTable, List.cons.injEq, Prod.mk.injEq, true_and, and_true] at htable
  obtain ⟨hkey, hflags, hpreshared, hendpoint, hkeepalive, hnetworks⟩ := htable
  obtain ⟨hremove, hreplace, hupdate⟩ := peerFlags_tests p
  obtain ⟨hremove', hreplace', hupdate'⟩ := peerFlags_tests q
  rw [← flagValues_injective hflags] at hremove' hreplace' hupdate'
  have hsame := forall₂_of_arrayValues (exists_encodeAll_allowedIps hp) hnetworks
  have hallowed : p.allowedIps = q.allowedIps := by
    rw [← List.forall₂_eq_eq_eq]
    exact hsame.imp fun _ _ => network_of_octets
  simp only [PeerConfig.inWholeSeconds, PeerConfig.mk.injEq]
  exact ⟨Key.bytes_injective (Except.ok.inj hkey), eq_of_eq_false_iff hremove hremove',
    eq_of_eq_false_iff hupdate hupdate',
    option_eq (ok_injective.comp Key.bytes_injective) hpreshared,
    option_eq (ok_injective.comp encodeAddress_injective) hendpoint,
    keepalive_of_octets hseconds hseconds' hkeepalive, eq_of_eq_false_iff hreplace hreplace',
    hallowed⟩

/-! ### Updates -/

/-- The settings of a device in an update, its name among them. -/
def configTable (name : String) (c : Config) : List (UInt16 × List (Except Error Bytes)) :=
  [(DeviceField.name, [.ok (Utf8.ofString name ++ [0])]),
    (DeviceField.privateKey, (c.privateKey.map fun key => .ok key.bytes).toList),
    (DeviceField.listenPort, (c.listenPort.map fun port => .ok (Bytes.ofUInt16LE port)).toList),
    (DeviceField.firewallMark,
      (c.firewallMark.map fun mark => .ok (Bytes.ofUInt32LE mark)).toList),
    (DeviceField.flags, flagValues (if c.replacePeers then DeviceField.replacePeers else 0)),
    (DeviceField.peers ||| nestedFlag, arrayValues peerItems c.peers)]

/-- The kinds of the settings of a device. -/
def configLabels : List UInt16 :=
  [DeviceField.name, DeviceField.privateKey, DeviceField.listenPort, DeviceField.firewallMark,
    DeviceField.flags, DeviceField.peers ||| nestedFlag]

lemma labels_configTable (name : String) (c : Config) :
    (configTable name c).map Prod.fst = configLabels := rfl

lemma tagged_configItems (name : String) (c : Config) :
    (configItems name c).map tagged = spread (configTable name c) := by
  have hreplace : (if c.replacePeers then [Item.u32 DeviceField.flags DeviceField.replacePeers]
      else []).map tagged =
        (flagValues (if c.replacePeers then DeviceField.replacePeers else 0)).map
          (DeviceField.flags, ·) := by
    cases c.replacePeers <;> rfl
  rw [configItems, configTable, spread]
  simp only [List.map_append, hreplace, tagged_array]
  simp only [List.flatMap_cons, List.flatMap_nil, List.append_nil, Option.toList_map,
    List.map_map, List.append_assoc]
  rfl

lemma ofString_injective : Function.Injective Utf8.ofString := by
  intro s t h
  have hread := congrArg Utf8.toString? h
  rw [Utf8.toString?_ofString, Utf8.toString?_ofString] at hread
  exact Except.ok.inj hread

lemma config_of_octets {name name' : String} {c c' : Config} {b : Bytes}
    (h : encodeConfig name c = .ok b) (h' : encodeConfig name' c' = .ok b) :
    name = name' ∧ c.inWholeSeconds = c'.inWholeSeconds := by
  have htagged := map_tagged_eq h h'
  rw [tagged_configItems, tagged_configItems] at htagged
  have htable := spread_inj (by decide) (labels_configTable name c) (labels_configTable name' c')
    htagged
  simp only [configTable, List.cons.injEq, Prod.mk.injEq, true_and, and_true] at htable
  obtain ⟨hname, hkey, hport, hmark, hflags, hpeers⟩ := htable
  have hreplace : c.replacePeers = c'.replacePeers := by
    have hflag := flagValues_injective hflags
    revert hflag
    generalize c.replacePeers = replaces, c'.replacePeers = replaces'
    revert replaces replaces'
    decide
  have hsame := forall₂_of_arrayValues (exists_encodeAll_peers h) hpeers
  have hnormal : c.peers.map PeerConfig.inWholeSeconds =
      c'.peers.map PeerConfig.inWholeSeconds := by
    rw [← List.forall₂_eq_eq_eq, List.forall₂_map_left_iff, List.forall₂_map_right_iff]
    exact hsame.imp fun _ _ => peer_of_octets
  refine ⟨ofString_injective (List.append_cancel_right (Except.ok.inj hname)), ?_⟩
  simp only [Config.inWholeSeconds, Config.mk.injEq]
  exact ⟨option_eq (ok_injective.comp Key.bytes_injective) hkey,
    option_eq (ok_injective.comp Bytes.ofUInt16LE_injective) hport,
    option_eq (ok_injective.comp Bytes.ofUInt32LE_injective) hmark, hreplace, hnormal⟩

lemma peerItems_inWholeSeconds (p : PeerConfig) : peerItems p.inWholeSeconds = peerItems p := by
  rw [peerItems, peerItems, PeerConfig.inWholeSeconds]
  cases p.keepalive <;> rfl

lemma encodeConfig_inWholeSeconds (name : String) (c : Config) :
    encodeConfig name c.inWholeSeconds = encodeConfig name c := by
  have hitems : c.inWholeSeconds.peers.map peerItems = c.peers.map peerItems := by
    rw [Config.inWholeSeconds, List.map_map]
    exact congrArg (List.map · c.peers) (funext peerItems_inWholeSeconds)
  rw [encodeConfig, encodeConfig, configItems, configItems, hitems, Config.inWholeSeconds]
  simp only [List.map_eq_nil_iff]

/-- **The message of an update is faithful**: those updates have it, each for a device, that are for
the same device and equal but for the parts of their intervals below one second. -/
theorem encodeConfig_eq_iff {name name' : String} {c c' : Config} {b : Bytes}
    (h : encodeConfig name c = .ok b) :
    encodeConfig name' c' = .ok b ↔ name = name' ∧ c.inWholeSeconds = c'.inWholeSeconds := by
  constructor
  · exact config_of_octets h
  · rintro ⟨rfl, heq⟩
    rw [← encodeConfig_inWholeSeconds name c', ← heq, encodeConfig_inWholeSeconds, h]

end WireGuardControl.Netlink
