import Mathlib.Data.List.TakeWhile
import Mathlib.Tactic
import WireGuardControl.Config.Description
import WireGuardControl.Netlink.Dump
import WireGuardControl.Netlink.Request
import WireGuardControl.Proofs.Netlink.Row
import WireGuardControl.Proofs.Octets
import WireGuardControl.Proofs.Text.Utf8
/-!
A written update, read as the description of a device.

* `Attribute.key_ofRecord` and its like: a payload reads back as the value that it was written
  from.
* `SocketAddress.decode_encode`, `readNetwork_eq`, `readPeer_eq`: an endpoint, a network and the
  update of a peer read back. What each attribute makes of a peer is a step (`peerStep_publicKey`
  and its like), and the attributes of an update are a run of these (`through_publicKey` and its
  like).
* `readDevice_of_encodeConfig_takeWhile`: the message of an update describes the device of the
  update, under its name up to a zero character. `readDevice_of_encodeConfig`: under its name, if
  it has none.
-/

namespace WireGuardControl.Netlink

/-! ### Payloads -/

namespace Attribute

lemma kind_ofRecord (kind : UInt16) (payload : Bytes) :
    (ofRecord kind payload).kind = kind &&& kindMask := rfl

lemma block_ofRecord (kind : UInt16) {payload : Bytes} {width : ℕ} (h : payload.length = width)
    (what : String) : (ofRecord kind payload).block width what = .ok ⟨payload, h⟩ := by
  rw [block, dif_pos (show (ofRecord kind payload).payload.length = width from h)]
  rfl

@[simp] lemma key_ofRecord (kind : UInt16) (k : Key) : (ofRecord kind k.bytes).key = .ok k := by
  rw [key, block_ofRecord kind k.length_bytes]
  rfl

@[simp] lemma u8_ofRecord (kind : UInt16) (v : UInt8) : (ofRecord kind [v]).u8 = .ok v := by
  rw [u8, block_ofRecord kind (List.length_singleton : [v].length = 1)]
  simp [Except.map, Bytes.toNatLE]

@[simp] lemma u16_ofRecord (kind v : UInt16) :
    (ofRecord kind (Bytes.ofUInt16LE v)).u16 = .ok v := by
  rw [u16, block_ofRecord kind (Bytes.length_ofUInt16LE v)]
  simp [Except.map]

@[simp] lemma u32_ofRecord (kind : UInt16) (v : UInt32) :
    (ofRecord kind (Bytes.ofUInt32LE v)).u32 = .ok v := by
  rw [u32, block_ofRecord kind (Bytes.length_ofUInt32LE v)]
  simp [Except.map]

@[simp] lemma u64_ofRecord (kind : UInt16) (v : UInt64) :
    (ofRecord kind (Bytes.ofUInt64LE v)).u64 = .ok v := by
  rw [u64, block_ofRecord kind (Bytes.length_ofUInt64LE v)]
  simp [Except.map]

/-- A text reads back up to its first zero character. -/
lemma string_ofRecord_takeWhile (kind : UInt16) (s : String) :
    (ofRecord kind (Text.Utf8.ofString s ++ [0])).string =
      .ok (String.ofList (s.toList.takeWhile (· != '\x00'))) := by
  have hpayload : (ofRecord kind (Text.Utf8.ofString s ++ [0])).payload.untilNul =
      Text.Utf8.ofString (String.ofList (s.toList.takeWhile (· != '\x00'))) :=
    Text.Utf8.untilNul_ofString_append_zero s
  rw [string, hpayload, Text.Utf8.toString?_ofString]

@[simp] lemma ipAddress_ofRecord (kind : UInt16) (x : IpAddress) :
    (ofRecord kind x.octets).ipAddress = .ok x := by
  cases x with
  | v4 x =>
      have hlen : (ofRecord kind (IpAddress.v4 x).octets).payload.length = 4 := x.length_octets
      rw [ipAddress, dif_pos hlen]
      rfl
  | v6 x =>
      have hlen : (ofRecord kind (IpAddress.v6 x).octets).payload.length = 16 := x.length_octets
      rw [ipAddress, dif_neg (by omega), dif_pos hlen]
      exact congrArg (fun x => Except.ok (IpAddress.v6 x)) x.ofOctets_octets

end Attribute

/-! ### Endpoints -/

/-- An endpoint reads back with all of its parts. -/
lemma SocketAddress.decode_encode (e : Endpoint) : decode (encode e) = .ok e := by
  cases e with
  | v4 x port =>
      have hlen : (encode (.v4 x port)).length = 16 := by simp [encode]
      have haddress : (encode (.v4 x port)).field 4 4 = x.octets := by
        rw [encode, List.append_assoc]
        exact Bytes.field_append (by simp) rfl
      have hport : (encode (.v4 x port)).field 2 2 = Bytes.ofUInt16BE port := by
        rw [encode, List.append_assoc, List.append_assoc]
        exact Bytes.field_append (by simp) (by simp)
      rw [decode, dif_pos hlen, decodeV4]
      simp only [Block.field, hport, Bytes.toUInt16BE_ofUInt16BE, IPv4.ofOctets_of_eq haddress]
  | v6 x port flow scope =>
      have hlen : (encode (.v6 x port flow scope)).length = 28 := by simp [encode]
      have hport : (encode (.v6 x port flow scope)).field 2 2 = Bytes.ofUInt16BE port := by
        rw [encode, List.append_assoc, List.append_assoc, List.append_assoc]
        exact Bytes.field_append (by simp) (by simp)
      have hflow : (encode (.v6 x port flow scope)).field 4 4 = Bytes.ofUInt32BE flow := by
        rw [encode, List.append_assoc, List.append_assoc]
        exact Bytes.field_append (by simp) (by simp)
      have haddress : (encode (.v6 x port flow scope)).field 8 16 = x.octets := by
        rw [encode, List.append_assoc]
        exact Bytes.field_append (by simp) (by simp)
      have hscope : (encode (.v6 x port flow scope)).field 24 4 = Bytes.ofUInt32LE scope := by
        rw [encode, ← List.append_nil (Bytes.ofUInt32LE scope)]
        exact Bytes.field_append (by simp) (by simp)
      rw [decode, dif_neg (by omega), dif_pos hlen, decodeV6]
      simp only [Block.field, hport, hflow, hscope, Bytes.toUInt16BE_ofUInt16BE,
        Bytes.toUInt32BE_ofUInt32BE, Bytes.toUInt32LE_ofUInt32LE, IPv6.ofOctets_of_eq haddress]

/-! ### Networks -/

/-- The family of an address. -/
def familyOf (x : IpAddress) : UInt16 := if x.isIPv4 then familyIPv4 else familyIPv6

lemma step_family (d : NetworkDraft) (v : UInt16) :
    d.step (Attribute.ofRecord NetworkField.family (Bytes.ofUInt16LE v)) =
      .ok { d with family := some v } := by
  rw [NetworkDraft.step, Attribute.kind_ofRecord, if_pos (by decide), Attribute.u16_ofRecord]
  rfl

lemma step_address (d : NetworkDraft) (x : IpAddress) :
    d.step (Attribute.ofRecord NetworkField.address x.octets) =
      .ok { d with address := some x } := by
  rw [NetworkDraft.step, Attribute.kind_ofRecord, if_neg (by decide), if_pos (by decide),
    Attribute.ipAddress_ofRecord]
  rfl

lemma step_bits (d : NetworkDraft) (v : UInt8) :
    d.step (Attribute.ofRecord NetworkField.bits [v]) = .ok { d with bits := some v } := by
  rw [NetworkDraft.step, Attribute.kind_ofRecord, if_neg (by decide), if_neg (by decide),
    if_pos (by decide), Attribute.u8_ofRecord]
  rfl

lemma through_networkItems (n : Network) :
    Item.through NetworkDraft.step {} (networkItems n) =
      .ok ⟨some (familyOf n.address), some n.address, some (UInt8.ofNat n.bits)⟩ := by
  rw [networkItems, Item.through_cons, Item.u16, Item.asRead_plain]
  simp only [Except.bind, step_family]
  rw [Item.through_cons, Item.asRead_plain]
  simp only [Except.bind, step_address]
  rw [Item.through_cons, Item.u8, Item.asRead_plain]
  simp only [Except.bind, step_bits, Item.through_nil, familyOf]

lemma finish_ofNetwork (n : Network) :
    NetworkDraft.finish ⟨some (familyOf n.address), some n.address, some (UInt8.ofNat n.bits)⟩ =
      .ok n := by
  have hbits : (UInt8.ofNat n.bits).toNat = n.bits := by
    have hle := n.bits_le
    rw [UInt8.toNat_ofNat']
    omega
  simp only [NetworkDraft.finish, familyOf, Option.filter_some, ne_eq, not_true_eq_false,
    decide_false, Bool.false_eq_true, if_false, Option.map_some, Option.getD_some, hbits,
    Network.ofAddress?_address]

/-- A written network reads back. -/
lemma readNetwork_eq (n : Network) {a : Attribute}
    (h : Item.encodeAll (networkItems n) = .ok a.payload) : readNetwork a = .ok n := by
  rw [readNetwork, Attribute.children, Item.foldM_ofBytes_encodeAll h, through_networkItems]
  exact finish_ofNetwork n

/-! ### Peers -/

lemma peerStep_publicKey (p : Peer) (k : Key) :
    peerStep p (Attribute.ofRecord PeerField.publicKey k.bytes) =
      .ok { p with publicKey := k } := by
  rw [peerStep, Attribute.kind_ofRecord, if_pos (by decide), Attribute.key_ofRecord]
  rfl

lemma peerStep_presharedKey (p : Peer) (k : Key) :
    peerStep p (Attribute.ofRecord PeerField.presharedKey k.bytes) =
      .ok { p with presharedKey := k } := by
  rw [peerStep, Attribute.kind_ofRecord, if_neg (by decide), if_pos (by decide),
    Attribute.key_ofRecord]
  rfl

lemma peerStep_flags (p : Peer) (b : Bytes) :
    peerStep p (Attribute.ofRecord PeerField.flags b) = .ok p := by
  rw [peerStep, Attribute.kind_ofRecord]
  iterate 9 rw [if_neg (by decide)]
  rfl

lemma peerStep_endpoint (p : Peer) (e : Endpoint) :
    peerStep p (Attribute.ofRecord PeerField.endpoint (SocketAddress.encode e)) =
      .ok { p with endpoint := some e } := by
  rw [peerStep, Attribute.kind_ofRecord]
  iterate 2 rw [if_neg (by decide)]
  rw [if_pos (by decide), Attribute.ofRecord, SocketAddress.decode_encode]
  rfl

lemma peerStep_keepalive (p : Peer) {i : Interval} (hi : i.seconds.toNat ≤ maxKeepalive) :
    (keepaliveItem i).asRead.bind (peerStep p) = .ok { p with keepalive := i.wholeSeconds } := by
  have hseconds : i.seconds.toUInt16.toUInt64 = i.seconds := by
    rw [maxKeepalive] at hi
    rw [← UInt64.toNat_inj, UInt16.toNat_toUInt64, UInt64.toNat_toUInt16]
    omega
  rw [keepaliveItem, if_pos hi, Item.u16, Item.asRead_plain]
  change peerStep p _ = _
  rw [peerStep, Attribute.kind_ofRecord]
  iterate 3 rw [if_neg (by decide)]
  rw [if_pos (by decide), Attribute.u16_ofRecord, Interval.wholeSeconds]
  change Except.ok _ = _
  rw [hseconds]

lemma peerStep_allowedIps (p : Peer) {ns : List Network} {b : Bytes}
    (h : Item.encodeAll (Item.entries 0 (ns.map networkItems)) = .ok b) :
    peerStep p (Attribute.ofRecord (PeerField.allowedIps ||| nestedFlag) b) =
      .ok { p with allowedIps := p.allowedIps ++ ns } := by
  have hread := Item.collect_ofBytes_entries (g := id) h fun n _ a ha => readNetwork_eq n ha
  rw [peerStep, Attribute.kind_ofRecord]
  iterate 7 rw [if_neg (by decide)]
  rw [if_pos (by decide), Attribute.children, Attribute.ofRecord, hread, List.map_id]
  rfl

/-- A written interval of keepalives has room. -/
lemma keepalive_le_of_encodeAll {p : PeerConfig} {b : Bytes}
    (h : Item.encodeAll (peerItems p) = .ok b) {i : Interval} (hi : p.keepalive = some i) :
    i.seconds.toNat ≤ maxKeepalive := by
  by_contra hgt
  refine Item.refused_notMem h (.invalidArgument
    s!"persistent keepalive interval {i.seconds}s exceeds {maxKeepalive}s") ?_
  rw [peerItems, hi]
  simp [keepaliveItem, hgt]

/-- The networks of a written update are written. -/
lemma exists_encodeAll_allowedIps {p : PeerConfig} {b : Bytes}
    (h : Item.encodeAll (peerItems p) = .ok b) (hne : p.allowedIps ≠ []) :
    ∃ b', Item.encodeAll (Item.entries 0 (p.allowedIps.map networkItems)) = .ok b' := by
  refine Item.exists_encodeAll_of_nested_mem h (?_ : Item.nested PeerField.allowedIps _ ∈ _)
  rw [peerItems]
  simp [hne]

lemma through_publicKey (q : Peer) (k : Key) :
    Item.through peerStep q [.plain PeerField.publicKey k.bytes] =
      .ok { q with publicKey := k } := by
  rw [Item.through_cons, Item.asRead_plain]
  simp only [Except.bind, peerStep_publicKey, Item.through_nil]

lemma through_flags (q : Peer) (flags : UInt32) :
    Item.through peerStep q (if flags = 0 then [] else [.u32 PeerField.flags flags]) = .ok q := by
  refine Item.through_ite (fun _ => rfl) fun _ => ?_
  rw [Item.u32, Item.asRead_plain]
  exact peerStep_flags q _

lemma through_presharedKey (q : Peer) (key : Option Key) :
    Item.through peerStep q (key.map fun k => Item.plain PeerField.presharedKey k.bytes).toList =
      .ok (key.elim q fun k => { q with presharedKey := k }) :=
  Item.through_toList_plain peerStep_presharedKey q key

lemma through_endpoint (q : Peer) (endpoint : Option Endpoint) :
    Item.through peerStep q
        (endpoint.map fun e => Item.plain PeerField.endpoint (SocketAddress.encode e)).toList =
      .ok (endpoint.elim q fun e => { q with endpoint := some e }) :=
  Item.through_toList_plain peerStep_endpoint q endpoint

lemma through_keepalive (q : Peer) {keepalive : Option Interval}
    (h : ∀ i, keepalive = some i → i.seconds.toNat ≤ maxKeepalive) :
    Item.through peerStep q (keepalive.map keepaliveItem).toList =
      .ok (keepalive.elim q fun i => { q with keepalive := i.wholeSeconds }) := by
  apply Item.through_toList
  intro i hi
  exact peerStep_keepalive q (h i hi)

lemma through_allowedIps (q : Peer) {ns : List Network}
    (h : ns ≠ [] → ∃ b, Item.encodeAll (Item.entries 0 (ns.map networkItems)) = .ok b) :
    Item.through peerStep q (if ns = [] then []
        else [.nested PeerField.allowedIps (Item.entries 0 (ns.map networkItems))]) =
      .ok { q with allowedIps := q.allowedIps ++ ns } := by
  refine Item.through_ite (fun hnil => by rw [hnil, List.append_nil]) fun hne => ?_
  obtain ⟨b, hb⟩ := h hne
  rw [Item.asRead_nested hb]
  exact peerStep_allowedIps q hb

/-- The update of a peer that could be written reads back as the peer that it describes. -/
lemma readPeer_eq (p : PeerConfig) {a : Attribute}
    (h : Item.encodeAll (peerItems p) = .ok a.payload) : readPeer a = .ok p.described := by
  have hkeepalive := fun q =>
    through_keepalive q fun i (hi : p.keepalive = some i) => keepalive_le_of_encodeAll h hi
  have hnets := fun q => through_allowedIps q (exists_encodeAll_allowedIps h)
  rw [readPeer, Attribute.children, Item.foldM_ofBytes_encodeAll h, peerItems]
  simp only [Item.through_append, Except.bind, through_publicKey, through_flags,
    through_presharedKey, through_endpoint, hkeepalive, hnets]
  rcases p with ⟨_, _, _, _ | _, _ | _, _ | _, _, _⟩ <;> rfl

/-! ### Devices -/

/-- A name is read up to its first zero character. -/
lemma deviceStep_name (d : Device) (name : String) :
    deviceStep d (Attribute.ofRecord DeviceField.name (Text.Utf8.ofString name ++ [0])) =
      .ok { d with name := String.ofList (name.toList.takeWhile (· != '\x00')) } := by
  rw [deviceStep, Attribute.kind_ofRecord, if_pos (by decide), Attribute.string_ofRecord_takeWhile]
  rfl

lemma deviceStep_privateKey (d : Device) (k : Key) :
    deviceStep d (Attribute.ofRecord DeviceField.privateKey k.bytes) =
      .ok { d with privateKey := k } := by
  rw [deviceStep, Attribute.kind_ofRecord, if_neg (by decide), if_pos (by decide),
    Attribute.key_ofRecord]
  rfl

lemma deviceStep_listenPort (d : Device) (v : UInt16) :
    deviceStep d (Attribute.ofRecord DeviceField.listenPort (Bytes.ofUInt16LE v)) =
      .ok { d with listenPort := v } := by
  rw [deviceStep, Attribute.kind_ofRecord]
  iterate 3 rw [if_neg (by decide)]
  rw [if_pos (by decide), Attribute.u16_ofRecord]
  rfl

lemma deviceStep_firewallMark (d : Device) (v : UInt32) :
    deviceStep d (Attribute.ofRecord DeviceField.firewallMark (Bytes.ofUInt32LE v)) =
      .ok { d with firewallMark := v } := by
  rw [deviceStep, Attribute.kind_ofRecord]
  iterate 4 rw [if_neg (by decide)]
  rw [if_pos (by decide), Attribute.u32_ofRecord]
  rfl

lemma deviceStep_flags (d : Device) (b : Bytes) :
    deviceStep d (Attribute.ofRecord DeviceField.flags b) = .ok d := by
  rw [deviceStep, Attribute.kind_ofRecord]
  iterate 6 rw [if_neg (by decide)]
  rfl

lemma deviceStep_peers (d : Device) {ps : List PeerConfig} {b : Bytes}
    (h : Item.encodeAll (Item.entries 0 (ps.map peerItems)) = .ok b) :
    deviceStep d (Attribute.ofRecord (DeviceField.peers ||| nestedFlag) b) =
      .ok { d with peers := ps.map (·.described) } := by
  have hread := Item.collect_ofBytes_entries h fun p _ a ha => readPeer_eq p ha
  rw [deviceStep, Attribute.kind_ofRecord]
  iterate 5 rw [if_neg (by decide)]
  rw [if_pos (by decide), Attribute.children, Attribute.ofRecord, hread]
  rfl

lemma through_name (d : Device) (name : String) :
    Item.through deviceStep d [.string DeviceField.name name] =
      .ok { d with name := String.ofList (name.toList.takeWhile (· != '\x00')) } := by
  rw [Item.through_cons, Item.string, Item.asRead_plain]
  simp only [Except.bind, deviceStep_name, Item.through_nil]

lemma through_privateKey (d : Device) (key : Option Key) :
    Item.through deviceStep d (key.map fun k => Item.plain DeviceField.privateKey k.bytes).toList =
      .ok (key.elim d fun k => { d with privateKey := k }) :=
  Item.through_toList_plain deviceStep_privateKey d key

lemma through_listenPort (d : Device) (port : Option UInt16) :
    Item.through deviceStep d (port.map (Item.u16 DeviceField.listenPort)).toList =
      .ok (port.elim d fun v => { d with listenPort := v }) :=
  Item.through_toList_plain deviceStep_listenPort d port

lemma through_firewallMark (d : Device) (mark : Option UInt32) :
    Item.through deviceStep d (mark.map (Item.u32 DeviceField.firewallMark)).toList =
      .ok (mark.elim d fun v => { d with firewallMark := v }) :=
  Item.through_toList_plain deviceStep_firewallMark d mark

lemma through_replacePeers (d : Device) (replace : Bool) :
    Item.through deviceStep d
        (if replace then [.u32 DeviceField.flags DeviceField.replacePeers] else []) = .ok d := by
  cases replace with
  | false => rfl
  | true =>
      rw [if_pos rfl, Item.through_cons, Item.u32, Item.asRead_plain]
      simp only [Except.bind, deviceStep_flags, Item.through_nil]

lemma through_peers {d : Device} (hd : d.peers = []) {ps : List PeerConfig}
    (h : ps ≠ [] → ∃ b, Item.encodeAll (Item.entries 0 (ps.map peerItems)) = .ok b) :
    Item.through deviceStep d (if ps = [] then []
        else [.nested DeviceField.peers (Item.entries 0 (ps.map peerItems))]) =
      .ok { d with peers := ps.map (·.described) } := by
  refine Item.through_ite (fun hnil => by rw [hnil, List.map_nil, ← hd]) fun hne => ?_
  obtain ⟨b, hb⟩ := h hne
  rw [Item.asRead_nested hb]
  exact deviceStep_peers d hb

/-- The updates of peers of a written update are written. -/
lemma exists_encodeAll_peers {name : String} {c : Config} {b : Bytes}
    (h : encodeConfig name c = .ok b) (hne : c.peers ≠ []) :
    ∃ b', Item.encodeAll (Item.entries 0 (c.peers.map peerItems)) = .ok b' := by
  refine Item.exists_encodeAll_of_nested_mem h (?_ : Item.nested DeviceField.peers _ ∈ _)
  rw [configItems]
  simp [hne]

/-- **A written update reads back**: the message of an update, taken for the description of a
device, describes the device of the update, under its name up to the first zero character. -/
lemma readDevice_of_encodeConfig_takeWhile {name : String} {c : Config} {b : Bytes}
    (h : encodeConfig name c = .ok b) :
    readDevice b =
      .ok (c.described (String.ofList (name.toList.takeWhile (· != '\x00'))) .linuxKernel) := by
  have hrow := Item.foldM_ofBytes_encodeAll (f := deviceStep) h { deviceType := .linuxKernel }
  have hpeers := fun d hd => through_peers (d := d) hd (exists_encodeAll_peers h)
  rw [readDevice, hrow, configItems]
  simp only [Item.through_append, Except.bind, through_name, through_privateKey,
    through_listenPort, through_firewallMark, through_replacePeers]
  rcases c with ⟨_ | _, _ | _, _ | _, _, _⟩ <;> exact hpeers _ rfl

/-- An update under a name without zero characters reads back under this name. -/
lemma readDevice_of_encodeConfig {name : String} (hname : '\x00' ∉ name.toList) {c : Config}
    {b : Bytes} (h : encodeConfig name c = .ok b) :
    readDevice b = .ok (c.described name .linuxKernel) := by
  have hwhole : name.toList.takeWhile (· != '\x00') = name.toList := by
    rw [List.takeWhile_eq_self_iff]
    intro c hc
    simpa using fun hzero : c = '\x00' => hname (hzero ▸ hc)
  rw [readDevice_of_encodeConfig_takeWhile h, hwhole, String.ofList_toList]

end WireGuardControl.Netlink
