import Mathlib.Tactic
import WireGuardControl.Config.Description
import WireGuardControl.Proofs.Failing
import WireGuardControl.Proofs.Octets
import WireGuardControl.Proofs.OpenBsd.Filling
/-!
Updates read back from their records.

* `readRecords`: a device at the head of a row of octets together with what follows it, and
  `readDevice_eq`: what is read from a row is what stands at its head.
* `readRecords_append`: what follows a device does not change how it is read.
* `readRecords_configRow`: a written update reads back as the device that it describes, up to its
  last octet and not further.
* `readDevice_encodeConfig`: which updates are written, how long the buffer is, and what is read
  from it and from a part of it.
-/

namespace WireGuardControl.OpenBsd

/-! ### Readers and what follows -/

/-- Reads the device `name` at the head of a row of records, and gives what follows it. -/
def readRecords (name : String) (b : Bytes) : Except Error (Device × Bytes) := do
  let (record, rest) ← takeRecord interfaceLength "wg_interface_io" b
  let d ← readInterface name record
  let (peers, rest) ← readPeers (Bytes.toNatLE (record.field 72 8)) rest
  return ({ d with peers := peers }, rest)

lemma readDevice_eq (name : String) (b : Bytes) :
    readDevice name b = (readRecords name b).map Prod.fst := by
  rw [readDevice, readRecords]
  cases takeRecord interfaceLength "wg_interface_io" b with
  | error e => rfl
  | ok taken =>
      simp only [bind, Except.bind]
      cases readInterface name taken.1 with
      | error e => rfl
      | ok d => cases readPeers (Bytes.toNatLE (taken.1.field 72 8)) taken.2 <;> rfl

lemma takeRecord_eq_ok {n : ℕ} {what : String} {b rest : Bytes} {record : Block n} :
    takeRecord n what b = .ok (record, rest) ↔ b = record.bytes ++ rest := by
  rw [takeRecord, Block.split?]
  constructor
  · intro h
    split_ifs at h with hlength
    obtain ⟨rfl, rfl⟩ := Prod.mk.inj (Except.ok.inj h)
    exact (List.take_append_drop n b).symm
  · rintro rfl
    have htake : (record.bytes ++ rest).take n = record.bytes :=
      List.take_left' record.length_bytes
    have hdrop : (record.bytes ++ rest).drop n = rest := List.drop_left' record.length_bytes
    simp only [htake, hdrop, record.length_bytes, ↓reduceDIte]

lemma takeRecord_bytes_append {n : ℕ} (what : String) (record : Block n) (rest : Bytes) :
    takeRecord n what (record.bytes ++ rest) = .ok (record, rest) :=
  takeRecord_eq_ok.mpr rfl

lemma takeRecord_append {n : ℕ} {what : String} {b rest : Bytes} {record : Block n}
    (h : takeRecord n what b = .ok (record, rest)) (more : Bytes) :
    takeRecord n what (b ++ more) = .ok (record, rest ++ more) := by
  rw [takeRecord_eq_ok.mp h, List.append_assoc, takeRecord_bytes_append]

lemma readNetworks_append {count : ℕ} {b rest : Bytes} {ns : List Network}
    (h : readNetworks count b = .ok (ns, rest)) (more : Bytes) :
    readNetworks count (b ++ more) = .ok (ns, rest ++ more) := by
  induction count generalizing b ns with
  | zero =>
      obtain ⟨rfl, rfl⟩ := Prod.mk.inj (Except.ok.inj h)
      rfl
  | succ count ih =>
      rw [readNetworks] at h ⊢
      obtain ⟨⟨record, tail⟩, htaken, h⟩ := Except.bind_eq_ok_iff.mp h
      obtain ⟨n, hread, h⟩ := Except.bind_eq_ok_iff.mp h
      obtain ⟨⟨networks, tail'⟩, hrest, h⟩ := Except.bind_eq_ok_iff.mp h
      obtain ⟨rfl, rfl⟩ := Prod.mk.inj (Except.ok.inj h)
      rw [takeRecord_append htaken]
      simp only [bind, Except.bind]
      rw [hread]
      simp only
      rw [ih hrest]
      rfl

lemma readPeer_append {b rest : Bytes} {p : Peer} (h : readPeer b = .ok (p, rest))
    (more : Bytes) : readPeer (b ++ more) = .ok (p, rest ++ more) := by
  rw [readPeer] at h ⊢
  obtain ⟨⟨record, tail⟩, htaken, h⟩ := Except.bind_eq_ok_iff.mp h
  obtain ⟨q, hread, h⟩ := Except.bind_eq_ok_iff.mp h
  obtain ⟨⟨networks, tail'⟩, hnetworks, h⟩ := Except.bind_eq_ok_iff.mp h
  obtain ⟨rfl, rfl⟩ := Prod.mk.inj (Except.ok.inj h)
  rw [takeRecord_append htaken]
  simp only [bind, Except.bind]
  rw [hread]
  simp only
  rw [readNetworks_append hnetworks]
  rfl

lemma readPeers_append {count : ℕ} {b rest : Bytes} {ps : List Peer}
    (h : readPeers count b = .ok (ps, rest)) (more : Bytes) :
    readPeers count (b ++ more) = .ok (ps, rest ++ more) := by
  induction count generalizing b ps with
  | zero =>
      obtain ⟨rfl, rfl⟩ := Prod.mk.inj (Except.ok.inj h)
      rfl
  | succ count ih =>
      rw [readPeers] at h ⊢
      obtain ⟨⟨p, tail⟩, hread, h⟩ := Except.bind_eq_ok_iff.mp h
      obtain ⟨⟨peers, tail'⟩, hrest, h⟩ := Except.bind_eq_ok_iff.mp h
      obtain ⟨rfl, rfl⟩ := Prod.mk.inj (Except.ok.inj h)
      rw [readPeer_append hread]
      simp only [bind, Except.bind]
      rw [ih hrest]
      rfl

/-- **What follows a device** does not change how it is read. -/
theorem readRecords_append {name : String} {b rest : Bytes} {d : Device}
    (h : readRecords name b = .ok (d, rest)) (more : Bytes) :
    readRecords name (b ++ more) = .ok (d, rest ++ more) := by
  rw [readRecords] at h ⊢
  obtain ⟨⟨record, tail⟩, htaken, h⟩ := Except.bind_eq_ok_iff.mp h
  obtain ⟨interface, hread, h⟩ := Except.bind_eq_ok_iff.mp h
  obtain ⟨⟨peers, tail'⟩, hpeers, h⟩ := Except.bind_eq_ok_iff.mp h
  obtain ⟨rfl, rfl⟩ := Prod.mk.inj (Except.ok.inj h)
  rw [takeRecord_append htaken]
  simp only [bind, Except.bind]
  rw [hread]
  simp only
  rw [readPeers_append hpeers]
  rfl

/-! ### Numbers and addresses -/

lemma ofNat_toNatLE_singleton (x : UInt8) : UInt8.ofNat (Bytes.toNatLE [x]) = x := by
  simp [Bytes.toNatLE]

lemma toInt_toInt32 {x : UInt32} (h : x.toNat ≤ 2147483647) : x.toInt32.toInt = x.toNat := by
  have hlt : 2 * x.toBitVec.toNat < 2 ^ 32 := by
    change 2 * x.toNat < 2 ^ 32
    omega
  exact BitVec.toInt_eq_toNat_of_lt hlt

/-- A number of thirty-one bits reads back as the signed number that it is. -/
lemma toInt_toInt32LE {m : ℕ} (h : m ≤ 2147483647) :
    (Bytes.toInt32LE (Bytes.ofNatLE 4 m)).toInt = m := by
  have hm : (UInt32.ofNat m).toNat = m := UInt32.toNat_ofNat_of_lt' (by rw [UInt32.size]; omega)
  have hword : Bytes.toUInt32LE (Bytes.ofNatLE 4 m) = UInt32.ofNat m := by
    have hround := Bytes.toUInt32LE_ofUInt32LE (UInt32.ofNat m)
    rwa [Bytes.ofUInt32LE, hm] at hround
  rw [Bytes.toInt32LE, hword, toInt_toInt32 (by omega), hm]

lemma keyAt_eq {n : ℕ} {block : Block n} {start : ℕ} {h : start + 32 ≤ n} {k : Key}
    (hk : block.field start 32 = k.bytes) : keyAt block start h = k := by
  cases k
  simp only [keyAt, hk]

lemma toNatLE_ofNatLE_of_lt {count : ℕ} (h : count < 2 ^ 64) :
    Bytes.toNatLE (Bytes.ofNatLE 8 count) = count := by
  rw [Bytes.toNatLE_ofNatLE]
  exact Nat.mod_eq_of_lt (h.trans_eq (by decide))

/-! ### Endpoints and networks -/

lemma block_field {n : ℕ} {block : Block n} {fields : List Bytes}
    (h : block.bytes = fields.flatten) (i : ℕ) {x : Bytes} {offset width : ℕ}
    (hx : fields[i]? = some x) (hwidth : x.length = width)
    (hoffset : ((fields.take i).map List.length).sum = offset) : block.field offset width = x := by
  rw [Block.field, h, Bytes.field_flatten i hx hwidth hoffset]

lemma readEndpoint_encodeEndpoint (e : Endpoint) (block : Block endpointLength)
    (h : block.bytes = encodeEndpoint e) : readEndpoint block = .ok e := by
  rw [encodeEndpoint_eq] at h
  cases e with
  | v4 x port =>
      have hfamily : block.field 1 1 = [familyIPv4] := block_field h 1 rfl rfl rfl
      have hport : block.field 2 2 = Bytes.ofUInt16BE port := block_field h 2 rfl (by simp) rfl
      have haddress : block.field 4 4 = x.octets :=
        block_field h 3 rfl rfl (by simp [endpointFields])
      rw [readEndpoint, hfamily, hport, ofNat_toNatLE_singleton, if_pos rfl,
        IPv4.ofOctets_of_eq haddress, Bytes.toUInt16BE_ofUInt16BE]
  | v6 x port flow scope =>
      have hfamily : block.field 1 1 = [familyIPv6] := block_field h 1 rfl rfl rfl
      have hport : block.field 2 2 = Bytes.ofUInt16BE port := block_field h 2 rfl (by simp) rfl
      have hflow : block.field 4 4 = Bytes.ofUInt32BE flow :=
        block_field h 3 rfl (by simp) (by simp [endpointFields])
      have haddress : block.field 8 16 = x.octets :=
        block_field h 4 rfl (by simp) (by simp [endpointFields])
      have hscope : block.field 24 4 = Bytes.ofUInt32LE scope :=
        block_field h 5 rfl (by simp) (by simp [endpointFields])
      rw [readEndpoint, hfamily, hport, ofNat_toNatLE_singleton, if_neg (by decide), if_pos rfl,
        hflow, hscope, IPv6.ofOctets_of_eq haddress, Bytes.toUInt16BE_ofUInt16BE,
        Bytes.toUInt32BE_ofUInt32BE, Bytes.toUInt32LE_ofUInt32LE]

/-- The record of a network. -/
def networkBlock (n : Network) : Block networkLength :=
  ⟨encodeNetwork n, length_encodeNetwork n⟩

lemma readNetwork_networkBlock (n : Network) : readNetwork (networkBlock n) = .ok n := by
  have h : (networkBlock n).bytes = (networkFields n).flatten := encodeNetwork_eq n
  have hfamily : (networkBlock n).field 0 1 =
      [if n.address.isIPv4 then familyIPv4 else familyIPv6] := block_field h 0 rfl rfl rfl
  have hbits : (networkBlock n).field 4 4 = Bytes.ofNatLE 4 n.bits :=
    block_field h 2 rfl (by simp) rfl
  have hvalue : (Bytes.toInt32LE (Bytes.ofNatLE 4 n.bits)).toInt = n.bits :=
    toInt_toInt32LE (n.bits_le.trans (by decide))
  have hinside : ¬ (Bytes.toInt32LE (Bytes.ofNatLE 4 n.bits) < 0 ∨
      255 < Bytes.toInt32LE (Bytes.ofNatLE 4 n.bits)) := by
    have hle := n.bits_le
    rw [Int32.lt_iff_toInt_lt, Int32.lt_iff_toInt_lt, hvalue]
    change ¬ ((n.bits : ℤ) < 0 ∨ 255 < (n.bits : ℤ))
    omega
  have hround := Network.ofAddress?_address n
  rw [readNetwork, hbits, hfamily, ofNat_toNatLE_singleton, if_neg hinside, hvalue,
    Int.toNat_natCast]
  cases n with
  | v4 x bits =>
      have haddress : (networkBlock (.v4 x bits)).field 8 4 = x.octets :=
        block_field h 3 rfl rfl (by simp [networkFields])
      simp only [Network.address, IpAddress.isIPv4, if_true, IPv4.ofOctets_of_eq haddress]
        at hround ⊢
      rw [hround]
  | v6 x bits =>
      have haddress : (networkBlock (.v6 x bits)).field 8 16 = x.octets :=
        block_field h 3 rfl (IPv6.length_octets x)
          (by simp [networkFields])
      have hne : familyIPv6 ≠ familyIPv4 := by decide
      simp only [Network.address, IpAddress.isIPv4, Bool.false_eq_true, if_false, if_neg hne,
        if_true, IPv6.ofOctets_of_eq haddress] at hround ⊢
      rw [hround]

lemma readNetworks_flatMap (ns : List Network) (rest : Bytes) :
    readNetworks ns.length (ns.flatMap encodeNetwork ++ rest) = .ok (ns, rest) := by
  induction ns with
  | nil => rfl
  | cons n ns ih =>
      have htaken := takeRecord_bytes_append "wg_aip_io" (networkBlock n)
        (ns.flatMap encodeNetwork ++ rest)
      rw [List.flatMap_cons, List.append_assoc, List.length_cons, readNetworks]
      change takeRecord _ _ (encodeNetwork n ++ _) = _ at htaken
      rw [htaken]
      simp only [bind, Except.bind]
      rw [readNetwork_networkBlock]
      simp only
      rw [ih]
      rfl

/-! ### Peers -/

/-- The record of the update of a peer. -/
def peerBlock (p : PeerConfig) : Block peerLength :=
  ⟨(peerFields p (secondsField p)).flatten, length_peerFields p (secondsField p)⟩

lemma peerBlock_eq (p : PeerConfig) :
    (peerBlock p).bytes = (peerFields p (secondsField p)).flatten :=
  rfl

lemma readEndpoint_endpointField {p : PeerConfig} {e : Endpoint} (he : p.endpoint = some e)
    (block : Block endpointLength) (h : block.bytes = endpointField p) :
    readEndpoint block = .ok e := by
  refine readEndpoint_encodeEndpoint e block ?_
  rw [h, endpointField, he]
  rfl

lemma ofSeconds_secondsField {p : PeerConfig}
    (h : ∀ i, p.keepalive = some i → i.seconds.toNat ≤ 65535) :
    Interval.ofSeconds (secondsField p).toUInt64 =
      (p.keepalive.getD Interval.zero).wholeSeconds := by
  have hle : (p.keepalive.getD Interval.zero).seconds.toNat ≤ 65535 := by
    cases hk : p.keepalive with
    | none => decide
    | some i => exact h i hk
  rw [Interval.wholeSeconds, secondsField]
  congr 1
  apply UInt64.toNat_inj.mp
  rw [UInt16.toNat_toUInt64, UInt64.toNat_toUInt16]
  omega

/-- A flag that tells whether there is a value does not matter for a value that is given. -/
lemma ite_getD {α β : Type} {P : Prop} [Decidable P] {o : Option α} {d : α} (f : α → β)
    (h : P ↔ o.isSome = false) : (if P then f d else f (o.getD d)) = f (o.getD d) := by
  cases o with
  | none => exact ite_self _
  | some x => exact if_neg (by simp [h])

/-- The counters in the record of an update are zero. -/
lemma peerBlock_counter (p : PeerConfig) {i : ℕ} (hi : i + 8 ≤ 32) :
    (peerBlock p).field (104 + i) 8 = zeros 8 := by
  have hcounters : (peerBlock p).field 104 32 = zeros 32 :=
    block_field (peerBlock_eq p) 7 rfl (by simp)
      (by simp [peerFields, Key.length_bytes, endpointLength])
  rw [Block.field, ← Bytes.field_field _ hi, ← Block.field, hcounters, Bytes.field, zeros,
    List.drop_replicate, List.take_replicate, min_eq_left (by omega)]
  rfl

lemma keyAt_presharedKey (p : PeerConfig) :
    (if peerFlags p &&& peerHasPresharedKey = 0 then Key.zero
      else keyAt (peerBlock p) 40 (by decide)) = p.presharedKey.getD Key.zero := by
  have hfield : (peerBlock p).field 40 32 = (p.presharedKey.getD Key.zero).bytes :=
    block_field (peerBlock_eq p) 3 rfl (Key.length_bytes _) (by simp [peerFields, Key.length_bytes])
  obtain ⟨-, hflag, -⟩ := peerFlags_tests p
  rw [keyAt_eq hfield]
  exact ite_getD id hflag

lemma ofSeconds_keepalive {p : PeerConfig}
    (h : ∀ i, p.keepalive = some i → i.seconds.toNat ≤ 65535) :
    (if peerFlags p &&& peerHasKeepalive = 0 then Interval.zero
      else Interval.ofSeconds (Bytes.toUInt16LE ((peerBlock p).field 72 2)).toUInt64) =
        (p.keepalive.getD Interval.zero).wholeSeconds := by
  have hfield : (peerBlock p).field 72 2 = Bytes.ofUInt16LE (secondsField p) :=
    block_field (peerBlock_eq p) 4 rfl (by simp) (by simp [peerFields, Key.length_bytes])
  obtain ⟨-, -, hflag, -⟩ := peerFlags_tests p
  rw [hfield, Bytes.toUInt16LE_ofUInt16LE, ofSeconds_secondsField h]
  exact ite_getD Interval.wholeSeconds hflag

/-- The record of the update of a peer reads back as the peer that it describes, all but its
networks. -/
lemma readPeerRecord_peerBlock {p : PeerConfig}
    (hseconds : ∀ i, p.keepalive = some i → i.seconds.toNat ≤ 65535) :
    readPeerRecord (peerBlock p) = .ok { p.described with allowedIps := [] } := by
  have hflags : (peerBlock p).field 0 4 = Bytes.ofUInt32LE (peerFlags p) :=
    block_field (peerBlock_eq p) 0 rfl (by simp) rfl
  have hversion : (peerBlock p).field 4 4 = zeros 4 :=
    block_field (peerBlock_eq p) 1 rfl (by simp) (by simp [peerFields])
  have hkey : (peerBlock p).field 8 32 = p.publicKey.bytes :=
    block_field (peerBlock_eq p) 2 rfl (Key.length_bytes _) (by simp [peerFields])
  have hendpoint : (peerBlock p).field 76 28 = endpointField p :=
    block_field (peerBlock_eq p) 6 rfl (by simp [endpointLength])
      (by simp [peerFields, Key.length_bytes])
  have hsent : (peerBlock p).field 104 8 = zeros 8 := peerBlock_counter p (i := 0) (by decide)
  have hreceived : (peerBlock p).field 112 8 = zeros 8 := peerBlock_counter p (i := 8) (by decide)
  have hsecs : (peerBlock p).field 120 8 = zeros 8 := peerBlock_counter p (i := 16) (by decide)
  have hnanos : (peerBlock p).field 128 8 = zeros 8 := peerBlock_counter p (i := 24) (by decide)
  have hnever : ∀ fault, Instant.ofSignedHandshake fault (Bytes.toInt64LE (zeros 8))
      (Bytes.toInt64LE (zeros 8)) = .ok none := by
    intro fault
    have hzero : Bytes.toInt64LE (zeros 8) = 0 := by decide
    rw [hzero]
    rfl
  have hnonnegative : ¬ Bytes.toInt32LE (zeros 4) < 0 := by decide
  obtain ⟨hpublicFlag, -, -, hendpointFlag, -⟩ := peerFlags_tests p
  simp only [readPeerRecord, hflags, hversion, hsent, hreceived, hsecs, hnanos,
    Bytes.toUInt32LE_ofUInt32LE, hnever, keyAt_presharedKey, ofSeconds_keepalive hseconds,
    if_neg hpublicFlag, keyAt_eq hkey, if_neg hnonnegative]
  cases he : p.endpoint with
  | none =>
      rw [if_pos (hendpointFlag.mpr (by rw [he]; rfl)), PeerConfig.described, he]
      rfl
  | some e =>
      have hflag : ¬ peerFlags p &&& peerHasEndpoint = 0 := by simp [hendpointFlag, he]
      rw [if_neg hflag, readEndpoint_endpointField he _ hendpoint, PeerConfig.described, he]
      rfl

lemma readPeer_peerRow {p : PeerConfig}
    (hseconds : ∀ i, p.keepalive = some i → i.seconds.toNat ≤ 65535)
    (hcount : p.allowedIps.length < 2 ^ 64) (rest : Bytes) :
    readPeer (peerRow p ++ rest) = .ok (p.described, rest) := by
  have hnetworks : (peerBlock p).field 136 8 = Bytes.ofNatLE 8 p.allowedIps.length :=
    block_field (peerBlock_eq p) 8 rfl (by simp)
      (by simp [peerFields, Key.length_bytes, endpointLength])
  have htaken := takeRecord_bytes_append "wg_peer_io" (peerBlock p)
    (p.allowedIps.flatMap encodeNetwork ++ rest)
  rw [peerBlock_eq, ← List.append_assoc, ← peerRow] at htaken
  rw [readPeer]
  simp only [bind, Except.bind]
  rw [htaken]
  simp only
  rw [readPeerRecord_peerBlock hseconds]
  simp only
  rw [hnetworks, toNatLE_ofNatLE_of_lt hcount, readNetworks_flatMap]
  rfl

/-- Rows of peers read back one by one, whatever follows them. -/
lemma readPeers_flatMap {ps : List PeerConfig}
    (hseconds : ∀ p ∈ ps, ∀ i, p.keepalive = some i → i.seconds.toNat ≤ 65535)
    (hcounts : ∀ p ∈ ps, p.allowedIps.length < 2 ^ 64) (rest : Bytes) :
    readPeers ps.length (ps.flatMap peerRow ++ rest) = .ok (ps.map (·.described), rest) := by
  induction ps with
  | nil => rfl
  | cons p ps ih =>
      rw [List.forall_mem_cons] at hseconds hcounts
      rw [List.flatMap_cons, List.append_assoc, List.length_cons, readPeers,
        readPeer_peerRow hseconds.1 hcounts.1]
      simp only [bind, Except.bind]
      rw [ih hseconds.2 hcounts.2]
      rfl

/-! ### Devices -/

/-- The record of the interface of an update. -/
def interfaceBlock (c : Config) : Block interfaceLength :=
  ⟨(interfaceFields c (c.firewallMark.getD 0)).flatten, length_interfaceFields c _⟩

lemma interfaceBlock_eq (c : Config) :
    (interfaceBlock c).bytes = (interfaceFields c (c.firewallMark.getD 0)).flatten :=
  rfl

lemma readInterface_interfaceBlock {c : Config} (name : String)
    (hmark : ∀ mark, c.firewallMark = some mark → mark.toNat ≤ 2147483647) :
    readInterface name (interfaceBlock c) =
      .ok { c.described name .openBsdKernel with peers := [] } := by
  have hflags : (interfaceBlock c).field 0 2 = Bytes.ofUInt16LE (configFlags c) :=
    block_field (interfaceBlock_eq c) 0 rfl (by simp) rfl
  have hport : (interfaceBlock c).field 2 2 = Bytes.ofUInt16BE (c.listenPort.getD 0) :=
    block_field (interfaceBlock_eq c) 1 rfl (by simp) (by simp [interfaceFields])
  have htable : (interfaceBlock c).field 4 4 = Bytes.ofUInt32LE (c.firewallMark.getD 0) :=
    block_field (interfaceBlock_eq c) 2 rfl (by simp) (by simp [interfaceFields])
  have hkey : (interfaceBlock c).field 40 32 = (c.privateKey.getD Key.zero).bytes :=
    block_field (interfaceBlock_eq c) 4 rfl (Key.length_bytes _) (by simp [interfaceFields])
  have hle : (c.firewallMark.getD 0).toNat ≤ 2147483647 := by
    cases hm : c.firewallMark with
    | none => decide
    | some mark => exact hmark mark hm
  have hnonnegative : ¬ (c.firewallMark.getD 0).toInt32 < 0 := by
    rw [Int32.lt_iff_toInt_lt, toInt_toInt32 hle]
    exact not_lt.mpr (Int.natCast_nonneg _)
  obtain ⟨hpublicFlag, hprivateFlag, hportFlag, hmarkFlag, -⟩ := configFlags_tests c
  have hprivate := ite_getD (d := Key.zero) id hprivateFlag
  have hportValue := ite_getD (d := 0) id hportFlag
  have hmarkValue := ite_getD (d := 0) id hmarkFlag
  simp only [id] at hprivate hportValue hmarkValue
  simp only [readInterface, hflags, hport, htable, Bytes.toInt32LE, Bytes.toUInt16LE_ofUInt16LE,
    Bytes.toUInt16BE_ofUInt16BE, Bytes.toUInt32LE_ofUInt32LE, keyAt_eq hkey, hnonnegative,
    and_false, if_false, if_pos hpublicFlag, UInt32.toUInt32_toInt32, hprivate, hportValue,
    hmarkValue]
  rfl

/-- The counts of an update are numbers of sixty-four bits, as those of lists in memory are. -/
def CountsFit (c : Config) : Prop :=
  c.peers.length < 2 ^ 64 ∧ ∀ p ∈ c.peers, p.allowedIps.length < 2 ^ 64

/-- **A written update reads back** as the device that it describes, and nothing behind its last
octet is read. -/
theorem readRecords_configRow {c : Config} (hrange : ¬ OutOfRange c) (hcounts : CountsFit c)
    (name : String) (rest : Bytes) :
    readRecords name (configRow c ++ rest) = .ok (c.described name .openBsdKernel, rest) := by
  obtain ⟨hmark, hseconds⟩ := not_outOfRange_iff.mp hrange
  have hpeers : (interfaceBlock c).field 72 8 = Bytes.ofNatLE 8 c.peers.length :=
    block_field (interfaceBlock_eq c) 5 rfl (by simp) (by simp [interfaceFields, Key.length_bytes])
  have htaken := takeRecord_bytes_append "wg_interface_io" (interfaceBlock c)
    (c.peers.flatMap peerRow ++ rest)
  rw [interfaceBlock_eq, ← List.append_assoc, ← configRow] at htaken
  rw [readRecords]
  simp only [bind, Except.bind]
  rw [htaken]
  simp only
  rw [readInterface_interfaceBlock name hmark]
  simp only
  rw [hpeers, toNatLE_ofNatLE_of_lt hcounts.1, readPeers_flatMap hseconds hcounts.2]
  rfl

/-- A device that ends with a row of octets is not read from a proper part of the row. -/
lemma readDevice_take {name : String} {b : Bytes} {d : Device}
    (h : readRecords name b = .ok (d, [])) {n : ℕ} (hn : n < b.length) :
    ∃ e, readDevice name (b.take n) = .error e := by
  cases hread : readRecords name (b.take n) with
  | error e => exact ⟨e, by rw [readDevice_eq, hread]; rfl⟩
  | ok read =>
      have hwhole := readRecords_append hread (b.drop n)
      rw [List.take_append_drop, h] at hwhole
      have hnil : read.2 ++ b.drop n = [] := (congrArg Prod.snd (Except.ok.inj hwhole)).symm
      have hlength := congrArg List.length (List.append_eq_nil_iff.mp hnil).2
      rw [List.length_drop, List.length_nil] at hlength
      omega

/-- **An update is refused** exactly if one of its values is out of range. Otherwise the buffer is
filled up to its last octet and nothing is put outside, and what reads back from all of its octets,
and not from fewer, is the device that the update describes. -/
theorem readDevice_encodeConfig (name : String) (c : Config) :
    ((∃ detail, encodeConfig c = .error (.invalidArgument detail) ∧
        fillConfig c = .error (.refused (.invalidArgument detail))) ↔ OutOfRange c) ∧
      (¬ OutOfRange c → ∃ b, encodeConfig c = .ok b ∧ fillConfig c = .ok (b, b.length) ∧
        b.length = 80 + 144 * c.peers.length + 24 * c.allowedIpCount ∧
        (CountsFit c →
          (∀ rest, readDevice name (b ++ rest) = .ok (c.described name .openBsdKernel)) ∧
            ∀ n < b.length, ∃ e, readDevice name (b.take n) = .error e)) := by
  refine ⟨⟨?_, ?_⟩, ?_⟩
  · rintro ⟨detail, herror, -⟩
    by_contra hrange
    rw [encodeConfig_of_not_outOfRange hrange] at herror
    cases herror
  · intro hrange
    obtain ⟨detail, herror⟩ := encodeConfig_of_outOfRange hrange
    exact ⟨detail, herror, by rw [fillConfig_eq, herror]; rfl⟩
  · intro hrange
    have hwritten := encodeConfig_of_not_outOfRange hrange
    refine ⟨configRow c, hwritten, by rw [fillConfig_eq, hwritten]; rfl, length_configRow c, ?_⟩
    intro hcounts
    constructor
    · intro rest
      rw [readDevice_eq, readRecords_configRow hrange hcounts]
      rfl
    · intro n hn
      have hwhole := readRecords_configRow hrange hcounts name []
      rw [List.append_nil] at hwhole
      exact readDevice_take hwhole hn

/-- An update with both families of endpoints and of networks, and with an interval that is no
whole number of seconds. -/
theorem readDevice_encodeConfig_peers :
    let key : Key := ⟨List.replicate 32 7, rfl⟩
    let c : Config :=
      { privateKey := some key
        listenPort := some 0x1234
        firewallMark := some 0x7FFFFFFF
        replacePeers := true
        peers :=
          [{ remove := true, endpoint := some (.v4 ⟨192, 0, 2, 1⟩ 80) },
            { publicKey := key
              updateOnly := true
              presharedKey := some key
              endpoint := some (.v6 ⟨[0x2001, 0xDB8, 0, 0, 0, 0, 0, 1], rfl⟩ 51820 5 3)
              keepalive := some ⟨65535, 1⟩
              replaceAllowedIps := true
              allowedIps := [.v4 ⟨10, 1, 2, 3⟩ 8, .v6 ⟨[1, 0, 0, 2, 0, 0, 0, 3], rfl⟩ 64] }] }
    ¬ OutOfRange c ∧ CountsFit c ∧ ∃ b, encodeConfig c = .ok b ∧ fillConfig c = .ok (b, 416) ∧
      readDevice "wg0" b =
        .ok
          { name := "wg0"
            deviceType := .openBsdKernel
            privateKey := key
            listenPort := 0x1234
            firewallMark := 0x7FFFFFFF
            peers :=
              [{ endpoint := some (.v4 ⟨192, 0, 2, 1⟩ 80) },
                { publicKey := key
                  presharedKey := key
                  endpoint := some (.v6 ⟨[0x2001, 0xDB8, 0, 0, 0, 0, 0, 1], rfl⟩ 51820 5 3)
                  keepalive := ⟨65535, 0⟩
                  allowedIps :=
                    [.v4 ⟨10, 1, 2, 3⟩ 8, .v6 ⟨[1, 0, 0, 2, 0, 0, 0, 3], rfl⟩ 64] }] } := by
  intro key c
  have hrange : ¬ OutOfRange c := by
    rw [not_outOfRange_iff]
    refine ⟨?_, ?_⟩
    · intro mark hmark
      cases hmark
      decide
    · intro p hp i hi
      rcases List.mem_cons.mp hp with rfl | hp
      · cases hi
      · rw [List.mem_singleton.mp hp] at hi
        cases hi
        decide
  have hcounts : CountsFit c := ⟨by decide, by decide⟩
  obtain ⟨-, hwritten⟩ := readDevice_encodeConfig "wg0" c
  obtain ⟨b, hencode, hfill, hlength, hread⟩ := hwritten hrange
  have hfull : b.length = 416 := hlength.trans (by decide)
  have hdevice := (hread hcounts).1 []
  rw [List.append_nil] at hdevice
  exact ⟨hrange, hcounts, b, hencode, hfull ▸ hfill, hdevice⟩

end WireGuardControl.OpenBsd
