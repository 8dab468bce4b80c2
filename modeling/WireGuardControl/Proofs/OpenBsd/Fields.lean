import Mathlib.Tactic
import WireGuardControl.OpenBsd.Record
/-!
The records of an update, field by field.

* `interfaceFields`, `peerFields` and `networkFields`: the fields of a record in the order in which
  they stand there.
* `encodePeer_eq` and `encodeConfig_eq`: a written update is these fields, one behind the other.
* `peerFlags_tests` and `configFlags_tests`: what each flag of an update tells.
* `OutOfRange`: an update with a value that the records cannot hold. It is refused
  (`encodeConfig_of_outOfRange`), and every other update is written as its `configRow`
  (`encodeConfig_of_not_outOfRange`).
-/

namespace WireGuardControl.OpenBsd

/-! ### The fields of records -/

/-- A run of zero octets. -/
def zeros (n : ℕ) : Bytes := List.replicate n 0

@[simp] lemma length_zeros (n : ℕ) : (zeros n).length = n := List.length_replicate

lemma zeros_add (m n : ℕ) : zeros (m + n) = zeros m ++ zeros n := List.replicate_add ..

/-- The fields of the record of a network. -/
def networkFields (n : Network) : List Bytes :=
  [[if n.address.isIPv4 then familyIPv4 else familyIPv6], zeros 3, Bytes.ofNatLE 4 n.bits,
    n.address.octets, zeros (16 - n.address.octets.length)]

/-- The fields of an endpoint. -/
def endpointFields : Endpoint → List Bytes
  | .v4 x port => [[16], [familyIPv4], Bytes.ofUInt16BE port, x.octets, zeros 20]
  | .v6 x port flow scope =>
      [[28], [familyIPv6], Bytes.ofUInt16BE port, Bytes.ofUInt32BE flow, x.octets,
        Bytes.ofUInt32LE scope]

/-- The octets of the endpoint of an update, zero if there is none. -/
def endpointField (p : PeerConfig) : Bytes :=
  (p.endpoint.map encodeEndpoint).getD (zeros endpointLength)

/-- The fields of the record of the update of a peer with an interval of `seconds`. -/
def peerFields (p : PeerConfig) (seconds : UInt16) : List Bytes :=
  [Bytes.ofUInt32LE (peerFlags p), zeros 4, p.publicKey.bytes,
    (p.presharedKey.getD Key.zero).bytes, Bytes.ofUInt16LE seconds, zeros 2, endpointField p,
    zeros 32, Bytes.ofNatLE 8 p.allowedIps.length]

/-- The fields of the record of an interface with the routing table `table`. -/
def interfaceFields (c : Config) (table : UInt32) : List Bytes :=
  [Bytes.ofUInt16LE (configFlags c), Bytes.ofUInt16BE (c.listenPort.getD 0),
    Bytes.ofUInt32LE table, zeros 32, (c.privateKey.getD Key.zero).bytes,
    Bytes.ofNatLE 8 c.peers.length]

/-- The interval of keepalives that the record of an update holds. -/
def secondsOf (p : PeerConfig) : Except Error UInt16 :=
  match p.keepalive with
  | some i => keepaliveSeconds i
  | none => .ok 0

/-- The routing table that the record of an update holds. -/
def tableOf (c : Config) : Except Error UInt32 :=
  match c.firewallMark with
  | some mark => tableNumber mark
  | none => .ok 0

lemma length_octets (x : IpAddress) : x.octets.length = if x.isIPv4 then 4 else 16 := by
  cases x with
  | v4 x => rfl
  | v6 x => exact x.length_octets

lemma encodeEndpoint_eq (e : Endpoint) : encodeEndpoint e = (endpointFields e).flatten := by
  cases e <;> simp [encodeEndpoint, endpointFields, zeros]

@[simp] lemma length_encodeEndpoint (e : Endpoint) :
    (encodeEndpoint e).length = endpointLength := by
  cases e <;> simp [encodeEndpoint, endpointLength]

@[simp] lemma length_endpointField (p : PeerConfig) :
    (endpointField p).length = endpointLength := by
  rw [endpointField]
  cases p.endpoint <;> simp

lemma encodeNetwork_eq (n : Network) : encodeNetwork n = (networkFields n).flatten := by
  simp [encodeNetwork, networkFields, zeros]

@[simp] lemma length_encodeNetwork (n : Network) : (encodeNetwork n).length = networkLength := by
  rw [encodeNetwork_eq]
  simp only [networkFields, List.length_flatten, List.map_cons, List.map_nil, List.sum_cons,
    List.sum_nil, List.length_singleton, length_zeros, Bytes.length_ofNatLE, length_octets,
    networkLength]
  split_ifs <;> omega

/-- A written update of a peer is the fields of its record and the records of its networks. -/
lemma encodePeer_eq (p : PeerConfig) :
    encodePeer p = (secondsOf p).map fun seconds =>
      (peerFields p seconds).flatten ++ p.allowedIps.flatMap encodeNetwork := by
  have hzeros : Bytes.ofUInt32LE 0 = zeros 4 := by decide
  have hfields : ∀ seconds, Bytes.ofUInt32LE (peerFlags p) ++ Bytes.ofUInt32LE 0 ++
      p.publicKey.bytes ++ (p.presharedKey.getD Key.zero).bytes ++ Bytes.ofUInt16LE seconds ++
      [0, 0] ++ (p.endpoint.map encodeEndpoint).getD (List.replicate endpointLength 0) ++
      List.replicate 32 0 ++ Bytes.ofNatLE 8 p.allowedIps.length ++
      p.allowedIps.flatMap encodeNetwork =
        (peerFields p seconds).flatten ++ p.allowedIps.flatMap encodeNetwork := by
    intro seconds
    simp [peerFields, endpointField, hzeros, zeros]
  rw [encodePeer, secondsOf]
  cases p.keepalive with
  | none => exact congrArg Except.ok (hfields 0)
  | some i =>
      change (keepaliveSeconds i).bind _ = (keepaliveSeconds i).map _
      cases keepaliveSeconds i with
      | error e => rfl
      | ok seconds => exact congrArg Except.ok (hfields seconds)

/-- A written update is the fields of the record of the interface and what its peers take. -/
lemma encodeConfig_eq (c : Config) :
    encodeConfig c = (tableOf c).bind fun table =>
      (c.peers.mapM encodePeer).map fun peers =>
        (interfaceFields c table).flatten ++ peers.flatten := by
  have hzeros : Key.zero.bytes = zeros 32 := rfl
  have hfields : ∀ (table : UInt32) (peers : List Bytes),
      Bytes.ofUInt16LE (configFlags c) ++ Bytes.ofUInt16BE (c.listenPort.getD 0) ++
        Bytes.ofUInt32LE table ++ Key.zero.bytes ++ (c.privateKey.getD Key.zero).bytes ++
        Bytes.ofNatLE 8 c.peers.length ++ peers.flatten =
          (interfaceFields c table).flatten ++ peers.flatten := by
    intro table peers
    simp [interfaceFields, hzeros]
  have hpeers : ∀ table : UInt32, (c.peers.mapM encodePeer).bind (fun peers =>
      .ok (Bytes.ofUInt16LE (configFlags c) ++ Bytes.ofUInt16BE (c.listenPort.getD 0) ++
        Bytes.ofUInt32LE table ++ Key.zero.bytes ++ (c.privateKey.getD Key.zero).bytes ++
        Bytes.ofNatLE 8 c.peers.length ++ peers.flatten)) =
      (c.peers.mapM encodePeer).map fun peers =>
        (interfaceFields c table).flatten ++ peers.flatten := by
    intro table
    cases c.peers.mapM encodePeer with
    | error e => rfl
    | ok peers => exact congrArg Except.ok (hfields table peers)
  rw [encodeConfig, tableOf]
  cases c.firewallMark with
  | none => exact hpeers 0
  | some mark =>
      change (tableNumber mark).bind _ = (tableNumber mark).bind _
      cases tableNumber mark with
      | error e => rfl
      | ok table => exact hpeers table

lemma length_peerFields (p : PeerConfig) (seconds : UInt16) :
    (peerFields p seconds).flatten.length = peerLength := by
  simp [peerFields, Key.length_bytes, endpointLength, peerLength]

lemma length_interfaceFields (c : Config) (table : UInt32) :
    (interfaceFields c table).flatten.length = interfaceLength := by
  simp [interfaceFields, Key.length_bytes, interfaceLength]

/-! ### Flags -/

/-- Each flag of the update of a peer tells one thing about it. -/
lemma peerFlags_tests (p : PeerConfig) :
    peerFlags p &&& peerHasPublicKey ≠ 0 ∧
      (peerFlags p &&& peerHasPresharedKey = 0 ↔ p.presharedKey.isSome = false) ∧
      (peerFlags p &&& peerHasKeepalive = 0 ↔ p.keepalive.isSome = false) ∧
      (peerFlags p &&& peerHasEndpoint = 0 ↔ p.endpoint.isSome = false) ∧
      (peerFlags p &&& peerReplacesNetworks = 0 ↔ p.replaceAllowedIps = false) ∧
      (peerFlags p &&& peerIsRemoved = 0 ↔ p.remove = false) ∧
      (peerFlags p &&& peerIsUpdated = 0 ↔ p.updateOnly = false) := by
  rw [peerFlags]
  generalize p.presharedKey.isSome = preshared, p.keepalive.isSome = keepalive,
    p.endpoint.isSome = endpoint, p.replaceAllowedIps = replaces, p.remove = removes,
    p.updateOnly = updates
  revert preshared keepalive endpoint replaces removes updates
  decide

/-- Each flag of an update tells one thing about it, and none says that there is a public key. -/
lemma configFlags_tests (c : Config) :
    configFlags c &&& hasPublicKey = 0 ∧
      (configFlags c &&& hasPrivateKey = 0 ↔ c.privateKey.isSome = false) ∧
      (configFlags c &&& hasPort = 0 ↔ c.listenPort.isSome = false) ∧
      (configFlags c &&& hasTable = 0 ↔ c.firewallMark.isSome = false) ∧
      (configFlags c &&& replacesPeers = 0 ↔ c.replacePeers = false) := by
  rw [configFlags]
  generalize c.privateKey.isSome = key, c.listenPort.isSome = port, c.firewallMark.isSome = mark,
    c.replacePeers = replaces
  revert key port mark replaces
  decide

/-! ### Values that the records cannot hold -/

/-- The update has a mark that is no signed number of thirty-two bits, or an interval of keepalives
whose seconds are no number of sixteen bits. -/
def OutOfRange (c : Config) : Prop :=
  (∃ mark, c.firewallMark = some mark ∧ 2147483647 < mark.toNat) ∨
    ∃ p ∈ c.peers, ∃ i, p.keepalive = some i ∧ 65535 < i.seconds.toNat

/-- The seconds of the interval of keepalives of an update, zero if there is none. -/
def secondsField (p : PeerConfig) : UInt16 := (p.keepalive.getD Interval.zero).seconds.toUInt16

/-- The records of the update of a peer and of its networks. -/
def peerRow (p : PeerConfig) : Bytes :=
  (peerFields p (secondsField p)).flatten ++ p.allowedIps.flatMap encodeNetwork

/-- The records of an update. -/
def configRow (c : Config) : Bytes :=
  (interfaceFields c (c.firewallMark.getD 0)).flatten ++ c.peers.flatMap peerRow

lemma secondsOf_of_le {p : PeerConfig}
    (h : ∀ i, p.keepalive = some i → i.seconds.toNat ≤ 65535) :
    secondsOf p = .ok (secondsField p) := by
  rw [secondsOf, secondsField]
  cases hk : p.keepalive with
  | none => rfl
  | some i => exact if_pos (Nat.lt_succ_of_le (h i hk))

lemma secondsOf_of_lt {p : PeerConfig} {i : Interval} (hi : p.keepalive = some i)
    (h : 65535 < i.seconds.toNat) : ∃ detail, secondsOf p = .error (.invalidArgument detail) := by
  rw [secondsOf, hi]
  exact ⟨_, if_neg (by omega)⟩

lemma mapM_encodePeer_of_le {ps : List PeerConfig}
    (h : ∀ p ∈ ps, ∀ i, p.keepalive = some i → i.seconds.toNat ≤ 65535) :
    ps.mapM encodePeer = .ok (ps.map peerRow) := by
  induction ps with
  | nil => rfl
  | cons p rest ih =>
      rw [List.forall_mem_cons] at h
      rw [List.mapM_cons, encodePeer_eq, secondsOf_of_le h.1, ih h.2]
      rfl

/-- The first update of a peer with an interval out of range is refused. -/
lemma mapM_encodePeer_of_lt {ps : List PeerConfig} {p : PeerConfig} (hp : p ∈ ps) {i : Interval}
    (hi : p.keepalive = some i) (h : 65535 < i.seconds.toNat) :
    ∃ detail, ps.mapM encodePeer = .error (.invalidArgument detail) := by
  induction ps with
  | nil => cases hp
  | cons q rest ih =>
      by_cases hq : ∀ j, q.keepalive = some j → j.seconds.toNat ≤ 65535
      · have hmem : p ∈ rest := by
          rcases List.mem_cons.mp hp with rfl | hmem
          · exact absurd (hq i hi) (by omega)
          · exact hmem
        obtain ⟨detail, hrest⟩ := ih hmem
        refine ⟨detail, ?_⟩
        rw [List.mapM_cons, encodePeer_eq, secondsOf_of_le hq, hrest]
        rfl
      · simp only [not_forall, not_le] at hq
        obtain ⟨j, hj, hlt⟩ := hq
        obtain ⟨detail, hseconds⟩ := secondsOf_of_lt hj hlt
        refine ⟨detail, ?_⟩
        rw [List.mapM_cons, encodePeer_eq, hseconds]
        rfl

lemma tableOf_of_le {c : Config}
    (h : ∀ mark, c.firewallMark = some mark → mark.toNat ≤ 2147483647) :
    tableOf c = .ok (c.firewallMark.getD 0) := by
  rw [tableOf]
  cases hmark : c.firewallMark with
  | none => rfl
  | some mark => exact if_pos (Nat.lt_succ_of_le (h mark hmark))

lemma tableOf_of_lt {c : Config} {mark : UInt32} (hmark : c.firewallMark = some mark)
    (h : 2147483647 < mark.toNat) : ∃ detail, tableOf c = .error (.invalidArgument detail) := by
  rw [tableOf, hmark]
  exact ⟨_, if_neg (by omega)⟩

lemma not_outOfRange_iff {c : Config} :
    ¬ OutOfRange c ↔ (∀ mark, c.firewallMark = some mark → mark.toNat ≤ 2147483647) ∧
      ∀ p ∈ c.peers, ∀ i, p.keepalive = some i → i.seconds.toNat ≤ 65535 := by
  simp only [OutOfRange, not_or, not_exists, not_and, not_lt]

lemma encodeConfig_of_not_outOfRange {c : Config} (h : ¬ OutOfRange c) :
    encodeConfig c = .ok (configRow c) := by
  obtain ⟨hmark, hpeers⟩ := not_outOfRange_iff.mp h
  rw [encodeConfig_eq, tableOf_of_le hmark, mapM_encodePeer_of_le hpeers, configRow,
    List.flatMap_def]
  rfl

lemma encodeConfig_of_outOfRange {c : Config} (h : OutOfRange c) :
    ∃ detail, encodeConfig c = .error (.invalidArgument detail) := by
  rw [encodeConfig_eq]
  by_cases hmark : ∀ mark, c.firewallMark = some mark → mark.toNat ≤ 2147483647
  · rcases h with ⟨mark, hsome, hlt⟩ | ⟨p, hp, i, hi, hlt⟩
    · exact absurd (hmark mark hsome) (by omega)
    · obtain ⟨detail, hpeers⟩ := mapM_encodePeer_of_lt hp hi hlt
      exact ⟨detail, by rw [tableOf_of_le hmark, hpeers]; rfl⟩
  · simp only [not_forall, not_le] at hmark
    obtain ⟨mark, hsome, hlt⟩ := hmark
    obtain ⟨detail, htable⟩ := tableOf_of_lt hsome hlt
    exact ⟨detail, by rw [htable]; rfl⟩

/-- **What is written**: every update whose values are in range, as its row of records. -/
lemma encodeConfig_eq_ok_iff {c : Config} {b : Bytes} :
    encodeConfig c = .ok b ↔ ¬ OutOfRange c ∧ b = configRow c := by
  constructor
  · intro h
    by_cases hrange : OutOfRange c
    · obtain ⟨detail, herror⟩ := encodeConfig_of_outOfRange hrange
      rw [herror] at h
      cases h
    · rw [encodeConfig_of_not_outOfRange hrange] at h
      exact ⟨hrange, (Except.ok.inj h).symm⟩
  · rintro ⟨hrange, rfl⟩
    exact encodeConfig_of_not_outOfRange hrange

/-! ### Lengths -/

lemma length_peerRow (p : PeerConfig) :
    (peerRow p).length = peerLength + networkLength * p.allowedIps.length := by
  rw [peerRow, List.length_append, length_peerFields, List.length_flatMap]
  simp [Nat.mul_comm]

/-- A row has one record for the interface, for each peer and for each network. -/
lemma length_configRow (c : Config) :
    (configRow c).length =
      interfaceLength + peerLength * c.peers.length + networkLength * c.allowedIpCount := by
  have hpeers : ∀ ps : List PeerConfig, (ps.flatMap peerRow).length =
      peerLength * ps.length + networkLength * (ps.flatMap (·.allowedIps)).length := by
    intro ps
    induction ps with
    | nil => rfl
    | cons p rest ih =>
        simp only [List.flatMap_cons, List.length_append, List.length_cons, ih, length_peerRow]
        ring
  rw [configRow, List.length_append, length_interfaceFields, hpeers, Config.allowedIpCount,
    Nat.add_assoc]

end WireGuardControl.OpenBsd
