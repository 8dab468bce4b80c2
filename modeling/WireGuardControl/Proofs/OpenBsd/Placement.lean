import Mathlib.Tactic
import WireGuardControl.Proofs.OpenBsd.Readback
/-!
Where the records of a device stand in a buffer.

* `declaredPeers` and `declaredNetworks`: how many records the counts in a buffer declare. They are
  numbers of sixty-four bits, whatever the buffer has room for.
* `peerOffset` and `networkOffset`: where these records begin, and `recordsEnd`: where the last of
  them ends. A record may begin or end behind the buffer.
* `recordAt`: a record that a buffer has room for; `takeRecord_drop`: it is the next one to be read.
* `Placed`: peers that stand in a buffer one behind the other. `placed_of_readPeers`: those that are
  read do, by induction on their number.
-/

namespace WireGuardControl.OpenBsd

/-! ### Offsets -/

/-- How many peers the record of an interface declares. -/
def declaredPeers (b : Bytes) : ℕ := Bytes.toNatLE (b.field 72 8)

/-- How many networks a peer declares whose record begins at an offset. -/
def declaredNetworks (b : Bytes) (offset : ℕ) : ℕ := Bytes.toNatLE (b.field (offset + 136) 8)

/-- Where the record of a network begins that `before` others precede, if the record of its peer
begins at an offset. -/
def networkOffset (offset before : ℕ) : ℕ := offset + peerLength + networkLength * before

/-- Where the records of a peer and of its networks end, if the first of them begins at an
offset. -/
def nextPeer (b : Bytes) (offset : ℕ) : ℕ := networkOffset offset (declaredNetworks b offset)

/-- Where the record of a peer begins that `before` others precede. -/
def peerOffset (b : Bytes) (before : ℕ) : ℕ := (nextPeer b)^[before] interfaceLength

/-- Where the records end that the counts in a buffer declare. -/
def recordsEnd (b : Bytes) : ℕ := peerOffset b (declaredPeers b)

variable {b : Bytes} {offset count : ℕ}

/-- The networks behind the first one of a row stand as a row behind it. -/
lemma add_networkLength_mul_succ (offset count : ℕ) :
    offset + networkLength * (count + 1) = offset + networkLength + networkLength * count := by
  rw [Nat.mul_succ, Nat.add_comm (networkLength * count), Nat.add_assoc]

lemma add_peerLength_le_nextPeer (b : Bytes) (offset : ℕ) :
    offset + peerLength ≤ nextPeer b offset :=
  Nat.le_add_right _ _

lemma peerOffset_succ (b : Bytes) (i : ℕ) : peerOffset b (i + 1) = nextPeer b (peerOffset b i) :=
  Function.iterate_succ_apply' (nextPeer b) i interfaceLength

/-- A later peer stands behind an earlier one. -/
lemma monotone_peerOffset (b : Bytes) : Monotone (peerOffset b) := by
  refine monotone_nat_of_le_succ fun i => ?_
  rw [peerOffset_succ]
  exact (Nat.le_add_right _ _).trans (add_peerLength_le_nextPeer b _)

/-- Any number of peers take at least the octets of their records. -/
lemma add_mul_peerLength_le (b : Bytes) (offset count : ℕ) :
    offset + peerLength * count ≤ (nextPeer b)^[count] offset := by
  induction count generalizing offset with
  | zero => exact le_rfl
  | succ count ih =>
      have hnext := add_peerLength_le_nextPeer b offset
      have hlater := ih (nextPeer b offset)
      rw [Function.iterate_succ_apply, Nat.mul_succ]
      omega

/-- The declared peers take at least the octets of their records. -/
lemma mul_declaredPeers_le (b : Bytes) :
    interfaceLength + peerLength * declaredPeers b ≤ recordsEnd b :=
  add_mul_peerLength_le b interfaceLength (declaredPeers b)

lemma interfaceLength_le_recordsEnd (b : Bytes) : interfaceLength ≤ recordsEnd b :=
  (Nat.le_add_right _ _).trans (mul_declaredPeers_le b)

/-! ### Records at their offsets -/

/-- The record of `n` octets that begins at an offset. -/
def recordAt (b : Bytes) (offset n : ℕ) (h : offset + n ≤ b.length) : Block n :=
  ⟨b.field offset n, Bytes.length_field b offset n h⟩

lemma field_recordAt {n : ℕ} (h : offset + n ≤ b.length) {start width : ℕ}
    (hwidth : start + width ≤ n) :
    (recordAt b offset n h).field start width = b.field (offset + start) width :=
  Bytes.field_field b hwidth

lemma takeRecord_drop {n : ℕ} (what : String) (h : offset + n ≤ b.length) :
    takeRecord n what (b.drop offset) = .ok (recordAt b offset n h, b.drop (offset + n)) :=
  takeRecord_eq_ok.mpr (Bytes.field_append_drop b offset n).symm

/-- A record that is taken was there. -/
lemma of_takeRecord_drop {n : ℕ} {what : String} {record : Block n} {rest : Bytes}
    (hoffset : offset ≤ b.length) (h : takeRecord n what (b.drop offset) = .ok (record, rest)) :
    ∃ room : offset + n ≤ b.length,
      record = recordAt b offset n room ∧ rest = b.drop (offset + n) := by
  have hlength := congrArg List.length (takeRecord_eq_ok.mp h)
  rw [List.length_drop, List.length_append, record.length_bytes] at hlength
  have room : offset + n ≤ b.length := by omega
  rw [takeRecord_drop what room] at h
  obtain ⟨rfl, rfl⟩ := Prod.mk.inj (Except.ok.inj h)
  exact ⟨room, rfl, rfl⟩

/-! ### Readers at their offsets -/

/-- Networks that are read are as many as were to be read, and all of their records were there. -/
lemma of_readNetworks_drop {ns : List Network} {rest : Bytes} (hoffset : offset ≤ b.length)
    (h : readNetworks count (b.drop offset) = .ok (ns, rest)) :
    ns.length = count ∧ offset + networkLength * count ≤ b.length ∧
      rest = b.drop (offset + networkLength * count) := by
  induction count generalizing offset ns with
  | zero =>
      obtain ⟨rfl, rfl⟩ := Prod.mk.inj (Except.ok.inj h)
      exact ⟨rfl, hoffset, rfl⟩
  | succ count ih =>
      rw [readNetworks] at h
      obtain ⟨⟨record, tail⟩, htaken, h⟩ := Except.bind_eq_ok_iff.mp h
      obtain ⟨n, -, h⟩ := Except.bind_eq_ok_iff.mp h
      obtain ⟨⟨later, last⟩, hlater, h⟩ := Except.bind_eq_ok_iff.mp h
      obtain ⟨rfl, rfl⟩ := Prod.mk.inj (Except.ok.inj h)
      obtain ⟨room, -, rfl⟩ := of_takeRecord_drop hoffset htaken
      obtain ⟨hlength, hroom, hrest⟩ := ih room hlater
      rw [add_networkLength_mul_succ]
      exact ⟨congrArg (· + 1) hlength, hroom, hrest⟩

/-- A peer that is read has as many networks as its record declares, and all of their records were
there. -/
lemma of_readPeer_drop {p : Peer} {rest : Bytes} (hoffset : offset ≤ b.length)
    (h : readPeer (b.drop offset) = .ok (p, rest)) :
    p.allowedIps.length = declaredNetworks b offset ∧ nextPeer b offset ≤ b.length ∧
      rest = b.drop (nextPeer b offset) := by
  obtain ⟨⟨record, tail⟩, htaken, h⟩ := Except.bind_eq_ok_iff.mp h
  obtain ⟨q, -, h⟩ := Except.bind_eq_ok_iff.mp h
  obtain ⟨⟨networks, last⟩, hnetworks, h⟩ := Except.bind_eq_ok_iff.mp h
  obtain ⟨rfl, rfl⟩ := Prod.mk.inj (Except.ok.inj h)
  obtain ⟨room, rfl, rfl⟩ := of_takeRecord_drop hoffset htaken
  rw [field_recordAt room (by decide)] at hnetworks
  exact of_readNetworks_drop room hnetworks

/-! ### Peers one behind the other -/

/-- Records of peers stand one behind the other from an offset on: each has as many networks as it
declares, and the last of them ends within the buffer. -/
structure Placed (b : Bytes) (offset : ℕ) (peers : List Peer) : Prop where
  /-- The networks of a peer are as many as its record declares. -/
  networks : ∀ i (h : i < peers.length),
    peers[i].allowedIps.length = declaredNetworks b ((nextPeer b)^[i] offset)
  /-- There is room for all of them. -/
  room : (nextPeer b)^[peers.length] offset ≤ b.length

namespace Placed

lemma nil (hoffset : offset ≤ b.length) : Placed b offset [] :=
  ⟨fun _ h => absurd h (Nat.not_lt_zero _), hoffset⟩

lemma cons {p : Peer} {peers : List Peer}
    (hp : p.allowedIps.length = declaredNetworks b offset)
    (hpeers : Placed b (nextPeer b offset) peers) : Placed b offset (p :: peers) := by
  refine ⟨fun i hi => ?_, hpeers.room⟩
  cases i with
  | zero => exact hp
  | succ i => exact hpeers.networks i (Nat.lt_of_succ_lt_succ hi)

/-- The octets of all records are those between their offsets. -/
lemma end_eq {peers : List Peer} (h : Placed b offset peers) :
    (nextPeer b)^[peers.length] offset =
      offset + (peers.map fun p => peerLength + networkLength * p.allowedIps.length).sum := by
  induction peers generalizing offset with
  | nil => rfl
  | cons p peers ih =>
      have hp : p.allowedIps.length = declaredNetworks b offset :=
        h.networks 0 (Nat.succ_pos _)
      have hlater : Placed b (nextPeer b offset) peers :=
        ⟨fun i hi => h.networks (i + 1) (Nat.succ_lt_succ hi), h.room⟩
      calc (nextPeer b)^[(p :: peers).length] offset
          = (nextPeer b)^[peers.length] (nextPeer b offset) := rfl
        _ = nextPeer b offset +
              (peers.map fun p => peerLength + networkLength * p.allowedIps.length).sum := ih hlater
        _ = _ := by
            rw [List.map_cons, List.sum_cons, hp, nextPeer, networkOffset]
            omega

end Placed

/-- **Peers that are read** are as many as were to be read, and stand one behind the other. -/
lemma placed_of_readPeers {ps : List Peer} {rest : Bytes} (hoffset : offset ≤ b.length)
    (h : readPeers count (b.drop offset) = .ok (ps, rest)) :
    ps.length = count ∧ Placed b offset ps := by
  induction count generalizing offset ps with
  | zero =>
      obtain ⟨rfl, rfl⟩ := Prod.mk.inj (Except.ok.inj h)
      exact ⟨rfl, .nil hoffset⟩
  | succ count ih =>
      rw [readPeers] at h
      obtain ⟨⟨p, tail⟩, hp, h⟩ := Except.bind_eq_ok_iff.mp h
      obtain ⟨⟨later, last⟩, hlater, h⟩ := Except.bind_eq_ok_iff.mp h
      obtain ⟨rfl, rfl⟩ := Prod.mk.inj (Except.ok.inj h)
      obtain ⟨hnetworks, hroom, rfl⟩ := of_readPeer_drop hoffset hp
      obtain ⟨hlength, hplaced⟩ := ih hroom hlater
      exact ⟨congrArg (· + 1) hlength, .cons hnetworks hplaced⟩

/-- **The records of a device that is read** were all there, and are as many as the counts
declare. -/
lemma placed_of_readDevice {name : String} {d : Device} (h : readDevice name b = .ok d) :
    d.peers.length = declaredPeers b ∧ Placed b interfaceLength d.peers := by
  obtain ⟨⟨record, rest⟩, htaken, h⟩ := Except.bind_eq_ok_iff.mp h
  obtain ⟨interface, -, h⟩ := Except.bind_eq_ok_iff.mp h
  obtain ⟨⟨peers, last⟩, hpeers, h⟩ := Except.bind_eq_ok_iff.mp h
  obtain rfl := Except.ok.inj h
  rw [← List.drop_zero (l := b)] at htaken
  obtain ⟨room, rfl, rfl⟩ := of_takeRecord_drop (Nat.zero_le _) htaken
  rw [field_recordAt room (by decide), Nat.zero_add, Nat.zero_add] at hpeers
  rw [Nat.zero_add] at room
  exact placed_of_readPeers room hpeers

lemma recordsEnd_le_of_readDevice {name : String} {d : Device} (h : readDevice name b = .ok d) :
    recordsEnd b ≤ b.length := by
  obtain ⟨hlength, hplaced⟩ := placed_of_readDevice h
  rw [recordsEnd, ← hlength]
  exact hplaced.room

end WireGuardControl.OpenBsd
