import Mathlib.Tactic
import WireGuardControl.Proofs.OpenBsd.Malformed
import WireGuardControl.Proofs.OpenBsd.Readback
import WireGuardControl.Proofs.Time
/-!
The time of a handshake in the record of a peer.

* `reads_readPeerRecord`: records that agree in front of the time of a handshake are read alike but
  for this time.
* `recordAround`: a record with given counters. `takeRecord_around_iff`: the records that are taken
  from octets with these counters in their place.
* `reads_readPeer`: with other counters in the record of a peer, the peer is read with the time that
  these stand for, or the record is malformed.
-/

namespace WireGuardControl.OpenBsd

/-- Where the time of a handshake stands in the record of a peer. -/
def handshakeOffset : ℕ := 120

/-- Records that agree in front of the time of a handshake are read alike, if at all, but for this
time. -/
lemma reads_readPeerRecord {b b₀ : Block peerLength} {p : Peer}
    (hagree : ∀ start width, start + width ≤ handshakeOffset →
      b.field start width = b₀.field start width) (h : readPeerRecord b₀ = .ok p) :
    Reads (readPeerRecord b)
      ((Instant.handshake? (Bytes.toInt64LE (b.field 120 8)) (Bytes.toInt64LE (b.field 128 8))).map
        fun time => { p with lastHandshake := time }) := by
  rw [readPeerRecord] at h ⊢
  simp only [keyAt, hagree 0 4 (by decide), hagree 4 4 (by decide), hagree 76 28 (by decide),
    hagree 8 32 (by decide), hagree 40 32 (by decide), hagree 72 2 (by decide),
    hagree 112 8 (by decide), hagree 104 8 (by decide)]
  by_cases hversion : Bytes.toInt32LE (b₀.field 4 4) < 0
  · rw [if_pos hversion] at h
    cases h
  · rw [if_neg hversion] at h ⊢
    -- with an endpoint or without, the time is what is read last
    split_ifs at h ⊢
    all_goals
      obtain ⟨endpoint, hendpoint, h⟩ := Except.bind_eq_ok_iff.mp h
      obtain ⟨time, -, h⟩ := Except.bind_eq_ok_iff.mp h
      obtain rfl := Except.ok.inj h
      rw [hendpoint]
      change Reads (Instant.ofSignedHandshake _ _ _ >>= _) _
      exact (Instant.reads_ofSignedHandshake (.decode _) _ _).pure_bind _

/-- The record of a peer around the time of a handshake. -/
def recordAround (front last : Bytes) (seconds nanoseconds : Int64)
    (hfront : front.length = handshakeOffset) (hlast : last.length = 8) : Block peerLength :=
  ⟨front ++ counters seconds nanoseconds ++ last, by
    simp [counters, hfront, hlast, handshakeOffset, peerLength]⟩

section RecordAround

variable {front last : Bytes} (s n : Int64) (hfront : front.length = handshakeOffset)
  (hlast : last.length = 8)

lemma field_recordAround {start width : ℕ} (h : start + width ≤ handshakeOffset) :
    (recordAround front last s n hfront hlast).field start width = front.field start width := by
  show Bytes.field (front ++ counters s n ++ last) start width = _
  rw [List.append_assoc, Bytes.field_append_left (by omega)]

lemma fields_recordAround :
    (recordAround front last s n hfront hlast).field 120 8 = Bytes.ofUInt64LE s.toUInt64 ∧
    (recordAround front last s n hfront hlast).field 128 8 = Bytes.ofUInt64LE n.toUInt64 ∧
    (recordAround front last s n hfront hlast).field 136 8 = last := by
  have hbytes : (recordAround front last s n hfront hlast).bytes =
      [front, Bytes.ofUInt64LE s.toUInt64, Bytes.ofUInt64LE n.toUInt64, last].flatten := by
    simp [recordAround, counters]
  refine ⟨block_field hbytes 1 rfl (by simp) ?_, block_field hbytes 2 rfl (by simp) ?_,
    block_field hbytes 3 rfl hlast ?_⟩
  · simp [hfront, handshakeOffset]
  · simp [hfront, handshakeOffset]
  · simp [hfront, handshakeOffset]

end RecordAround

/-- A record of a peer ends eight octets behind the counters. -/
lemma takeRecord_around_iff {front back tail : Bytes} (s n : Int64)
    (hfront : front.length = handshakeOffset) {record : Block peerLength} :
    takeRecord peerLength "wg_peer_io" (front ++ counters s n ++ back) = .ok (record, tail) ↔
      ∃ (last : Bytes) (hlast : last.length = 8), back = last ++ tail ∧
        record = recordAround front last s n hfront hlast := by
  rw [takeRecord_eq_ok]
  constructor
  · intro h
    have hlength := record.length_bytes
    rcases List.append_eq_append_iff.mp h with ⟨last, hrecord, hback⟩ | ⟨more, hrecord, -⟩
    · have hlast : last.length = 8 := by
        simp [hrecord, counters, hfront, handshakeOffset, peerLength] at hlength
        omega
      refine ⟨last, hlast, hback, ?_⟩
      cases record
      cases hrecord
      rfl
    · have hlong := congrArg List.length hrecord
      simp [hlength, counters, hfront, handshakeOffset, peerLength] at hlong
      omega
  · rintro ⟨last, hlast, rfl, rfl⟩
    exact (List.append_assoc _ _ _).symm

/-- **The time of a handshake in the record of a peer.** If a peer is read with zeros for the
seconds and the nanoseconds of a handshake, then with other counters in their place it is read with
the time that these stand for, or is malformed; and all else is read as before. -/
lemma reads_readPeer {front back : Bytes} (hfront : front.length = handshakeOffset) {p : Peer}
    {rest : Bytes} (h : readPeer (front ++ counters 0 0 ++ back) = .ok (p, rest)) (s n : Int64) :
    Reads (readPeer (front ++ counters s n ++ back)) ((Instant.handshake? s n).map fun time =>
      ({ p with lastHandshake := time }, rest)) := by
  rw [readPeer] at h ⊢
  obtain ⟨⟨record₀, tail⟩, htaken, h⟩ := Except.bind_eq_ok_iff.mp h
  obtain ⟨q, hread, h⟩ := Except.bind_eq_ok_iff.mp h
  obtain ⟨⟨networks, rest⟩, hnetworks, h⟩ := Except.bind_eq_ok_iff.mp h
  obtain ⟨rfl, rfl⟩ := Prod.mk.inj (Except.ok.inj h)
  obtain ⟨last, hlast, hback, rfl⟩ := (takeRecord_around_iff 0 0 hfront).mp htaken
  have htaken' := (takeRecord_around_iff s n hfront).mpr ⟨last, hlast, hback, rfl⟩
  have hagree : ∀ start width, start + width ≤ handshakeOffset →
      (recordAround front last s n hfront hlast).field start width =
        (recordAround front last 0 0 hfront hlast).field start width := by
    intro start width hwidth
    rw [field_recordAround s n hfront hlast hwidth, field_recordAround 0 0 hfront hlast hwidth]
  obtain ⟨hseconds, hnanos, hcount⟩ := fields_recordAround s n hfront hlast
  obtain ⟨-, -, hcount₀⟩ := fields_recordAround 0 0 hfront hlast
  have hreads := reads_readPeerRecord hagree hread
  rw [hseconds, hnanos, toInt64LE_ofUInt64LE, toInt64LE_ofUInt64LE] at hreads
  rw [hcount₀] at hnetworks
  have hrest := hreads.pure_bind fun p => ({ p with allowedIps := networks }, rest)
  rw [Option.map_map] at hrest
  rw [htaken']
  show Reads (readPeerRecord (recordAround front last s n hfront hlast) >>= fun p => _) _
  rw [hcount, hnetworks]
  exact hrest

end WireGuardControl.OpenBsd
