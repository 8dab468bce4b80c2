import Mathlib.Tactic
import WireGuardControl.Proofs.Netlink.Malformed
import WireGuardControl.Proofs.Netlink.Readback
import WireGuardControl.Proofs.OpenBsd.Handshake
import WireGuardControl.Proofs.Uapi.Handshake
/-!
The time of a handshake, as every kind of answer has it.

* `Netlink.reads_readTimespec`, `Netlink.reads_readTimespec_short`: attributes with counters of
  eight octets and of four.
* `handshakes_alike`: attributes, records and lines with the same counters are read as the same
  time, or are malformed alike. `handshakes_alike_behind_epoch` is one time, read in all four ways.
-/

namespace WireGuardControl

namespace Netlink

/-- An attribute with counters of eight octets is read as the time that they stand for. -/
lemma reads_readTimespec (s n : Int64) :
    Reads (readTimespec (counters s n)) (Instant.handshake? s n) := by
  have hlength : (counters s n).length = 16 := by simp [counters]
  have hseconds : (counters s n).field 0 8 = Bytes.ofUInt64LE s.toUInt64 :=
    @Bytes.field_append [] _ _ 0 8 rfl (Bytes.length_ofUInt64LE _)
  have hnanos : (counters s n).field 8 8 = Bytes.ofUInt64LE n.toUInt64 := by
    rw [counters, ← List.append_nil (Bytes.ofUInt64LE n.toUInt64)]
    exact Bytes.field_append (by simp) (by simp)
  rw [readTimespec, if_neg (by omega), if_pos hlength, hseconds, hnanos, toInt64LE_ofUInt64LE,
    toInt64LE_ofUInt64LE]
  refine Instant.reads_ofSignedHandshake ?_ s n
  split_ifs
  · exact .decode _
  · exact .decode _

/-- An attribute with counters of four octets is read as the time that they stand for. -/
lemma reads_readTimespec_short (s n : Int32) :
    Reads (readTimespec (Bytes.ofUInt32LE s.toUInt32 ++ Bytes.ofUInt32LE n.toUInt32))
      (Instant.handshake? s.toInt64 n.toInt64) := by
  have hlength : (Bytes.ofUInt32LE s.toUInt32 ++ Bytes.ofUInt32LE n.toUInt32).length = 8 := by
    simp
  have hseconds : (Bytes.ofUInt32LE s.toUInt32 ++ Bytes.ofUInt32LE n.toUInt32).field 0 4 =
      Bytes.ofUInt32LE s.toUInt32 :=
    @Bytes.field_append [] _ _ 0 4 rfl (Bytes.length_ofUInt32LE _)
  have hnanos : (Bytes.ofUInt32LE s.toUInt32 ++ Bytes.ofUInt32LE n.toUInt32).field 4 4 =
      Bytes.ofUInt32LE n.toUInt32 := by
    rw [← List.append_nil (Bytes.ofUInt32LE n.toUInt32)]
    exact Bytes.field_append (by simp) (by simp)
  rw [readTimespec, if_pos hlength, hseconds, hnanos, toInt32LE_ofUInt32LE, toInt32LE_ofUInt32LE]
  refine Instant.reads_ofSignedHandshake ?_ s.toInt64 n.toInt64
  split_ifs
  · exact .decode _
  · exact .decode _

end Netlink

/-- **Handshake times are read alike.** Two signed counters are read as what they stand for
(`Instant.handshake?`), and are malformed if they stand for nothing, in each of four forms: as an
attribute with counters of eight octets; as one with counters of four octets, if they have room in
it; in the record of a peer; and as decimal numbers in two lines of a response that belong to a
peer and are not replaced by later ones. The record and the response are otherwise any that are read
with zeros for the counters, and no more of what is read depends on them than the time of the one
peer. -/
theorem handshakes_alike (seconds nanoseconds : Int64) :
    Reads (Netlink.readTimespec (counters seconds nanoseconds))
      (Instant.handshake? seconds nanoseconds) ∧
    (∀ s n : Int32, s.toInt64 = seconds → n.toInt64 = nanoseconds →
      Reads (Netlink.readTimespec (Bytes.ofUInt32LE s.toUInt32 ++ Bytes.ofUInt32LE n.toUInt32))
        (Instant.handshake? seconds nanoseconds)) ∧
    (∀ front back peer rest, front.length = OpenBsd.handshakeOffset →
      OpenBsd.readPeer (front ++ counters 0 0 ++ back) = .ok (peer, rest) →
      Reads (OpenBsd.readPeer (front ++ counters seconds nanoseconds ++ back))
        ((Instant.handshake? seconds nanoseconds).map fun time =>
          ({ peer with lastHandshake := time }, rest))) ∧
    ∀ (place : Uapi.Place) (name : String) (zero response : List Char) (device : Device),
      place.IsFinal → Uapi.Pairs.body zero = (place.lines 0 0).map Uapi.Line.text →
      Uapi.Pairs.body response = (place.lines seconds nanoseconds).map Uapi.Line.text →
      Uapi.readGet name zero = .ok device →
      ∃ before peer after, device.peers = before ++ peer :: after ∧
        before.length + 1 = place.front.countP Uapi.Line.beginsPeer ∧
        Reads (Uapi.readGet name response)
          ((Instant.handshake? seconds nanoseconds).map fun time =>
            { device with peers := before ++ { peer with lastHandshake := time } :: after }) := by
  refine ⟨Netlink.reads_readTimespec seconds nanoseconds, ?_, ?_, ?_⟩
  · rintro s n rfl rfl
    exact Netlink.reads_readTimespec_short s n
  · intro front back peer rest hfront hzero
    exact OpenBsd.reads_readPeer hfront hzero seconds nanoseconds
  · intro place name zero response device hplace hzero hresponse hread
    exact Uapi.reads_response hplace hzero hresponse hread

/-! ### A time behind the epoch -/

/-- A place behind the key of the only peer, whose octets are zeros. -/
def lonePlace : Uapi.Place :=
  ⟨[.hexKey "public_key" Key.zero], true, [], [⟨Uapi.statusKey, ['0']⟩]⟩

/-- The response with a handshake in this place. -/
def loneResponse (seconds nanoseconds : Int64) : List Char :=
  Text.Lines.paragraph ((lonePlace.lines seconds nanoseconds).map Uapi.Line.text)

/-- Five seconds and six nanoseconds in an attribute of either width, in a record of zeros and in a
response with one peer. -/
theorem handshakes_alike_behind_epoch :
    Netlink.readTimespec (counters 5 6) = .ok (some ⟨5, 6⟩) ∧
    Netlink.readTimespec (Bytes.ofUInt32LE 5 ++ Bytes.ofUInt32LE 6) = .ok (some ⟨5, 6⟩) ∧
    OpenBsd.readPeer (List.replicate 120 0 ++ counters 5 6 ++ List.replicate 8 0) =
      .ok ({ lastHandshake := some ⟨5, 6⟩ }, []) ∧
    Uapi.readGet "wg0" (loneResponse 5 6) = .ok
      { name := "wg0", deviceType := .userspace, peers := [{ lastHandshake := some ⟨5, 6⟩ }] } := by
  have htime : Instant.handshake? 5 6 = some (some ⟨5, 6⟩) := by decide
  obtain ⟨hlong, hshort, hrecord, hlines⟩ := handshakes_alike 5 6
  rw [htime] at hlong hshort hrecord hlines
  have hfinal : lonePlace.IsFinal :=
    ⟨by decide, fun l hl => absurd hl List.not_mem_nil, by decide⟩
  have hrecord₀ : OpenBsd.readPeer (List.replicate 120 0 ++ counters 0 0 ++ List.replicate 8 0) =
      .ok ({}, []) := by decide +kernel
  have hbody : Uapi.Pairs.body (loneResponse 0 0) = (lonePlace.lines 0 0).map Uapi.Line.text ∧
      Uapi.Pairs.body (loneResponse 5 6) = (lonePlace.lines 5 6).map Uapi.Line.text := by
    decide +kernel
  have hread : Uapi.readGet "wg0" (loneResponse 0 0) =
      .ok { name := "wg0", deviceType := .userspace, peers := [{}] } := by decide +kernel
  obtain ⟨before, peer, after, hpeers, hcount, hreads⟩ := hlines lonePlace "wg0" (loneResponse 0 0)
    (loneResponse 5 6) _ hfinal hbody.1 hbody.2 hread
  obtain rfl : before = [] := List.length_eq_zero_iff.mp (Nat.succ.inj hcount)
  obtain ⟨rfl, rfl⟩ := List.cons.inj hpeers
  exact ⟨hlong, hshort 5 6 rfl rfl, hrecord _ _ _ _ (List.length_replicate ..) hrecord₀, hreads⟩

end WireGuardControl
