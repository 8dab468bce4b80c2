import Mathlib.Tactic
import WireGuardControl.OpenBsd.Filling
import WireGuardControl.Proofs.OpenBsd.Fields
/-!
The buffer of an update, filled in place.

* `putAt_flatten` and `putSome_flatten`: octets that are put where a field of the same width stands
  replace the field and leave the others alone.
* `fillNetwork_zeros`, `fillPeer_zeros`, `fillInterface_zeros`: zero octets become a record,
  whatever the order in which its fields are put.
* `fillConfig_eq`: a buffer that is filled in place becomes the written update, its cursor ends at
  the end of the buffer, and nothing is put outside.
-/

namespace WireGuardControl.OpenBsd

/-! ### Putting fields in place -/

lemma putAt_append {front x y back : Bytes} {offset : ℕ} (hoffset : front.length = offset)
    (hlength : y.length = x.length) :
    putAt (front ++ (x ++ back)) offset y = .ok (front ++ (y ++ back)) := by
  subst hoffset
  have hroom : front.length + y.length ≤ (front ++ (x ++ back)).length := by
    simp only [List.length_append]
    omega
  have hdrop : (front ++ (x ++ back)).drop (front.length + y.length) = back := by
    rw [List.drop_length_add_append, hlength, List.drop_left]
  rw [putAt, if_pos hroom, hdrop, List.take_left, List.append_assoc]

/-- Octets that are put where a field of the same width stands replace it. -/
lemma putAt_flatten {fields : List Bytes} (i : ℕ) {x y : Bytes} {offset : ℕ}
    (hx : fields[i]? = some x) (hlength : y.length = x.length)
    (hoffset : ((fields.take i).map List.length).sum = offset) :
    putAt fields.flatten offset y = .ok (fields.set i y).flatten := by
  obtain ⟨hi, rfl⟩ := List.getElem?_eq_some_iff.mp hx
  have hfields : fields.flatten =
      (fields.take i).flatten ++ (fields[i] ++ (fields.drop (i + 1)).flatten) := by
    rw [← List.flatten_cons, ← List.flatten_append, List.getElem_cons_drop, List.take_append_drop]
  have hset : (fields.set i y).flatten =
      (fields.take i).flatten ++ (y ++ (fields.drop (i + 1)).flatten) := by
    rw [List.set_eq_take_append_cons_drop, if_pos hi, List.flatten_append, List.flatten_cons]
  rw [hfields, hset]
  exact putAt_append (by rw [List.length_flatten, hoffset]) hlength

/-- Octets that may be absent leave the field that they would replace. -/
lemma putSome_flatten {fields : List Bytes} (i : ℕ) {x : Bytes} {octets : Option Bytes}
    {offset : ℕ} (hx : fields[i]? = some x) (hlength : ∀ y ∈ octets, y.length = x.length)
    (hoffset : ((fields.take i).map List.length).sum = offset) :
    putSome fields.flatten offset octets = .ok (fields.set i (octets.getD x)).flatten := by
  cases octets with
  | none =>
      obtain ⟨hi, rfl⟩ := List.getElem?_eq_some_iff.mp hx
      rw [putSome, Option.getD_none, List.set_getElem_self]
  | some y => exact putAt_flatten i hx (hlength y rfl) hoffset

/-- Filling a part of a buffer leaves the rest of it alone. -/
lemma fillPart_append {front x back : Bytes} {offset width : ℕ} (hoffset : front.length = offset)
    (hwidth : x.length = width) (fill : Bytes → Except FillFault Bytes) :
    fillPart (front ++ (x ++ back)) offset width fill =
      (fill x).map fun y => front ++ (y ++ back) := by
  subst hoffset hwidth
  have hroom : front.length + x.length ≤ (front ++ (x ++ back)).length := by
    simp only [List.length_append]
    omega
  have hpart : (front ++ (x ++ back)).field front.length x.length = x := by
    rw [Bytes.field, List.drop_left, List.take_left]
  have hdrop : (front ++ (x ++ back)).drop (front.length + x.length) = back := by
    rw [List.drop_length_add_append, List.drop_left]
  rw [fillPart, if_pos hroom, hpart, hdrop, List.take_left]
  cases fill x with
  | error e => rfl
  | ok y => exact congrArg Except.ok (List.append_assoc front y back)

/-! ### Filling records -/

lemma fillNetwork_zeros (n : Network) :
    fillNetwork n (zeros networkLength) = .ok (encodeNetwork n) := by
  set width := n.address.octets.length with hwidth
  have hle : width ≤ 16 := by
    rw [hwidth, length_octets]
    split_ifs <;> omega
  have hstart : zeros networkLength =
      [zeros 1, zeros 3, zeros 4, zeros width, zeros (16 - width)].flatten := by
    simp only [List.flatten_cons, List.flatten_nil, List.append_nil, ← zeros_add, networkLength]
    congr 1
    omega
  rw [fillNetwork, hstart, putAt_flatten 0 rfl (by simp) (by simp)]
  simp only [bind, Except.bind]
  rw [putAt_flatten 3 rfl (by simp [hwidth]) (by simp)]
  simp only
  rw [putAt_flatten 2 rfl (by simp) (by simp), encodeNetwork_eq]
  rfl

/-- What is put behind the interval of keepalives, which may be absent. -/
lemma putSome_seconds (p : PeerConfig) (seconds : Option UInt16) :
    (do
      let b ← putSome [zeros 4, zeros 4, p.publicKey.bytes, (p.presharedKey.getD Key.zero).bytes,
        zeros 2, zeros 2, zeros endpointLength, zeros 32, zeros 8].flatten 72
          (seconds.map Bytes.ofUInt16LE)
      let b ← putSome b 76 (p.endpoint.map encodeEndpoint)
      let b ← putAt b 0 (Bytes.ofUInt32LE (peerFlags p))
      putAt b 136 (Bytes.ofNatLE 8 p.allowedIps.length)) =
        .ok (peerFields p (seconds.getD 0)).flatten := by
  have hpublic := p.publicKey.length_bytes
  have hpreshared := (p.presharedKey.getD Key.zero).length_bytes
  have hseconds : ∀ y ∈ seconds.map Bytes.ofUInt16LE, y.length = (zeros 2).length := by
    simp
  have hfield : (seconds.map Bytes.ofUInt16LE).getD (zeros 2) =
      Bytes.ofUInt16LE (seconds.getD 0) := by
    cases seconds with
    | none => decide
    | some v => rfl
  have hendpoint : ∀ y ∈ p.endpoint.map encodeEndpoint,
      y.length = (zeros endpointLength).length := by
    simp
  rw [putSome_flatten 4 rfl hseconds (by simp [hpublic, hpreshared]), hfield]
  simp only [bind, Except.bind]
  rw [putSome_flatten 6 rfl hendpoint (by simp [hpublic, hpreshared]), ← endpointField]
  simp only
  rw [putAt_flatten 0 rfl (by simp) (by simp)]
  simp only
  rw [putAt_flatten 8 rfl (by simp) (by simp [hpublic, hpreshared, endpointLength])]
  rfl

/-- Values that the records cannot hold are refused when their field is reached. -/
lemma fillPeer_zeros (p : PeerConfig) :
    fillPeer p (zeros peerLength) =
      ((secondsOf p).mapError .refused).map fun seconds => (peerFields p seconds).flatten := by
  have hstart : zeros peerLength = [zeros 4, zeros 4, zeros 32, zeros 32, zeros 2, zeros 2,
      zeros endpointLength, zeros 32, zeros 8].flatten := by decide
  have hkeys : ∀ y ∈ p.presharedKey.map (·.bytes), y.length = (zeros 32).length := by
    simp [Key.length_bytes]
  have hfield : (p.presharedKey.map (·.bytes)).getD (zeros 32) =
      (p.presharedKey.getD Key.zero).bytes := by
    cases p.presharedKey <;> rfl
  have hpublic := p.publicKey.length_bytes
  rw [fillPeer, hstart, putAt_flatten 2 rfl (by simp [hpublic]) (by simp)]
  simp only [bind, Except.bind]
  rw [putSome_flatten 3 rfl hkeys (by simp [hpublic]), hfield, secondsOf]
  cases p.keepalive with
  | none => exact putSome_seconds p none
  | some i =>
      rw [Option.mapM_some]
      simp only
      cases keepaliveSeconds i with
      | error e => rfl
      | ok seconds => exact putSome_seconds p (some seconds)

/-- What is put behind the routing table, which may be absent. -/
lemma putSome_table (c : Config) (table : Option UInt32) (back : Bytes) :
    (do
      let b ← putSome [zeros 2, Bytes.ofUInt16BE (c.listenPort.getD 0), zeros 4, zeros 32,
        (c.privateKey.getD Key.zero).bytes, zeros 8, back].flatten 4 (table.map Bytes.ofUInt32LE)
      let b ← putAt b 0 (Bytes.ofUInt16LE (configFlags c))
      putAt b 72 (Bytes.ofNatLE 8 c.peers.length)) =
        .ok ((interfaceFields c (table.getD 0)).flatten ++ back) := by
  have hprivate := (c.privateKey.getD Key.zero).length_bytes
  have htables : ∀ y ∈ table.map Bytes.ofUInt32LE, y.length = (zeros 4).length := by
    simp
  have hfield : (table.map Bytes.ofUInt32LE).getD (zeros 4) =
      Bytes.ofUInt32LE (table.getD 0) := by
    cases table with
    | none => decide
    | some v => rfl
  rw [putSome_flatten 2 rfl htables (by simp), hfield]
  simp only [bind, Except.bind]
  rw [putAt_flatten 0 rfl (by simp) (by simp)]
  simp only
  rw [putAt_flatten 5 rfl (by simp) (by simp [hprivate])]
  simp [interfaceFields]

lemma fillInterface_zeros (c : Config) (back : Bytes) :
    fillInterface c (zeros interfaceLength ++ back) =
      ((tableOf c).mapError .refused).map fun table =>
        (interfaceFields c table).flatten ++ back := by
  have hstart : zeros interfaceLength ++ back =
      [zeros 2, zeros 2, zeros 4, zeros 32, zeros 32, zeros 8, back].flatten := by
    simp only [List.flatten_cons, List.flatten_nil, List.append_nil, ← List.append_assoc,
      ← zeros_add, interfaceLength]
  have hkeys : ∀ y ∈ c.privateKey.map (·.bytes), y.length = (zeros 32).length := by
    simp [Key.length_bytes]
  have hkey : (c.privateKey.map (·.bytes)).getD (zeros 32) =
      (c.privateKey.getD Key.zero).bytes := by
    cases c.privateKey <;> rfl
  have hports : ∀ y ∈ c.listenPort.map Bytes.ofUInt16BE, y.length = (zeros 2).length := by
    simp
  have hport : (c.listenPort.map Bytes.ofUInt16BE).getD (zeros 2) =
      Bytes.ofUInt16BE (c.listenPort.getD 0) := by
    cases c.listenPort with
    | none => decide
    | some v => rfl
  rw [fillInterface, hstart, putSome_flatten 4 rfl hkeys (by simp), hkey]
  simp only [bind, Except.bind]
  rw [putSome_flatten 1 rfl hports (by simp), hport, tableOf]
  cases c.firewallMark with
  | none => exact putSome_table c none back
  | some mark =>
      rw [Option.mapM_some]
      simp only
      cases tableNumber mark with
      | error e => rfl
      | ok table => exact putSome_table c (some table) back

/-! ### Filling the buffer -/

lemma fillNetworks_zeros (ns : List Network) (front back : Bytes) :
    fillNetworks (front ++ (zeros (ns.length * networkLength) ++ back)) front.length ns =
      .ok (front ++ (ns.flatMap encodeNetwork ++ back),
        front.length + ns.length * networkLength) := by
  -- the invariant is what stands before the cursor: all that has been filled so far
  induction ns generalizing front with
  | nil => simp [fillNetworks, zeros]
  | cons n rest ih =>
      have hroom : zeros ((n :: rest).length * networkLength) ++ back =
          zeros networkLength ++ (zeros (rest.length * networkLength) ++ back) := by
        rw [List.length_cons, Nat.succ_mul, Nat.add_comm, zeros_add, List.append_assoc]
      have hlength : (front ++ encodeNetwork n).length = front.length + networkLength := by
        rw [List.length_append, length_encodeNetwork]
      have hrest := ih (front ++ encodeNetwork n)
      rw [hlength, List.append_assoc] at hrest
      rw [fillNetworks, hroom, fillPart_append rfl (length_zeros _), fillNetwork_zeros]
      simp only [bind, Except.bind, Except.map]
      rw [hrest, List.flatMap_cons, List.append_assoc, List.append_assoc, List.length_cons]
      congr 2
      rw [Nat.succ_mul]
      omega

/-- The octets of the records of updates of peers. -/
def roomOf (ps : List PeerConfig) : ℕ :=
  ps.length * peerLength + (ps.flatMap (·.allowedIps)).length * networkLength

lemma roomOf_cons (p : PeerConfig) (rest : List PeerConfig) :
    roomOf (p :: rest) = peerLength + (p.allowedIps.length * networkLength + roomOf rest) := by
  simp only [roomOf, List.length_cons, List.flatMap_cons, List.length_append]
  ring

/-- Zero octets for the records of peers become these records, and the cursor ends behind them. -/
lemma fillPeers_zeros (ps : List PeerConfig) (front : Bytes) :
    fillPeers (front ++ zeros (roomOf ps)) front.length ps =
      ((ps.mapM encodePeer).mapError .refused).map fun peers =>
        (front ++ peers.flatten, (front ++ peers.flatten).length) := by
  induction ps generalizing front with
  | nil => simp [fillPeers, roomOf, zeros, pure, Except.pure, Except.mapError, Except.map]
  | cons p rest ih =>
      have hroom : zeros (roomOf (p :: rest)) = zeros peerLength ++
          (zeros (p.allowedIps.length * networkLength) ++ zeros (roomOf rest)) := by
        rw [roomOf_cons, zeros_add, zeros_add]
      rw [fillPeers, hroom, fillPart_append rfl (length_zeros _), fillPeer_zeros, List.mapM_cons,
        encodePeer_eq]
      cases secondsOf p with
      | error e => rfl
      | ok seconds =>
          set record := (peerFields p seconds).flatten with hrecord
          have hlength : front.length + peerLength = (front ++ record).length := by
            rw [List.length_append, hrecord, length_peerFields]
          have hnetworks := fillNetworks_zeros p.allowedIps (front ++ record) (zeros (roomOf rest))
          set networks := p.allowedIps.flatMap encodeNetwork with hnets
          have hcursor : (front ++ record).length + p.allowedIps.length * networkLength =
              (front ++ record ++ networks).length := by
            simp [hnets, List.length_flatMap, Nat.add_assoc]
          have hrest := ih (front ++ record ++ networks)
          simp only [bind, Except.bind, Except.map, Except.mapError, hlength]
          rw [← List.append_assoc, hnetworks, hcursor]
          simp only
          rw [← List.append_assoc, hrest]
          cases rest.mapM encodePeer with
          | error e => rfl
          | ok peers =>
              simp only [Except.map, Except.mapError, pure, Except.pure, List.flatten_cons,
                List.append_assoc, hrecord, hnets]

/-- **The buffer is filled in place**: nothing is put outside of it, it becomes the written update
unless the update is refused, and the cursor ends at its end. -/
theorem fillConfig_eq (c : Config) :
    fillConfig c = ((encodeConfig c).mapError .refused).map fun b => (b, b.length) := by
  have hroom : List.replicate (bufferLength c) 0 =
      zeros interfaceLength ++ zeros (roomOf c.peers) := by
    rw [← zeros_add, roomOf, ← Nat.add_assoc]
    rfl
  rw [fillConfig, hroom, fillInterface_zeros, encodeConfig_eq]
  cases tableOf c with
  | error e => rfl
  | ok table =>
      have hpeers := fillPeers_zeros c.peers (interfaceFields c table).flatten
      rw [length_interfaceFields] at hpeers
      simp only [bind, Except.bind, Except.map, Except.mapError]
      rw [hpeers]
      cases c.peers.mapM encodePeer <;> rfl

end WireGuardControl.OpenBsd
