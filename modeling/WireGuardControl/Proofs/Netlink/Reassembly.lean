import Mathlib.Tactic
import WireGuardControl.Proofs.Batch.Parts
import WireGuardControl.Proofs.Netlink.Merging
import WireGuardControl.Proofs.Netlink.Readback
import WireGuardControl.Proofs.Netlink.Room
/-!
The batches of an update, read as the messages of one answer.

* `foldl_addPeer_parts_append`: parts of the update of a peer, reported one behind the other, add up
  to the report of the update.
* `foldl_addPeer_allParts`: the run over all parts of updates of distinct peers gives one peer
  for each update, in order.
* `ofDump_eq`: an answer whose messages can be read is the merger of what they describe.
* `ofDump_encodeConfig`: one message of any update describes the device of the update.
* `ofDump_batches`: all batches of an update can be written, and read together they describe the
  device of the update, whether it was split or not.
-/

namespace WireGuardControl.Netlink

open Text

/-! ### Reports of one peer -/

lemma gain_described_part (p : PeerConfig) (xs ns : List Network) :
    gain (p.leadingPart xs).described (p.part ns).described =
      (p.leadingPart (xs ++ ns)).described := rfl

/-- The reports of parts of the update of a peer add up to the report of the update. -/
lemma foldl_addPeer_parts_append (p : PeerConfig) (xs : List Network)
    (runs : List (List Network)) (peers : List Peer) :
    ((runs.map p.part).map (·.described)).foldl addPeer
        (peers ++ [(p.leadingPart xs).described]) =
      peers ++ [(p.leadingPart (xs ++ runs.flatten)).described] := by
  induction runs generalizing xs with
  | nil => rw [List.flatten_nil, List.append_nil]; rfl
  | cons ns runs ih =>
      have hkey : (p.leadingPart xs).described.publicKey = (p.part ns).described.publicKey := rfl
      rw [List.map_cons, List.map_cons, List.foldl_cons,
        addPeer_append_cons peers hkey List.not_mem_nil,
        gain_described_part, ih, List.flatten_cons, List.append_assoc]

/-- The parts of the update of a peer that was not reported before are reported as one peer. -/
lemma foldl_addPeer_parts (p : PeerConfig) {peers : List Peer}
    (h : p.publicKey ∉ peers.map (·.publicKey)) :
    ((p.parts false).map (·.described)).foldl addPeer peers = peers ++ [p.described] := by
  obtain ⟨first, later, hnets, -, hp⟩ := p.parts_eq false
  rw [hp, if_neg (by simp), List.map_cons, List.foldl_cons,
    addPeer_of_notMem (p := (p.leadingPart first).described) h, foldl_addPeer_parts_append,
    hnets, PeerConfig.leadingPart_allowedIps]

/-- The parts of updates of distinct peers are reported as one peer for each update. -/
lemma foldl_addPeer_allParts (seen : List Key) {ps : List PeerConfig} {peers : List Peer}
    (hnodup : (ps.map (·.publicKey)).Nodup) (hseen : ∀ p ∈ ps, p.publicKey ∉ seen)
    (hpeers : ∀ p ∈ ps, p.publicKey ∉ peers.map (·.publicKey)) :
    ((PeerConfig.allParts seen ps).map (·.described)).foldl addPeer peers =
      peers ++ ps.map (·.described) := by
  induction ps generalizing seen peers with
  | nil => simp [PeerConfig.allParts]
  | cons p rest ih =>
      rw [List.map_cons, List.nodup_cons] at hnodup
      have hne : ∀ q ∈ rest, q.publicKey ≠ p.publicKey :=
        fun q hq hqp => hnodup.1 (List.mem_map.mpr ⟨q, hq, hqp⟩)
      have hp : decide (p.publicKey ∈ seen) = false := by simpa using hseen p (by simp)
      rw [PeerConfig.allParts, List.map_append, List.foldl_append, hp,
        foldl_addPeer_parts p (hpeers p (by simp)), ih (p.publicKey :: seen) hnodup.2,
        List.map_cons, List.append_assoc, List.singleton_append]
      · intro q hq hmem
        rcases List.mem_cons.mp hmem with hqp | hqs
        · exact hne q hq hqp
        · exact hseen q (by simp [hq]) hqs
      · intro q hq hmem
        rw [List.map_append, List.mem_append] at hmem
        rcases hmem with hmem | hmem
        · exact hpeers q (by simp [hq]) hmem
        · exact hne q hq (List.mem_singleton.mp hmem)

/-! ### Messages of one answer -/

/-- Messages that can be read are merged in order. -/
lemma mergeAll_eq {messages : List Bytes} {ds : List Device}
    (h : List.Forall₂ (fun m d => readDevice m = .ok d) messages ds) (target : Device) :
    mergeAll target messages = .ok (ds.foldl merge target) := by
  induction h generalizing target with
  | nil => rfl
  | cons hm _ ih =>
      rw [mergeAll, List.foldlM_cons, hm]
      exact ih _

lemma ofDump_eq {message : Bytes} {d : Device} {messages : List Bytes} {ds : List Device}
    (hm : readDevice message = .ok d)
    (h : List.Forall₂ (fun m d => readDevice m = .ok d) messages ds) :
    ofDump (message :: messages) = .ok (ds.foldl merge d) := by
  rw [ofDump, hm]
  exact mergeAll_eq h d

/-- **A written update reads back**: the message of any update that can be written, read as the
whole answer about a device, describes the device of the update. Each update of a peer stands for
a peer of its own, in order, also where keys are repeated. -/
theorem ofDump_encodeConfig {name : String} (hname : '\x00' ∉ name.toList) {c : Config}
    {message : Bytes} (h : encodeConfig name c = .ok message) :
    ofDump [message] = .ok (c.described name .linuxKernel) :=
  ofDump_eq (readDevice_of_encodeConfig hname h) .nil

/-- Two updates of one peer, the second of which has an IPv6 endpoint, an interval of keepalives
that is cut and a network with host bits. -/
theorem ofDump_encodeConfig_repeated :
    let key : Key := ⟨List.replicate 32 7, rfl⟩
    let c : Config :=
      { privateKey := some key
        firewallMark := some 9
        peers :=
          [{ publicKey := key, remove := true },
            { publicKey := key
              presharedKey := some key
              endpoint := some (.v6 ⟨List.replicate 8 1, rfl⟩ 51820 5 3)
              keepalive := some ⟨25, 1⟩
              allowedIps := [.v4 ⟨10, 1, 2, 3⟩ 8, .v6 ⟨List.replicate 8 1, rfl⟩ 0] }] }
    '\x00' ∉ "wg0".toList ∧ ∃ message, encodeConfig "wg0" c = .ok message ∧
      ofDump [message] = .ok
        { name := "wg0"
          deviceType := .linuxKernel
          privateKey := key
          firewallMark := 9
          peers :=
            [{ publicKey := key },
              { publicKey := key
                presharedKey := key
                endpoint := some (.v6 ⟨List.replicate 8 1, rfl⟩ 51820 5 3)
                keepalive := ⟨25, 0⟩
                allowedIps := [.v4 ⟨10, 1, 2, 3⟩ 8, .v6 ⟨List.replicate 8 1, rfl⟩ 0] }] } := by
  intro key c
  have hname : '\x00' ∉ "wg0".toList := by decide
  have hkeepalive : ∀ p ∈ c.peers, ∀ i, p.keepalive = some i → i.seconds.toNat ≤ maxKeepalive := by
    intro p hp i hi
    rcases List.mem_cons.mp hp with rfl | hp
    · cases hi
    · rw [List.mem_singleton.mp hp] at hi
      rw [← Option.some.inj hi]
      decide
  have hbatch : c ∈ c.batches := by
    rw [Config.batches_of_not_isLarge (by decide)]
    exact List.mem_singleton_self c
  have hlen : (Utf8.ofString "wg0").length + 5 ≤ Encoder.maxLength := by decide
  obtain ⟨message, hmessage⟩ := exists_encodeConfig_of_mem_batches hlen hkeepalive hbatch
  exact ⟨hname, message, hmessage, ofDump_encodeConfig hname hmessage⟩

/-! ### The batches of an update -/

/-- Updates each of which can be written can all be written. -/
lemma exists_mapM_encodeConfig {name : String} {cs : List Config}
    (h : ∀ c ∈ cs, ∃ m, encodeConfig name c = .ok m) :
    ∃ messages, cs.mapM (encodeConfig name) = .ok messages ∧
      List.Forall₂ (fun m c => encodeConfig name c = .ok m) messages cs := by
  induction cs with
  | nil => exact ⟨[], rfl, .nil⟩
  | cons c rest ih =>
      obtain ⟨m, hm⟩ := h c (by simp)
      obtain ⟨messages, hmap, hall⟩ := ih fun c hc => h c (by simp [hc])
      refine ⟨m :: messages, ?_, .cons hm hall⟩
      rw [List.mapM_cons, hm, hmap]
      rfl

/-- What the batches of an update describe, merged in order, is the device of the update. -/
lemma foldl_merge_batches {name : String} {c b : Config} {bs : List Config}
    (hkeys : (c.peers.map (·.publicKey)).Nodup) (hb : c.batches = b :: bs) :
    (bs.map (·.described name .linuxKernel)).foldl merge (b.described name .linuxKernel) =
      c.described name .linuxKernel := by
  cases h : c.isLarge with
  | false =>
      rw [Config.batches_of_not_isLarge h] at hb
      obtain ⟨rfl, rfl⟩ := List.cons.inj hb
      rfl
  | true =>
      obtain ⟨first, later, hparts, hbs⟩ := Config.batches_of_isLarge h
      obtain ⟨rfl, rfl⟩ := List.cons.inj (hbs.symm.trans hb)
      have hlater : ((later.map fun p => (c.onePeer p).keepingPeers).map
          (·.described name .linuxKernel)).flatMap (·.peers) = later.map (·.described) := by
        rw [List.map_map, List.flatMap_map]
        exact List.map_eq_flatMap.symm
      have hrun := @foldl_addPeer_allParts [] c.peers [] hkeys (by simp) (by simp)
      rw [hparts, List.map_cons, List.foldl_cons, List.nil_append] at hrun
      calc ((later.map fun p => (c.onePeer p).keepingPeers).map
            (·.described name .linuxKernel)).foldl merge
              ((c.onePeer first).described name .linuxKernel)
          = { (c.onePeer first).described name .linuxKernel with
              peers := (later.map (·.described)).foldl addPeer (addPeer [] first.described) } := by
            rw [foldl_merge, hlater]
            rfl
        _ = { (c.onePeer first).described name .linuxKernel with
              peers := c.peers.map (·.described) } := by rw [hrun]
        _ = c.described name .linuxKernel := rfl

/-- **Splitting, writing, reading and merging are inverse**: all batches of an update of distinct
peers can be written, and read as the messages of one answer they describe the device of the whole
update. -/
theorem ofDump_batches {name : String} (hname : '\x00' ∉ name.toList)
    (hlen : (Utf8.ofString name).length + 5 ≤ Encoder.maxLength) {c : Config}
    (hkeys : (c.peers.map (·.publicKey)).Nodup)
    (hkeepalive : ∀ p ∈ c.peers, ∀ i, p.keepalive = some i → i.seconds.toNat ≤ maxKeepalive) :
    ∃ messages, c.batches.mapM (encodeConfig name) = .ok messages ∧
      ofDump messages = .ok (c.described name .linuxKernel) := by
  obtain ⟨messages, hmap, hall⟩ := exists_mapM_encodeConfig fun b hb =>
    exists_encodeConfig_of_mem_batches hlen hkeepalive hb
  refine ⟨messages, hmap, ?_⟩
  have hread : List.Forall₂ (fun m d => readDevice m = .ok d) messages
      (c.batches.map (·.described name .linuxKernel)) := by
    rw [List.forall₂_map_right_iff]
    exact hall.imp fun m b hm => readDevice_of_encodeConfig hname hm
  cases hb : c.batches with
  | nil => exact absurd hb c.batches_ne_nil
  | cons b bs =>
      rw [hb, List.map_cons] at hread
      cases hread with
      | cons hm hms => rw [ofDump_eq hm hms, foldl_merge_batches hkeys hb]

/-- Two peers with settings of every kind, the second of which has more networks than one message
is given. -/
theorem ofDump_batches_split :
    let key : Key := ⟨List.replicate 32 7, rfl⟩
    let c : Config :=
      { privateKey := some key
        listenPort := some 51820
        replacePeers := true
        peers :=
          [{ publicKey := key, endpoint := some (.v6 ⟨List.replicate 8 1, rfl⟩ 51820 5 3) },
            { presharedKey := some key
              keepalive := some ⟨25, 1⟩
              allowedIps := List.replicate 300 (.v4 ⟨10, 1, 2, 3⟩ 8) }] }
    c.isLarge = true ∧ '\x00' ∉ "wg0".toList ∧
      (Utf8.ofString "wg0").length + 5 ≤ Encoder.maxLength ∧
      (c.peers.map (·.publicKey)).Nodup ∧
      (∀ p ∈ c.peers, ∀ i, p.keepalive = some i → i.seconds.toNat ≤ maxKeepalive) ∧
      ∃ messages, c.batches.mapM (encodeConfig "wg0") = .ok messages ∧
        ofDump messages = .ok (c.described "wg0" .linuxKernel) := by
  intro key c
  have hname : '\x00' ∉ "wg0".toList := by decide
  have hlen : (Utf8.ofString "wg0").length + 5 ≤ Encoder.maxLength := by decide
  have hkeys : (c.peers.map (·.publicKey)).Nodup := by decide
  have hkeepalive : ∀ p ∈ c.peers, ∀ i, p.keepalive = some i → i.seconds.toNat ≤ maxKeepalive := by
    intro p hp i hi
    rcases List.mem_cons.mp hp with rfl | hp
    · cases hi
    · rw [List.mem_singleton.mp hp] at hi
      rw [← Option.some.inj hi]
      decide
  exact ⟨by decide +kernel, hname, hlen, hkeys, hkeepalive,
    ofDump_batches hname hlen hkeys hkeepalive⟩

end WireGuardControl.Netlink
