import Mathlib.Tactic
import WireGuardControl.Config.Effect
import WireGuardControl.Proofs.Batch.Parts
/-!
The batches of an update do what the update does.

* `PeerConfig.apply_part_apply_leadingPart`: the step. A part that is applied behind a leading
  part of the same update adds its networks, whether the peer is removed, created, updated or
  left out.
* `PeerConfig.foldl_apply_allParts`: the run over all parts of updates of distinct peers.
* `Config.nodup_publicKeys_apply`: a device keeps distinct keys under every update.
* `Config.foldl_apply_batches`: applying the batches in order is applying the update.
-/

namespace WireGuardControl

/-! ### One peer -/

namespace PeerConfig

/-- The peers of which those with the key of an update are revised. -/
def reviseAll (c : PeerConfig) (peers : List Peer) : List Peer :=
  peers.map fun p => if p.publicKey = c.publicKey then c.revise p else p

@[simp] lemma publicKeys_reviseAll (c : PeerConfig) (peers : List Peer) :
    (c.reviseAll peers).map (·.publicKey) = peers.map (·.publicKey) := by
  rw [reviseAll, List.map_map]
  refine List.map_congr_left fun p _ => ?_
  simp only [Function.comp_apply]
  split <;> rfl

/-- A revision leaves peers alone none of which has the key. -/
lemma reviseAll_of_not_mem {c : PeerConfig} {peers : List Peer}
    (h : c.publicKey ∉ peers.map (·.publicKey)) : c.reviseAll peers = peers := by
  rw [reviseAll]
  conv_rhs => rw [← List.map_id peers]
  refine List.map_congr_left fun p hp => if_neg fun hkey => h ?_
  exact List.mem_map.mpr ⟨p, hp, hkey⟩

lemma apply_of_remove {c : PeerConfig} (h : c.remove = true) (peers : List Peer) :
    c.apply peers = peers.filter fun p => p.publicKey ≠ c.publicKey := by
  rw [apply, if_pos h]

lemma apply_of_mem {c : PeerConfig} (h : c.remove = false) {peers : List Peer}
    (hmem : c.publicKey ∈ peers.map (·.publicKey)) : c.apply peers = c.reviseAll peers := by
  rw [apply, h, if_neg (by simp), if_pos hmem, reviseAll]

lemma apply_of_updateOnly {c : PeerConfig} (h : c.remove = false) {peers : List Peer}
    (hmem : c.publicKey ∉ peers.map (·.publicKey)) (hu : c.updateOnly = true) :
    c.apply peers = peers := by
  rw [apply, h, if_neg (by simp), if_neg hmem, if_pos hu]

lemma apply_of_not_mem {c : PeerConfig} (h : c.remove = false) {peers : List Peer}
    (hmem : c.publicKey ∉ peers.map (·.publicKey)) (hu : c.updateOnly = false) :
    c.apply peers = peers ++ [c.revise { publicKey := c.publicKey }] := by
  rw [apply, h, if_neg (by simp), if_neg hmem, hu, if_neg (by simp)]

/-- Peers keep distinct keys under the update of one of them. -/
lemma nodup_publicKeys_apply (c : PeerConfig) {peers : List Peer}
    (h : (peers.map (·.publicKey)).Nodup) : ((c.apply peers).map (·.publicKey)).Nodup := by
  cases hremove : c.remove with
  | true =>
      rw [apply_of_remove hremove]
      exact h.sublist (List.filter_sublist.map _)
  | false =>
      by_cases hmem : c.publicKey ∈ peers.map (·.publicKey)
      · rwa [apply_of_mem hremove hmem, publicKeys_reviseAll]
      · cases hu : c.updateOnly with
        | true => rwa [apply_of_updateOnly hremove hmem hu]
        | false =>
            rw [apply_of_not_mem hremove hmem hu, List.map_append, List.nodup_append]
            refine ⟨h, by simp, fun k hk k' hk' hkk' => hmem ?_⟩
            simp only [List.map_cons, List.map_nil, List.mem_singleton] at hk'
            rw [hkk', hk'] at hk
            exact hk

/-! ### Parts of the update of a peer -/

lemma revise_part_revise_leadingPart (p : PeerConfig) (xs ns : List Network) (q : Peer) :
    (p.part ns).revise ((p.leadingPart xs).revise q) = (p.leadingPart (xs ++ ns)).revise q := by
  cases h : p.replaceAllowedIps <;> simp [revise, part, leadingPart, h]

/-- Revising with a leading part and then with a part is revising with both. -/
lemma reviseAll_part_reviseAll_leadingPart (p : PeerConfig) (xs ns : List Network)
    (peers : List Peer) :
    (p.part ns).reviseAll ((p.leadingPart xs).reviseAll peers) =
      (p.leadingPart (xs ++ ns)).reviseAll peers := by
  simp only [reviseAll, List.map_map, publicKey_part, publicKey_leadingPart]
  refine List.map_congr_left fun q _ => ?_
  by_cases hq : q.publicKey = p.publicKey
  · simp [hq, revise_part_revise_leadingPart]
  · simp [hq]

/-- A part that follows a leading part of the same update adds its networks to those of the
leading part, and does nothing else. -/
lemma apply_part_apply_leadingPart (p : PeerConfig) (xs ns : List Network) (peers : List Peer) :
    (p.part ns).apply ((p.leadingPart xs).apply peers) =
      (p.leadingPart (xs ++ ns)).apply peers := by
  cases hremove : p.remove with
  | true =>
      have htwice : ∀ key : Key, (peers.filter fun q => q.publicKey ≠ key).filter
          (fun q => q.publicKey ≠ key) = peers.filter fun q => q.publicKey ≠ key := by
        intro key
        rw [List.filter_filter]
        simp only [Bool.and_self]
      rw [apply_of_remove (c := p.part ns) hremove,
        apply_of_remove (c := p.leadingPart xs) hremove,
        apply_of_remove (c := p.leadingPart (xs ++ ns)) hremove]
      exact htwice p.publicKey
  | false =>
      by_cases hmem : p.publicKey ∈ peers.map (·.publicKey)
      · rw [apply_of_mem (c := p.leadingPart xs) hremove hmem,
          apply_of_mem (c := p.leadingPart (xs ++ ns)) hremove hmem,
          apply_of_mem (c := p.part ns) hremove (by simpa using hmem),
          reviseAll_part_reviseAll_leadingPart]
      · cases hu : p.updateOnly with
        | true =>
            rw [apply_of_updateOnly (c := p.leadingPart xs) hremove hmem hu,
              apply_of_updateOnly (c := p.leadingPart (xs ++ ns)) hremove hmem hu,
              apply_of_updateOnly (c := p.part ns) hremove hmem hu]
        | false =>
            -- the leading part creates the peer, so that the part finds it
            rw [apply_of_not_mem (c := p.leadingPart xs) hremove hmem hu,
              apply_of_not_mem (c := p.leadingPart (xs ++ ns)) hremove hmem hu,
              apply_of_mem (c := p.part ns) hremove (by simp)]
            have hold := reviseAll_of_not_mem (c := p.part ns) hmem
            rw [reviseAll] at hold
            rw [reviseAll, List.map_append, hold]
            simp [revise_part_revise_leadingPart]

/-- The parts of an update whose networks are `xs` and those of the runs add up to the update
with all of these networks. -/
lemma foldl_apply_parts_append (p : PeerConfig) (xs : List Network) (runs : List (List Network))
    (peers : List Peer) :
    (runs.map p.part).foldl (fun peers q => q.apply peers) ((p.leadingPart xs).apply peers) =
      (p.leadingPart (xs ++ runs.flatten)).apply peers := by
  induction runs generalizing xs with
  | nil => simp
  | cons ns runs ih =>
      rw [List.map_cons, List.foldl_cons, apply_part_apply_leadingPart, ih, List.flatten_cons,
        List.append_assoc]

/-- The parts of an update of a peer that was not seen before do what the update does. -/
lemma foldl_apply_parts (p : PeerConfig) (peers : List Peer) :
    (p.parts false).foldl (fun peers q => q.apply peers) peers = p.apply peers := by
  obtain ⟨first, later, hnets, -, hp⟩ := p.parts_eq false
  rw [hp, List.foldl_cons, if_neg (by simp), foldl_apply_parts_append, hnets,
    leadingPart_allowedIps]

/-- The parts of updates of distinct peers do what the updates do. -/
lemma foldl_apply_allParts (seen : List Key) {ps : List PeerConfig}
    (hnodup : (ps.map (·.publicKey)).Nodup) (hseen : ∀ p ∈ ps, p.publicKey ∉ seen)
    (peers : List Peer) :
    (allParts seen ps).foldl (fun peers q => q.apply peers) peers =
      ps.foldl (fun peers p => p.apply peers) peers := by
  induction ps generalizing seen peers with
  | nil => rfl
  | cons p rest ih =>
      rw [List.map_cons, List.nodup_cons] at hnodup
      have hp : decide (p.publicKey ∈ seen) = false := by simpa using hseen p (by simp)
      rw [allParts, List.foldl_append, hp, foldl_apply_parts, List.foldl_cons]
      refine ih (p.publicKey :: seen) hnodup.2 (fun q hq hmem => ?_) _
      rcases List.mem_cons.mp hmem with hqp | hqs
      · exact hnodup.1 (List.mem_map.mpr ⟨q, hq, hqp⟩)
      · exact hseen q (by simp [hq]) hqs

end PeerConfig

/-! ### A device -/

namespace Config

/-- A device with the settings of an update, and with its own peers. -/
def settle (c : Config) (d : Device) : Device :=
  { d with
    privateKey := c.privateKey.getD d.privateKey
    listenPort := c.listenPort.getD d.listenPort
    firewallMark := c.firewallMark.getD d.firewallMark }

@[simp] lemma settle_settle (c : Config) (d : Device) : c.settle (c.settle d) = c.settle d := by
  cases hk : c.privateKey <;> cases hp : c.listenPort <;> cases hm : c.firewallMark <;>
    simp [settle, hk, hp, hm]

@[simp] lemma settle_with_peers (c : Config) (d : Device) (peers : List Peer) :
    c.settle { d with peers := peers } = { c.settle d with peers := peers } := rfl

lemma apply_eq (c : Config) (d : Device) :
    c.apply d = { c.settle d with
      peers := c.peers.foldl (fun peers p => p.apply peers)
        (if c.replacePeers then [] else d.peers) } := rfl

/-- A device keeps distinct keys under an update. -/
lemma nodup_publicKeys_apply (c : Config) {d : Device} (h : (d.peers.map (·.publicKey)).Nodup) :
    ((c.apply d).peers.map (·.publicKey)).Nodup := by
  have hrun : ∀ (ps : List PeerConfig) (peers : List Peer), (peers.map (·.publicKey)).Nodup →
      ((ps.foldl (fun peers p => p.apply peers) peers).map (·.publicKey)).Nodup := by
    intro ps
    induction ps with
    | nil => exact fun _ h => h
    | cons p rest ih => exact fun peers h => ih _ (p.nodup_publicKeys_apply h)
  refine hrun c.peers _ ?_
  split
  · simp
  · exact h

/-- The batches behind the first one only update peers, for the first one has made the settings
of the update. -/
lemma foldl_apply_keepingPeers (c : Config) (ps : List PeerConfig) (d : Device)
    (hd : c.settle d = d) :
    (ps.map fun p => (c.onePeer p).keepingPeers).foldl (fun d b => b.apply d) d =
      { d with peers := ps.foldl (fun peers p => p.apply peers) d.peers } := by
  induction ps generalizing d with
  | nil => rfl
  | cons p rest ih =>
      have hstep : (c.onePeer p).keepingPeers.apply d = { d with peers := p.apply d.peers } :=
        calc (c.onePeer p).keepingPeers.apply d
            = { c.settle d with peers := p.apply d.peers } := rfl
          _ = { d with peers := p.apply d.peers } := by rw [hd]
      rw [List.map_cons, List.foldl_cons, hstep, ih _ (by rw [settle_with_peers, hd]),
        List.foldl_cons]

/-- **Splitting keeps the meaning**: applying the batches of an update of distinct peers one
behind the other, in order, gives the device that the update gives. -/
theorem foldl_apply_batches (c : Config) (d : Device)
    (hc : (c.peers.map (·.publicKey)).Nodup) :
    c.batches.foldl (fun d b => b.apply d) d = c.apply d := by
  cases h : c.isLarge with
  | false => rw [batches_of_not_isLarge h, List.foldl_cons, List.foldl_nil]
  | true =>
      obtain ⟨first, later, hparts, hb⟩ := batches_of_isLarge h
      set start := if c.replacePeers then [] else d.peers
      have hfirst : (c.onePeer first).apply d =
          { c.settle d with peers := first.apply start } := rfl
      have hpeers := PeerConfig.foldl_apply_allParts [] hc (by simp) start
      rw [hparts, List.foldl_cons] at hpeers
      calc c.batches.foldl (fun d b => b.apply d) d
          = (later.map fun p => (c.onePeer p).keepingPeers).foldl (fun d b => b.apply d)
              { c.settle d with peers := first.apply start } := by
            rw [hb, List.foldl_cons, hfirst]
        _ = { c.settle d with
              peers := later.foldl (fun peers p => p.apply peers) (first.apply start) } :=
            foldl_apply_keepingPeers c later _ (by simp)
        _ = { c.settle d with
              peers := c.peers.foldl (fun peers p => p.apply peers) start } := by rw [hpeers]
        _ = c.apply d := (c.apply_eq d).symm

/-- An update of one peer with three hundred networks, which takes the place of the networks that
the peer has, and which goes out in two batches. -/
theorem foldl_apply_batches_split :
    let n : Network := .v4 ⟨10, 0, 0, 0⟩ 8
    let c : Config :=
      { firewallMark := some 0
        peers := [{ replaceAllowedIps := true, allowedIps := List.replicate 300 n }] }
    let d : Device := { firewallMark := 7, peers := [{ allowedIps := [n, n] }] }
    c.isLarge = true ∧ c.batches.length = 2 ∧ (c.peers.map (·.publicKey)).Nodup ∧
      c.batches.foldl (fun d b => b.apply d) d = c.apply d := by
  intro n c d
  have hkeys : (c.peers.map (·.publicKey)).Nodup := List.nodup_singleton _
  exact ⟨by decide +kernel, by decide +kernel, hkeys, foldl_apply_batches c d hkeys⟩

end Config

end WireGuardControl
