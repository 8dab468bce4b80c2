import Mathlib.Tactic
import WireGuardControl.Netlink.Batch
/-!
How an update falls into parts.

* `flatten_chunks` and `length_le_of_mem_chunks`: the runs of a list make up the list again,
  and none is longer than it may be.
* `PeerConfig.parts_eq`: the parts of the update of a peer are one leading part, or a mere part
  where the peer was seen before, and mere parts behind it, whose networks together are those
  of the update.
* `Config.sentPeers`: the updates of peers over all batches, which are those of the update
  itself or, if it is large, all of their parts (`Config.sentPeers_eq`).
* `Config.batches_of_isLarge`: a large update has a first batch.
* `Config.isLarge_of_mem_batches`: no batch is large.
-/

namespace WireGuardControl

/-! ### Runs of a list -/

section Chunks

variable {α : Type} {size : ℕ}

lemma chunks_ne_nil (xs : List α) : chunks size xs ≠ [] := by
  rw [chunks]
  split <;> simp

/-- The runs of a list, one behind the other, are the list. -/
lemma flatten_chunks (size : ℕ) (xs : List α) : (chunks size xs).flatten = xs := by
  induction xs using chunks.induct size with
  | case1 xs h => rw [chunks, if_pos h]; simp
  | case2 xs h ih => rw [chunks, if_neg h, List.flatten_cons, ih, List.take_append_drop]

lemma length_le_of_mem_chunks (hs : 0 < size) {xs run : List α} (h : run ∈ chunks size xs) :
    run.length ≤ size := by
  induction xs using chunks.induct size with
  | case1 xs hxs =>
      rw [chunks, if_pos hxs, List.mem_singleton] at h
      rw [h]
      omega
  | case2 xs hxs ih =>
      rw [chunks, if_neg hxs] at h
      rcases List.mem_cons.mp h with rfl | h
      · simp
      · exact ih h

end Chunks

/-! ### Parts of the update of a peer -/

namespace PeerConfig

@[simp] lemma publicKey_part (p : PeerConfig) (ns : List Network) :
    (p.part ns).publicKey = p.publicKey := rfl

@[simp] lemma publicKey_leadingPart (p : PeerConfig) (ns : List Network) :
    (p.leadingPart ns).publicKey = p.publicKey := rfl

@[simp] lemma leadingPart_allowedIps (p : PeerConfig) : p.leadingPart p.allowedIps = p := rfl

/-- The parts of an update: the first may hold the settings, the others add networks, and the
networks of all are those of the update. -/
lemma parts_eq (p : PeerConfig) (seen : Bool) :
    ∃ first later, first ++ later.flatten = p.allowedIps ∧
      (∀ run ∈ first :: later, run.length ≤ networksPerBatch) ∧
      p.parts seen = (if seen then p.part first else p.leadingPart first) :: later.map p.part := by
  cases h : chunks networksPerBatch p.allowedIps with
  | nil => exact absurd h (chunks_ne_nil _)
  | cons first later =>
      refine ⟨first, later, ?_, fun run hrun => ?_, ?_⟩
      · rw [← List.flatten_cons, ← h, flatten_chunks]
      · exact length_le_of_mem_chunks (by decide) (h ▸ hrun)
      · rw [parts, h]

lemma parts_ne_nil (p : PeerConfig) (seen : Bool) : p.parts seen ≠ [] := by
  obtain ⟨first, later, -, -, h⟩ := p.parts_eq seen
  simp [h]

/-- A part is aimed at the peer of the update. -/
lemma publicKey_of_mem_parts {p q : PeerConfig} {seen : Bool} (h : q ∈ p.parts seen) :
    q.publicKey = p.publicKey := by
  obtain ⟨first, later, -, -, hp⟩ := p.parts_eq seen
  rw [hp] at h
  rcases List.mem_cons.mp h with rfl | h
  · split <;> rfl
  · obtain ⟨run, -, rfl⟩ := List.mem_map.mp h
    rfl

/-- A part has no more networks than one message is given. -/
lemma length_allowedIps_of_mem_parts {p q : PeerConfig} {seen : Bool} (h : q ∈ p.parts seen) :
    q.allowedIps.length ≤ networksPerBatch := by
  obtain ⟨first, later, -, hlen, hp⟩ := p.parts_eq seen
  rw [hp] at h
  rcases List.mem_cons.mp h with rfl | h
  · split <;> exact hlen first (by simp)
  · obtain ⟨run, hrun, rfl⟩ := List.mem_map.mp h
    exact hlen run (by simp [hrun])

/-- A part keeps the interval of keepalives of the update, or has none. -/
lemma keepalive_of_mem_parts {p q : PeerConfig} {seen : Bool} (h : q ∈ p.parts seen) :
    q.keepalive = none ∨ q.keepalive = p.keepalive := by
  obtain ⟨first, later, -, -, hp⟩ := p.parts_eq seen
  rw [hp] at h
  rcases List.mem_cons.mp h with rfl | h
  · cases seen
    · exact Or.inr rfl
    · exact Or.inl rfl
  · obtain ⟨run, -, rfl⟩ := List.mem_map.mp h
    exact Or.inl rfl

/-- Every part of updates is a part of one of them. -/
lemma exists_of_mem_allParts {q : PeerConfig} {seen : List Key} {ps : List PeerConfig}
    (h : q ∈ allParts seen ps) : ∃ p ∈ ps, ∃ b, q ∈ p.parts b := by
  induction ps generalizing seen with
  | nil => simp [allParts] at h
  | cons p rest ih =>
      rcases List.mem_append.mp h with h | h
      · exact ⟨p, by simp, _, h⟩
      · obtain ⟨p', hp', b, hb⟩ := ih h
        exact ⟨p', by simp [hp'], b, hb⟩

/-- Updates have no fewer parts than there are updates. -/
lemma length_le_length_allParts (seen : List Key) (ps : List PeerConfig) :
    ps.length ≤ (allParts seen ps).length := by
  induction ps generalizing seen with
  | nil => simp
  | cons p rest ih =>
      have hp : 0 < (p.parts (p.publicKey ∈ seen)).length :=
        List.length_pos_of_ne_nil (p.parts_ne_nil _)
      have hrest := ih (p.publicKey :: seen)
      rw [allParts, List.length_append, List.length_cons]
      omega

end PeerConfig

/-! ### Batches of an update -/

namespace Config

/-- The updates of peers that are sent in place of an update, over all batches. -/
def sentPeers (c : Config) : List PeerConfig := c.batches.flatMap (·.peers)

lemma batches_of_not_isLarge {c : Config} (h : c.isLarge = false) : c.batches = [c] := by
  rw [batches, h, if_neg (by simp)]

lemma peers_ne_nil_of_isLarge {c : Config} (h : c.isLarge = true) : c.peers ≠ [] := by
  intro hc
  simp [isLarge, allowedIpCount, hc] at h

/-- The batches of a large update: one for each part of an update of a peer, of which the first
may discard all peers. -/
lemma batches_of_isLarge {c : Config} (h : c.isLarge = true) :
    ∃ first later, PeerConfig.allParts [] c.peers = first :: later ∧
      c.batches = c.onePeer first :: later.map fun p => (c.onePeer p).keepingPeers := by
  cases hp : PeerConfig.allParts [] c.peers with
  | nil =>
      have hlen := PeerConfig.length_le_length_allParts [] c.peers
      have hpos := List.length_pos_of_ne_nil (peers_ne_nil_of_isLarge h)
      rw [hp, List.length_nil] at hlen
      omega
  | cons first later => exact ⟨first, later, rfl, by rw [batches, if_pos h, hp]⟩

/-- An update has at least one batch. -/
lemma batches_ne_nil (c : Config) : c.batches ≠ [] := by
  cases h : c.isLarge with
  | false =>
      rw [batches_of_not_isLarge h]
      exact List.cons_ne_nil c []
  | true =>
      obtain ⟨first, later, -, hb⟩ := batches_of_isLarge h
      rw [hb]
      exact List.cons_ne_nil _ _

/-- What is sent for the peers of an update. -/
lemma sentPeers_eq (c : Config) :
    c.sentPeers = if c.isLarge then PeerConfig.allParts [] c.peers else c.peers := by
  cases h : c.isLarge with
  | false => rw [sentPeers, batches_of_not_isLarge h]; simp
  | true =>
      obtain ⟨first, later, hp, hb⟩ := batches_of_isLarge h
      have hlater : (later.map fun p => (c.onePeer p).keepingPeers).flatMap (·.peers) = later := by
        rw [List.flatMap_map]
        exact List.flatMap_singleton' later
      rw [sentPeers, hb, List.flatMap_cons, hlater, if_pos rfl, hp]
      rfl

/-- A batch of a large update is for one part. -/
lemma exists_peers_of_mem_batches {c b : Config} (h : c.isLarge = true) (hb : b ∈ c.batches) :
    ∃ q ∈ PeerConfig.allParts [] c.peers, b.peers = [q] := by
  obtain ⟨first, later, hp, hbs⟩ := batches_of_isLarge h
  rw [hbs] at hb
  rw [hp]
  rcases List.mem_cons.mp hb with rfl | hb
  · exact ⟨first, by simp, rfl⟩
  · obtain ⟨q, hq, rfl⟩ := List.mem_map.mp hb
    exact ⟨q, by simp [hq], rfl⟩

/-- No batch is large. -/
lemma isLarge_of_mem_batches {c b : Config} (hb : b ∈ c.batches) : b.isLarge = false := by
  cases h : c.isLarge with
  | false =>
      rw [batches_of_not_isLarge h, List.mem_singleton] at hb
      rw [hb, h]
  | true =>
      obtain ⟨q, hq, hpeers⟩ := exists_peers_of_mem_batches h hb
      obtain ⟨p, -, seen, hqp⟩ := PeerConfig.exists_of_mem_allParts hq
      have hlen := PeerConfig.length_allowedIps_of_mem_parts hqp
      simp only [isLarge, allowedIpCount, hpeers, peersPerBatch, List.length_singleton,
        List.flatMap_singleton, Bool.or_eq_false_iff, decide_eq_false_iff_not]
      exact ⟨by decide, by omega⟩

end Config

end WireGuardControl
