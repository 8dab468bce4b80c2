import Mathlib.Tactic
import WireGuardControl.Proofs.Batch.Parts
/-!
The shape of the batches.

* `IsCut`: a list is cut into runs of one length, of which the last may be shorter;
  `isCut_chunks` says that `chunks` does this.
* `PeerConfig.pieces`: the runs of networks of several entries, each with its entry, in order. The
  parts of entries are the parts for their pieces (`PeerConfig.allParts_eq`), and a part holds the
  settings of its entry if no earlier part is for the same key
  (`PeerConfig.exists_piece_of_partsFor`).
* `Config.IsBatch`: what the batch for a piece holds behind earlier batches.
* `Config.batches_pieces`: an update that is not large is its only batch, and a large one has one
  batch for each piece. No batch is split again.
-/

namespace WireGuardControl

/-! ### Runs of one length -/

section Cut

variable {α : Type} {size : ℕ}

/-- A list is cut into runs of `size` members, of which the last may be shorter. An empty list is
one empty run. -/
structure IsCut (size : ℕ) (xs : List α) (runs : List (List α)) : Prop where
  /-- One behind the other, the runs are the list. -/
  flatten : runs.flatten = xs
  /-- Every run but the last has the full length. -/
  full : ∀ run ∈ runs.dropLast, run.length = size
  /-- No run is longer. -/
  length_le : ∀ run ∈ runs, run.length ≤ size
  /-- No run is empty unless the list is. -/
  eq_nil : [] ∈ runs → xs = []
  /-- There are as many runs as it takes, and at least one. -/
  length_runs : runs.length = max 1 ((xs.length + (size - 1)) / size)

lemma chunks_of_le {xs : List α} (h : xs.length ≤ size) : chunks size xs = [xs] := by
  rw [chunks, if_pos (.inl h)]

lemma chunks_of_lt (hs : 0 < size) {xs : List α} (h : size < xs.length) :
    chunks size xs = xs.take size :: chunks size (xs.drop size) := by
  rw [chunks, if_neg (by omega)]

/-- Nothing that is at most as long as a run is cut. -/
lemma isCut_singleton (hs : 0 < size) {xs : List α} (h : xs.length ≤ size) :
    IsCut size xs [xs] where
  flatten := by simp
  full := by simp
  length_le := by simpa using h
  eq_nil hmem := (List.mem_singleton.mp hmem).symm
  length_runs := by
    have hcount : (xs.length + (size - 1)) / size ≤ 1 := by
      rw [← Nat.lt_succ_iff, Nat.div_lt_iff_lt_mul hs]
      omega
    rw [max_eq_left hcount, List.length_singleton]

/-- A full run in front of a cut list that is not empty. -/
lemma IsCut.cons (hs : 0 < size) {run xs : List α} {runs : List (List α)}
    (hrun : run.length = size) (hxs : xs ≠ []) (h : IsCut size xs runs) :
    IsCut size (run ++ xs) (run :: runs) where
  flatten := by rw [List.flatten_cons, h.flatten]
  full r hr := by
    have hne : runs ≠ [] := fun hnil => by
      have := h.length_runs
      rw [hnil, List.length_nil] at this
      omega
    rw [List.dropLast_cons_of_ne_nil hne] at hr
    rcases List.mem_cons.mp hr with rfl | hr
    · exact hrun
    · exact h.full r hr
  length_le := List.forall_mem_cons.mpr ⟨hrun.le, h.length_le⟩
  eq_nil hmem := by
    rcases List.mem_cons.mp hmem with hnil | hmem
    · rw [← hnil, List.length_nil] at hrun
      omega
    · exact absurd (h.eq_nil hmem) hxs
  length_runs := by
    have hpos : 1 ≤ (xs.length + (size - 1)) / size := by
      have := List.length_pos_of_ne_nil hxs
      rw [Nat.one_le_div_iff hs]
      omega
    have hcount : (run.length + xs.length + (size - 1)) / size =
        (xs.length + (size - 1)) / size + 1 := by
      rw [hrun, add_assoc, Nat.add_div_left _ hs]
    rw [List.length_cons, h.length_runs, List.length_append, hcount, max_eq_right hpos,
      max_eq_right (by omega)]

/-- **The runs of a list cut it.** -/
lemma isCut_chunks (hs : 0 < size) (xs : List α) : IsCut size xs (chunks size xs) := by
  induction xs using chunks.induct size with
  | case1 xs h =>
      have hle : xs.length ≤ size := h.resolve_right hs.ne'
      rw [chunks_of_le hle]
      exact isCut_singleton hs hle
  | case2 xs h ih =>
      have hlt : size < xs.length := by omega
      have hdrop : xs.drop size ≠ [] := by
        rw [Ne, List.drop_eq_nil_iff]
        omega
      rw [chunks_of_lt hs hlt]
      conv_lhs => rw [← List.take_append_drop size xs]
      exact ih.cons hs (List.length_take_of_le hlt.le) hdrop

end Cut

/-! ### Pieces of entries -/

namespace PeerConfig

/-- The pieces of entries whose networks are cut into runs: each run with its entry, in order. -/
def pieces (cut : List (PeerConfig × List (List Network))) : List (PeerConfig × List Network) :=
  cut.flatMap fun entry => entry.2.map fun run => (entry.1, run)

/-- Entries with the runs into which their networks are cut. -/
def cutEntries (ps : List PeerConfig) : List (PeerConfig × List (List Network)) :=
  ps.map fun p => (p, chunks networksPerBatch p.allowedIps)

/-- The part for each piece. The first piece for a key that is not among `seen` takes the settings
of its entry along. -/
def partsFor (seen : List Key) : List (PeerConfig × List Network) → List PeerConfig
  | [] => []
  | (p, run) :: rest =>
      (if p.publicKey ∈ seen then p.part run else p.leadingPart run) ::
        partsFor (p.publicKey :: seen) rest

/-- It only matters which keys were seen, not how often. -/
lemma partsFor_congr {seen seen' : List Key} (h : ∀ k, k ∈ seen ↔ k ∈ seen')
    (xs : List (PeerConfig × List Network)) : partsFor seen xs = partsFor seen' xs := by
  induction xs generalizing seen seen' with
  | nil => rfl
  | cons x rest ih =>
      have hkeys : ∀ k, k ∈ x.1.publicKey :: seen ↔ k ∈ x.1.publicKey :: seen' := fun k => by
        rw [List.mem_cons, List.mem_cons, h k]
      rw [partsFor, partsFor, ih hkeys]
      simp only [h]

/-- Pieces for a key that was seen are mere parts. -/
lemma partsFor_append_of_mem {p : PeerConfig} {seen : List Key} (h : p.publicKey ∈ seen)
    (runs : List (List Network)) (rest : List (PeerConfig × List Network)) :
    partsFor seen (runs.map (fun run => (p, run)) ++ rest) =
      runs.map p.part ++ partsFor seen rest := by
  have hseen : ∀ xs, partsFor (p.publicKey :: seen) xs = partsFor seen xs :=
    partsFor_congr fun k => by
      rw [List.mem_cons, or_iff_right_of_imp]
      rintro rfl
      exact h
  induction runs with
  | nil => rfl
  | cons run runs ih =>
      rw [List.map_cons, List.cons_append, partsFor, if_pos h, hseen, ih]
      rfl

/-- **The parts of entries are the parts for their pieces.** -/
lemma allParts_eq (seen : List Key) (ps : List PeerConfig) :
    allParts seen ps = partsFor seen (pieces (cutEntries ps)) := by
  induction ps generalizing seen with
  | nil => rfl
  | cons p rest ih =>
      cases hruns : chunks networksPerBatch p.allowedIps with
      | nil => exact absurd hruns (chunks_ne_nil _)
      | cons first later =>
          have hpieces : pieces (cutEntries (p :: rest)) =
              (p, first) :: (later.map (fun run => (p, run)) ++ pieces (cutEntries rest)) := by
            simp only [pieces, cutEntries, List.map_cons, List.flatMap_cons, hruns,
              List.cons_append]
          rw [hpieces, partsFor, partsFor_append_of_mem List.mem_cons_self, ← ih, allParts, parts,
            hruns]
          simp only [decide_eq_true_eq, List.cons_append]

/-- The part that stands behind `earlier` parts is for the piece at the same place. It holds the
settings of the entry unless its key was seen, before the pieces or in an earlier part. -/
lemma exists_piece_of_partsFor {seen : List Key} {xs : List (PeerConfig × List Network)}
    {earlier later : List PeerConfig} {q : PeerConfig}
    (h : partsFor seen xs = earlier ++ q :: later) :
    ∃ p run, xs[earlier.length]? = some (p, run) ∧
      q = if p.publicKey ∈ seen ∨ p.publicKey ∈ earlier.map (·.publicKey) then p.part run
        else p.leadingPart run := by
  induction xs generalizing seen earlier with
  | nil => simp [partsFor] at h
  | cons x rest ih =>
      obtain ⟨p, run⟩ := x
      rw [partsFor] at h
      cases earlier with
      | nil =>
          obtain ⟨hq, -⟩ := List.cons.inj h
          exact ⟨p, run, rfl, by simpa using hq.symm⟩
      | cons e earlier =>
          obtain ⟨he, hrest⟩ := List.cons.inj h
          obtain ⟨p', run', hx, hq⟩ := ih hrest
          have hkey : e.publicKey = p.publicKey := by
            rw [← he]
            split_ifs <;> rfl
          refine ⟨p', run', by simpa using hx, ?_⟩
          simp only [hq, List.map_cons, List.mem_cons, hkey, or_assoc, or_left_comm]

lemma length_partsFor (seen : List Key) (xs : List (PeerConfig × List Network)) :
    (partsFor seen xs).length = xs.length := by
  induction xs generalizing seen with
  | nil => rfl
  | cons x rest ih => rw [partsFor, List.length_cons, ih, List.length_cons]

lemma length_pieces (cut : List (PeerConfig × List (List Network))) :
    (pieces cut).length = (cut.map fun entry => entry.2.length).sum := by
  simp only [pieces, List.length_flatMap, List.length_map]

end PeerConfig

/-! ### Batches -/

namespace Config

/-- The batch `b` of the update `c` for the entry `p`, of whose networks it holds one run. The
batches `earlier` stand in front of it, and `q` is its only entry. -/
structure IsBatch (c : Config) (earlier : List Config) (p : PeerConfig) (run : List Network)
    (b : Config) (q : PeerConfig) : Prop where
  /-- There is one entry. -/
  peers : b.peers = [q]
  /-- The private key is that of the update. -/
  privateKey : b.privateKey = c.privateKey
  /-- The port is that of the update. -/
  listenPort : b.listenPort = c.listenPort
  /-- The mark is that of the update. -/
  firewallMark : b.firewallMark = c.firewallMark
  /-- The first batch discards all peers if the update does. -/
  replacePeers_first : earlier = [] → b.replacePeers = c.replacePeers
  /-- Later batches keep the peers. -/
  replacePeers_later : earlier ≠ [] → b.replacePeers = false
  /-- The entry is for the same peer. -/
  publicKey : q.publicKey = p.publicKey
  /-- The peer is removed if the entry removes it. -/
  remove : q.remove = p.remove
  /-- The peer is only updated if the entry only updates it. -/
  updateOnly : q.updateOnly = p.updateOnly
  /-- The networks are those of the run. -/
  allowedIps : q.allowedIps = run
  /-- The first batch for a key takes all settings of the entry along. -/
  settings_first : (∀ e ∈ earlier, ∀ r ∈ e.peers, r.publicKey ≠ p.publicKey) →
    q.presharedKey = p.presharedKey ∧ q.endpoint = p.endpoint ∧ q.keepalive = p.keepalive ∧
      q.replaceAllowedIps = p.replaceAllowedIps
  /-- Later batches for a key have no settings. -/
  settings_later : ∀ e ∈ earlier, ∀ r ∈ e.peers, r.publicKey = p.publicKey →
    q.presharedKey = none ∧ q.endpoint = none ∧ q.keepalive = none ∧ q.replaceAllowedIps = false

lemma isLarge_eq_true_iff (c : Config) :
    c.isLarge = true ↔ 32 < c.peers.length ∨ 256 < (c.peers.map (·.allowedIps.length)).sum := by
  rw [isLarge, Bool.or_eq_true, decide_eq_true_eq, decide_eq_true_eq, allowedIpCount,
    List.length_flatMap]
  rfl

/-- The entries of batches, each of which has one. -/
lemma exists_parts_of_batches {c : Config} (h : c.isLarge = true) {earlier later : List Config}
    {b : Config} (hb : c.batches = earlier ++ b :: later) :
    ∃ es q ls, PeerConfig.allParts [] c.peers = es ++ q :: ls ∧
      earlier.flatMap (·.peers) = es ∧ earlier.length = es.length ∧
      b = { c with peers := [q], replacePeers := c.replacePeers && earlier.isEmpty } := by
  obtain ⟨first, rest, hparts, hbatches⟩ := batches_of_isLarge h
  rw [hbatches] at hb
  cases earlier with
  | nil =>
      obtain ⟨rfl, -⟩ := List.cons.inj hb
      exact ⟨[], first, rest, hparts, rfl, rfl, by simp [onePeer]⟩
  | cons e earlier =>
      obtain ⟨rfl, htail⟩ := List.cons.inj hb
      obtain ⟨es, bs, rfl, hes, hbs⟩ := List.map_eq_append_iff.mp htail
      obtain ⟨q, ls, rfl, rfl, -⟩ := List.map_eq_cons_iff.mp hbs
      refine ⟨first :: es, q, ls, by rw [hparts, List.cons_append], ?_, ?_, ?_⟩
      · rw [List.flatMap_cons, ← hes, List.flatMap_map]
        exact congrArg (first :: ·) (List.flatMap_singleton' es)
      · rw [← hes, List.length_cons, List.length_cons, List.length_map]
      · simp [onePeer, keepingPeers]

/-- **The batches of a large update are the batches for its pieces**, in order. -/
lemma exists_isBatch {c : Config} (h : c.isLarge = true) {earlier later : List Config}
    {b : Config} (hb : c.batches = earlier ++ b :: later) :
    ∃ p run q, (PeerConfig.pieces (PeerConfig.cutEntries c.peers))[earlier.length]? =
      some (p, run) ∧ c.IsBatch earlier p run b q := by
  obtain ⟨es, q, ls, hparts, hes, hlen, rfl⟩ := exists_parts_of_batches h hb
  rw [PeerConfig.allParts_eq] at hparts
  obtain ⟨p, run, hpiece, hq⟩ := PeerConfig.exists_piece_of_partsFor hparts
  have hseen : (p.publicKey ∈ ([] : List Key) ∨ p.publicKey ∈ es.map (·.publicKey)) ↔
      ∃ e ∈ earlier, ∃ r ∈ e.peers, r.publicKey = p.publicKey := by
    rw [← hes]
    simp only [List.not_mem_nil, false_or, List.mem_map, List.mem_flatMap]
    tauto
  simp only [hseen] at hq
  refine ⟨p, run, q, hlen ▸ hpiece, ?_⟩
  exact {
    peers := rfl
    privateKey := rfl
    listenPort := rfl
    firewallMark := rfl
    replacePeers_first := fun hnil => by simp [hnil]
    replacePeers_later := fun hne => by simp [hne]
    publicKey := by rw [hq]; split_ifs <;> rfl
    remove := by rw [hq]; split_ifs <;> rfl
    updateOnly := by rw [hq]; split_ifs <;> rfl
    allowedIps := by rw [hq]; split_ifs <;> rfl
    settings_first := fun hnew => by
      rw [hq, if_neg fun ⟨e, he, r, hr, hkey⟩ => hnew e he r hr hkey]
      exact ⟨rfl, rfl, rfl, rfl⟩
    settings_later := fun e he r hr hkey => by
      rw [hq, if_pos ⟨e, he, r, hr, hkey⟩]
      exact ⟨rfl, rfl, rfl, rfl⟩ }

lemma length_batches {c : Config} (h : c.isLarge = true) :
    c.batches.length = (PeerConfig.pieces (PeerConfig.cutEntries c.peers)).length := by
  obtain ⟨first, rest, hparts, hbatches⟩ := batches_of_isLarge h
  rw [← PeerConfig.length_partsFor [], ← PeerConfig.allParts_eq, hparts, hbatches,
    List.length_cons, List.length_map, List.length_cons]

/-- **The shape of the batches**: an update with at most 32 entries and 256 networks is its only
batch. Otherwise the networks of each entry are cut into runs of 256, and the batches are those for
the pieces in order; there are as many as the entries take, at least one each. No batch is large,
so that none is split again. -/
theorem batches_pieces (c : Config) :
    (c.peers.length ≤ 32 ∧ (c.peers.map (·.allowedIps.length)).sum ≤ 256 → c.batches = [c]) ∧
    (¬ (c.peers.length ≤ 32 ∧ (c.peers.map (·.allowedIps.length)).sum ≤ 256) →
      c.batches.length = (c.peers.map fun p => max 1 ((p.allowedIps.length + 255) / 256)).sum ∧
      ∃ cut : List (PeerConfig × List (List Network)), cut.map Prod.fst = c.peers ∧
        (∀ entry ∈ cut, IsCut 256 entry.1.allowedIps entry.2) ∧
        c.batches.length = (PeerConfig.pieces cut).length ∧
        ∀ earlier b later, c.batches = earlier ++ b :: later →
          ∃ p run q, (PeerConfig.pieces cut)[earlier.length]? = some (p, run) ∧
            c.IsBatch earlier p run b q) ∧
    (∀ b ∈ c.batches, b.isLarge = false ∧ b.batches = [b]) ∧
    c.batches.flatMap batches = c.batches := by
  have hsmall : ∀ b ∈ c.batches, b.isLarge = false ∧ b.batches = [b] := fun b hb =>
    ⟨isLarge_of_mem_batches hb, batches_of_not_isLarge (isLarge_of_mem_batches hb)⟩
  have hagain : c.batches.flatMap batches = c.batches := by
    rw [List.flatMap_congr fun b hb => (hsmall b hb).2]
    exact List.flatMap_singleton' c.batches
  refine ⟨fun h => ?_, fun h => ?_, hsmall, hagain⟩
  · apply batches_of_not_isLarge
    rw [Bool.eq_false_iff, Ne, isLarge_eq_true_iff]
    omega
  · have hlarge : c.isLarge = true := by
      rw [isLarge_eq_true_iff]
      omega
    have hcut : ∀ entry ∈ PeerConfig.cutEntries c.peers, IsCut 256 entry.1.allowedIps entry.2 := by
      intro entry hentry
      obtain ⟨p, -, rfl⟩ := List.mem_map.mp hentry
      exact isCut_chunks (by decide) p.allowedIps
    have hcount : (PeerConfig.pieces (PeerConfig.cutEntries c.peers)).length =
        (c.peers.map fun p => max 1 ((p.allowedIps.length + 255) / 256)).sum := by
      rw [PeerConfig.length_pieces, PeerConfig.cutEntries, List.map_map]
      congr 1
      exact List.map_congr_left fun p _ => (isCut_chunks (by decide) p.allowedIps).length_runs
    have hfst : (PeerConfig.cutEntries c.peers).map Prod.fst = c.peers := by
      rw [PeerConfig.cutEntries, List.map_map]
      exact List.map_id c.peers
    exact ⟨(length_batches hlarge).trans hcount, PeerConfig.cutEntries c.peers, hfst, hcut,
      length_batches hlarge, fun earlier b later => exists_isBatch hlarge⟩

/-- Two entries for one key, the first of which has one network more than a run: there are three
batches, and the second keeps the peers. -/
theorem batches_pieces_repeated :
    let p : PeerConfig :=
      { presharedKey := some Key.zero
        replaceAllowedIps := true
        allowedIps := List.replicate 257 (.v4 ⟨10, 0, 0, 0⟩ 8) }
    let c : Config := { replacePeers := true, peers := [p, { p with allowedIps := [] }] }
    ¬ (c.peers.length ≤ 32 ∧ (c.peers.map (·.allowedIps.length)).sum ≤ 256) ∧
      c.batches.length = 3 ∧
      ∀ first b later, c.batches = first :: b :: later →
        b.replacePeers = false ∧ b.peers.length = 1 := by
  intro p c
  have hlarge : ¬ (c.peers.length ≤ 32 ∧ (c.peers.map (·.allowedIps.length)).sum ≤ 256) := by
    decide +kernel
  obtain ⟨-, hpieces, -⟩ := batches_pieces c
  obtain ⟨hlen, cut, -, -, -, hbatch⟩ := hpieces hlarge
  refine ⟨hlarge, hlen.trans (by decide +kernel), fun first b later hb => ?_⟩
  obtain ⟨_, _, q, -, hq⟩ := hbatch [first] b later hb
  exact ⟨hq.replacePeers_later (List.cons_ne_nil _ _), congrArg List.length hq.peers⟩

end Config

end WireGuardControl
