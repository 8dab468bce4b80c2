import Mathlib.Tactic
import WireGuardControl.Netlink.Dump
/-!
Merging the reports of peers into one device.

* `addPeer_of_notMem`, `addPeer_of_mem`: the step. A report of a new peer is appended, and a report
  of a known one adds its networks to it.
* `Gathers`: what peers say about reports. There is one peer for each key, in the order in which
  the keys were first reported, and it has the settings of its first report and the networks of
  all of its reports.
* `Gathers.addPeer`, `Gathers.foldl_addPeer`: one report, and any number of them, keep this.
* `foldl_merge_gathers`: so does merging any devices into one whose keys are distinct.
-/

namespace WireGuardControl.Netlink

/-! ### One report -/

/-- A peer with the networks of a later report of it. -/
def gain (q p : Peer) : Peer := { q with allowedIps := q.allowedIps ++ p.allowedIps }

/-- A peer that was not reported before is appended. -/
lemma addPeer_of_notMem {peers : List Peer} {p : Peer}
    (h : p.publicKey ∉ peers.map (·.publicKey)) : addPeer peers p = peers ++ [p] := by
  have hnone : (peers.reverse.findIdx? fun q => q.publicKey = p.publicKey) = none := by
    rw [List.findIdx?_eq_none_iff]
    intro q hq
    have hmem : q ∈ peers := List.mem_reverse.mp hq
    exact decide_eq_false fun hkey => h (List.mem_map.mpr ⟨q, hmem, hkey⟩)
  simp only [addPeer, hnone]

/-- The last report of a peer gains the networks of a report behind it. -/
lemma addPeer_append_cons (front : List Peer) {q p : Peer} {back : List Peer}
    (hq : q.publicKey = p.publicKey) (hback : p.publicKey ∉ back.map (·.publicKey)) :
    addPeer (front ++ q :: back) p = front ++ gain q p :: back := by
  have hskip : ∀ r ∈ back.reverse, decide (r.publicKey = p.publicKey) = false := by
    intro r hr
    exact decide_eq_false fun hkey =>
      hback (List.mem_map.mpr ⟨r, List.mem_reverse.mp hr, hkey⟩)
  have hlast : ((front ++ q :: back).reverse.findIdx? fun r => r.publicKey = p.publicKey) =
      some back.length := by
    rw [List.reverse_append, List.reverse_cons, List.append_assoc, List.findIdx?_append,
      List.findIdx?_eq_none_iff.mpr hskip, List.singleton_append, List.findIdx?_cons]
    simp [hq]
  have hindex : (front ++ q :: back).length - 1 - back.length = front.length := by
    simp only [List.length_append, List.length_cons]
    omega
  simp only [addPeer, hlast]
  rw [hindex, List.modify_eq_take_drop, List.take_left, List.drop_left]
  rfl

/-- A report of a peer that is known adds its networks to it, where keys are distinct. -/
lemma addPeer_of_mem {peers : List Peer} {p : Peer} (hnodup : (peers.map (·.publicKey)).Nodup)
    (h : p.publicKey ∈ peers.map (·.publicKey)) :
    addPeer peers p = peers.map fun q => if q.publicKey = p.publicKey then gain q p else q := by
  obtain ⟨q, hq, hkey⟩ := List.mem_map.mp h
  obtain ⟨front, back, rfl⟩ := List.append_of_mem hq
  rw [List.map_append, List.map_cons, hkey, List.nodup_middle, List.nodup_cons,
    List.mem_append, not_or] at hnodup
  have hother : ∀ r ∈ front ++ back, r.publicKey ≠ p.publicKey := by
    intro r hr hrp
    rcases List.mem_append.mp hr with hr | hr
    · exact hnodup.1.1 (List.mem_map.mpr ⟨r, hr, hrp⟩)
    · exact hnodup.1.2 (List.mem_map.mpr ⟨r, hr, hrp⟩)
  have hsame : ∀ rs ⊆ front ++ back,
      (rs.map fun r => if r.publicKey = p.publicKey then gain r p else r) = rs := by
    intro rs hrs
    rw [List.map_congr_left fun r hr => if_neg (hother r (hrs hr)), List.map_id']
  rw [addPeer_append_cons front hkey hnodup.1.2, List.map_append, List.map_cons, if_pos hkey,
    hsame front (List.subset_append_left front back),
    hsame back (List.subset_append_right front back)]

/-- Distinct peers that were not reported before are appended. -/
lemma foldl_addPeer_of_nodup {peers more : List Peer}
    (h : ((peers ++ more).map (·.publicKey)).Nodup) :
    more.foldl addPeer peers = peers ++ more := by
  induction more generalizing peers with
  | nil => rw [List.foldl_nil, List.append_nil]
  | cons p more ih =>
      have hp : p.publicKey ∉ peers.map (·.publicKey) := by
        rw [List.map_append, List.map_cons, List.nodup_middle, List.nodup_cons,
          List.mem_append, not_or] at h
        exact h.1.1
      rw [← List.singleton_append, ← List.append_assoc] at h ⊢
      rw [List.singleton_append, List.foldl_cons, addPeer_of_notMem hp, ih h]

/-! ### Many reports -/

/-- The networks of all reports of a peer, in order. -/
def networksOf (key : Key) (reports : List Peer) : List Network :=
  (reports.filter fun p => p.publicKey = key).flatMap (·.allowedIps)

lemma networksOf_append (key : Key) (xs ys : List Peer) :
    networksOf key (xs ++ ys) = networksOf key xs ++ networksOf key ys := by
  rw [networksOf, List.filter_append, List.flatMap_append]
  rfl

lemma networksOf_singleton (key : Key) (p : Peer) :
    networksOf key [p] = if p.publicKey = key then p.allowedIps else [] := by
  rw [networksOf, List.filter_singleton]
  split_ifs with h <;> simp_all

lemma eraseDups_concat_of_mem {keys : List Key} {key : Key} (h : key ∈ keys) :
    (keys ++ [key]).eraseDups = keys.eraseDups := by
  rw [List.eraseDups_append, List.removeAll, List.filter_cons_of_neg (by simpa using h)]
  exact List.append_nil _

lemma eraseDups_concat_of_notMem {keys : List Key} {key : Key} (h : key ∉ keys) :
    (keys ++ [key]).eraseDups = keys.eraseDups ++ [key] := by
  rw [List.eraseDups_append, List.removeAll, List.filter_cons_of_pos (by simpa using h)]
  rfl

/-- What the peer `p` says about reports: it is as its first report, with the networks of all of
its reports. -/
def Sums (reports : List Peer) (p : Peer) : Prop :=
  ∃ first, (reports.find? fun q => q.publicKey = p.publicKey) = some first ∧
    p = { first with allowedIps := networksOf p.publicKey reports }

/-- A peer sums up one report more once it gains the networks of it, if they are its own. -/
lemma Sums.concat {reports : List Peer} {q : Peer} (h : Sums reports q) (p : Peer) :
    Sums (reports ++ [p]) (if q.publicKey = p.publicKey then gain q p else q) := by
  have hkey : (if q.publicKey = p.publicKey then gain q p else q).publicKey = q.publicKey := by
    split_ifs <;> rfl
  obtain ⟨first, hfirst, hq⟩ := h
  refine ⟨first, ?_, ?_⟩
  · rw [hkey, List.find?_append, hfirst, Option.some_or]
  · rw [hkey, networksOf_append, networksOf_singleton]
    simp only [eq_comm (a := p.publicKey)]
    generalize q.publicKey = key at hq ⊢
    split_ifs
    · rw [hq]
      rfl
    · rw [List.append_nil]
      exact hq

/-- The only report of a peer sums itself up. -/
lemma sums_concat_of_notMem {reports : List Peer} {p : Peer}
    (h : p.publicKey ∉ reports.map (·.publicKey)) : Sums (reports ++ [p]) p := by
  have hother : ∀ q ∈ reports, ¬ decide (q.publicKey = p.publicKey) = true := by
    intro q hq hqp
    exact h (List.mem_map.mpr ⟨q, hq, of_decide_eq_true hqp⟩)
  have hnone : networksOf p.publicKey reports = [] := by
    rw [networksOf, List.filter_eq_nil_iff.mpr hother, List.flatMap_nil]
  refine ⟨p, ?_, ?_⟩
  · rw [List.find?_append, List.find?_eq_none.mpr hother, Option.none_or]
    simp
  · rw [networksOf_append, hnone, networksOf_singleton, if_pos rfl, List.nil_append]

/-- What the peers of a device say about reports of peers. -/
structure Gathers (reports peers : List Peer) : Prop where
  /-- Each key stands where it was first reported. -/
  keys : peers.map (·.publicKey) = (reports.map (·.publicKey)).eraseDups
  /-- No key stands twice. -/
  nodup : (peers.map (·.publicKey)).Nodup
  /-- Each peer sums up its reports. -/
  sums : ∀ p ∈ peers, Sums reports p

namespace Gathers

variable {reports peers : List Peer}

lemma mem_keys_iff (h : Gathers reports peers) (key : Key) :
    key ∈ peers.map (·.publicKey) ↔ key ∈ reports.map (·.publicKey) := by
  rw [h.keys, List.mem_eraseDups]

lemma addPeer_of_mem (h : Gathers reports peers) {p : Peer}
    (hp : p.publicKey ∈ peers.map (·.publicKey)) :
    Gathers (reports ++ [p]) (addPeer peers p) := by
  have hkeys : (addPeer peers p).map (·.publicKey) = peers.map (·.publicKey) := by
    rw [Netlink.addPeer_of_mem h.nodup hp, List.map_map]
    refine List.map_congr_left fun q _ => ?_
    simp only [Function.comp_apply]
    split_ifs <;> rfl
  refine ⟨?_, ?_, ?_⟩
  · rw [hkeys, h.keys, List.map_append, List.map_singleton,
      eraseDups_concat_of_mem ((h.mem_keys_iff _).mp hp)]
  · rw [hkeys]
    exact h.nodup
  · rw [Netlink.addPeer_of_mem h.nodup hp, List.forall_mem_map]
    exact fun q hq => (h.sums q hq).concat p

lemma addPeer_of_notMem (h : Gathers reports peers) {p : Peer}
    (hp : p.publicKey ∉ peers.map (·.publicKey)) :
    Gathers (reports ++ [p]) (addPeer peers p) := by
  have hnew : p.publicKey ∉ reports.map (·.publicKey) := mt (h.mem_keys_iff _).mpr hp
  rw [Netlink.addPeer_of_notMem hp]
  refine ⟨?_, ?_, ?_⟩
  · rw [List.map_append, List.map_append, List.map_singleton, h.keys,
      eraseDups_concat_of_notMem hnew]
  · rw [List.map_append, List.map_singleton]
    rw [← List.concat_eq_append]
    exact h.nodup.concat hp
  · intro q hq
    rcases List.mem_append.mp hq with hq | hq
    · have hne : q.publicKey ≠ p.publicKey := fun hqp => hp (List.mem_map.mpr ⟨q, hq, hqp⟩)
      have hconcat := (h.sums q hq).concat p
      rwa [if_neg hne] at hconcat
    · rw [List.mem_singleton.mp hq]
      exact sums_concat_of_notMem hnew

/-- **The step**: one report more is gathered. -/
lemma addPeer (h : Gathers reports peers) (p : Peer) :
    Gathers (reports ++ [p]) (addPeer peers p) := by
  by_cases hp : p.publicKey ∈ peers.map (·.publicKey)
  · exact h.addPeer_of_mem hp
  · exact h.addPeer_of_notMem hp

/-- **The run**: any number of reports more are gathered. -/
lemma foldl_addPeer (h : Gathers reports peers) (more : List Peer) :
    Gathers (reports ++ more) (more.foldl Netlink.addPeer peers) := by
  induction more generalizing reports peers with
  | nil => rwa [List.append_nil]
  | cons p more ih =>
      rw [List.foldl_cons, ← List.singleton_append, ← List.append_assoc]
      exact ih (h.addPeer p)

/-- Distinct peers are gathered as they are. -/
lemma of_nodup (h : (peers.map (·.publicKey)).Nodup) : Gathers peers peers := by
  have hnil : Gathers [] [] := ⟨rfl, List.nodup_nil, by simp⟩
  have hrun := hnil.foldl_addPeer peers
  rwa [foldl_addPeer_of_nodup (by simpa using h), List.nil_append] at hrun

end Gathers

/-! ### Devices -/

/-- Merging only adds peers. -/
lemma foldl_merge (ds : List Device) (d : Device) :
    ds.foldl merge d = { d with peers := (ds.flatMap (·.peers)).foldl addPeer d.peers } := by
  induction ds generalizing d with
  | nil => rfl
  | cons e rest ih => rw [List.foldl_cons, ih, List.flatMap_cons, List.foldl_append]; rfl

/-- **Merging loses, repeats and reorders nothing**: into a device with distinct keys any devices
are merged so that only its peers change. Their keys are all keys of the device and of those behind
it, each where it first occurs; each peer is as it first occurs, with the networks of all of its
occurrences in order; and one device with all of the peers behind it would have the same effect. -/
theorem foldl_merge_gathers {target : Device} (h : (target.peers.map (·.publicKey)).Nodup)
    (fragments : List Device) :
    let reports := target.peers ++ fragments.flatMap (·.peers)
    let merged := fragments.foldl merge target
    merged = { target with peers := merged.peers } ∧
      merged.peers.map (·.publicKey) = (reports.map (·.publicKey)).eraseDups ∧
      (merged.peers.map (·.publicKey)).Nodup ∧
      (∀ p ∈ merged.peers, ∃ first,
        (reports.find? fun q => q.publicKey = p.publicKey) = some first ∧
          p = { first with allowedIps :=
            (reports.filter fun q => q.publicKey = p.publicKey).flatMap (·.allowedIps) }) ∧
      ∀ d : Device, merged = merge target { d with peers := fragments.flatMap (·.peers) } := by
  intro reports merged
  have hmerged : merged =
      { target with peers := (fragments.flatMap (·.peers)).foldl addPeer target.peers } :=
    foldl_merge fragments target
  have hgathers : Gathers reports merged.peers := by
    rw [hmerged]
    exact (Gathers.of_nodup h).foldl_addPeer (fragments.flatMap (·.peers))
  refine ⟨?_, hgathers.keys, hgathers.nodup, hgathers.sums, fun d => hmerged⟩
  rw [hmerged]

/-- Two fragments, in which a known peer and a new one are reported again. -/
theorem foldl_merge_gathers_repeated :
    let key : Key := ⟨List.replicate 32 7, rfl⟩
    let net : UInt8 → Network := fun n => .v4 ⟨10, 0, 0, n⟩ 32
    let target : Device := { name := "wg0", peers := [{ sentBytes := 5, allowedIps := [net 1] }] }
    let fragments : List Device :=
      [{ name := "wg1", peers :=
          [{ publicKey := key, allowedIps := [net 2] }, { allowedIps := [net 3] },
            { publicKey := key, sentBytes := 9, allowedIps := [net 4, net 2] }] },
        { peers := [{ sentBytes := 1, allowedIps := [net 5] }] }]
    let merged := fragments.foldl merge target
    (target.peers.map (·.publicKey)).Nodup ∧
      merged = { target with peers := merged.peers } ∧
      merged.peers.map (·.publicKey) = [Key.zero, key] ∧
      ∀ p ∈ merged.peers, ∃ first,
        ((target.peers ++ fragments.flatMap (·.peers)).find? fun q =>
            q.publicKey = p.publicKey) = some first ∧
          p = { first with allowedIps := ((target.peers ++ fragments.flatMap (·.peers)).filter
            fun q => q.publicKey = p.publicKey).flatMap (·.allowedIps) } := by
  intro key net target fragments merged
  have hnodup : (target.peers.map (·.publicKey)).Nodup := by decide
  obtain ⟨hdevice, hkeys, -, hpeers, -⟩ := foldl_merge_gathers hnodup fragments
  exact ⟨hnodup, hdevice, hkeys.trans (by decide), hpeers⟩

end WireGuardControl.Netlink
