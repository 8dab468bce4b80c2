import Mathlib.Tactic
import WireGuardControl.Proofs.Batch.Parts
/-!
What the batches of an update set of its peers, when updates may share a peer.

* `PeerConfig.lastSettings` and `PeerConfig.firstSettings`: what the updates of a peer set last,
  and what the first of them sets.
* `PeerConfig.IsSetting.lastGiven_allParts`: the run over all parts of updates. A setting survives
  from the first update of a peer alone.
* `Config.lastSettings_sentPeers`: what the batches set last, by the size of the update.
* `Config.lastSettings_sentPeers_iff`: when nothing is lost, namely if the update is not large
  or its first update of the peer sets what all of them set last.
-/

namespace WireGuardControl

namespace PeerConfig

/-! ### First and last settings -/

section Given

variable {α : Type} (setting : PeerConfig → Option α) (key : Key)

/-- The last value that updates of the peer `key` give to a setting. -/
def lastGiven (ps : List PeerConfig) : Option α :=
  ((ps.filter fun p => p.publicKey = key).filterMap setting).getLast?

/-- The value that the first update of the peer `key` gives to a setting. -/
def firstGiven (ps : List PeerConfig) : Option α :=
  (ps.find? fun p => p.publicKey = key).bind setting

/-- The last value in two rows of updates is the last of the second row, if it has one. -/
lemma lastGiven_append (ps qs : List PeerConfig) :
    lastGiven setting key (ps ++ qs) =
      (lastGiven setting key qs).or (lastGiven setting key ps) := by
  rw [lastGiven, List.filter_append, List.filterMap_append, List.getLast?_append]
  rfl

/-- Updates of other peers give no value. -/
lemma lastGiven_of_forall_ne {ps : List PeerConfig} (h : ∀ p ∈ ps, p.publicKey ≠ key) :
    lastGiven setting key ps = none := by
  have hempty : (ps.filter fun p => p.publicKey = key) = [] :=
    List.filter_eq_nil_iff.mpr fun p hp => by simpa using h p hp
  rw [lastGiven, hempty]
  rfl

/-- Updates give no value if none of them has one. -/
lemma lastGiven_of_forall_eq_none {ps : List PeerConfig} (h : ∀ p ∈ ps, setting p = none) :
    lastGiven setting key ps = none := by
  have hempty : (ps.filter fun p => p.publicKey = key).filterMap setting = [] :=
    List.filterMap_eq_nil_iff.mpr fun p hp => h p (List.mem_of_mem_filter hp)
  rw [lastGiven, hempty]
  rfl

lemma lastGiven_cons_of_ne {p : PeerConfig} (h : p.publicKey ≠ key) (ps : List PeerConfig) :
    lastGiven setting key (p :: ps) = lastGiven setting key ps := by
  simp [lastGiven, h]

lemma lastGiven_singleton (p : PeerConfig) : lastGiven setting p.publicKey [p] = setting p := by
  cases h : setting p <;> simp [lastGiven, h]

lemma firstGiven_cons_self (p : PeerConfig) (ps : List PeerConfig) :
    firstGiven setting p.publicKey (p :: ps) = setting p := by
  simp [firstGiven]

lemma firstGiven_cons_of_ne {p : PeerConfig} (h : p.publicKey ≠ key) (ps : List PeerConfig) :
    firstGiven setting key (p :: ps) = firstGiven setting key ps := by
  simp [firstGiven, h]

/-- Updates of distinct peers give the same value first and last. -/
lemma lastGiven_eq_firstGiven_of_nodup {ps : List PeerConfig}
    (h : (ps.map (·.publicKey)).Nodup) :
    lastGiven setting key ps = firstGiven setting key ps := by
  induction ps with
  | nil => rfl
  | cons p rest ih =>
      rw [List.map_cons, List.nodup_cons] at h
      by_cases hp : p.publicKey = key
      · subst hp
        have hrest : lastGiven setting p.publicKey rest = none :=
          lastGiven_of_forall_ne setting _ fun q hq hqp => h.1 (List.mem_map.mpr ⟨q, hq, hqp⟩)
        rw [← List.singleton_append, lastGiven_append, hrest, Option.none_or,
          lastGiven_singleton, List.singleton_append, firstGiven_cons_self]
      · rw [lastGiven_cons_of_ne setting key hp, firstGiven_cons_of_ne setting key hp, ih h.2]

end Given

/-! ### Parts -/

/-- A setting of a peer goes with the leading part of its update and with no other part. -/
structure IsSetting {α : Type} (setting : PeerConfig → Option α) : Prop where
  part : ∀ (p : PeerConfig) (ns : List Network), setting (p.part ns) = none
  leadingPart : ∀ (p : PeerConfig) (ns : List Network), setting (p.leadingPart ns) = setting p

lemma isSetting_presharedKey : IsSetting (·.presharedKey) := ⟨fun _ _ => rfl, fun _ _ => rfl⟩

lemma isSetting_endpoint : IsSetting (·.endpoint) := ⟨fun _ _ => rfl, fun _ _ => rfl⟩

lemma isSetting_keepalive : IsSetting (·.keepalive) := ⟨fun _ _ => rfl, fun _ _ => rfl⟩

namespace IsSetting

variable {α : Type} {setting : PeerConfig → Option α}

/-- The parts of an update give its value if the peer was not seen before, and none if it
was. -/
lemma lastGiven_parts (h : IsSetting setting) (p : PeerConfig) (seen : Bool) :
    lastGiven setting p.publicKey (p.parts seen) = if seen then none else setting p := by
  obtain ⟨first, later, -, -, hp⟩ := p.parts_eq seen
  have hlater : lastGiven setting p.publicKey (later.map p.part) = none := by
    refine lastGiven_of_forall_eq_none setting _ fun q hq => ?_
    obtain ⟨ns, -, rfl⟩ := List.mem_map.mp hq
    exact h.part p ns
  rw [hp, ← List.singleton_append, lastGiven_append, hlater, Option.none_or]
  cases seen with
  | true =>
      have hfirst := lastGiven_singleton setting (p.part first)
      rw [publicKey_part, h.part] at hfirst
      exact hfirst
  | false =>
      have hfirst := lastGiven_singleton setting (p.leadingPart first)
      rw [publicKey_leadingPart, h.leadingPart] at hfirst
      exact hfirst

/-- The parts of updates give the value of the first update of a peer, and none if the peer was
seen before all of them. -/
lemma lastGiven_allParts (h : IsSetting setting) (key : Key) (seen : List Key)
    (ps : List PeerConfig) :
    lastGiven setting key (allParts seen ps) =
      if key ∈ seen then none else firstGiven setting key ps := by
  induction ps generalizing seen with
  | nil => simp [allParts, lastGiven, firstGiven]
  | cons p rest ih =>
      rw [allParts, lastGiven_append, ih]
      by_cases hp : p.publicKey = key
      · subst hp
        rw [if_pos (by simp), Option.none_or, h.lastGiven_parts, firstGiven_cons_self]
        simp
      · have hparts : lastGiven setting key (p.parts (p.publicKey ∈ seen)) = none :=
          lastGiven_of_forall_ne setting key fun q hq => by rwa [publicKey_of_mem_parts hq]
        have hmem : key ∈ p.publicKey :: seen ↔ key ∈ seen := by simp [Ne.symm hp]
        rw [hparts, Option.or_none, firstGiven_cons_of_ne setting key hp]
        simp only [hmem]

end IsSetting

/-! ### All settings of a peer -/

/-- What an update may set of a peer, its networks aside. -/
structure Settings where
  /-- The preshared key. -/
  presharedKey : Option Key
  /-- The endpoint. -/
  endpoint : Option Endpoint
  /-- The interval of keepalives. -/
  keepalive : Option Interval
  deriving DecidableEq

/-- What updates of the peer `key` set last. -/
def lastSettings (key : Key) (ps : List PeerConfig) : Settings where
  presharedKey := lastGiven (·.presharedKey) key ps
  endpoint := lastGiven (·.endpoint) key ps
  keepalive := lastGiven (·.keepalive) key ps

/-- What the first update of the peer `key` sets. -/
def firstSettings (key : Key) (ps : List PeerConfig) : Settings where
  presharedKey := firstGiven (·.presharedKey) key ps
  endpoint := firstGiven (·.endpoint) key ps
  keepalive := firstGiven (·.keepalive) key ps

lemma lastSettings_eq_firstSettings_of_nodup {ps : List PeerConfig}
    (h : (ps.map (·.publicKey)).Nodup) (key : Key) :
    lastSettings key ps = firstSettings key ps := by
  simp only [lastSettings, firstSettings, lastGiven_eq_firstGiven_of_nodup _ key h]

end PeerConfig

/-! ### Batches -/

namespace Config

open PeerConfig

/-- The batches of an update set what its updates of a peer set last or, if the update is large,
what the first of them sets. -/
lemma lastSettings_sentPeers (c : Config) (key : Key) :
    lastSettings key c.sentPeers =
      if c.isLarge then firstSettings key c.peers else lastSettings key c.peers := by
  rw [sentPeers_eq]
  cases c.isLarge with
  | false => rfl
  | true =>
      simp only [if_true, lastSettings, firstSettings,
        isSetting_presharedKey.lastGiven_allParts key [],
        isSetting_endpoint.lastGiven_allParts key [],
        isSetting_keepalive.lastGiven_allParts key [], List.not_mem_nil, if_false]

/-- An update of distinct peers loses no setting. -/
lemma lastSettings_sentPeers_of_nodup (c : Config) (h : (c.peers.map (·.publicKey)).Nodup)
    (key : Key) : lastSettings key c.sentPeers = lastSettings key c.peers := by
  rw [lastSettings_sentPeers, lastSettings_eq_firstSettings_of_nodup h, ite_self]

/-- **When splitting loses no setting**: the batches of an update set last what its updates of a
peer set last if and only if the update is not large or the first update of the peer sets all
of that. -/
theorem lastSettings_sentPeers_iff (c : Config) (key : Key) :
    lastSettings key c.sentPeers = lastSettings key c.peers ↔
      c.isLarge = false ∨ firstSettings key c.peers = lastSettings key c.peers := by
  rw [lastSettings_sentPeers]
  cases c.isLarge <;> simp

/-- A large update that removes a peer and creates it anew with a preshared key: the batches
create the peer without the preshared key. -/
theorem lastSettings_sentPeers_lost :
    let key : Key := ⟨List.replicate 32 1, rfl⟩
    let c : Config :=
      { peers := { publicKey := key, remove := true } ::
          { publicKey := key, presharedKey := some key } :: List.replicate 31 {} }
    lastSettings key c.peers = ⟨some key, none, none⟩ ∧
      lastSettings key c.sentPeers = ⟨none, none, none⟩ := by
  intro key c
  refine ⟨by decide +kernel, ?_⟩
  rw [lastSettings_sentPeers]
  decide +kernel

end Config

end WireGuardControl
