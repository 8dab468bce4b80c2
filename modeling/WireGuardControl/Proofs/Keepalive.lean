import Mathlib.Tactic
import WireGuardControl.Proofs.Netlink.Readback
import WireGuardControl.Proofs.Netlink.Room
import WireGuardControl.Proofs.OpenBsd.Readback
import WireGuardControl.Proofs.Uapi.Readback
/-!
Intervals of keepalives, as requests have them.

* `HasIntervals`: a device has the intervals of an update, cut to whole seconds. What is read of
  each of the three requests has them (`Netlink.hasIntervals`, `OpenBsd.hasIntervals`,
  `Uapi.hasIntervals`).
* `KeepsAlive`: no interval other than zero has become zero, which turns keepalives off.
* `intervals_sent`: this is so exactly if no interval but zero is shorter than a second. A shorter
  one is neither refused nor kept (`keepalives_turned_off`).
-/

namespace WireGuardControl

open Text Lines

/-! ### Updates and the devices that are read of them -/

/-- A device has one peer for each update of a peer, in order, with its key and its interval in
whole seconds; an absent one counts as zero. -/
structure HasIntervals (c : Config) (d : Device) : Prop where
  publicKeys : d.peers.map (·.publicKey) = c.peers.map (·.publicKey)
  keepalives : d.peers.map (·.keepalive) =
    c.peers.map fun p => (p.keepalive.getD Interval.zero).wholeSeconds

/-- No peer of a device has lost its keepalives: where its update has an interval other than zero,
so has the peer. -/
def KeepsAlive (c : Config) (d : Device) : Prop :=
  List.Forall₂ (fun (p : PeerConfig) (q : Peer) =>
    ∀ i, p.keepalive = some i → i ≠ Interval.zero → q.keepalive ≠ Interval.zero) c.peers d.peers

/-- No interval of an update but zero is shorter than a second. -/
def Config.LastsSeconds (c : Config) : Prop :=
  ∀ p ∈ c.peers, ∀ i, p.keepalive = some i → i ≠ Interval.zero → 1 ≤ i.seconds.toNat

lemma Interval.wholeSeconds_ne_zero_iff {i : Interval} :
    i.wholeSeconds ≠ zero ↔ 1 ≤ i.seconds.toNat := by
  have hzero : i.wholeSeconds = zero ↔ i.seconds = 0 := by
    simp [wholeSeconds, zero, ofSeconds]
  rw [Ne, hzero, Nat.one_le_iff_ne_zero, ← UInt64.toNat_inj, UInt64.toNat_zero]

namespace HasIntervals

variable {c : Config} {d : Device}

lemma of_peers {describe : PeerConfig → Peer} (hd : d.peers = c.peers.map describe)
    (hkey : ∀ p, (describe p).publicKey = p.publicKey)
    (hkeepalive : ∀ p,
      (describe p).keepalive = (p.keepalive.getD Interval.zero).wholeSeconds) :
    HasIntervals c d where
  publicKeys := by
    rw [hd, List.map_map]
    exact List.map_congr_left fun p _ => hkey p
  keepalives := by
    rw [hd, List.map_map]
    exact List.map_congr_left fun p _ => hkeepalive p

lemma described (c : Config) (name : String) (deviceType : DeviceType) :
    HasIntervals c (c.described name deviceType) :=
  of_peers rfl (fun _ => rfl) fun _ => rfl

/-- **In whole seconds no keepalives are lost** exactly if they are a second apart at least. -/
lemma keepsAlive_iff (h : HasIntervals c d) : KeepsAlive c d ↔ c.LastsSeconds := by
  have hvalues : KeepsAlive c d ↔ List.Forall₂ (fun (p : PeerConfig) (k : Interval) =>
      ∀ i, p.keepalive = some i → i ≠ Interval.zero → k ≠ Interval.zero) c.peers
        (d.peers.map (·.keepalive)) := by
    rw [List.forall₂_map_right_iff, KeepsAlive]
  rw [hvalues, h.keepalives, List.forall₂_map_right_iff, List.forall₂_same]
  refine forall₂_congr fun p _ => forall₂_congr fun i hi => forall_congr' fun _ => ?_
  rw [hi, Option.getD_some, Interval.wholeSeconds_ne_zero_iff]

end HasIntervals

/-! ### The three requests -/

lemma Netlink.hasIntervals {name : String} {c : Config} {b : Bytes}
    (h : encodeConfig name c = .ok b) : ∃ d, readDevice b = .ok d ∧ HasIntervals c d :=
  ⟨_, readDevice_of_encodeConfig_takeWhile h, HasIntervals.described c _ _⟩

lemma OpenBsd.hasIntervals (name : String) {c : Config} (hcounts : CountsFit c) {b : Bytes}
    (h : encodeConfig c = .ok b) : ∃ d, readDevice name b = .ok d ∧ HasIntervals c d := by
  obtain ⟨hrange, rfl⟩ := encodeConfig_eq_ok_iff.mp h
  have hread := readRecords_configRow hrange hcounts name []
  rw [List.append_nil] at hread
  exact ⟨_, by rw [readDevice_eq, hread]; rfl, HasIntervals.described c _ _⟩

/-- The text of an update, its first line taken away and a status put behind its last one, is read
as a device with the intervals of the update. -/
lemma Uapi.hasIntervals (name : String) (c : Config) : ∃ lines d,
    setRequest c = paragraph ("set=1".toList :: lines) ∧
      readGet name (paragraph (lines ++ ["errno=0".toList])) = .ok d ∧ HasIntervals c d := by
  have hread := readGet_configLines name c
  rw [List.map_append, List.map_singleton] at hread
  have hpeers : ∀ d : Device, (withDerivedKey d).peers = d.peers := by
    intro d
    rw [withDerivedKey]
    split_ifs <;> rfl
  exact ⟨(configLines c).map Line.text, _, setRequest_eq c, hread,
    HasIntervals.of_peers (hpeers _) (fun _ => rfl) fun _ => rfl⟩

/-- **The intervals that are sent.** What is read of an accepted update, be it for the Linux kernel,
for the OpenBSD kernel or for a socket, has its intervals in whole seconds. So keepalives are never
turned off by an update with an interval other than zero exactly if none is shorter than a
second. -/
theorem intervals_sent (name : String) (c : Config) :
    (∀ b, Netlink.encodeConfig name c = .ok b → ∃ d, Netlink.readDevice b = .ok d ∧
      HasIntervals c d ∧ (KeepsAlive c d ↔ c.LastsSeconds)) ∧
    (∀ b, OpenBsd.encodeConfig c = .ok b → OpenBsd.CountsFit c →
      ∃ d, OpenBsd.readDevice name b = .ok d ∧
        HasIntervals c d ∧ (KeepsAlive c d ↔ c.LastsSeconds)) ∧
    ∃ lines d, Uapi.setRequest c = paragraph ("set=1".toList :: lines) ∧
      Uapi.readGet name (paragraph (lines ++ ["errno=0".toList])) = .ok d ∧
        HasIntervals c d ∧ (KeepsAlive c d ↔ c.LastsSeconds) := by
  refine ⟨?_, ?_, ?_⟩
  · intro b h
    obtain ⟨d, hread, hd⟩ := Netlink.hasIntervals h
    exact ⟨d, hread, hd, hd.keepsAlive_iff⟩
  · intro b h hcounts
    obtain ⟨d, hread, hd⟩ := OpenBsd.hasIntervals name hcounts h
    exact ⟨d, hread, hd, hd.keepsAlive_iff⟩
  · obtain ⟨lines, d, hrequest, hread, hd⟩ := Uapi.hasIntervals name c
    exact ⟨lines, d, hrequest, hread, hd, hd.keepsAlive_iff⟩

/-- An update without a firewall mark that is not large is accepted by both kernels under the name
`wg0`, if it has no interval of more seconds than sixteen bits have room for. -/
lemma exists_requests {c : Config} (hlarge : c.isLarge = false) (hmark : c.firewallMark = none)
    (hkeepalive : ∀ p ∈ c.peers, ∀ i, p.keepalive = some i → i.seconds.toNat ≤ 65535) :
    (∃ b, Netlink.encodeConfig "wg0" c = .ok b) ∧ ∃ b, OpenBsd.encodeConfig c = .ok b := by
  have hname : (Utf8.ofString "wg0").length + 5 ≤ Netlink.Encoder.maxLength := by decide
  have hrange : ¬ OpenBsd.OutOfRange c := by
    rw [OpenBsd.not_outOfRange_iff, hmark]
    exact ⟨fun _ h => (by cases h), hkeepalive⟩
  exact ⟨Netlink.exists_encodeConfig hname hkeepalive hlarge, _,
    OpenBsd.encodeConfig_of_not_outOfRange hrange⟩

/-- Twenty-five seconds and a half, keepalives that are turned off, and an interval that stays. -/
theorem intervals_sent_seconds :
    let c : Config :=
      { peers := [{ keepalive := some ⟨25, 500000000⟩ }, { keepalive := some Interval.zero }, {}] }
    c.LastsSeconds ∧
      (∃ b d, Netlink.encodeConfig "wg0" c = .ok b ∧ Netlink.readDevice b = .ok d ∧
        KeepsAlive c d ∧ d.peers.map (·.keepalive.seconds) = [25, 0, 0]) ∧
      (∃ b d, OpenBsd.encodeConfig c = .ok b ∧ OpenBsd.readDevice "wg0" b = .ok d ∧
        KeepsAlive c d ∧ d.peers.map (·.keepalive.seconds) = [25, 0, 0]) ∧
      ∃ lines d, Uapi.setRequest c = paragraph ("set=1".toList :: lines) ∧
        Uapi.readGet "wg0" (paragraph (lines ++ ["errno=0".toList])) = .ok d ∧
        KeepsAlive c d ∧ d.peers.map (·.keepalive.seconds) = [25, 0, 0] := by
  intro c
  have hlimit : ∀ p ∈ c.peers, ∀ i, p.keepalive = some i → i.seconds.toNat ≤ 65535 := by decide
  have hlasts : c.LastsSeconds := by
    rw [Config.LastsSeconds]
    decide
  have hkept : ∀ {d : Device}, HasIntervals c d ∧ (KeepsAlive c d ↔ c.LastsSeconds) →
      KeepsAlive c d ∧ d.peers.map (·.keepalive.seconds) = [25, 0, 0] := by
    rintro d ⟨hd, hkeeps⟩
    have hseconds := congrArg (List.map Interval.seconds) hd.keepalives
    rw [List.map_map] at hseconds
    exact ⟨hkeeps.mpr hlasts, hseconds⟩
  obtain ⟨⟨b, hmessage⟩, ⟨b', hrow⟩⟩ := exists_requests (c := c) (by decide) rfl hlimit
  obtain ⟨hmessages, hrows, htext⟩ := intervals_sent "wg0" c
  obtain ⟨d, hread, hd⟩ := hmessages b hmessage
  obtain ⟨d', hread', hd'⟩ := hrows b' hrow ⟨by decide, by decide⟩
  obtain ⟨lines, d'', hrequest, hread'', hd''⟩ := htext
  exact ⟨hlasts, ⟨b, d, hmessage, hread, hkept hd⟩, ⟨b', d', hrow, hread', hkept hd'⟩,
    lines, d'', hrequest, hread'', hkept hd''⟩

/-- **Keepalives are turned off** by an interval of half a second, which no request refuses. -/
theorem keepalives_turned_off :
    let c : Config := { peers := [{ keepalive := some ⟨0, 500000000⟩ }] }
    (⟨0, 500000000⟩ : Interval) ≠ Interval.zero ∧
      (∃ b d, Netlink.encodeConfig "wg0" c = .ok b ∧ Netlink.readDevice b = .ok d ∧
        d.peers.map (·.keepalive) = [Interval.zero] ∧ ¬ KeepsAlive c d) ∧
      (∃ b d, OpenBsd.encodeConfig c = .ok b ∧ OpenBsd.readDevice "wg0" b = .ok d ∧
        d.peers.map (·.keepalive) = [Interval.zero] ∧ ¬ KeepsAlive c d) ∧
      ∃ lines d, Uapi.setRequest c = paragraph ("set=1".toList :: lines) ∧
        Uapi.readGet "wg0" (paragraph (lines ++ ["errno=0".toList])) = .ok d ∧
        d.peers.map (·.keepalive) = [Interval.zero] ∧ ¬ KeepsAlive c d := by
  intro c
  have hzero : (⟨0, 500000000⟩ : Interval) ≠ Interval.zero := by decide
  have hlimit : ∀ p ∈ c.peers, ∀ i, p.keepalive = some i → i.seconds.toNat ≤ 65535 := by decide
  have hshort : ¬ c.LastsSeconds := by
    intro h
    have hsecond := h _ (List.mem_singleton_self _) _ rfl hzero
    exact absurd hsecond (by decide)
  have hlost : ∀ {d : Device}, HasIntervals c d →
      d.peers.map (·.keepalive) = [Interval.zero] ∧ ¬ KeepsAlive c d := fun h =>
    ⟨h.keepalives, mt h.keepsAlive_iff.mp hshort⟩
  obtain ⟨⟨b, hmessage⟩, ⟨b', hrow⟩⟩ := exists_requests (c := c) (by decide) rfl hlimit
  obtain ⟨d, hread, hd⟩ := Netlink.hasIntervals hmessage
  obtain ⟨d', hread', hd'⟩ := OpenBsd.hasIntervals "wg0" ⟨by decide, by decide⟩ hrow
  obtain ⟨lines, d'', hrequest, hread'', hd''⟩ := Uapi.hasIntervals "wg0" c
  exact ⟨hzero, ⟨b, d, hmessage, hread, hlost hd⟩, ⟨b', d', hrow, hread', hlost hd'⟩,
    lines, d'', hrequest, hread'', hlost hd''⟩

end WireGuardControl
