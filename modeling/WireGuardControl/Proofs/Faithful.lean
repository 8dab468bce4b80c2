import Mathlib.Tactic
import WireGuardControl.Proofs.Netlink.Faithful
import WireGuardControl.Proofs.Netlink.Room
import WireGuardControl.Proofs.OpenBsd.Faithful
import WireGuardControl.Proofs.Uapi.Faithful
/-!
What the written forms of an update determine.

* `PeerConfig.Alike`: two updates of a peer agree in all that no written form leaves out, and
  `Config.alike_of_eq`: such are the updates that are equal but for what the forms leave out.
* `Config.encodings_eq_iff`: the attributes, the records and the text of an update each determine it
  but for the parts of its intervals below one second and, in the text, flow information.
-/

namespace WireGuardControl

/-- Two updates of a peer agree in whether there is an endpoint and an interval, and in all else. -/
structure PeerConfig.Alike (p q : PeerConfig) : Prop where
  /-- The peers have one key. -/
  publicKey : p.publicKey = q.publicKey
  /-- Both remove the peer, or neither does. -/
  remove : p.remove = q.remove
  /-- Both update the peer only if it exists, or neither does. -/
  updateOnly : p.updateOnly = q.updateOnly
  /-- The preshared keys agree. -/
  presharedKey : p.presharedKey = q.presharedKey
  /-- Both set an endpoint, or neither does. -/
  endpoint : p.endpoint.isSome = q.endpoint.isSome
  /-- Both set an interval, or neither does. -/
  keepalive : p.keepalive.isSome = q.keepalive.isSome
  /-- Both discard the networks first, or neither does. -/
  replaceAllowedIps : p.replaceAllowedIps = q.replaceAllowedIps
  /-- The networks agree. -/
  allowedIps : p.allowedIps = q.allowedIps

namespace Config

lemma alike_of_peer_eq {p q : PeerConfig}
    (h : p.inWholeSeconds.withoutFlow = q.inWholeSeconds.withoutFlow) : p.Alike q := by
  simp only [PeerConfig.inWholeSeconds, PeerConfig.withoutFlow, PeerConfig.mk.injEq] at h
  obtain ⟨hkey, hremove, hupdate, hpreshared, hendpoint, hkeepalive, hreplace, hallowed⟩ := h
  have hendpoints := congrArg Option.isSome hendpoint
  have hkeepalives := congrArg Option.isSome hkeepalive
  rw [Option.isSome_map, Option.isSome_map] at hendpoints hkeepalives
  exact ⟨hkey, hremove, hupdate, hpreshared, hendpoints, hkeepalives, hreplace, hallowed⟩

/-- Updates that are equal but for what the written forms leave out have the same settings, and the
same peers in the same order with the same flags. -/
lemma alike_of_eq {c c' : Config}
    (h : c.inWholeSeconds.withoutFlow = c'.inWholeSeconds.withoutFlow) :
    c.privateKey = c'.privateKey ∧ c.listenPort = c'.listenPort ∧
      c.firewallMark = c'.firewallMark ∧ c.replacePeers = c'.replacePeers ∧
      List.Forall₂ PeerConfig.Alike c.peers c'.peers := by
  simp only [inWholeSeconds, withoutFlow, List.map_map, Config.mk.injEq] at h
  obtain ⟨hkey, hport, hmark, hreplace, hpeers⟩ := h
  refine ⟨hkey, hport, hmark, hreplace, ?_⟩
  rw [← List.forall₂_eq_eq_eq, List.forall₂_map_left_iff, List.forall₂_map_right_iff] at hpeers
  exact hpeers.imp fun _ _ => alike_of_peer_eq

/-- **Every written form of an update is faithful.** Two updates, each for a device, have the same
attributes exactly if the devices are the same and the updates are equal but for the parts of their
intervals below one second; they have the same records exactly if the latter holds, and the same
text exactly if they are equal but for these parts and the flow information of their endpoints. In
each case they set the same values, zeros among them, and have the same peers in order, with the
same flags. -/
theorem encodings_eq_iff (c c' : Config) :
    (∀ {name name' : String} {b : Bytes}, Netlink.encodeConfig name c = .ok b →
      (Netlink.encodeConfig name' c' = .ok b ↔
        name = name' ∧ c.inWholeSeconds = c'.inWholeSeconds)) ∧
      (∀ {b : Bytes}, OpenBsd.encodeConfig c = .ok b →
        (OpenBsd.encodeConfig c' = .ok b ↔ c.inWholeSeconds = c'.inWholeSeconds)) ∧
      (Uapi.setRequest c = Uapi.setRequest c' ↔
        c.inWholeSeconds.withoutFlow = c'.inWholeSeconds.withoutFlow) ∧
      (c.inWholeSeconds.withoutFlow = c'.inWholeSeconds.withoutFlow →
        c.privateKey = c'.privateKey ∧ c.listenPort = c'.listenPort ∧
          c.firewallMark = c'.firewallMark ∧ c.replacePeers = c'.replacePeers ∧
          List.Forall₂ PeerConfig.Alike c.peers c'.peers) :=
  ⟨Netlink.encodeConfig_eq_iff, OpenBsd.encodeConfig_eq_iff, Uapi.setRequest_eq_iff,
    alike_of_eq⟩

/-- A zero that is set is told from a setting that is absent, and a part of a second is not. -/
theorem encodings_eq_iff_zero :
    let c : Config := { listenPort := some 0, peers := [{ keepalive := some ⟨0, 5⟩ }] }
    let alike : Config := { listenPort := some 0, peers := [{ keepalive := some ⟨0, 7⟩ }] }
    let absent : Config := { listenPort := some 0, peers := [{}] }
    (∃ b, Netlink.encodeConfig "wg0" c = .ok b ∧ Netlink.encodeConfig "wg0" alike = .ok b ∧
      Netlink.encodeConfig "wg1" c ≠ .ok b ∧ Netlink.encodeConfig "wg0" absent ≠ .ok b) ∧
      (∃ b, OpenBsd.encodeConfig c = .ok b ∧ OpenBsd.encodeConfig alike = .ok b ∧
        OpenBsd.encodeConfig absent ≠ .ok b) ∧
      Uapi.setRequest c = Uapi.setRequest alike ∧ Uapi.setRequest c ≠ Uapi.setRequest absent := by
  intro c alike absent
  have hkeepalive : ∀ p ∈ c.peers, ∀ i, p.keepalive = some i → i.seconds.toNat ≤ 65535 := by
    intro p hp i hi
    rw [List.mem_singleton.mp hp] at hi
    rw [← Option.some.inj hi]
    decide
  have hbatch : c ∈ c.batches := by
    rw [Config.batches_of_not_isLarge (by decide)]
    exact List.mem_singleton_self c
  have hname : (Text.Utf8.ofString "wg0").length + 5 ≤ Netlink.Encoder.maxLength := by decide
  obtain ⟨message, hmessage⟩ :=
    Netlink.exists_encodeConfig_of_mem_batches hname hkeepalive hbatch
  have hrange : ¬ OpenBsd.OutOfRange c := by
    rw [OpenBsd.not_outOfRange_iff]
    exact ⟨fun _ h => (by cases h), hkeepalive⟩
  have hrow := OpenBsd.encodeConfig_of_not_outOfRange hrange
  obtain ⟨hmessages, hrows, htexts, -⟩ := encodings_eq_iff c alike
  obtain ⟨hmessages', hrows', htexts', -⟩ := encodings_eq_iff c absent
  obtain ⟨hself, -⟩ := encodings_eq_iff c c
  have hother : ¬ ("wg0" = "wg1" ∧ c.inWholeSeconds = c.inWholeSeconds) := by decide
  have habsent : ¬ c.inWholeSeconds = absent.inWholeSeconds := by decide
  have habsent' : ¬ c.inWholeSeconds.withoutFlow = absent.inWholeSeconds.withoutFlow := by decide
  refine ⟨⟨message, hmessage, (hmessages hmessage).mpr ⟨rfl, rfl⟩, ?_, ?_⟩,
    ⟨_, hrow, (hrows hrow).mpr rfl, ?_⟩, htexts.mpr rfl, ?_⟩
  · exact fun h => hother ((hself hmessage).mp h)
  · exact fun h => habsent ((hmessages' hmessage).mp h).2
  · exact fun h => habsent ((hrows' hrow).mp h)
  · exact fun h => habsent' (htexts'.mp h)

end Config

end WireGuardControl
