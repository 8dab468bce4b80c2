import Mathlib.Tactic
import WireGuardControl.Config.Precision
import WireGuardControl.Proofs.OpenBsd.Readback
import WireGuardControl.Proofs.Tables
/-!
What the records of an update determine.

* `interface_of_fields` and `peer_of_fields`: the fields of a record and its flags determine the
  settings, a zero that is set and a setting that is absent alike.
* `peers_of_rows`: the records of peers begin with an odd octet and those of networks with an even
  one, so that the row of them tells which networks belong to which peer.
* `encodeConfig_eq_iff`: two updates have the same records exactly if they differ in parts
  of seconds only.
-/

namespace WireGuardControl.OpenBsd

open Table

/-! ### Fields -/

/-- Fields of the same widths are determined by the octets of all of them. -/
lemma fields_eq {fields fields' : List Bytes}
    (hwidths : fields.map List.length = fields'.map List.length)
    (h : fields.flatten = fields'.flatten) : fields = fields' :=
  List.eq_iff_flatten_eq.mpr ⟨h, hwidths⟩

lemma encodeNetwork_injective : Function.Injective encodeNetwork := by
  intro n n' h
  have hblock : networkBlock n = networkBlock n' := by
    rw [networkBlock, networkBlock, Block.mk.injEq, h]
  have hread := readNetwork_networkBlock n
  rw [hblock, readNetwork_networkBlock] at hread
  exact (Except.ok.inj hread).symm

lemma encodeEndpoint_injective : Function.Injective encodeEndpoint := by
  intro e e' h
  have hread := readEndpoint_encodeEndpoint e ⟨encodeEndpoint e, length_encodeEndpoint e⟩ rfl
  rw [readEndpoint_encodeEndpoint e' _ h] at hread
  exact (Except.ok.inj hread).symm

/-- The record of an interface determines all of an update but its peers. -/
lemma interface_of_fields {c c' : Config}
    (h : (interfaceFields c (c.firewallMark.getD 0)).flatten =
      (interfaceFields c' (c'.firewallMark.getD 0)).flatten) :
    c.privateKey = c'.privateKey ∧ c.listenPort = c'.listenPort ∧
      c.firewallMark = c'.firewallMark ∧ c.replacePeers = c'.replacePeers := by
  have hwidths : ∀ c : Config, (interfaceFields c (c.firewallMark.getD 0)).map List.length =
      [2, 2, 4, 32, 32, 8] := by
    intro c
    simp [interfaceFields, Key.length_bytes]
  have hfields := fields_eq ((hwidths c).trans (hwidths c').symm) h
  simp only [interfaceFields, List.cons.injEq, and_true] at hfields
  obtain ⟨hflags, hport, hmark, -, hkey, -⟩ := hfields
  obtain ⟨-, hkeyFlag, hportFlag, hmarkFlag, hreplaceFlag⟩ := configFlags_tests c
  obtain ⟨-, hkeyFlag', hportFlag', hmarkFlag', hreplaceFlag'⟩ := configFlags_tests c'
  rw [← Bytes.ofUInt16LE_injective hflags] at hkeyFlag' hportFlag' hmarkFlag' hreplaceFlag'
  exact ⟨eq_of_getD (eq_of_eq_false_iff hkeyFlag hkeyFlag') (Key.bytes_injective hkey),
    eq_of_getD (eq_of_eq_false_iff hportFlag hportFlag') (Bytes.ofUInt16BE_injective hport),
    eq_of_getD (eq_of_eq_false_iff hmarkFlag hmarkFlag') (Bytes.ofUInt32LE_injective hmark),
    eq_of_eq_false_iff hreplaceFlag hreplaceFlag'⟩

/-- The intervals of an update of a peer are no more than its record holds. -/
def InRange (p : PeerConfig) : Prop := ∀ i, p.keepalive = some i → i.seconds.toNat ≤ 65535

/-- The record of a peer and its networks determine its update but for the part of its interval
below one second. -/
lemma peer_of_fields {p q : PeerConfig} (hp : InRange p) (hq : InRange q)
    (h : (peerFields p (secondsField p)).flatten = (peerFields q (secondsField q)).flatten)
    (hnetworks : p.allowedIps = q.allowedIps) : p.inWholeSeconds = q.inWholeSeconds := by
  have hwidths : ∀ p : PeerConfig, (peerFields p (secondsField p)).map List.length =
      [4, 4, 32, 32, 2, 2, 28, 32, 8] := by
    intro p
    simp [peerFields, Key.length_bytes, endpointLength]
  have hfields := fields_eq ((hwidths p).trans (hwidths q).symm) h
  simp only [peerFields, List.cons.injEq, true_and, and_true] at hfields
  obtain ⟨hflags, hkey, hpreshared, hseconds, hendpoint, -⟩ := hfields
  obtain ⟨-, hpsk, hka, hep, hreplace, hremove, hupdate⟩ := peerFlags_tests p
  obtain ⟨-, hpsk', hka', hep', hreplace', hremove', hupdate'⟩ := peerFlags_tests q
  rw [← Bytes.ofUInt32LE_injective hflags] at hpsk' hka' hep' hreplace' hremove' hupdate'
  have hkeepalive : p.keepalive.map Interval.wholeSeconds =
      q.keepalive.map Interval.wholeSeconds := by
    refine map_eq_of_getD (d := Interval.zero) (eq_of_eq_false_iff hka hka') ?_
    rw [← ofSeconds_secondsField hp, ← ofSeconds_secondsField hq,
      Bytes.ofUInt16LE_injective hseconds]
  have hendpoints : p.endpoint.map encodeEndpoint = q.endpoint.map encodeEndpoint := by
    refine eq_of_getD (d := zeros endpointLength) ?_ hendpoint
    rw [Option.isSome_map, Option.isSome_map]
    exact eq_of_eq_false_iff hep hep'
  simp only [PeerConfig.inWholeSeconds, PeerConfig.mk.injEq]
  exact ⟨Key.bytes_injective hkey, eq_of_eq_false_iff hremove hremove',
    eq_of_eq_false_iff hupdate hupdate',
    eq_of_getD (eq_of_eq_false_iff hpsk hpsk') (Key.bytes_injective hpreshared),
    Option.map_injective encodeEndpoint_injective hendpoints, hkeepalive,
    eq_of_eq_false_iff hreplace hreplace', hnetworks⟩

/-! ### Rows -/

/-- The octets of the record of the update of a peer. -/
def peerRecord (p : PeerConfig) : Bytes := (peerFields p (secondsField p)).flatten

/-- The octets of a record that begins with an octet. -/
def widthOf (octet : UInt8) : ℕ := if octet % 2 = 1 then peerLength else networkLength

/-- A record begins with an odd octet. -/
def BeginsOdd (record : Bytes) : Prop := ∃ octet rest, record = octet :: rest ∧ octet % 2 = 1

lemma exists_odd_peerRecord (p : PeerConfig) :
    ∃ octet rest, peerRecord p = octet :: rest ∧ octet % 2 = 1 := by
  refine ⟨UInt8.ofNat (peerFlags p).toNat, _, rfl, ?_⟩
  rw [peerFlags]
  generalize p.presharedKey.isSome = preshared, p.keepalive.isSome = keepalive,
    p.endpoint.isSome = endpoint, p.replaceAllowedIps = replaces, p.remove = removes,
    p.updateOnly = updates
  revert preshared keepalive endpoint replaces removes updates
  decide

lemma exists_even_encodeNetwork (n : Network) :
    ∃ octet rest, encodeNetwork n = octet :: rest ∧ octet % 2 ≠ 1 := by
  refine ⟨_, _, rfl, ?_⟩
  split_ifs <;> decide

/-- The records of peers and of their networks are determined by the row of them. -/
lemma peers_of_rows {ps qs : List PeerConfig} (h : ps.flatMap peerRow = qs.flatMap peerRow) :
    (ps.map fun p => (peerRecord p, p.allowedIps)) =
      qs.map fun q => (peerRecord q, q.allowedIps) := by
  have hrows : ∀ ps : List PeerConfig, ps.flatMap peerRow =
      (ps.flatMap fun p => peerRecord p :: p.allowedIps.map encodeNetwork).flatten := by
    intro ps
    induction ps with
    | nil => rfl
    | cons p ps ih =>
        rw [List.flatMap_cons, List.flatMap_cons, List.flatten_append, ← ih, List.flatten_cons,
          ← List.flatMap_def]
        rfl
  have hwidths : ∀ ps : List PeerConfig,
      ∀ r ∈ ps.flatMap fun p => peerRecord p :: p.allowedIps.map encodeNetwork,
        ∃ octet rest, r = octet :: rest ∧ r.length = widthOf octet := by
    intro ps r hr
    obtain ⟨p, -, hr⟩ := List.mem_flatMap.mp hr
    rcases List.mem_cons.mp hr with rfl | hr
    · obtain ⟨octet, rest, heq, hodd⟩ := exists_odd_peerRecord p
      refine ⟨octet, rest, heq, ?_⟩
      rw [widthOf, if_pos hodd]
      exact length_peerFields p _
    · obtain ⟨n, -, rfl⟩ := List.mem_map.mp hr
      obtain ⟨octet, rest, heq, heven⟩ := exists_even_encodeNetwork n
      refine ⟨octet, rest, heq, ?_⟩
      rw [widthOf, if_neg heven]
      exact length_encodeNetwork n
  rw [hrows, hrows] at h
  have hrecords := flatten_inj (hwidths ps) (hwidths qs) h
  have hnetwork : ∀ p : PeerConfig, ∀ r ∈ p.allowedIps.map encodeNetwork, ¬ BeginsOdd r := by
    rintro p r hr ⟨octet, rest, rfl, hodd⟩
    obtain ⟨n, -, hn⟩ := List.mem_map.mp hr
    obtain ⟨octet', rest', heq, heven⟩ := exists_even_encodeNetwork n
    rw [hn] at heq
    exact heven ((List.cons.inj heq).1 ▸ hodd)
  have hblocks := append_flatMap_inj (P := BeginsOdd) (s := []) (t := []) exists_odd_peerRecord
    hnetwork (by simp) (by simp) hrecords
  refine map_eq_map ?_ hblocks.2
  intro p q hpq
  obtain ⟨hrecord, hmap⟩ := Prod.mk.inj hpq
  exact Prod.ext hrecord (list_eq encodeNetwork_injective hmap)

lemma config_of_row {c c' : Config} (hrange : ¬ OutOfRange c) (hrange' : ¬ OutOfRange c')
    (h : configRow c = configRow c') : c.inWholeSeconds = c'.inWholeSeconds := by
  have hlength : (interfaceFields c (c.firewallMark.getD 0)).flatten.length =
      (interfaceFields c' (c'.firewallMark.getD 0)).flatten.length := by
    rw [length_interfaceFields, length_interfaceFields]
  obtain ⟨hinterface, hrows⟩ := List.append_inj h hlength
  obtain ⟨hkey, hport, hmark, hreplace⟩ := interface_of_fields hinterface
  have hpeers := peers_of_rows hrows
  have hseconds : ∀ {c : Config}, ¬ OutOfRange c → ∀ p ∈ c.peers, InRange p :=
    fun hrange => (not_outOfRange_iff.mp hrange).2
  have hlengths : c.peers.length = c'.peers.length := by
    have hmaps := congrArg List.length hpeers
    rwa [List.length_map, List.length_map] at hmaps
  have hnormal : c.peers.map PeerConfig.inWholeSeconds =
      c'.peers.map PeerConfig.inWholeSeconds := by
    refine List.ext_getElem (by rw [List.length_map, List.length_map, hlengths]) ?_
    intro i hi hi'
    rw [List.length_map] at hi hi'
    have hpair := List.getElem_of_eq hpeers (i := i) (by rwa [List.length_map])
    rw [List.getElem_map, List.getElem_map] at hpair
    obtain ⟨hrecord, hnetworks⟩ := Prod.mk.inj hpair
    rw [List.getElem_map, List.getElem_map]
    exact peer_of_fields (hseconds hrange _ (List.getElem_mem hi))
      (hseconds hrange' _ (List.getElem_mem hi')) hrecord hnetworks
  simp only [Config.inWholeSeconds, Config.mk.injEq]
  exact ⟨hkey, hport, hmark, hreplace, hnormal⟩

/-! ### What the records leave out -/

lemma encodePeer_inWholeSeconds (p : PeerConfig) : encodePeer p.inWholeSeconds = encodePeer p := by
  have hflags : peerFlags p.inWholeSeconds = peerFlags p := by
    rw [peerFlags, peerFlags, PeerConfig.inWholeSeconds]
    cases p.keepalive <;> rfl
  rw [encodePeer, encodePeer, hflags, PeerConfig.inWholeSeconds]
  cases p.keepalive <;> rfl

lemma encodeConfig_inWholeSeconds (c : Config) :
    encodeConfig c.inWholeSeconds = encodeConfig c := by
  have hpeers : c.inWholeSeconds.peers.mapM encodePeer = c.peers.mapM encodePeer := by
    rw [Config.inWholeSeconds, List.mapM_map]
    exact congrArg (List.mapM · c.peers) (funext encodePeer_inWholeSeconds)
  rw [encodeConfig, encodeConfig, hpeers, Config.inWholeSeconds, List.length_map]
  rfl

/-- **The records of an update are faithful**: those updates have them that are equal to it but for
the parts of their intervals below one second. -/
theorem encodeConfig_eq_iff {c c' : Config} {b : Bytes} (h : encodeConfig c = .ok b) :
    encodeConfig c' = .ok b ↔ c.inWholeSeconds = c'.inWholeSeconds := by
  constructor
  · intro h'
    obtain ⟨hrange, hrow⟩ := encodeConfig_eq_ok_iff.mp h
    obtain ⟨hrange', hrow'⟩ := encodeConfig_eq_ok_iff.mp h'
    exact config_of_row hrange hrange' (hrow.symm.trans hrow')
  · intro heq
    rw [← encodeConfig_inWholeSeconds c', ← heq, encodeConfig_inWholeSeconds, h]

end WireGuardControl.OpenBsd
