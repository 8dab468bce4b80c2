import Mathlib.Tactic
import WireGuardControl.Config.Precision
import WireGuardControl.Proofs.Tables
import WireGuardControl.Proofs.Uapi.Readback
/-!
What the text of an update determines.

* `pairs_interfaceLines` and `pairs_settingLines`: the lines of an update are tables of keys and
  values, in which a setting that is absent has no value.
* `interface_of_table` and `peer_of_table`: each entry of these tables determines its setting, but
  for what has no text.
* `setRequest_eq_iff`: two updates have one text exactly if they differ in parts of seconds and in
  flow information only.
-/

namespace WireGuardControl.Uapi

open Text Lines Table

/-! ### Values and their texts -/

lemma hexChars_injective : Function.Injective Key.hexChars := by
  intro k k' h
  have hread := congrArg Key.ofHex h
  rw [Key.ofHex_hexChars, Key.ofHex_hexChars] at hread
  exact Except.ok.inj hread

lemma networkChars_injective : Function.Injective Network.chars := by
  intro n n' h
  have hread := congrArg Network.read? h
  rw [Network.read?_chars, Network.read?_chars] at hread
  exact Option.some.inj hread

/-- An endpoint is determined by its text but for its flow information. -/
lemma withoutFlow_factors : Endpoint.withoutFlow.FactorsThrough Endpoint.chars := by
  intro e e' h
  have hread := congrArg Endpoint.read? h
  rw [Endpoint.read?_chars, Endpoint.read?_chars] at hread
  exact Option.some.inj hread

lemma chars_withoutFlow (e : Endpoint) : e.withoutFlow.chars = e.chars := by
  cases e <;> rfl

/-- The text of an interval of keepalives. -/
def secondsChars (i : Interval) : List Char := Decimal.ofNat i.seconds.toNat

lemma wholeSeconds_factors : Interval.wholeSeconds.FactorsThrough secondsChars := by
  intro i j h
  have hseconds : i.seconds = j.seconds := UInt64.toNat_inj.mp (Decimal.ofNat_injective h)
  rw [Interval.wholeSeconds, Interval.wholeSeconds, hseconds]

/-! ### Tables of lines -/

/-- The values of a switch. -/
def switchValues (on : Bool) : List (List Char) := if on then ["true".toList] else []

lemma switchValues_injective : Function.Injective switchValues := by
  intro a b h
  cases a <;> cases b
  · rfl
  · cases h
  · cases h
  · rfl

/-- The settings of an interface in an update. -/
def interfaceTable (c : Config) : List (String × List (List Char)) :=
  [("private_key", (c.privateKey.map Key.hexChars).toList),
    ("listen_port", (c.listenPort.map fun port => Decimal.ofNat port.toNat).toList),
    ("fwmark", (c.firewallMark.map fun mark => Decimal.ofNat mark.toNat).toList),
    ("replace_peers", switchValues c.replacePeers)]

/-- The settings of a peer in an update. -/
def settingTable (p : PeerConfig) : List (String × List (List Char)) :=
  [("remove", switchValues p.remove), ("update_only", switchValues p.updateOnly),
    ("preshared_key", (p.presharedKey.map Key.hexChars).toList),
    ("endpoint", (p.endpoint.map Endpoint.chars).toList),
    ("persistent_keepalive_interval", (p.keepalive.map secondsChars).toList),
    ("replace_allowed_ips", switchValues p.replaceAllowedIps),
    ("allowed_ip", p.allowedIps.map Network.chars)]

/-- The keys of the settings of an interface. -/
def interfaceLabels : List String := ["private_key", "listen_port", "fwmark", "replace_peers"]

/-- The keys of the settings of a peer. -/
def settingLabels : List String :=
  ["remove", "update_only", "preshared_key", "endpoint", "persistent_keepalive_interval",
    "replace_allowed_ips", "allowed_ip"]

lemma labels_interfaceTable (c : Config) : (interfaceTable c).map Prod.fst = interfaceLabels := rfl

lemma labels_settingTable (p : PeerConfig) : (settingTable p).map Prod.fst = settingLabels := rfl

lemma pair_switch (key : String) (on : Bool) :
    (Line.switch key on).map Line.pair = (switchValues on).map (key, ·) := by
  cases on <;> rfl

lemma pairs_interfaceLines (c : Config) :
    (interfaceLines c).map Line.pair = spread (interfaceTable c) := by
  rw [interfaceLines, interfaceTable, spread]
  simp only [List.map_append, List.flatMap_cons, List.flatMap_nil, List.append_nil, pair_switch,
    Option.toList_map, List.map_map, List.append_assoc]
  rfl

lemma pairs_settingLines (p : PeerConfig) :
    (settingLines p).map Line.pair = spread (settingTable p) := by
  change List.map Line.pair ([] ++ _ ++ _ ++ _ ++ _ ++ _ ++ _ ++ _) = _
  rw [settingTable, spread]
  simp only [List.map_append, List.flatMap_cons, List.flatMap_nil, List.append_nil, pair_switch,
    Option.toList_map, List.map_map, List.append_assoc, List.nil_append]
  rfl

/-- The pairs of an update: those of the interface, and a block for each peer. -/
lemma pairs_configLines (c : Config) :
    (configLines c).map Line.pair = spread (interfaceTable c) ++
      c.peers.flatMap fun p => ("public_key", p.publicKey.hexChars) :: spread (settingTable p) := by
  rw [configLines_eq, List.map_append, pairs_interfaceLines, List.map_flatMap]
  simp only [peerLines_eq, List.map_cons, pairs_settingLines]
  rfl

/-! ### What tables determine -/

/-- The lines about the interface determine all of an update but its peers. -/
lemma interface_of_table {c c' : Config}
    (h : spread (interfaceTable c) = spread (interfaceTable c')) :
    c.privateKey = c'.privateKey ∧ c.listenPort = c'.listenPort ∧
      c.firewallMark = c'.firewallMark ∧ c.replacePeers = c'.replacePeers := by
  have htable := spread_inj (by decide) (labels_interfaceTable c) (labels_interfaceTable c') h
  simp only [interfaceTable, List.cons.injEq, Prod.mk.injEq, true_and, and_true] at htable
  obtain ⟨hkey, hport, hmark, hreplace⟩ := htable
  have hports : Function.Injective fun port : UInt16 => Decimal.ofNat port.toNat :=
    Decimal.ofNat_injective.comp fun _ _ => UInt16.toNat_inj.mp
  have hmarks : Function.Injective fun mark : UInt32 => Decimal.ofNat mark.toNat :=
    Decimal.ofNat_injective.comp fun _ _ => UInt32.toNat_inj.mp
  exact ⟨option_eq hexChars_injective hkey, option_eq hports hport, option_eq hmarks hmark,
    switchValues_injective hreplace⟩

/-- The lines of a peer determine its update but for what has no text. -/
lemma peer_of_table {p q : PeerConfig} (hkey : p.publicKey.hexChars = q.publicKey.hexChars)
    (h : spread (settingTable p) = spread (settingTable q)) :
    p.inWholeSeconds.withoutFlow = q.inWholeSeconds.withoutFlow := by
  have htable := spread_inj (by decide) (labels_settingTable p) (labels_settingTable q) h
  simp only [settingTable, List.cons.injEq, Prod.mk.injEq, true_and, and_true] at htable
  obtain ⟨hremove, hupdate, hpreshared, hendpoint, hkeepalive, hreplace, hnetworks⟩ := htable
  simp only [PeerConfig.inWholeSeconds, PeerConfig.withoutFlow, PeerConfig.mk.injEq]
  exact ⟨hexChars_injective hkey, switchValues_injective hremove,
    switchValues_injective hupdate, option_eq hexChars_injective hpreshared,
    option_map_eq_map withoutFlow_factors hendpoint,
    option_map_eq_map wholeSeconds_factors hkeepalive, switchValues_injective hreplace,
    list_eq networkChars_injective hnetworks⟩

/-- The text of a plain line determines its key and its value. -/
lemma map_pair_eq {lines lines' : List Line} (hplain : ∀ l ∈ lines, l.Plain)
    (hplain' : ∀ l ∈ lines', l.Plain) (h : lines.map Line.text = lines'.map Line.text) :
    lines.map Line.pair = lines'.map Line.pair := by
  have hpairs : ∀ {ls : List Line}, (∀ l ∈ ls, l.Plain) →
      (ls.map Line.text).map (fun s => (once '=' s).map fun x => (String.ofList x.1, x.2)) =
        (ls.map Line.pair).map some := by
    intro ls hls
    rw [List.map_map, List.map_map]
    refine List.map_congr_left fun l hl => ?_
    simp only [Function.comp, (hls l hl).once_text, Option.map_some, String.ofList_toList]
    rfl
  have hsome := hpairs hplain
  rw [h, hpairs hplain'] at hsome
  exact (list_eq (Option.some_injective _) hsome).symm

/-- The text of an update determines the keys and values of its lines. -/
lemma pairs_of_setRequest {c c' : Config} (h : setRequest c = setRequest c') :
    (configLines c).map Line.pair = (configLines c').map Line.pair := by
  have hplain : ∀ c : Config, ∀ l ∈ setLine :: configLines c, l.Plain := by
    intro c
    rw [List.forall_mem_cons]
    exact ⟨plain_setLine, fun l hl => (plain_configLines c l hl).1⟩
  have hbody : ∀ c : Config,
      Pairs.body (setRequest c) = (setLine :: configLines c).map Line.text := by
    intro c
    rw [setRequest_eq, body_paragraph]
    · exact List.forall_mem_map.mpr fun l _ => l.text_ne_nil
    · exact List.forall_mem_map.mpr fun l hl => (hplain c l hl).notMem_text
    · exact List.forall_mem_map.mpr fun l hl => (hplain c l hl).getLast?_text
  have htexts := congrArg Pairs.body h
  rw [hbody, hbody] at htexts
  exact (List.cons.inj (map_pair_eq (hplain c) (hplain c') htexts)).2

/-! ### What the text leaves out -/

lemma peerLines_inWholeSeconds_withoutFlow (p : PeerConfig) :
    peerLines p.inWholeSeconds.withoutFlow = peerLines p := by
  simp only [peerLines, PeerConfig.inWholeSeconds, PeerConfig.withoutFlow, Option.map_map,
    Function.comp_def, chars_withoutFlow]
  rfl

lemma setRequest_inWholeSeconds_withoutFlow (c : Config) :
    setRequest c.inWholeSeconds.withoutFlow = setRequest c := by
  rw [setRequest_eq, setRequest_eq]
  simp only [configLines, Config.inWholeSeconds, Config.withoutFlow, List.flatMap_map,
    peerLines_inWholeSeconds_withoutFlow]

/-- **The text of an update is faithful**: two updates have the same exactly if they are equal but
for the parts of their intervals below one second and the flow information of their endpoints. -/
theorem setRequest_eq_iff {c c' : Config} :
    setRequest c = setRequest c' ↔
      c.inWholeSeconds.withoutFlow = c'.inWholeSeconds.withoutFlow := by
  constructor
  · intro h
    have hpairs := pairs_of_setRequest h
    rw [pairs_configLines, pairs_configLines] at hpairs
    have hinterface : ∀ c : Config, ∀ x ∈ spread (interfaceTable c), ¬ x.1 = "public_key" := by
      intro c x hx heq
      have hlabel : "public_key" ∈ interfaceLabels := heq ▸ fst_of_mem_spread hx
      exact absurd hlabel (by decide)
    have hsettings : ∀ p : PeerConfig, ∀ x ∈ spread (settingTable p), ¬ x.1 = "public_key" := by
      intro p x hx heq
      have hlabel : "public_key" ∈ settingLabels := heq ▸ fst_of_mem_spread hx
      exact absurd hlabel (by decide)
    obtain ⟨htable, hblocks⟩ := append_flatMap_inj (P := fun x => x.1 = "public_key")
      (fun _ => rfl) hsettings (hinterface c) (hinterface c') hpairs
    obtain ⟨hkey, hport, hmark, hreplace⟩ := interface_of_table htable
    have hpeers : c.peers.map (fun p => p.inWholeSeconds.withoutFlow) =
        c'.peers.map fun p => p.inWholeSeconds.withoutFlow := by
      refine map_eq_map ?_ hblocks
      intro p q hpq
      obtain ⟨hhead, htail⟩ := Prod.mk.inj hpq
      exact peer_of_table (Prod.mk.inj hhead).2 htail
    simp only [Config.inWholeSeconds, Config.withoutFlow, List.map_map, Config.mk.injEq]
    exact ⟨hkey, hport, hmark, hreplace, hpeers⟩
  · intro h
    rw [← setRequest_inWholeSeconds_withoutFlow c, h, setRequest_inWholeSeconds_withoutFlow]

end WireGuardControl.Uapi
