import Mathlib.Tactic
import WireGuardControl.Config.Description
import WireGuardControl.Proofs.Uapi.Endpoint
import WireGuardControl.Proofs.Uapi.Pairs
/-!
An update in lines, read as the response that describes a device.

* `interfaceStep_privateKey`, `PeerDraft.step_presharedKey` and their like: what a line makes of an
  interface or of a peer. A line with a key that only updates have makes nothing of either
  (`interfaceStep_of_notMem`, `PeerDraft.step_of_notMem`).
* `through_interfaceLines`, `through_settingLines`: the lines in front of the first peer and those
  of one peer are runs of these steps. `DeviceDraft.through_peers` is the run over all peers: each
  `public_key` completes the peer before.
* `readGet_configLines`: the lines of any update in front of a status are read as the device of the
  update, and `readGet_setRequest` says this, and how it is divided, of its text.
-/

namespace WireGuardControl.Uapi

open Text Lines

/-! ### Values -/

lemma number_of_ok {α : Type} {read : List Char → Except Decimal.Fault α} {v : List Char} {a : α}
    (h : read v = .ok a) (key : String) : number read key v = .ok a := by
  rw [number, h]
  rfl

lemma hexKey_hexChars (key : String) (k : Key) : hexKey key k.hexChars = .ok k := by
  rw [hexKey, Key.ofHex_hexChars]
  rfl

lemma network_chars (n : Network) : network n.chars = .ok n := by
  rw [network, Network.read?_chars]

/-! ### Lines worked through -/

/-- Works a state through the keys and values of lines in order. -/
def through {σ : Type} (f : σ → String → List Char → Except Error σ) (s : σ)
    (lines : List Line) : Except Error σ :=
  lines.foldlM (fun s l => f s l.key l.value) s

section Through

variable {σ : Type} {f : σ → String → List Char → Except Error σ} {s : σ}

lemma through_nil : through f s [] = .ok s := rfl

lemma through_cons (l : Line) (lines : List Line) :
    through f s (l :: lines) = (f s l.key l.value).bind fun s => through f s lines := rfl

lemma through_append (xs ys : List Line) :
    through f s (xs ++ ys) = (through f s xs).bind fun s => through f s ys := by
  rw [through, List.foldlM_append]
  rfl

lemma through_singleton (l : Line) : through f s [l] = f s l.key l.value := by
  rw [through_cons]
  cases f s l.key l.value <;> rfl

lemma through_toList {α : Type} {g : α → Line} {t : α → σ}
    (h : ∀ a, f s (g a).key (g a).value = .ok (t a)) (o : Option α) :
    through f s (o.map g).toList = .ok (o.elim s t) := by
  cases o with
  | none => rfl
  | some a => exact (through_singleton (g a)).trans (h a)

lemma through_switch {key : String} (h : ∀ v, f s key v = .ok s) (on : Bool) :
    through f s (Line.switch key on) = .ok s := by
  cases on with
  | false => rfl
  | true => exact (through_singleton _).trans (h _)

/-- If a state is part of another and every line works on the part, so do all of them. -/
lemma through_embed {τ : Type} {g : τ → String → List Char → Except Error τ} (embed : σ → τ)
    {lines : List Line}
    (h : ∀ l ∈ lines, ∀ s, g (embed s) l.key l.value = (f s l.key l.value).map embed) (s : σ) :
    through g (embed s) lines = (through f s lines).map embed := by
  induction lines generalizing s with
  | nil => rfl
  | cons l lines ih =>
      rw [List.forall_mem_cons] at h
      rw [through_cons, through_cons, h.1]
      cases f s l.key l.value with
      | error e => rfl
      | ok s' => exact ih h.2 s'

end Through

/-! ### The interface -/

lemma interfaceStep_privateKey (d : Device) (k : Key) :
    DeviceDraft.interfaceStep d "private_key" k.hexChars = .ok { d with privateKey := k } := by
  rw [DeviceDraft.interfaceStep, if_pos rfl, hexKey_hexChars]
  rfl

lemma interfaceStep_listenPort (d : Device) (port : UInt16) :
    DeviceDraft.interfaceStep d "listen_port" (Decimal.ofNat port.toNat) =
      .ok { d with listenPort := port } := by
  rw [DeviceDraft.interfaceStep, if_neg (by decide), if_pos rfl,
    number_of_ok (Decimal.readUInt16_ofNat port)]
  rfl

lemma interfaceStep_firewallMark (d : Device) (mark : UInt32) :
    DeviceDraft.interfaceStep d "fwmark" (Decimal.ofNat mark.toNat) =
      .ok { d with firewallMark := mark } := by
  rw [DeviceDraft.interfaceStep]
  iterate 2 rw [if_neg (by decide)]
  rw [if_pos rfl, number_of_ok (Decimal.readUInt32_ofNat mark)]
  rfl

/-- The keys of the lines that make something of an interface. -/
def interfaceKeys : List String := ["private_key", "listen_port", "fwmark"]

/-- A line with any other key makes nothing of an interface. -/
lemma interfaceStep_of_notMem (d : Device) {key : String} (h : key ∉ interfaceKeys)
    (v : List Char) : DeviceDraft.interfaceStep d key v = .ok d := by
  simp only [interfaceKeys, List.mem_cons, List.not_mem_nil, or_false, not_or] at h
  simp only [DeviceDraft.interfaceStep, h, if_false]
  rfl

lemma through_privateKey (d : Device) (key : Option Key) :
    through DeviceDraft.interfaceStep d (key.map (Line.hexKey "private_key")).toList =
      .ok (key.elim d fun k => { d with privateKey := k }) :=
  through_toList (interfaceStep_privateKey d) key

lemma through_listenPort (d : Device) (port : Option UInt16) :
    through DeviceDraft.interfaceStep d
        (port.map fun v => Line.number "listen_port" v.toNat).toList =
      .ok (port.elim d fun v => { d with listenPort := v }) :=
  through_toList (interfaceStep_listenPort d) port

lemma through_firewallMark (d : Device) (mark : Option UInt32) :
    through DeviceDraft.interfaceStep d (mark.map fun v => Line.number "fwmark" v.toNat).toList =
      .ok (mark.elim d fun v => { d with firewallMark := v }) :=
  through_toList (interfaceStep_firewallMark d) mark

/-- The lines about the interface are read as its settings. -/
lemma through_interfaceLines (c : Config) (name : String) :
    through DeviceDraft.interfaceStep { name := name, deviceType := .userspace }
        (interfaceLines c) = .ok { c.described name .userspace with peers := [] } := by
  have hreplace : "replace_peers" ∉ interfaceKeys := by decide
  simp only [interfaceLines, through_append, Except.bind, through_privateKey, through_listenPort,
    through_firewallMark, through_switch (interfaceStep_of_notMem _ hreplace)]
  rcases c with ⟨_ | _, _ | _, _ | _, _, _⟩ <;> rfl

/-! ### Peers -/

/-- The peer that the update of a peer reads back as. -/
def readBack (p : PeerConfig) : Peer :=
  { p.described with endpoint := p.endpoint.map Endpoint.withoutFlow }

/-- The keys of the lines that make something of a peer. -/
def peerKeys : List String :=
  ["preshared_key", "endpoint", "persistent_keepalive_interval", "last_handshake_time_sec",
    "last_handshake_time_nsec", "tx_bytes", "rx_bytes", "allowed_ip", "protocol_version"]

namespace PeerDraft

lemma step_presharedKey (d : PeerDraft) (k : Key) :
    d.step "preshared_key" k.hexChars =
      .ok { d with peer := { d.peer with presharedKey := k } } := by
  rw [step, if_pos rfl, hexKey_hexChars]
  rfl

lemma step_endpoint (d : PeerDraft) (e : Endpoint) :
    d.step "endpoint" e.chars =
      .ok { d with peer := { d.peer with endpoint := some e.withoutFlow } } := by
  rw [step, if_neg (by decide), if_pos rfl, readEndpoint_chars]
  rfl

lemma step_keepalive (d : PeerDraft) (i : Interval) :
    d.step "persistent_keepalive_interval" (Decimal.ofNat i.seconds.toNat) =
      .ok { d with peer := { d.peer with keepalive := i.wholeSeconds } } := by
  rw [step]
  iterate 2 rw [if_neg (by decide)]
  rw [if_pos rfl, number_of_ok (Decimal.readUInt64_ofNat i.seconds)]
  rfl

lemma step_allowedIp (d : PeerDraft) (n : Network) :
    d.step "allowed_ip" n.chars =
      .ok { d with peer := { d.peer with allowedIps := d.peer.allowedIps ++ [n] } } := by
  rw [step]
  iterate 7 rw [if_neg (by decide)]
  rw [if_pos rfl, network_chars]
  rfl

/-- A line with any other key makes nothing of a peer. -/
lemma step_of_notMem (d : PeerDraft) {key : String} (h : key ∉ peerKeys) (v : List Char) :
    d.step key v = .ok d := by
  simp only [peerKeys, List.mem_cons, List.not_mem_nil, or_false, not_or] at h
  simp only [step, h, if_false]
  rfl

lemma through_presharedKey (d : PeerDraft) (key : Option Key) :
    through step d (key.map (Line.hexKey "preshared_key")).toList =
      .ok (key.elim d fun k => { d with peer := { d.peer with presharedKey := k } }) :=
  through_toList (step_presharedKey d) key

lemma through_endpoint (d : PeerDraft) (endpoint : Option Endpoint) :
    through step d (endpoint.map fun e => Line.mk "endpoint" e.chars).toList =
      .ok (endpoint.elim d fun e =>
        { d with peer := { d.peer with endpoint := some e.withoutFlow } }) :=
  through_toList (step_endpoint d) endpoint

lemma through_keepalive (d : PeerDraft) (keepalive : Option Interval) :
    through step d (keepalive.map fun i =>
        Line.number "persistent_keepalive_interval" i.seconds.toNat).toList =
      .ok (keepalive.elim d fun i =>
        { d with peer := { d.peer with keepalive := i.wholeSeconds } }) :=
  through_toList (step_keepalive d) keepalive

lemma through_allowedIps (d : PeerDraft) (ns : List Network) :
    through step d (ns.map fun n => Line.mk "allowed_ip" n.chars) =
      .ok { d with peer := { d.peer with allowedIps := d.peer.allowedIps ++ ns } } := by
  induction ns generalizing d with
  | nil => simp [through_nil]
  | cons n ns ih =>
      rw [List.map_cons, through_cons, step_allowedIp]
      simp only [Except.bind, ih, List.append_assoc, List.singleton_append]

end PeerDraft

/-- The lines behind the key of a peer are read as its settings. -/
lemma through_settingLines (p : PeerConfig) :
    through PeerDraft.step { peer := { publicKey := p.publicKey } } (settingLines p) =
      .ok { peer := readBack p } := by
  have hremove : "remove" ∉ peerKeys := by decide
  have hupdate : "update_only" ∉ peerKeys := by decide
  have hreplace : "replace_allowed_ips" ∉ peerKeys := by decide
  change through _ _ ([] ++ _ ++ _ ++ _ ++ _ ++ _ ++ _ ++ _) = _
  simp only [through_append, through_nil, Except.bind,
    through_switch (PeerDraft.step_of_notMem _ hremove),
    through_switch (PeerDraft.step_of_notMem _ hupdate), PeerDraft.through_presharedKey,
    PeerDraft.through_endpoint, PeerDraft.through_keepalive,
    through_switch (PeerDraft.step_of_notMem _ hreplace), PeerDraft.through_allowedIps]
  rcases p with ⟨_, _, _, _ | _, _ | _, _ | _, _, _⟩ <;> rfl

/-! ### Devices -/

/-- A line neither reports the status nor begins a peer. -/
def Line.Continues (l : Line) : Prop := l.key ≠ statusKey ∧ l.key ≠ "public_key"

lemma Line.IsSetting.continues {l : Line} (h : l.IsSetting) : l.Continues := h.key_ne

namespace DeviceDraft

/-- Takes a key and a value in. -/
def take (d : DeviceDraft) (key : String) (v : List Char) : Except Error DeviceDraft :=
  d.step (key, v)

lemma take_interface (code : Option Int32) {l : Line} (h : l.Continues) (d : Device) :
    take ⟨d, none, code⟩ l.key l.value =
      (interfaceStep d l.key l.value).map fun d => ⟨d, none, code⟩ := by
  rw [take, step]
  simp only
  rw [if_neg h.1, if_neg h.2]
  cases interfaceStep d l.key l.value <;> rfl

lemma take_peer (dev : Device) (code : Option Int32) {l : Line} (h : l.Continues)
    (d : PeerDraft) :
    take ⟨dev, some d, code⟩ l.key l.value =
      (d.step l.key l.value).map fun d => ⟨dev, some d, code⟩ := by
  rw [take, step]
  simp only
  rw [if_neg h.1, if_neg h.2]
  cases d.step l.key l.value <;> rfl

/-- Lines that begin no peer work on the interface before the first peer. -/
lemma through_take_interface (code : Option Int32) {lines : List Line}
    (h : ∀ l ∈ lines, l.Continues) (d : Device) :
    through take ⟨d, none, code⟩ lines =
      (through interfaceStep d lines).map fun d => ⟨d, none, code⟩ :=
  through_embed (fun d => mk d none code) (fun l hl => take_interface code (h l hl)) d

/-- Lines that begin no peer work on the peer that is open. -/
lemma through_take_peer (dev : Device) (code : Option Int32) {lines : List Line}
    (h : ∀ l ∈ lines, l.Continues) (d : PeerDraft) :
    through take ⟨dev, some d, code⟩ lines =
      (through PeerDraft.step d lines).map fun d => ⟨dev, some d, code⟩ :=
  through_embed (fun d => mk dev (some d) code) (fun l hl => take_peer dev code (h l hl)) d

variable {d : DeviceDraft} {dev : Device} {code : Option Int32}

/-- The key of a peer completes the peer before and begins a new one. -/
lemma take_publicKey (h : d.finishPeer = .ok ⟨dev, none, code⟩) (k : Key) :
    d.take "public_key" k.hexChars = .ok ⟨dev, some { peer := { publicKey := k } }, code⟩ := by
  rw [take, step]
  simp only
  rw [if_neg (by decide), if_pos trivial, h, hexKey_hexChars]
  rfl

/-- The lines of a peer complete the peer before and leave their own open. -/
lemma through_peerLines (h : d.finishPeer = .ok ⟨dev, none, code⟩) (p : PeerConfig) :
    through take d (peerLines p) = .ok ⟨dev, some { peer := readBack p }, code⟩ := by
  rw [peerLines_eq, through_cons]
  change (take d "public_key" p.publicKey.hexChars).bind _ = _
  rw [take_publicKey h]
  change through take _ _ = _
  rw [through_take_peer dev code fun l hl => (isSetting_settingLines p l hl).continues,
    through_settingLines]
  rfl

lemma finishPeer_readBack (p : PeerConfig) :
    finishPeer ⟨dev, some { peer := readBack p }, code⟩ =
      .ok ⟨{ dev with peers := dev.peers ++ [readBack p] }, none, code⟩ := rfl

/-- **The lines of all peers** are read as one peer for each update of a peer, the last of which is
still open. -/
lemma through_peers (h : d.finishPeer = .ok ⟨dev, none, code⟩) (ps : List PeerConfig) :
    ∃ d', through take d (ps.flatMap peerLines) = .ok d' ∧
      d'.finishPeer = .ok ⟨{ dev with peers := dev.peers ++ ps.map readBack }, none, code⟩ := by
  -- the invariant is the draft with its open peer completed: that is what the next key makes of it
  induction ps generalizing d dev with
  | nil => exact ⟨d, rfl, by simpa using h⟩
  | cons p ps ih =>
      obtain ⟨d', hrun, hfinish⟩ := ih (finishPeer_readBack p)
      refine ⟨d', ?_, ?_⟩
      · rw [List.flatMap_cons, through_append, through_peerLines h]
        exact hrun
      · rw [hfinish, List.map_cons, List.append_assoc, List.singleton_append]

/-- The status is judged apart from the peer that is still open. -/
lemma finishPeer_withCode (d : DeviceDraft) (code : Option Int32) :
    finishPeer { d with code := code } = (finishPeer d).map fun d => { d with code := code } := by
  rcases d with ⟨dev, _ | draft, _⟩
  · rfl
  · simp only [finishPeer]
    cases draft.finish <;> rfl

end DeviceDraft

/-- The line of a status that reports no error. -/
def okLine : Line := ⟨statusKey, ['0']⟩

lemma plain_okLine : okLine.Plain := ⟨by decide, by decide⟩

lemma DeviceDraft.take_okLine (d : DeviceDraft) :
    d.take okLine.key okLine.value = .ok { d with code := some 0 } := rfl

/-- All lines of an update and a status are read as the device of the update. -/
lemma through_configLines (c : Config) (name : String) :
    ∃ d, through DeviceDraft.take { device := { name := name, deviceType := .userspace } }
        (configLines c ++ [okLine]) = .ok d ∧
      d.finishPeer = .ok
        ⟨{ c.described name .userspace with peers := c.peers.map readBack }, none, some 0⟩ := by
  have hstart : DeviceDraft.finishPeer
      ⟨{ c.described name .userspace with peers := [] }, none, none⟩ = .ok _ := rfl
  obtain ⟨d, hpeers, hfinish⟩ := DeviceDraft.through_peers hstart c.peers
  refine ⟨{ d with code := some 0 }, ?_, ?_⟩
  · rw [configLines_eq, through_append, through_append, DeviceDraft.through_take_interface none
      fun l hl => (isSetting_interfaceLines c l hl).continues, through_interfaceLines]
    change ((through _ _ _).bind _) = _
    rw [hpeers]
    exact (through_singleton okLine).trans d.take_okLine
  · rw [DeviceDraft.finishPeer_withCode, hfinish]
    rfl

/-- The lines of any update in front of a status are read as the device of the update, in which
endpoints have lost their flow information. -/
lemma readGet_configLines (name : String) (c : Config) :
    readGet name (paragraph ((configLines c ++ [okLine]).map Line.text)) =
      .ok (withDerivedKey { c.described name .userspace with peers := c.peers.map readBack }) := by
  obtain ⟨d, hrun, hfinish⟩ := through_configLines c name
  have hitems : ((configLines c ++ [okLine]).map Line.pair).foldlM DeviceDraft.step
      { device := { name := name, deviceType := .userspace } } = .ok d := by
    rw [List.foldlM_map]
    exact hrun
  rw [readGet, ofText_paragraph (fun l hl => (plain_configLines c l hl).1)
    (fun l hl => (plain_configLines c l hl).2) plain_okLine, Pairs.foldM]
  simp only [hitems]
  change (d.finishPeer).bind _ = _
  rw [hfinish]
  rfl

lemma readBack_of_noFlow {p : PeerConfig}
    (h : ∀ x port flow scope, p.endpoint = some (.v6 x port flow scope) → flow = 0) :
    readBack p = p.described := by
  have hendpoint : p.endpoint.map Endpoint.withoutFlow = p.endpoint := by
    cases he : p.endpoint with
    | none => rfl
    | some e =>
        cases e with
        | v4 x port => rfl
        | v6 x port flow scope =>
            obtain rfl := h x port flow scope he
            rfl
  rw [readBack, hendpoint]
  rfl

/-- A device without a public key gets the one of a private key other than zero. -/
lemma withDerivedKey_eq {d : Device} (h : d.publicKey = Key.zero) :
    withDerivedKey d =
      { d with
        publicKey := if d.privateKey = Key.zero then Key.zero else d.privateKey.publicKey } := by
  rcases d with ⟨name, type, privateKey, publicKey, port, mark, peers⟩
  obtain rfl : publicKey = Key.zero := h
  by_cases hzero : privateKey = Key.zero
  · simp [withDerivedKey, Key.isZero, hzero]
  · simp [withDerivedKey, Key.isZero, hzero]

/-- **An update reads back as a device.** The text of an update without flow information is a
paragraph: lines that are not blank and have one equals sign each, and one blank line behind them,
so that who reads up to the first blank line receives all of it. With the first line taken away and
a status put behind the last one, it is read as the device of the update, with the public key that
belongs to a private key other than zero. -/
theorem readGet_setRequest (name : String) {c : Config}
    (hflow : ∀ p ∈ c.peers, ∀ x port flow scope,
      p.endpoint = some (.v6 x port flow scope) → flow = 0) :
    ∃ lines : List (List Char),
      setRequest c = paragraph ("set=1".toList :: lines) ∧
      (∀ l ∈ "set=1".toList :: lines, l ≠ [] ∧ '\n' ∉ l ∧ l.count '=' = 1) ∧
      (∀ rest, responseOf (Utf8.encode (setRequest c) ++ rest) = Utf8.encode (setRequest c)) ∧
      readGet name (paragraph (lines ++ ["errno=0".toList])) =
        .ok { c.described name .userspace with
          publicKey :=
            if c.privateKey.getD Key.zero = Key.zero then Key.zero
            else (c.privateKey.getD Key.zero).publicKey } := by
  have hset : setLine.text = "set=1".toList := by decide
  have hok : okLine.text = "errno=0".toList := by decide
  have hplain : ∀ l ∈ setLine :: configLines c, l.Plain :=
    List.forall_mem_cons.mpr ⟨plain_setLine, fun l hl => (plain_configLines c l hl).1⟩
  have htext := setRequest_eq c
  have hlines : ∀ l ∈ (setLine :: configLines c).map Line.text,
      l ≠ [] ∧ '\n' ∉ l ∧ l.count '=' = 1 := by
    refine List.forall_mem_map.mpr fun l hl => ?_
    exact ⟨l.text_ne_nil, (hplain l hl).notMem_text, (hplain l hl).count_text⟩
  have hreceived : ∀ rest,
      responseOf (Utf8.encode (setRequest c) ++ rest) = Utf8.encode (setRequest c) := by
    intro rest
    rw [htext]
    exact responseOf_paragraph (fun l hl => (hlines l hl).1) (fun l hl => (hlines l hl).2.1) rest
  have hpeers : c.peers.map readBack = c.peers.map (·.described) :=
    List.map_congr_left fun p hp => readBack_of_noFlow (hflow p hp)
  have hread := readGet_configLines name c
  rw [List.map_append, List.map_singleton, hok, hpeers] at hread
  rw [List.map_cons, hset] at htext hlines
  exact ⟨(configLines c).map Line.text, htext, hlines, hreceived,
    hread.trans (congrArg Except.ok (withDerivedKey_eq rfl))⟩

/-- Two peers, the first of which is removed, with lines that only an update has before and behind
the key of a peer, endpoints of either family and a network with host bits. -/
theorem readGet_setRequest_peers :
    let key : Key := ⟨List.replicate 32 7, rfl⟩
    let c : Config :=
      { privateKey := some key
        firewallMark := some 9
        replacePeers := true
        peers :=
          [{ remove := true, endpoint := some (.v4 ⟨192, 0, 2, 1⟩ 80) },
            { publicKey := key
              updateOnly := true
              presharedKey := some key
              endpoint := some (.v6 ⟨[0, 0, 0, 0, 0, 0xFFFF, 0x0102, 0x0304], rfl⟩ 51820 0 3)
              keepalive := some ⟨18446744073709551615, 1⟩
              replaceAllowedIps := true
              allowedIps := [.v4 ⟨10, 1, 2, 3⟩ 8, .v6 ⟨[1, 0, 0, 2, 0, 0, 0, 3], rfl⟩ 64] }] }
    (∀ p ∈ c.peers, ∀ x port flow scope,
      p.endpoint = some (.v6 x port flow scope) → flow = 0) ∧
    ∃ lines : List (List Char),
      setRequest c = paragraph ("set=1".toList :: lines) ∧
      (∀ l ∈ "set=1".toList :: lines, l ≠ [] ∧ '\n' ∉ l ∧ l.count '=' = 1) ∧
      (∀ rest, responseOf (Utf8.encode (setRequest c) ++ rest) = Utf8.encode (setRequest c)) ∧
      readGet "wg0" (paragraph (lines ++ ["errno=0".toList])) =
        .ok
          { name := "wg0"
            deviceType := .userspace
            privateKey := key
            publicKey := key.publicKey
            firewallMark := 9
            peers :=
              [{ endpoint := some (.v4 ⟨192, 0, 2, 1⟩ 80) },
                { publicKey := key
                  presharedKey := key
                  endpoint :=
                    some (.v6 ⟨[0, 0, 0, 0, 0, 0xFFFF, 0x0102, 0x0304], rfl⟩ 51820 0 3)
                  keepalive := ⟨18446744073709551615, 0⟩
                  allowedIps :=
                    [.v4 ⟨10, 1, 2, 3⟩ 8, .v6 ⟨[1, 0, 0, 2, 0, 0, 0, 3], rfl⟩ 64] }] } := by
  intro key c
  have hflow : ∀ p ∈ c.peers, ∀ x port flow scope,
      p.endpoint = some (.v6 x port flow scope) → flow = 0 := by
    intro p hp x port flow scope he
    rcases List.mem_cons.mp hp with rfl | hp
    · cases he
    · rw [List.mem_singleton.mp hp] at he
      cases he
      rfl
  have hkey : key ≠ Key.zero := by decide
  obtain ⟨lines, htext, hlines, hreceived, hread⟩ := readGet_setRequest "wg0" hflow
  refine ⟨hflow, lines, htext, hlines, hreceived, hread.trans ?_⟩
  rw [show c.privateKey.getD Key.zero = key from rfl, if_neg hkey]
  rfl

end WireGuardControl.Uapi
