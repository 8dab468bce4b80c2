import WireGuardControl.Json.Model
import WireGuardControl.Proofs.Json.Record
import WireGuardControl.Proofs.Key
import WireGuardControl.Proofs.Net.Endpoint
import WireGuardControl.Proofs.Net.Network
import WireGuardControl.Proofs.Time
/-!
Devices and updates read back from their JSON.

* `restores_key`, `restores_endpoint`, `restores_network`: what is written as a text.
* `restores_interval`, `restores_instant`: what is written as seconds and nanoseconds.
* `restores_device`, `restores_config`: devices and updates, field by field.
* `lossless`: their JSON says all of them but for the flow information of endpoints.
-/

namespace WireGuardControl.Json

open Text Codec

/-! ### Words -/

lemma restores_text (s : String) : text.Restores s :=
  restores_spelled (congrArg some String.ofList_toList)

/-- What has an image among the natural numbers up to a limit is restored from there. -/
lemma restores_natural_via {β : Type} {limit : ℕ} {f : β → ℕ} {g : ℕ → Option β} {b : β}
    (hlimit : limit < UInt64.size) (hb : f b ≤ limit) (hg : g (f b) = some b) :
    ((natural limit).via f g).Restores b :=
  (restores_natural hb (hb.trans_lt hlimit)).via hg

lemma restores_word16 (x : UInt16) : word16.Restores x :=
  restores_natural_via (by decide) (Nat.le_sub_one_of_lt x.toNat_lt_size)
    (congrArg some UInt16.ofNat_toNat)

lemma restores_word32 (x : UInt32) : word32.Restores x :=
  restores_natural_via (by decide) (Nat.le_sub_one_of_lt x.toNat_lt_size)
    (congrArg some UInt32.ofNat_toNat)

lemma restores_word64 (x : UInt64) : word64.Restores x :=
  restores_natural_via (by decide) (Nat.le_sub_one_of_lt x.toNat_lt_size)
    (congrArg some UInt64.ofNat_toNat)

/-! ### Texts -/

lemma text_spelled {β : Type} (f : β → String) (g : List Char → Option β) (b : β) :
    (spelled f g).text b = .ok (quoted (f b).toList) := by
  have hwrite : (spelled f g).write b = .ok (.string (String.ofList (f b).toList)) := rfl
  rw [Codec.text, hwrite, String.ofList_toList, Except.map, Value.compact]

lemma restores_key (k : Key) : key.Restores k := by
  refine restores_spelled ?_
  have hread : Key.ofBase64 k.base64.toList = .ok k :=
    ((Key.judges_ofBase64 _).ok_iff k).mpr (by rw [Key.base64, String.toList_ofList])
  rw [hread]
  rfl

lemma restores_endpoint {e : Endpoint} (h : e.withoutFlow = e) : endpoint.Restores e := by
  refine restores_spelled ?_
  rw [Endpoint.text, String.toList_ofList, Endpoint.read?_chars, h]

lemma restores_network (n : Network) : network.Restores n := by
  refine restores_spelled ?_
  rw [Network.text, String.toList_ofList, Network.read?_chars]

lemma restores_deviceType (t : DeviceType) : deviceType.Restores t := by
  cases t <;> exact restores_choice (by decide) (by decide)

/-! ### Time -/

lemma interval?_ofInterval (i : Interval) : (Span.ofInterval i).interval? = some i := by
  have hnanos := i.nanoseconds.isLt
  have hword : (UInt32.ofNat i.nanoseconds.val).toNat = i.nanoseconds.val :=
    UInt32.toNat_ofNat_of_lt (hnanos.trans (by decide))
  have hseconds := i.seconds.toNat_lt
  simp only [Span.interval?, Span.ofInterval, hword, Nat.div_eq_of_lt hnanos,
    Nat.mod_eq_of_lt hnanos, Nat.add_zero, UInt64.ofNat_toNat]
  exact if_pos hseconds

lemma restores_span {seconds nanoseconds : String} (h : seconds ≠ nanoseconds) (i : Interval) :
    (span seconds nanoseconds).codec.Restores (Span.ofInterval i) := by
  refine Record.restores_codec (List.nodup_cons.mpr ⟨?_, List.nodup_singleton _⟩)
    (.cons (Field.carries_of (restores_word64 _)) <|
      .cons (Field.carries_of (restores_word32 _)) .nil) rfl ?_
  · exact fun hmem => h (List.mem_singleton.mp hmem)
  · exact congrArg Option.isSome (interval?_ofInterval i)

lemma restores_interval (i : Interval) : interval.Restores i :=
  (restores_span (by decide) i).via (interval?_ofInterval i)

lemma restores_age (i : Interval) : age.Restores i :=
  (restores_span (by decide) i).via (interval?_ofInterval i)

/-- **An instant that is not before the epoch is restored.** -/
lemma restores_instant {t : Instant} (h : 0 ≤ t.seconds) : instant.Restores t := by
  obtain ⟨v, hwrite, hread⟩ := restores_age ⟨t.seconds.toUInt64, t.nanoseconds⟩
  have hsince : t.sinceEpoch? = some ⟨t.seconds.toUInt64, t.nanoseconds⟩ := if_pos h
  have hseconds : t.seconds.toUInt64.toNat ≤ Instant.maxSeconds := by
    have hlt := t.seconds.toInt_lt
    rw [Instant.toNat_toUInt64 (Int64.le_iff_toInt_le.mp h), Instant.maxSeconds]
    omega
  have hepoch : Instant.ofEpoch? t.seconds.toUInt64 t.nanoseconds = some t := by
    rw [Instant.ofEpoch?, if_pos hseconds, Int64.toInt64_toUInt64]
  refine ⟨v, ?_, hread.checked hepoch⟩
  simp only [instant, hsince, hwrite]

/-! ### Absence -/

lemma neverNull_codec {σ : Type} (r : Record σ) : r.codec.NeverNull := by
  intro x h
  obtain ⟨members, -, hnull⟩ := map_eq_ok h
  cases hnull

lemma neverNull_interval : interval.NeverNull := (neverNull_codec _).via _ _

lemma neverNull_instant : instant.NeverNull := by
  intro t h
  simp only [instant] at h
  split at h
  · exact (neverNull_codec _).via _ _ _ h
  · cases h

/-- An endpoint that is there is restored if it has no flow information. -/
lemma restores_endpoint_optional {o : Option Endpoint}
    (h : ∀ x port flow scope, o = some (.v6 x port flow scope) → flow = 0) :
    endpoint.optional.Restores o := by
  refine Restores.optional (neverNull_spelled _ _) fun e he => restores_endpoint ?_
  cases e with
  | v4 x port => rfl
  | v6 x port flow scope =>
      obtain rfl := h x port flow scope he
      rfl

/-! ### Devices and updates -/

lemma restores_peer {p : Peer}
    (hflow : ∀ x port flow scope, p.endpoint = some (.v6 x port flow scope) → flow = 0)
    (htime : ∀ t, p.lastHandshake = some t → 0 ≤ t.seconds) : peer.Restores p :=
  Record.restores_codec (by decide)
    (.cons (Field.carries_of (restores_key _)) <|
      .cons (Field.carries_of (restores_key _)) <|
      .cons (Field.carries_of (restores_endpoint_optional hflow)).leftOut <|
      .cons (Field.carries_of (restores_interval _)) <|
      .cons (Field.carries_of
        (.optional neverNull_instant fun t ht => restores_instant (htime t ht))).leftOut <|
      .cons (Field.carries_of (restores_word64 _)) <|
      .cons (Field.carries_of (restores_word64 _)) <|
      .cons (Field.carries_of (.list fun n _ => restores_network n)) <|
      .cons (Field.carries_of (restores_word32 _)) .nil) rfl rfl

/-- **A device is restored** if its peers are. -/
lemma restores_device {d : Device} (h : ∀ p ∈ d.peers, peer.Restores p) : device.Restores d :=
  Record.restores_codec (by decide)
    (.cons (Field.carries_of (restores_text _)) <|
      .cons (Field.carries_of (restores_deviceType _)) <|
      .cons (Field.carries_of (restores_key _)) <|
      .cons (Field.carries_of (restores_key _)) <|
      .cons (Field.carries_of (restores_word16 _)) <|
      .cons (Field.carries_of (restores_word32 _)) <|
      .cons (Field.carries_of (.list h)) .nil) rfl rfl

lemma restores_peerConfig {p : PeerConfig}
    (hflow : ∀ x port flow scope, p.endpoint = some (.v6 x port flow scope) → flow = 0) :
    peerConfig.Restores p :=
  Record.restores_codec (by decide)
    (.cons (Field.carries_of (restores_key _)) <|
      .cons (Field.carries_of (restores_bool _)) <|
      .cons (Field.carries_of (restores_bool _)) <|
      .cons (Field.carries_of
        (.optional (neverNull_spelled _ _) fun k _ => restores_key k)).leftOut <|
      .cons (Field.carries_of (restores_endpoint_optional hflow)).leftOut <|
      .cons (Field.carries_of
        (.optional neverNull_interval fun i _ => restores_interval i)).leftOut <|
      .cons (Field.carries_of (restores_bool _)) <|
      .cons (Field.carries_of (.list fun n _ => restores_network n)) .nil) rfl rfl

/-- **An update is restored** if the updates of its peers are. -/
lemma restores_config {c : Config} (h : ∀ p ∈ c.peers, peerConfig.Restores p) :
    config.Restores c :=
  Record.restores_codec (by decide)
    (.cons (Field.carries_of
        (.optional (neverNull_spelled _ _) fun k _ => restores_key k)).leftOut <|
      .cons (Field.carries_of
        (.optional ((neverNull_natural _).via _ _) fun x _ => restores_word16 x)).leftOut <|
      .cons (Field.carries_of
        (.optional ((neverNull_natural _).via _ _) fun x _ => restores_word32 x)).leftOut <|
      .cons (Field.carries_of (restores_bool _)) <|
      .cons (Field.carries_of (.list h)) .nil) rfl rfl

/-- **The JSON of updates and devices is lossless.** An update without flow information has a text
that reads back as the same update, and so has a device without flow information whose handshakes
are not before the epoch. Keys, endpoints and networks stand there as they are written
everywhere else. -/
theorem lossless :
    (∀ c : Config,
      (∀ p ∈ c.peers, ∀ x port flow scope,
        p.endpoint = some (.v6 x port flow scope) → flow = 0) →
      ∃ s, config.text c = .ok s ∧ config.parse s = .ok c) ∧
    (∀ d : Device,
      (∀ p ∈ d.peers, ∀ x port flow scope,
        p.endpoint = some (.v6 x port flow scope) → flow = 0) →
      (∀ p ∈ d.peers, ∀ t, p.lastHandshake = some t → 0 ≤ t.seconds) →
      ∃ s, device.text d = .ok s ∧ device.parse s = .ok d) ∧
    (∀ k : Key, key.text k = .ok (quoted k.base64.toList)) ∧
    (∀ e : Endpoint, endpoint.text e = .ok (quoted e.text.toList)) ∧
    ∀ n : Network, network.text n = .ok (quoted n.text.toList) :=
  ⟨fun _ hflow => (restores_config fun p hp => restores_peerConfig (hflow p hp)).parse,
    fun _ hflow htime =>
      (restores_device fun p hp => restores_peer (hflow p hp) (htime p hp)).parse,
    text_spelled _ _, text_spelled _ _, text_spelled _ _⟩

/-- A name with marks, controls and characters beyond the first plane, the greatest numbers, an
endpoint with a scope, networks with host bits and times with nanoseconds. A port of zero is told
apart from no port. -/
theorem lossless_unicode :
    let key : Key := ⟨List.replicate 32 7, rfl⟩
    let local6 : Endpoint := .v6 ⟨[0xFE80, 0, 0, 0, 0, 0, 0, 1], rfl⟩ 51820 0 3
    let networks : List Network := [.v4 ⟨10, 1, 2, 3⟩ 8, .v6 ⟨[1, 0, 0, 2, 0, 0, 0, 3], rfl⟩ 64]
    let c : Config :=
      { listenPort := some 0
        peers :=
          [{ publicKey := key
             presharedKey := some Key.zero
             endpoint := some local6
             keepalive := some ⟨0, 1⟩
             allowedIps := networks }, {}] }
    let portless : Config := { c with listenPort := none }
    let d : Device :=
      { name := "w\"\\\x07\n\x7f\u2028é😀"
        deviceType := .openBsdKernel
        publicKey := key
        listenPort := 65535
        peers :=
          [{ publicKey := key
             endpoint := some local6
             keepalive := ⟨18446744073709551615, 999999999⟩
             lastHandshake := some ⟨1700000000, 5⟩
             receivedBytes := 18446744073709551615
             allowedIps := networks }, {}] }
    (∀ p ∈ c.peers, ∀ x port flow scope,
        p.endpoint = some (.v6 x port flow scope) → flow = 0) ∧
      (∀ p ∈ d.peers, ∀ x port flow scope,
        p.endpoint = some (.v6 x port flow scope) → flow = 0) ∧
      (∀ p ∈ d.peers, ∀ t, p.lastHandshake = some t → 0 ≤ t.seconds) ∧
      (∃ s, config.text c = .ok s ∧ config.parse s = .ok c) ∧
      config.text portless ≠ config.text c ∧
      ∃ s, device.text d = .ok s ∧ device.parse s = .ok d := by
  intro key local6 networks c portless d
  have hc : ∀ p ∈ c.peers, ∀ x port flow scope,
      p.endpoint = some (.v6 x port flow scope) → flow = 0 := by
    intro p hp x port flow scope he
    rcases List.mem_pair.mp hp with rfl | rfl
    · exact (Endpoint.v6.inj (Option.some.inj he)).2.2.1.symm
    · cases he
  have hd : ∀ p ∈ d.peers, ∀ x port flow scope,
      p.endpoint = some (.v6 x port flow scope) → flow = 0 := by
    intro p hp x port flow scope he
    rcases List.mem_pair.mp hp with rfl | rfl
    · exact (Endpoint.v6.inj (Option.some.inj he)).2.2.1.symm
    · cases he
  have htime : ∀ p ∈ d.peers, ∀ t, p.lastHandshake = some t → 0 ≤ t.seconds := by
    intro p hp t ht
    rcases List.mem_pair.mp hp with rfl | rfl
    · rw [← Option.some.inj ht]
      decide
    · cases ht
  have hread := lossless.1 c hc
  refine ⟨hc, hd, htime, hread, fun hsame => ?_, lossless.2.1 d hd htime⟩
  obtain ⟨s, hs, hparse⟩ := hread
  obtain ⟨t, ht, hportless⟩ := lossless.1 portless hc
  obtain rfl : t = s := Except.ok.inj (ht.symm.trans (hsame.trans hs))
  have hequal : portless = c := Except.ok.inj (hportless.symm.trans hparse)
  cases congrArg Config.listenPort hequal

end WireGuardControl.Json
