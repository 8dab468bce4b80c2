import Mathlib.Tactic
import WireGuardControl.OpenBsd.Record
import WireGuardControl.Proofs.Netlink.Merging
import WireGuardControl.Proofs.Uapi.Grammar
/-!
The keys of the peers of a device, and what gave them.

* `Keyed`: the keys of peers are those that were given, where one that was not given is taken to be
  zero. `Keyed.identified_iff`: when these keys identify the peers.
* `Netlink.keysOfDump`: the keys that the messages of an answer give, one for each peer.
  `Netlink.keyed_of_readDevice` follows one message and `Netlink.keyed_foldl_addPeer` the reports
  behind it; `Netlink.nodup_foldl_noteKey`: only the first message can repeat a key.
* `OpenBsd.keysOf`, `Uapi.keysOf`: the keys that a row of records and the lines of a response give.
* `peers_identified_iff`: when the peers that are read are identified by their keys.
-/

namespace WireGuardControl

/-! ### Keys -/

/-- The keys of peers as they are read, where `given` holds for each peer the key that its data
give. -/
def Keyed (peers : List Peer) (given : List (Option Key)) : Prop :=
  peers.map (·.publicKey) = given.map (·.getD Key.zero)

/-- The keys of peers are distinct, and each of them was given. -/
def Identified (peers : List Peer) (given : List (Option Key)) : Prop :=
  (peers.map (·.publicKey)).Nodup ∧ given = (peers.map (·.publicKey)).map some

lemma map_some_getD {given : List (Option Key)} (h : none ∉ given) :
    (given.map (·.getD Key.zero)).map some = given := by
  rw [List.map_map]
  conv_rhs => rw [← List.map_id given]
  refine List.map_congr_left fun k hk => ?_
  obtain ⟨key, rfl⟩ := Option.ne_none_iff_exists'.mp fun hnone : k = none => h (hnone ▸ hk)
  rfl

/-- **Peers are identified** exactly if each of them was given a key, and these are distinct. -/
lemma Keyed.identified_iff {peers : List Peer} {given : List (Option Key)} (h : Keyed peers given) :
    Identified peers given ↔ none ∉ given ∧ given.Nodup := by
  rw [Identified, h]
  constructor
  · rintro ⟨hkeys, hgiven⟩
    rw [hgiven]
    exact ⟨by simp, hkeys.map (Option.some_injective Key)⟩
  · rintro ⟨hnone, hgiven⟩
    have hsome := map_some_getD hnone
    exact ⟨.of_map some (hsome.symm ▸ hgiven), hsome.symm⟩

/-! ### Messages of the Linux kernel -/

namespace Netlink

/-- The last attribute of a kind. -/
def lastOf (kind : UInt16) (items : List Attribute) : Option Attribute :=
  (items.filter (·.kind = kind)).getLast?

lemma lastOf_cons (kind : UInt16) (a : Attribute) (rest : List Attribute) :
    lastOf kind (a :: rest) = (lastOf kind rest).or (if a.kind = kind then some a else none) := by
  rw [lastOf, lastOf, List.filter_cons]
  split_ifs with h h' h'
  · rw [List.getLast?_cons]
    cases (rest.filter (·.kind = kind)).getLast? <;> rfl
  · exact absurd (of_decide_eq_true h) h'
  · exact absurd (decide_eq_true h') h
  · rw [Option.or_none]

/-- If only attributes of one kind change what a state shows, and then to what they hold, then
behind a run it shows what the last of them holds. -/
lemma shows_lastOf {σ β : Type} {f : σ → Attribute → Except Error σ} {kind : UInt16} (view : σ → β)
    (held : Attribute → Option β)
    (hkind : ∀ {s a s'}, f s a = .ok s' → a.kind = kind → held a = some (view s'))
    (hother : ∀ {s a s'}, f s a = .ok s' → a.kind ≠ kind → view s' = view s)
    {items : List Attribute} {s s' : σ} (h : items.foldlM f s = .ok s') :
    (lastOf kind items).elim (some (view s)) held = some (view s') := by
  induction items generalizing s with
  | nil =>
      obtain rfl := Except.ok.inj h
      rfl
  | cons a rest ih =>
      rw [List.foldlM_cons] at h
      obtain ⟨s₁, ha, hrest⟩ := Except.bind_eq_ok_iff.mp h
      have hlast := ih hrest
      rw [lastOf_cons]
      cases hrest' : lastOf kind rest with
      | some b =>
          rw [hrest'] at hlast
          exact hlast
      | none =>
          rw [hrest'] at hlast
          split_ifs with hk
          · exact (hkind ha hk).trans hlast
          · exact (congrArg some (hother ha hk).symm).trans hlast

lemma foldM_eq_ok {σ : Type} {f : σ → Attribute → Except Error σ} {xs : Attributes} {s s' : σ}
    (h : xs.foldM f s = .ok s') : xs.items.foldlM f s = .ok s' := by
  obtain ⟨t, ht, h⟩ := Except.bind_eq_ok_iff.mp h
  obtain ⟨_, -, h⟩ := Except.bind_eq_ok_iff.mp h
  rw [ht, Except.ok.inj h]

/-- The key that an entry of the array of peers gives. -/
def keyIn (entry : Attribute) : Option Key :=
  (lastOf PeerField.publicKey entry.children.items).bind fun a => a.key.toOption

/-- The keys that a message gives, one for each entry of its last array of peers. -/
def keysIn (data : Bytes) : List (Option Key) :=
  (lastOf DeviceField.peers (Attributes.ofBytes data).items).elim [] fun a =>
    a.children.items.map keyIn

lemma peerStep_of_key {p p' : Peer} {a : Attribute} (h : peerStep p a = .ok p')
    (ha : a.kind = PeerField.publicKey) : a.key.toOption = some p'.publicKey := by
  rw [peerStep, if_pos ha] at h
  obtain ⟨key, hkey, h⟩ := Except.bind_eq_ok_iff.mp h
  obtain rfl := Except.ok.inj h
  rw [hkey]
  rfl

lemma peerStep_of_other {p p' : Peer} {a : Attribute} (h : peerStep p a = .ok p')
    (ha : a.kind ≠ PeerField.publicKey) : p'.publicKey = p.publicKey := by
  rw [peerStep, if_neg ha] at h
  split_ifs at h
  all_goals
    first
      | obtain rfl := Except.ok.inj h; rfl
      | obtain ⟨_, -, h⟩ := Except.bind_eq_ok_iff.mp h
        obtain rfl := Except.ok.inj h
        rfl

lemma key_of_readPeer {entry : Attribute} {p : Peer} (h : readPeer entry = .ok p) :
    p.publicKey = (keyIn entry).getD Key.zero := by
  have hlast := shows_lastOf Peer.publicKey (fun a => a.key.toOption) peerStep_of_key
    peerStep_of_other (foldM_eq_ok h)
  rw [keyIn]
  cases hkey : lastOf PeerField.publicKey entry.children.items with
  | none =>
      rw [hkey] at hlast
      exact (Option.some.inj hlast).symm
  | some a =>
      rw [hkey] at hlast
      rw [Option.bind_some]
      exact (congrArg (·.getD Key.zero) hlast).symm

lemma keys_of_mapM {entries : List Attribute} {ps : List Peer}
    (h : entries.mapM readPeer = .ok ps) :
    ps.map (·.publicKey) = entries.map fun entry => (keyIn entry).getD Key.zero := by
  induction entries generalizing ps with
  | nil =>
      obtain rfl := Except.ok.inj h
      rfl
  | cons entry entries ih =>
      rw [List.mapM_cons] at h
      obtain ⟨p, hp, h⟩ := Except.bind_eq_ok_iff.mp h
      obtain ⟨later, hlater, h⟩ := Except.bind_eq_ok_iff.mp h
      obtain rfl := Except.ok.inj h
      rw [List.map_cons, List.map_cons, key_of_readPeer hp, ih hlater]

lemma deviceStep_of_peers {d d' : Device} {a : Attribute} (h : deviceStep d a = .ok d')
    (ha : a.kind = DeviceField.peers) :
    some (a.children.items.map fun entry => (keyIn entry).getD Key.zero) =
      some (d'.peers.map (·.publicKey)) := by
  rw [deviceStep, ha] at h
  iterate 5 rw [if_neg (by decide)] at h
  rw [if_pos rfl] at h
  obtain ⟨ps, hps, h⟩ := Except.bind_eq_ok_iff.mp h
  obtain rfl := Except.ok.inj h
  obtain ⟨qs, hqs, hps⟩ := Except.bind_eq_ok_iff.mp hps
  obtain ⟨_, -, hps⟩ := Except.bind_eq_ok_iff.mp hps
  obtain rfl := Except.ok.inj hps
  exact congrArg some (keys_of_mapM hqs).symm

lemma deviceStep_of_other {d d' : Device} {a : Attribute} (h : deviceStep d a = .ok d')
    (ha : a.kind ≠ DeviceField.peers) :
    d'.peers.map (·.publicKey) = d.peers.map (·.publicKey) := by
  rw [deviceStep] at h
  split_ifs at h
  all_goals
    first
      | obtain rfl := Except.ok.inj h; rfl
      | obtain ⟨_, -, h⟩ := Except.bind_eq_ok_iff.mp h
        obtain rfl := Except.ok.inj h
        rfl

/-- **The peers of one message** have the keys that the message gives. -/
lemma keyed_of_readDevice {data : Bytes} {d : Device} (h : readDevice data = .ok d) :
    Keyed d.peers (keysIn data) := by
  have hlast := shows_lastOf (fun d : Device => d.peers.map (·.publicKey))
    (fun a => some (a.children.items.map fun entry => (keyIn entry).getD Key.zero))
    deviceStep_of_peers deviceStep_of_other (foldM_eq_ok h)
  rw [Keyed, keysIn]
  cases hpeers : lastOf DeviceField.peers (Attributes.ofBytes data).items with
  | none =>
      rw [hpeers] at hlast
      exact (Option.some.inj hlast).symm
  | some a =>
      rw [hpeers] at hlast
      rw [Option.elim_some, List.map_map]
      exact (Option.some.inj hlast).symm

/-- Notes the key of one report more: a new one is appended. -/
def noteKey (known : List (Option Key)) (key : Option Key) : List (Option Key) :=
  if key.getD Key.zero ∈ known.map (·.getD Key.zero) then known else known ++ [key]

/-- The keys that the messages of an answer give, one for each peer: those of the first message,
and of the others those that are new. -/
def keysOfDump : List Bytes → List (Option Key)
  | [] => []
  | first :: rest => (rest.flatMap keysIn).foldl noteKey (keysIn first)

lemma map_modify_of_eq {α β : Type} {f : α → α} {g : α → β} (h : ∀ a, g (f a) = g a) (i : ℕ)
    (xs : List α) : (xs.modify i f).map g = xs.map g := by
  induction xs generalizing i with
  | nil => rw [List.modify_nil]
  | cons x xs ih =>
      cases i with
      | zero => rw [List.modify_zero_cons, List.map_cons, List.map_cons, h]
      | succ i => rw [List.modify_succ_cons, List.map_cons, List.map_cons, ih]

/-- The step: a report of a known key leaves the keys as they are, and a new one is appended. -/
lemma keys_addPeer (peers : List Peer) (p : Peer) :
    (addPeer peers p).map (·.publicKey) =
      if p.publicKey ∈ peers.map (·.publicKey) then peers.map (·.publicKey)
      else peers.map (·.publicKey) ++ [p.publicKey] := by
  by_cases hp : p.publicKey ∈ peers.map (·.publicKey)
  · rw [if_pos hp, addPeer]
    split
    · exact map_modify_of_eq (f := fun q => gain q p) (fun _ => rfl) _ _
    · next hnone =>
        obtain ⟨q, hq, hkey⟩ := List.mem_map.mp hp
        have hother := List.findIdx?_eq_none_iff.mp hnone q (List.mem_reverse.mpr hq)
        exact absurd hkey (of_decide_eq_false hother)
  · rw [if_neg hp, addPeer_of_notMem hp, List.map_append, List.map_singleton]

lemma keyed_addPeer {peers : List Peer} {known : List (Option Key)} (h : Keyed peers known)
    {p : Peer} {key : Option Key} (hp : p.publicKey = key.getD Key.zero) :
    Keyed (addPeer peers p) (noteKey known key) := by
  rw [Keyed, keys_addPeer, h, hp, noteKey]
  split_ifs
  · rfl
  · rw [List.map_append, List.map_singleton]

/-- The run: any number of reports. -/
lemma keyed_foldl_addPeer {peers reports : List Peer} {known given : List (Option Key)}
    (h : Keyed peers known) (hreports : Keyed reports given) :
    Keyed (reports.foldl addPeer peers) (given.foldl noteKey known) := by
  induction reports generalizing peers known given with
  | nil =>
      obtain rfl := List.map_eq_nil_iff.mp hreports.symm
      exact h
  | cons p reports ih =>
      obtain ⟨key, later, rfl, hkey, hlater⟩ := List.map_eq_cons_iff.mp hreports.symm
      rw [List.foldl_cons, List.foldl_cons]
      exact ih (keyed_addPeer h hkey.symm) hlater.symm

/-- **The peers of an answer** have the keys that its messages give. -/
lemma keyed_of_ofDump {messages : List Bytes} {d : Device} (h : ofDump messages = .ok d) :
    Keyed d.peers (keysOfDump messages) := by
  cases messages with
  | nil => cases h
  | cons first rest =>
      obtain ⟨d₀, hfirst, hrest⟩ := Except.bind_eq_ok_iff.mp h
      have hkeyed := keyed_of_readDevice hfirst
      rw [keysOfDump]
      generalize keysIn first = known at hkeyed
      clear hfirst h
      induction rest generalizing d₀ known with
      | nil =>
          obtain rfl := Except.ok.inj hrest
          exact hkeyed
      | cons data rest ih =>
          rw [mergeAll, List.foldlM_cons] at hrest
          obtain ⟨d₁, hd₁, hrest⟩ := Except.bind_eq_ok_iff.mp hrest
          obtain ⟨fragment, hfragment, rfl⟩ := Except.map_eq_ok_iff.mp hd₁
          rw [List.flatMap_cons, List.foldl_append]
          exact ih _ hrest _ (keyed_foldl_addPeer hkeyed (keyed_of_readDevice hfragment))

/-- Reports of peers leave distinct keys distinct, and other keys not. -/
lemma nodup_foldl_noteKey (given known : List (Option Key)) :
    ((given.foldl noteKey known).map (·.getD Key.zero)).Nodup ↔
      (known.map (·.getD Key.zero)).Nodup := by
  induction given generalizing known with
  | nil => rfl
  | cons key given ih =>
      rw [List.foldl_cons, ih, noteKey]
      split_ifs with hkey
      · rfl
      · rw [List.map_append, List.map_singleton, ← List.concat_eq_append, List.nodup_concat]
        exact and_iff_right hkey

end Netlink

/-! ### Records of the OpenBSD driver -/

namespace OpenBsd

lemma publicKey_within_record : 8 + 32 ≤ peerLength := by decide

/-- The key that the record of a peer gives. -/
def keyIn (record : Block peerLength) : Option Key :=
  if Bytes.toUInt32LE (record.field 0 4) &&& peerHasPublicKey = 0 then none
  else some (keyAt record 8 publicKey_within_record)

/-- The keys that the records of `count` peers give, each of which its networks follow. -/
def keysIn : (count : ℕ) → Bytes → List (Option Key)
  | 0, _ => []
  | count + 1, b =>
      match Block.split? peerLength b with
      | none => []
      | some (record, rest) =>
          let networks := Bytes.toNatLE (record.field 136 8)
          keyIn record :: keysIn count (rest.drop (networkLength * networks))

/-- The keys that the records of a device give, one for each peer. -/
def keysOf (b : Bytes) : List (Option Key) :=
  match Block.split? interfaceLength b with
  | none => []
  | some (record, rest) => keysIn (Bytes.toNatLE (record.field 72 8)) rest

lemma split?_of_takeRecord {n : ℕ} {what : String} {b : Bytes} {split : Block n × Bytes}
    (h : takeRecord n what b = .ok split) : Block.split? n b = some split := by
  rw [takeRecord] at h
  split at h
  · next found => rw [found, Except.ok.inj h]
  · cases h

lemma rest_of_split? {n : ℕ} {b rest : Bytes} {record : Block n}
    (h : Block.split? n b = some (record, rest)) : rest = b.drop n := by
  rw [Block.split?] at h
  split_ifs at h
  exact (Prod.mk.inj (Option.some.inj h)).2.symm

lemma rest_of_readNetworks {count : ℕ} {b rest : Bytes} {ns : List Network}
    (h : readNetworks count b = .ok (ns, rest)) : rest = b.drop (networkLength * count) := by
  induction count generalizing b ns with
  | zero =>
      obtain ⟨-, rfl⟩ := Prod.mk.inj (Except.ok.inj h)
      rfl
  | succ count ih =>
      rw [readNetworks] at h
      obtain ⟨⟨record, next⟩, htake, h⟩ := Except.bind_eq_ok_iff.mp h
      obtain ⟨n, -, h⟩ := Except.bind_eq_ok_iff.mp h
      obtain ⟨⟨later, last⟩, hlater, h⟩ := Except.bind_eq_ok_iff.mp h
      obtain ⟨-, rfl⟩ := Prod.mk.inj (Except.ok.inj h)
      rw [ih hlater, rest_of_split? (split?_of_takeRecord htake), List.drop_drop, Nat.mul_succ,
        Nat.add_comm]

lemma key_of_readPeerRecord {record : Block peerLength} {p : Peer}
    (h : readPeerRecord record = .ok p) : p.publicKey = (keyIn record).getD Key.zero := by
  rw [readPeerRecord] at h
  by_cases hversion : Bytes.toInt32LE (record.field 4 4) < 0
  · rw [if_pos hversion] at h
    cases h
  · rw [if_neg hversion] at h
    -- with an endpoint or without, and whatever else the flags name, the key is read in one way
    split_ifs at h
    all_goals
      obtain ⟨_, -, h⟩ := Except.bind_eq_ok_iff.mp h
      obtain ⟨_, -, h⟩ := Except.bind_eq_ok_iff.mp h
      obtain rfl := Except.ok.inj h
      rw [keyIn]
      split_ifs
      rfl

/-- A run over peers gives the keys of their records. -/
lemma keyed_of_readPeers {count : ℕ} {b rest : Bytes} {ps : List Peer}
    (h : readPeers count b = .ok (ps, rest)) : Keyed ps (keysIn count b) := by
  induction count generalizing b rest ps with
  | zero =>
      obtain ⟨rfl, -⟩ := Prod.mk.inj (Except.ok.inj h)
      rfl
  | succ count ih =>
      rw [readPeers] at h
      obtain ⟨⟨p, next⟩, hp, h⟩ := Except.bind_eq_ok_iff.mp h
      obtain ⟨⟨later, last⟩, hlater, h⟩ := Except.bind_eq_ok_iff.mp h
      obtain ⟨rfl, -⟩ := Prod.mk.inj (Except.ok.inj h)
      rw [readPeer] at hp
      obtain ⟨⟨record, behind⟩, htake, hp⟩ := Except.bind_eq_ok_iff.mp hp
      obtain ⟨q, hq, hp⟩ := Except.bind_eq_ok_iff.mp hp
      obtain ⟨⟨networks, next'⟩, hnetworks, hp⟩ := Except.bind_eq_ok_iff.mp hp
      obtain ⟨rfl, rfl⟩ := Prod.mk.inj (Except.ok.inj hp)
      rw [keysIn, split?_of_takeRecord htake]
      simp only [Keyed, List.map_cons]
      rw [key_of_readPeerRecord hq, ← rest_of_readNetworks hnetworks, ih hlater]

/-- **The peers of a device** have the keys that its records give. -/
lemma keyed_of_readDevice {name : String} {b : Bytes} {d : Device}
    (h : readDevice name b = .ok d) : Keyed d.peers (keysOf b) := by
  obtain ⟨⟨record, rest⟩, htake, h⟩ := Except.bind_eq_ok_iff.mp h
  obtain ⟨d₀, -, h⟩ := Except.bind_eq_ok_iff.mp h
  obtain ⟨⟨peers, last⟩, hpeers, h⟩ := Except.bind_eq_ok_iff.mp h
  obtain rfl := Except.ok.inj h
  rw [keysOf, split?_of_takeRecord htake]
  exact keyed_of_readPeers hpeers

end OpenBsd

/-! ### Responses of programs -/

namespace Uapi

/-- The keys that the lines of a response give, one for each peer. -/
def keysOf (response : List Char) : List (Option Key) :=
  (blocks ((Pairs.body response).map Line.ofText)).map fun b => key? b.key

/-- **The peers of a device** have the keys that the lines of the response give, and each of them
is given one. -/
lemma keyed_of_readGet {name : String} {response : List Char} {d : Device}
    (h : readGet name response = .ok d) :
    Keyed d.peers (keysOf response) ∧ none ∉ keysOf response := by
  obtain ⟨haccepted, rfl⟩ := readGet_eq_ok_iff_accepted.mp h
  constructor
  · rw [Keyed, keysOf, deviceOf, List.map_map, List.map_map]
    rfl
  · rw [keysOf, List.mem_map]
    rintro ⟨b, hb, hnone⟩
    have hkey := (haccepted.describes.peers b hb).key
    rw [hnone] at hkey
    cases hkey

end Uapi

/-! ### Peers and their keys -/

/-- **What identifies the peers of a device.** Each peer that is read from messages, records or
lines has the key that its data give, and the key zero if they give none. So the keys are distinct,
and none of them is made up, exactly if the data give every peer a key and no key to two of them.
Lines always give a peer a key. Of the messages of an answer the first one decides whether the keys
are distinct, since peers of the others are merged into those that are known. -/
theorem peers_identified_iff (d : Device) :
    (∀ messages, Netlink.ofDump messages = .ok d →
      let given := Netlink.keysOfDump messages
      Keyed d.peers given ∧ (Identified d.peers given ↔ none ∉ given ∧ given.Nodup)) ∧
    (∀ first rest, Netlink.ofDump (first :: rest) = .ok d →
      ((d.peers.map (·.publicKey)).Nodup ↔
        ((Netlink.keysIn first).map (·.getD Key.zero)).Nodup)) ∧
    (∀ name b, OpenBsd.readDevice name b = .ok d →
      let given := OpenBsd.keysOf b
      Keyed d.peers given ∧ (Identified d.peers given ↔ none ∉ given ∧ given.Nodup)) ∧
    ∀ name response, Uapi.readGet name response = .ok d →
      let given := Uapi.keysOf response
      Keyed d.peers given ∧ (Identified d.peers given ↔ given.Nodup) := by
  refine ⟨fun messages h => ?_, fun first rest h => ?_, fun name b h => ?_,
    fun name response h => ?_⟩
  · have hkeyed := Netlink.keyed_of_ofDump h
    exact ⟨hkeyed, hkeyed.identified_iff⟩
  · rw [Netlink.keyed_of_ofDump h]
    exact Netlink.nodup_foldl_noteKey _ _
  · have hkeyed := OpenBsd.keyed_of_readDevice h
    exact ⟨hkeyed, hkeyed.identified_iff⟩
  · obtain ⟨hkeyed, hnone⟩ := Uapi.keyed_of_readGet h
    exact ⟨hkeyed, hkeyed.identified_iff.trans (and_iff_right hnone)⟩

section Given

variable (keys : List (Option Key))

/-- The message of a device with one peer for each key, or with one without a key. -/
def messageOf : Bytes :=
  let entry : Option Key → Bytes := fun
    | some key => [40, 0, 0, 128, 36, 0, 1, 0] ++ key.bytes
    | none => [4, 0, 0, 128]
  [UInt8.ofNat (4 + (keys.flatMap entry).length), 0, 8, 128] ++ keys.flatMap entry

/-- The records of a device with one peer for each key, or with one without a key. -/
def recordsOf : Bytes :=
  let record : Option Key → Bytes := fun
    | some key => [1, 0, 0, 0, 0, 0, 0, 0] ++ key.bytes ++ List.replicate 104 0
    | none => List.replicate 144 0
  List.replicate 72 0 ++ Bytes.ofNatLE 8 keys.length ++ keys.flatMap record

/-- The response of a device with one peer for each key. -/
def responseAbout (keys : List Key) : List Char :=
  keys.flatMap (fun key => "public_key=".toList ++ key.hexChars ++ ['\n']) ++
    "errno=0\n\n".toList

end Given

/-- A key that is not zero. -/
def sevens : Key := ⟨List.replicate 32 7, rfl⟩

/-- Two peers, one of them with an explicit key zero. In the messages one of them is reported
again. -/
theorem peers_identified_iff_zero :
    let keys := [some sevens, some Key.zero]
    let peers : List Peer := [{ publicKey := sevens }, {}]
    let messages := [messageOf [some sevens], messageOf keys]
    (Netlink.ofDump messages = .ok { deviceType := .linuxKernel, peers := peers } ∧
      (peers.map (·.publicKey)).Nodup ∧ Identified peers (Netlink.keysOfDump messages)) ∧
    (OpenBsd.readDevice "wg0" (recordsOf keys) =
        .ok { name := "wg0", deviceType := .openBsdKernel, peers := peers } ∧
      Identified peers (OpenBsd.keysOf (recordsOf keys))) ∧
    (Uapi.readGet "wg0" (responseAbout [sevens, Key.zero]) =
        .ok { name := "wg0", deviceType := .userspace, peers := peers } ∧
      Identified peers (Uapi.keysOf (responseAbout [sevens, Key.zero]))) := by
  intro keys peers messages
  have hmessages : Netlink.ofDump messages =
      .ok { deviceType := .linuxKernel, peers := peers } := by decide +kernel
  have hdevice : OpenBsd.readDevice "wg0" (recordsOf keys) =
      .ok { name := "wg0", deviceType := .openBsdKernel, peers := peers } := by decide +kernel
  have hlines : Uapi.readGet "wg0" (responseAbout [sevens, Key.zero]) =
      .ok { name := "wg0", deviceType := .userspace, peers := peers } := by decide +kernel
  obtain ⟨hdump, hfirst, -, -⟩ := peers_identified_iff _
  obtain ⟨-, -, hrecords, -⟩ := peers_identified_iff _
  obtain ⟨-, -, -, hresponse⟩ := peers_identified_iff _
  exact ⟨⟨hmessages, (hfirst _ _ hmessages).mpr (by decide +kernel),
      (hdump _ hmessages).2.mpr (by decide +kernel)⟩,
    ⟨hdevice, (hrecords _ _ hdevice).2.mpr (by decide +kernel)⟩,
    ⟨hlines, (hresponse _ _ hlines).2.mpr (by decide +kernel)⟩⟩

/-- **Peers that are not identified**: a key that one message, the records or the lines give twice,
and a peer to which a message or the records give none. -/
theorem peers_not_identified :
    let twice := [some sevens, some sevens]
    let alike : List Peer := [{ publicKey := sevens }, { publicKey := sevens }]
    (Netlink.ofDump [messageOf twice] = .ok { deviceType := .linuxKernel, peers := alike } ∧
      OpenBsd.readDevice "wg0" (recordsOf twice) =
        .ok { name := "wg0", deviceType := .openBsdKernel, peers := alike } ∧
      Uapi.readGet "wg0" (responseAbout [sevens, sevens]) =
        .ok { name := "wg0", deviceType := .userspace, peers := alike } ∧
      ∀ given, ¬ Identified alike given) ∧
    Netlink.ofDump [messageOf [none]] = .ok { deviceType := .linuxKernel, peers := [{}] } ∧
      OpenBsd.readDevice "wg0" (recordsOf [none]) =
        .ok { name := "wg0", deviceType := .openBsdKernel, peers := [{}] } ∧
      ¬ Identified [{}] (Netlink.keysOfDump [messageOf [none]]) ∧
      ¬ Identified [{}] (OpenBsd.keysOf (recordsOf [none])) := by
  intro twice alike
  have hmessage : Netlink.keysOfDump [messageOf [none]] = [none] := by decide +kernel
  have hrecords : OpenBsd.keysOf (recordsOf [none]) = [none] := by decide +kernel
  have hnone : ¬ Identified [{}] [none] := fun h => absurd h.2 (by decide)
  refine ⟨⟨by decide +kernel, by decide +kernel, by decide +kernel, fun given h => ?_⟩,
    by decide +kernel, by decide +kernel, by rwa [hmessage], by rwa [hrecords]⟩
  exact absurd h.1 (by decide +kernel)

end WireGuardControl
