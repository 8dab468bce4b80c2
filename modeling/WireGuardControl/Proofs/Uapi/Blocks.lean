import Mathlib.Data.List.TakeWhile
import Mathlib.Tactic
import WireGuardControl.Proofs.Failing
import WireGuardControl.Proofs.Time
import WireGuardControl.Proofs.Uapi.Readback
/-!
The lines of a response, divided into blocks.

* `opening`, `blocks`: the lines in front of the first that begins a peer, and for each that does
  the lines up to the next. `opening_append_blocks`: together they are all lines; `blocks_append`:
  lines that are added belong to the last block until one of them begins the next.
* `readings`, `lastReading`: the values of the lines with one key, and the last of them.
* `through_eq_ok_iff`: a run of steps succeeds exactly if every line is valid, given this of one
  step. `PeerDraft.through_step_eq_ok_iff`, `through_interfaceStep_eq_ok_iff`: what the lines of a
  peer and of an interface make of it.
* `DeviceDraft.through_blocks`: the run over all blocks. Each completes the peer of the one before
  and leaves its own open.
* `through_take_eq_ok_iff`: lines without a status are read exactly if they describe a device, the
  interface by those in front of the first block, and each peer by its own block.
-/

namespace WireGuardControl.Uapi

open Text

/-! ### Blocks -/

/-- Whether a line begins the block of a peer. -/
def Line.beginsPeer (l : Line) : Bool := l.key = "public_key"

/-- The lines in front of the first that begins a block. -/
def opening (lines : List Line) : List Line := lines.takeWhile fun l => !l.beginsPeer

/-- The lines about a peer. -/
structure PeerBlock where
  /-- The value of the line that begins the block. -/
  key : List Char
  /-- The lines behind it, up to the next that begins a block. -/
  lines : List Line

/-- All lines of a block. -/
def PeerBlock.all (b : PeerBlock) : List Line := ⟨"public_key", b.key⟩ :: b.lines

/-- The blocks of peers, one for each line that begins one. -/
def blocks : List Line → List PeerBlock
  | [] => []
  | l :: rest => if l.beginsPeer then ⟨l.value, opening rest⟩ :: blocks rest else blocks rest

section Blocks

variable {l : Line} {xs : List Line}

@[simp] lemma opening_nil : opening [] = [] := rfl

@[simp] lemma blocks_nil : blocks [] = [] := rfl

lemma opening_cons_of_begins (h : l.beginsPeer = true) (xs : List Line) :
    opening (l :: xs) = [] := by
  rw [opening, List.takeWhile_cons_of_neg (by simp [h])]

lemma opening_cons (h : ¬ l.beginsPeer = true) (xs : List Line) :
    opening (l :: xs) = l :: opening xs := by
  rw [opening, List.takeWhile_cons_of_pos (by simp [h]), opening]

lemma blocks_cons_of_begins (h : l.beginsPeer = true) (xs : List Line) :
    blocks (l :: xs) = ⟨l.value, opening xs⟩ :: blocks xs := if_pos h

lemma blocks_cons (h : ¬ l.beginsPeer = true) (xs : List Line) : blocks (l :: xs) = blocks xs :=
  if_neg h

/-- The lines in front of the first block and those of the blocks are all lines. -/
lemma opening_append_blocks (xs : List Line) :
    opening xs ++ (blocks xs).flatMap PeerBlock.all = xs := by
  induction xs with
  | nil => rfl
  | cons l xs ih =>
      by_cases h : l.beginsPeer = true
      · have hl : l = ⟨"public_key", l.value⟩ := by
          rw [← of_decide_eq_true h]
        rw [opening_cons_of_begins h, blocks_cons_of_begins h, List.flatMap_cons, PeerBlock.all,
          List.nil_append, List.cons_append, ih, ← hl]
      · rw [opening_cons h, blocks_cons h, List.cons_append, ih]

lemma length_blocks (xs : List Line) : (blocks xs).length = xs.countP Line.beginsPeer := by
  induction xs with
  | nil => rfl
  | cons l xs ih =>
      by_cases h : l.beginsPeer = true
      · rw [blocks_cons_of_begins h, List.length_cons, ih, List.countP_cons_of_pos h]
      · rw [blocks_cons h, ih, List.countP_cons_of_neg h]

lemma notBegins_of_mem_opening (h : l ∈ opening xs) : l.key ≠ "public_key" := by
  have hpos := List.mem_takeWhile_imp h
  simpa [Line.beginsPeer] using hpos

lemma notBegins_of_mem_block {b : PeerBlock} (hb : b ∈ blocks xs) (h : l ∈ b.lines) :
    l.key ≠ "public_key" := by
  induction xs with
  | nil => cases hb
  | cons m xs ih =>
      by_cases hm : m.beginsPeer = true
      · rw [blocks_cons_of_begins hm, List.mem_cons] at hb
        rcases hb with rfl | hb
        · exact notBegins_of_mem_opening h
        · exact ih hb
      · rw [blocks_cons hm] at hb
        exact ih hb

lemma mem_of_mem_opening (h : l ∈ opening xs) : l ∈ xs := by
  rw [← opening_append_blocks xs]
  exact List.mem_append_left _ h

lemma mem_of_mem_block {b : PeerBlock} (hb : b ∈ blocks xs) (h : l ∈ b.lines) : l ∈ xs := by
  rw [← opening_append_blocks xs]
  exact List.mem_append_right _ (List.mem_flatMap.mpr ⟨b, hb, List.mem_cons_of_mem _ h⟩)

lemma opening_append_of_notBegins (h : ∀ l ∈ xs, l.key ≠ "public_key") (ys : List Line) :
    opening (xs ++ ys) = xs ++ opening ys := by
  refine List.takeWhile_append_of_pos fun l hl => ?_
  simpa [Line.beginsPeer] using h l hl

lemma blocks_append_of_notBegins (h : ∀ l ∈ xs, l.key ≠ "public_key") (ys : List Line) :
    blocks (xs ++ ys) = blocks ys := by
  induction xs with
  | nil => rfl
  | cons l xs ih =>
      rw [List.forall_mem_cons] at h
      rw [List.cons_append, blocks_cons (by simpa [Line.beginsPeer] using h.1), ih h.2]

lemma blocks_eq_nil_iff : blocks xs = [] ↔ ∀ l ∈ xs, l.key ≠ "public_key" := by
  constructor
  · intro h l hl
    have hall := opening_append_blocks xs
    rw [h, List.flatMap_nil, List.append_nil] at hall
    rw [← hall] at hl
    exact notBegins_of_mem_opening hl
  · intro h
    have hall := blocks_append_of_notBegins h []
    rwa [List.append_nil] at hall

/-- Lines behind the last block belong to it up to the first that begins a block. -/
lemma blocks_append {bs : List PeerBlock} {key : List Char} {zs : List Line}
    (h : blocks xs = bs ++ [⟨key, zs⟩]) (ys : List Line) :
    opening (xs ++ ys) = opening xs ∧
      blocks (xs ++ ys) = bs ++ ⟨key, zs ++ opening ys⟩ :: blocks ys := by
  induction xs generalizing bs with
  | nil => exact absurd h (by simp)
  | cons l xs ih =>
      rw [List.cons_append]
      by_cases hl : l.beginsPeer = true
      · rw [opening_cons_of_begins hl, opening_cons_of_begins hl, blocks_cons_of_begins hl]
        rw [blocks_cons_of_begins hl] at h
        cases bs with
        | nil =>
            obtain ⟨hblock, hnil⟩ := List.cons.inj h
            have hxs := blocks_eq_nil_iff.mp hnil
            obtain ⟨rfl, rfl⟩ := PeerBlock.mk.inj hblock
            have hopening := opening_append_of_notBegins hxs []
            rw [List.append_nil, opening_nil, List.append_nil] at hopening
            rw [opening_append_of_notBegins hxs, blocks_append_of_notBegins hxs, hopening]
            exact ⟨rfl, rfl⟩
        | cons b bs =>
            obtain ⟨rfl, hrest⟩ := List.cons.inj h
            obtain ⟨hopening, hblocks⟩ := ih hrest
            rw [hopening, hblocks]
            exact ⟨rfl, rfl⟩
      · rw [opening_cons hl, opening_cons hl, blocks_cons hl]
        rw [blocks_cons hl] at h
        obtain ⟨hopening, hblocks⟩ := ih h
        rw [hopening, hblocks]
        exact ⟨rfl, rfl⟩

end Blocks

/-! ### Readings -/

/-- The values that `read` finds in the lines with a key. -/
def readings {α : Type} (read : List Char → Option α) (key : String) (lines : List Line) : List α :=
  lines.filterMap fun l => if l.key = key then read l.value else none

/-- The value that `read` finds in the last line with a key. -/
def lastReading {α : Type} (read : List Char → Option α) (key : String) (lines : List Line) :
    Option α :=
  (readings read key lines).getLast?

section Readings

variable {α : Type} {read : List Char → Option α} {key : String}

@[simp] lemma readings_nil : readings read key [] = [] := rfl

@[simp] lemma lastReading_nil : lastReading read key [] = none := rfl

@[simp] lemma readings_singleton (l : Line) :
    readings read key [l] = if l.key = key then (read l.value).toList else [] := by
  rw [readings]
  split_ifs with h
  · cases hv : read l.value <;> simp [h, hv]
  · simp [h]

@[simp] lemma lastReading_singleton (l : Line) :
    lastReading read key [l] = if l.key = key then read l.value else none := by
  rw [lastReading, readings_singleton]
  split_ifs
  · cases read l.value <;> rfl
  · rfl

lemma readings_append (xs ys : List Line) :
    readings read key (xs ++ ys) = readings read key xs ++ readings read key ys :=
  List.filterMap_append

lemma lastReading_append (xs ys : List Line) :
    lastReading read key (xs ++ ys) = (lastReading read key ys).or (lastReading read key xs) := by
  rw [lastReading, readings_append, List.getLast?_append, lastReading, lastReading]

lemma readings_cons (l : Line) (ys : List Line) :
    readings read key (l :: ys) = readings read key [l] ++ readings read key ys :=
  readings_append [l] ys

lemma lastReading_cons (l : Line) (ys : List Line) :
    lastReading read key (l :: ys) = (lastReading read key ys).or (lastReading read key [l]) :=
  lastReading_append [l] ys

/-- A line with another key has no value. -/
lemma readings_insert {l : Line} (h : l.key ≠ key) (xs ys : List Line) :
    readings read key (xs ++ l :: ys) = readings read key (xs ++ ys) := by
  rw [readings_append, readings_append, readings_cons, readings_singleton, if_neg h,
    List.nil_append]

lemma lastReading_insert {l : Line} (h : l.key ≠ key) (xs ys : List Line) :
    lastReading read key (xs ++ l :: ys) = lastReading read key (xs ++ ys) := by
  rw [lastReading, readings_insert h, lastReading]

end Readings

/-! ### Values -/

/-- A key in hexadecimal digits. -/
def key? (v : List Char) : Option Key := (Key.ofHex v).toOption

/-- An endpoint. -/
def endpoint? (v : List Char) : Option Endpoint := (readEndpoint v).toOption

/-- A number in decimal digits. -/
def number? {α : Type} (read : List Char → Except Decimal.Fault α) (v : List Char) : Option α :=
  (read v).toOption

lemma hexKey_eq_ok_iff {key : String} {v : List Char} {k : Key} :
    hexKey key v = .ok k ↔ key? v = some k := by
  rw [hexKey, key?]
  cases Key.ofHex v <;> simp [Except.mapError, Except.toOption]

lemma readEndpoint_eq_ok_iff {v : List Char} {e : Endpoint} :
    readEndpoint v = .ok e ↔ endpoint? v = some e := by
  rw [endpoint?]
  cases readEndpoint v <;> simp [Except.toOption]

lemma network_eq_ok_iff {v : List Char} {n : Network} :
    network v = .ok n ↔ Network.read? v = some n := by
  rw [network]
  cases Network.read? v <;> simp

lemma number_eq_ok_iff {α : Type} {read : List Char → Except Decimal.Fault α} {key : String}
    {v : List Char} {n : α} : number read key v = .ok n ↔ number? read v = some n := by
  rw [number, number?]
  cases read v <;> simp [Except.mapError, Except.toOption]

/-! ### What lines make of a peer -/

/-- The keys of a peer's lines that hold a number of sixty-four bits. -/
def counterKeys : List String :=
  ["persistent_keepalive_interval", "last_handshake_time_sec", "last_handshake_time_nsec",
    "tx_bytes", "rx_bytes"]

/-- A line about a peer has a valid value, if it has one of the known keys. -/
def Line.ValidForPeer (l : Line) : Prop :=
  (l.key = "preshared_key" → (key? l.value).isSome) ∧
    (l.key = "endpoint" → (endpoint? l.value).isSome) ∧
    (l.key ∈ counterKeys → (number? Decimal.readUInt64 l.value).isSome) ∧
    (l.key = "allowed_ip" → (Network.read? l.value).isSome) ∧
    (l.key = "protocol_version" → (number? Decimal.readUInt32 l.value).isSome)

/-- What lines make of a draft of a peer. -/
def PeerDraft.given (d : PeerDraft) (lines : List Line) : PeerDraft where
  peer := { d.peer with
    presharedKey := (lastReading key? "preshared_key" lines).getD d.peer.presharedKey
    endpoint := (lastReading endpoint? "endpoint" lines).or d.peer.endpoint
    keepalive :=
      ((lastReading (number? Decimal.readUInt64) "persistent_keepalive_interval" lines).map
        Interval.ofSeconds).getD d.peer.keepalive
    receivedBytes :=
      (lastReading (number? Decimal.readUInt64) "rx_bytes" lines).getD d.peer.receivedBytes
    sentBytes := (lastReading (number? Decimal.readUInt64) "tx_bytes" lines).getD d.peer.sentBytes
    allowedIps := d.peer.allowedIps ++ readings Network.read? "allowed_ip" lines
    protocolVersion :=
      (lastReading (number? Decimal.readUInt32) "protocol_version" lines).getD
        d.peer.protocolVersion }
  seconds :=
    (lastReading (number? Decimal.readUInt64) "last_handshake_time_sec" lines).getD d.seconds
  nanoseconds :=
    (lastReading (number? Decimal.readUInt64) "last_handshake_time_nsec" lines).getD d.nanoseconds

/-- If a line has an effect exactly when it is valid, and the effects of lines add up, then a run
has theirs exactly when all of them are valid. -/
lemma through_eq_ok_iff {σ : Type} {f : σ → String → List Char → Except Error σ}
    {valid : Line → Prop} {given : σ → List Line → σ}
    (hstep : ∀ {s s' : σ} {l : Line}, f s l.key l.value = .ok s' ↔ valid l ∧ given s [l] = s')
    (hnil : ∀ s, given s [] = s) (hcons : ∀ s l ls, given s (l :: ls) = given (given s [l]) ls)
    {s s' : σ} {lines : List Line} :
    through f s lines = .ok s' ↔ (∀ l ∈ lines, valid l) ∧ given s lines = s' := by
  induction lines generalizing s with
  | nil => simp [through_nil, hnil]
  | cons l lines ih =>
      rw [through_cons, List.forall_mem_cons, hcons, and_assoc, ← ih]
      constructor
      · intro h
        obtain ⟨t, ht, hrest⟩ := Except.bind_eq_ok_iff.mp h
        obtain ⟨hl, rfl⟩ := hstep.mp ht
        exact ⟨hl, hrest⟩
      · rintro ⟨hl, hrest⟩
        exact Except.bind_eq_ok_iff.mpr ⟨_, hstep.mpr ⟨hl, rfl⟩, hrest⟩

namespace PeerDraft

lemma given_nil (d : PeerDraft) : d.given [] = d := by
  simp [given]

lemma given_cons (d : PeerDraft) (l : Line) (lines : List Line) :
    d.given (l :: lines) = (d.given [l]).given lines := by
  rw [given, given, given]
  simp only [lastReading_cons l lines, readings_cons l lines, Option.getD_or, Option.or_assoc,
    Option.map_or, List.append_assoc]

/-- What one line makes of a draft. -/
lemma step_eq_ok_iff {d d' : PeerDraft} {l : Line} :
    d.step l.key l.value = .ok d' ↔ l.ValidForPeer ∧ d.given [l] = d' := by
  obtain ⟨key, v⟩ := l
  by_cases hkey : key ∈ peerKeys
  · simp only [peerKeys, List.mem_cons, List.not_mem_nil, or_false] at hkey
    rcases hkey with rfl | rfl | rfl | rfl | rfl | rfl | rfl | rfl | rfl
    all_goals
      simp [step, Except.map_eq_ok_iff, hexKey_eq_ok_iff, readEndpoint_eq_ok_iff, network_eq_ok_iff,
        number_eq_ok_iff, Line.ValidForPeer, given, counterKeys]
    · cases key? v <;> simp
    · cases endpoint? v <;> simp
    · cases number? Decimal.readUInt64 v <;> simp
    · cases number? Decimal.readUInt64 v <;> simp
    · cases number? Decimal.readUInt64 v <;> simp
    · cases number? Decimal.readUInt64 v <;> simp
    · cases number? Decimal.readUInt64 v <;> simp
    · cases Network.read? v <;> simp
    · cases number? Decimal.readUInt32 v <;> simp
  · rw [step_of_notMem d hkey]
    simp only [peerKeys, List.mem_cons, List.not_mem_nil, or_false, not_or] at hkey
    simp [Line.ValidForPeer, given, counterKeys, hkey]

/-- **What lines make of a draft**: the last value for each key, and all networks. -/
lemma through_step_eq_ok_iff {d d' : PeerDraft} {lines : List Line} :
    through step d lines = .ok d' ↔ (∀ l ∈ lines, l.ValidForPeer) ∧ d.given lines = d' :=
  through_eq_ok_iff step_eq_ok_iff given_nil given_cons

end PeerDraft

/-! ### What lines make of an interface -/

/-- A line about the interface has a valid value, if it has one of the known keys. -/
def Line.ValidForInterface (l : Line) : Prop :=
  (l.key = "private_key" → (key? l.value).isSome) ∧
    (l.key = "listen_port" → (number? Decimal.readUInt16 l.value).isSome) ∧
    (l.key = "fwmark" → (number? Decimal.readUInt32 l.value).isSome)

/-- What lines make of an interface. -/
def interfaceGiven (d : Device) (lines : List Line) : Device :=
  { d with
    privateKey := (lastReading key? "private_key" lines).getD d.privateKey
    listenPort := (lastReading (number? Decimal.readUInt16) "listen_port" lines).getD d.listenPort
    firewallMark :=
      (lastReading (number? Decimal.readUInt32) "fwmark" lines).getD d.firewallMark }

lemma interfaceGiven_nil (d : Device) : interfaceGiven d [] = d := by
  simp [interfaceGiven]

lemma interfaceGiven_cons (d : Device) (l : Line) (lines : List Line) :
    interfaceGiven d (l :: lines) = interfaceGiven (interfaceGiven d [l]) lines := by
  rw [interfaceGiven, interfaceGiven, interfaceGiven]
  simp only [lastReading_cons l lines, Option.getD_or]

/-- What one line makes of an interface. -/
lemma interfaceStep_eq_ok_iff {d d' : Device} {l : Line} :
    DeviceDraft.interfaceStep d l.key l.value = .ok d' ↔
      l.ValidForInterface ∧ interfaceGiven d [l] = d' := by
  obtain ⟨key, v⟩ := l
  by_cases hkey : key ∈ interfaceKeys
  · simp only [interfaceKeys, List.mem_cons, List.not_mem_nil, or_false] at hkey
    rcases hkey with rfl | rfl | rfl
    all_goals
      simp [DeviceDraft.interfaceStep, Except.map_eq_ok_iff, hexKey_eq_ok_iff, number_eq_ok_iff,
        Line.ValidForInterface, interfaceGiven]
    · cases key? v <;> simp
    · cases number? Decimal.readUInt16 v <;> simp
    · cases number? Decimal.readUInt32 v <;> simp
  · rw [interfaceStep_of_notMem d hkey]
    simp only [interfaceKeys, List.mem_cons, List.not_mem_nil, or_false, not_or] at hkey
    simp [Line.ValidForInterface, interfaceGiven, hkey]

/-- **What lines make of an interface**: the last value for each key. -/
lemma through_interfaceStep_eq_ok_iff {d d' : Device} {lines : List Line} :
    through DeviceDraft.interfaceStep d lines = .ok d' ↔
      (∀ l ∈ lines, l.ValidForInterface) ∧ interfaceGiven d lines = d' :=
  through_eq_ok_iff interfaceStep_eq_ok_iff interfaceGiven_nil interfaceGiven_cons

/-! ### What blocks make of a device -/

namespace PeerBlock

variable {b : PeerBlock}

/-- The seconds of the latest handshake, zero if no line has them. -/
def seconds (b : PeerBlock) : UInt64 :=
  (lastReading (number? Decimal.readUInt64) "last_handshake_time_sec" b.lines).getD 0

/-- The nanoseconds of the latest handshake, zero if no line has them. -/
def nanoseconds (b : PeerBlock) : UInt64 :=
  (lastReading (number? Decimal.readUInt64) "last_handshake_time_nsec" b.lines).getD 0

/-- The block describes a peer. -/
@[mk_iff]
structure Valid (b : PeerBlock) : Prop where
  /-- The line that begins the block holds a key. -/
  key : (key? b.key).isSome
  /-- The other lines are valid. -/
  lines : ∀ l ∈ b.lines, l.ValidForPeer
  /-- The last seconds and nanoseconds stand for a time. -/
  time : Instant.InRange b.seconds b.nanoseconds

/-- The peer that the block describes. -/
def peer (b : PeerBlock) : Peer where
  publicKey := (key? b.key).getD Key.zero
  presharedKey := (lastReading key? "preshared_key" b.lines).getD Key.zero
  endpoint := lastReading endpoint? "endpoint" b.lines
  keepalive :=
    ((lastReading (number? Decimal.readUInt64) "persistent_keepalive_interval" b.lines).map
      Interval.ofSeconds).getD Interval.zero
  lastHandshake := Instant.reported b.seconds b.nanoseconds
  receivedBytes := (lastReading (number? Decimal.readUInt64) "rx_bytes" b.lines).getD 0
  sentBytes := (lastReading (number? Decimal.readUInt64) "tx_bytes" b.lines).getD 0
  allowedIps := readings Network.read? "allowed_ip" b.lines
  protocolVersion :=
    (lastReading (number? Decimal.readUInt32) "protocol_version" b.lines).getD 0

/-- The draft behind all lines of a block whose key is `k`. -/
def draft (b : PeerBlock) (k : Key) : PeerDraft :=
  PeerDraft.given { peer := { publicKey := k } } b.lines

lemma finish_draft {k : Key} (hk : key? b.key = some k) {p : Peer} :
    (b.draft k).finish = .ok p ↔ Instant.InRange b.seconds b.nanoseconds ∧ b.peer = p := by
  have hpeer : { (b.draft k).peer with
      lastHandshake := Instant.reported b.seconds b.nanoseconds } = b.peer := by
    simp [draft, PeerDraft.given, peer, hk]
  have hfinish : (b.draft k).finish =
      (fun time => { (b.draft k).peer with lastHandshake := time }) <$>
        Instant.ofHandshake b.seconds b.nanoseconds := rfl
  simp only [hfinish, Except.map_eq_ok_iff, Instant.ofHandshake_eq_ok_iff, and_assoc,
    exists_and_left, exists_eq_left', hpeer]

end PeerBlock

namespace DeviceDraft

variable {d d' : DeviceDraft} {dev : Device} {code : Option Int32}

lemma finishPeer_some {draft : PeerDraft} :
    finishPeer ⟨dev, some draft, code⟩ = .ok d' ↔
      ∃ p, draft.finish = .ok p ∧ ⟨{ dev with peers := dev.peers ++ [p] }, none, code⟩ = d' := by
  change (do let p ← draft.finish; return (⟨_, none, code⟩ : DeviceDraft)) = .ok d' ↔ _
  rw [bind_pure_comp, Except.map_eq_ok_iff]

/-- Completing a peer leaves none open and does not change the status. -/
lemma finishPeer_eq_ok (h : d.finishPeer = .ok d') : d' = ⟨d'.device, none, d.code⟩ := by
  obtain ⟨dev, _ | draft, code⟩ := d
  · cases h
    rfl
  · obtain ⟨p, -, rfl⟩ := finishPeer_some.mp h
    rfl

/-- The lines of a block complete the peer before and leave their own open. -/
lemma through_block {b : PeerBlock} (hb : ∀ l ∈ b.lines, l.Continues) :
    through take d b.all = .ok d' ↔
      ∃ dev k, d.finishPeer = .ok ⟨dev, none, d.code⟩ ∧ key? b.key = some k ∧
        (∀ l ∈ b.lines, l.ValidForPeer) ∧ ⟨dev, some (b.draft k), d.code⟩ = d' := by
  have hkey : d.take "public_key" b.key = (do
      let d ← d.finishPeer
      return { d with current := some { peer := { publicKey := ← hexKey "public_key" b.key } } }) :=
    rfl
  rw [PeerBlock.all, through_cons]
  constructor
  · intro h
    obtain ⟨d₂, hstart, hlines⟩ := Except.bind_eq_ok_iff.mp h
    rw [hkey] at hstart
    obtain ⟨d₁, hfinish, hstart⟩ := Except.bind_eq_ok_iff.mp hstart
    rw [bind_pure_comp, Except.map_eq_ok_iff] at hstart
    obtain ⟨k, hk, rfl⟩ := hstart
    have hd₁ := finishPeer_eq_ok hfinish
    rw [hd₁] at hfinish hlines
    rw [through_take_peer d₁.device d.code hb] at hlines
    obtain ⟨draft, hdraft, rfl⟩ := Except.map_eq_ok_iff.mp hlines
    obtain ⟨hvalid, rfl⟩ := PeerDraft.through_step_eq_ok_iff.mp hdraft
    exact ⟨d₁.device, k, hfinish, hexKey_eq_ok_iff.mp hk, hvalid, rfl⟩
  · rintro ⟨dev, k, hfinish, hk, hvalid, rfl⟩
    have hstart : d.take "public_key" b.key =
        .ok ⟨dev, some { peer := { publicKey := k } }, d.code⟩ := by
      rw [hkey, hfinish, hexKey_eq_ok_iff.mpr hk]
      rfl
    change (take d "public_key" b.key).bind _ = _
    rw [hstart]
    change through take _ _ = _
    rw [through_take_peer dev d.code hb, PeerDraft.through_step_eq_ok_iff.mpr ⟨hvalid, rfl⟩]
    rfl

/-- **The lines of all blocks** are read exactly if every block describes a peer, and then each adds
its own. -/
lemma through_blocks {bs : List PeerBlock} (hbs : ∀ b ∈ bs, ∀ l ∈ b.lines, l.Continues) :
    (through take d (bs.flatMap PeerBlock.all)).bind finishPeer = .ok d' ↔
      ∃ dev, d.finishPeer = .ok ⟨dev, none, d.code⟩ ∧ (∀ b ∈ bs, b.Valid) ∧
        ⟨{ dev with peers := dev.peers ++ bs.map PeerBlock.peer }, none, d.code⟩ = d' := by
  -- as for an update, the invariant is the draft with its open peer completed
  induction bs generalizing d d' with
  | nil =>
      change d.finishPeer = .ok d' ↔ _
      constructor
      · intro h
        have hd' := finishPeer_eq_ok h
        exact ⟨d'.device, hd' ▸ h, by simp, by simpa using hd'.symm⟩
      · rintro ⟨dev, h, -, rfl⟩
        simpa using h
  | cons b bs ih =>
      rw [List.forall_mem_cons] at hbs
      have hrest : (through take d ((b :: bs).flatMap PeerBlock.all)).bind finishPeer =
          (through take d b.all).bind fun d =>
            (through take d (bs.flatMap PeerBlock.all)).bind finishPeer := by
        rw [List.flatMap_cons, through_append]
        cases through take d b.all <;> rfl
      rw [hrest]
      constructor
      · intro h
        obtain ⟨d₂, hblock, h⟩ := Except.bind_eq_ok_iff.mp h
        obtain ⟨dev, k, hfinish, hk, hlines, rfl⟩ := (through_block hbs.1).mp hblock
        obtain ⟨dev₂, hopen, hvalid, rfl⟩ := (ih hbs.2).mp h
        obtain ⟨p, hp, hdev₂⟩ := finishPeer_some.mp hopen
        obtain ⟨htime, rfl⟩ := (PeerBlock.finish_draft hk).mp hp
        obtain rfl := (DeviceDraft.mk.inj hdev₂).1
        refine ⟨dev, hfinish, List.forall_mem_cons.mpr ⟨⟨?_, hlines, htime⟩, hvalid⟩, ?_⟩
        · rw [hk]
          rfl
        · rw [List.map_cons, List.append_assoc, List.singleton_append]
      · rintro ⟨dev, hfinish, hvalid, rfl⟩
        rw [List.forall_mem_cons] at hvalid
        obtain ⟨k, hk⟩ := Option.isSome_iff_exists.mp hvalid.1.key
        have hopen : finishPeer ⟨dev, some (b.draft k), d.code⟩ =
            .ok ⟨{ dev with peers := dev.peers ++ [b.peer] }, none, d.code⟩ :=
          finishPeer_some.mpr ⟨b.peer, (PeerBlock.finish_draft hk).mpr ⟨hvalid.1.time, rfl⟩, rfl⟩
        refine Except.bind_eq_ok_iff.mpr ⟨⟨dev, some (b.draft k), d.code⟩, ?_, ?_⟩
        · exact (through_block hbs.1).mpr ⟨dev, k, hfinish, hk, hvalid.1.lines, rfl⟩
        · refine (ih hbs.2).mpr ⟨_, hopen, hvalid.2, ?_⟩
          rw [List.map_cons, List.append_assoc, List.singleton_append]

end DeviceDraft

/-- Lines describe a device: those in front of the first block its interface, and each block a
peer. -/
@[mk_iff]
structure Describes (lines : List Line) : Prop where
  /-- The lines in front of the first block are valid. -/
  interface : ∀ l ∈ opening lines, l.ValidForInterface
  /-- The blocks are valid. -/
  peers : ∀ b ∈ blocks lines, b.Valid

/-- **Lines without a status** are read exactly if they describe a device, and then the interface
comes from those in front of the first block, and each peer from its own block. -/
lemma through_take_eq_ok_iff {dev : Device} {code : Option Int32} {lines : List Line}
    (h : ∀ l ∈ lines, l.key ≠ statusKey) {d' : DeviceDraft} :
    (through DeviceDraft.take ⟨dev, none, code⟩ lines).bind DeviceDraft.finishPeer = .ok d' ↔
      Describes lines ∧
        ⟨{ interfaceGiven dev (opening lines) with
          peers := dev.peers ++ (blocks lines).map PeerBlock.peer }, none, code⟩ = d' := by
  have hopening : ∀ l ∈ opening lines, l.Continues := fun l hl =>
    ⟨h l (mem_of_mem_opening hl), notBegins_of_mem_opening hl⟩
  have hblocks : ∀ b ∈ blocks lines, ∀ l ∈ b.lines, l.Continues := fun b hb l hl =>
    ⟨h l (mem_of_mem_block hb hl), notBegins_of_mem_block hb hl⟩
  have hrun : (through DeviceDraft.take ⟨dev, none, code⟩ lines).bind DeviceDraft.finishPeer =
      (through DeviceDraft.interfaceStep dev (opening lines)).bind fun dev =>
        (through DeviceDraft.take ⟨dev, none, code⟩ ((blocks lines).flatMap PeerBlock.all)).bind
          DeviceDraft.finishPeer := by
    conv_lhs => rw [← opening_append_blocks lines]
    rw [through_append, DeviceDraft.through_take_interface code hopening]
    cases through DeviceDraft.interfaceStep dev (opening lines) <;> rfl
  rw [hrun]
  constructor
  · intro hd'
    obtain ⟨dev₁, hinterface, hpeers⟩ := Except.bind_eq_ok_iff.mp hd'
    obtain ⟨hvalid, rfl⟩ := through_interfaceStep_eq_ok_iff.mp hinterface
    obtain ⟨_, hstart, hall, rfl⟩ := (DeviceDraft.through_blocks hblocks).mp hpeers
    cases hstart
    exact ⟨⟨hvalid, hall⟩, rfl⟩
  · rintro ⟨hvalid, rfl⟩
    exact Except.bind_eq_ok_iff.mpr ⟨_, through_interfaceStep_eq_ok_iff.mpr ⟨hvalid.interface, rfl⟩,
      (DeviceDraft.through_blocks hblocks).mpr ⟨_, rfl, hvalid.peers, rfl⟩⟩

end WireGuardControl.Uapi
