import Mathlib.Tactic
import WireGuardControl.Proofs.Uapi.Blocks
import WireGuardControl.Proofs.Uapi.Malformed
/-!
The responses that describe a device.

* `deviceOf`: the device that lines describe.
* `Line.UnknownAfter`: a line that means nothing where it stands. `describes_insert`: such a line is
  neither a fault of a description nor a part of it; the status is one (`unknownAfter_status`).
* `Line.ofText`, `ofLines_eq_iff`: lines of text are pairs without a fault exactly if each has one
  equals sign and none but the last is the status.
* `EndsWell`, `Accepted`: the conditions on the lines before the first blank line.
  `readGet_eq_ok_iff_accepted`: a response is read exactly if they hold, and as the device that its
  lines describe.
* `readGet_grammar`: this, and what else a response may have without a difference.
-/

namespace WireGuardControl.Uapi

open Text Lines

/-! ### The device of some lines -/

/-- The private key that lines give to an interface. -/
def privateKeyOf (lines : List Line) : Key :=
  (lastReading key? "private_key" (opening lines)).getD Key.zero

/-- The device that lines describe. -/
def deviceOf (name : String) (lines : List Line) : Device where
  name := name
  deviceType := .userspace
  privateKey := privateKeyOf lines
  publicKey := if (privateKeyOf lines).isZero then Key.zero else (privateKeyOf lines).publicKey
  listenPort := (lastReading (number? Decimal.readUInt16) "listen_port" (opening lines)).getD 0
  firewallMark := (lastReading (number? Decimal.readUInt32) "fwmark" (opening lines)).getD 0
  peers := (blocks lines).map PeerBlock.peer

/-- The draft with which a device begins. -/
def startOf (name : String) : Device := { name := name, deviceType := .userspace }

lemma withDerivedKey_given (name : String) (lines : List Line) :
    withDerivedKey { interfaceGiven (startOf name) (opening lines) with
      peers := (startOf name).peers ++ (blocks lines).map PeerBlock.peer } =
        deviceOf name lines := by
  have hkey : (interfaceGiven (startOf name) (opening lines)).privateKey = privateKeyOf lines := rfl
  rw [withDerivedKey, deviceOf]
  simp only [hkey]
  split_ifs <;> rfl

/-! ### Lines that mean nothing -/

/-- The line has no meaning behind the lines `before`: it begins no peer, and its key is not one of
those that a peer has or, before the first peer, the interface. -/
def Line.UnknownAfter (l : Line) (before : List Line) : Prop :=
  l.key ≠ "public_key" ∧
    l.key ∉ if ∃ m ∈ before, m.key = "public_key" then peerKeys else interfaceKeys

section Unknown

variable {l : Line} {xs : List Line}

lemma Line.validForInterface_of_notMem (h : l.key ∉ interfaceKeys) : l.ValidForInterface := by
  simp only [interfaceKeys, List.mem_cons, List.not_mem_nil, or_false, not_or] at h
  simp [ValidForInterface, h]

lemma Line.validForPeer_of_notMem (h : l.key ∉ peerKeys) : l.ValidForPeer := by
  simp only [peerKeys, List.mem_cons, List.not_mem_nil, or_false, not_or] at h
  simp [ValidForPeer, counterKeys, h]

lemma forall_mem_insert {α : Type} {P : α → Prop} {a : α} (h : P a) (xs ys : List α) :
    (∀ x ∈ xs ++ a :: ys, P x) ↔ ∀ x ∈ xs ++ ys, P x := by
  rw [List.forall_mem_append, List.forall_mem_cons, List.forall_mem_append]
  exact and_congr_right fun _ => and_iff_right h

lemma PeerBlock.peer_insert {key : List Char} (h : l.key ∉ peerKeys) (xs ys : List Line) :
    peer ⟨key, xs ++ l :: ys⟩ = peer ⟨key, xs ++ ys⟩ := by
  simp only [peerKeys, List.mem_cons, List.not_mem_nil, or_false, not_or] at h
  simp only [peer, seconds, nanoseconds, lastReading_insert, readings_insert, h, ne_eq,
    not_false_eq_true]

lemma PeerBlock.valid_insert {key : List Char} (h : l.key ∉ peerKeys) (xs ys : List Line) :
    Valid ⟨key, xs ++ l :: ys⟩ ↔ Valid ⟨key, xs ++ ys⟩ := by
  have hlines := forall_mem_insert (Line.validForPeer_of_notMem h) xs ys
  simp only [peerKeys, List.mem_cons, List.not_mem_nil, or_false, not_or] at h
  simp only [valid_iff, hlines, seconds, nanoseconds, lastReading_insert, h, ne_eq,
    not_false_eq_true]

lemma exists_last_block (h : ∃ m ∈ xs, m.key = "public_key") :
    ∃ bs key zs, blocks xs = bs ++ [⟨key, zs⟩] := by
  have hne : blocks xs ≠ [] := by
    intro hnil
    obtain ⟨m, hm, hkey⟩ := h
    exact blocks_eq_nil_iff.mp hnil m hm hkey
  obtain ⟨bs, ⟨key, zs⟩, hbs⟩ := (List.eq_nil_or_concat _).resolve_left hne
  exact ⟨bs, key, zs, hbs.trans List.concat_eq_append⟩

/-- **A line without a meaning** is neither a fault of a description nor a part of it. -/
lemma describes_insert (h : l.UnknownAfter xs) (ys : List Line) :
    (Describes (xs ++ l :: ys) ↔ Describes (xs ++ ys)) ∧
      ∀ name, deviceOf name (xs ++ l :: ys) = deviceOf name (xs ++ ys) := by
  obtain ⟨hbegins, hknown⟩ := h
  have hl : ¬ l.beginsPeer = true := by simpa [Line.beginsPeer] using hbegins
  by_cases hxs : ∃ m ∈ xs, m.key = "public_key"
  · -- the line belongs to the last block
    rw [if_pos hxs] at hknown
    obtain ⟨bs, key, zs, hblocks⟩ := exists_last_block hxs
    obtain ⟨hopening, hwith⟩ := blocks_append hblocks (l :: ys)
    obtain ⟨hopening', hwithout⟩ := blocks_append hblocks ys
    rw [opening_cons hl, blocks_cons hl] at hwith
    constructor
    · rw [describes_iff, describes_iff, hopening, hopening', hwith, hwithout,
        List.forall_mem_append, List.forall_mem_append, List.forall_mem_cons, List.forall_mem_cons,
        PeerBlock.valid_insert hknown]
    · intro name
      rw [deviceOf, deviceOf, privateKeyOf, privateKeyOf, hopening, hopening', hwith, hwithout,
        List.map_append, List.map_cons, PeerBlock.peer_insert hknown, List.map_append,
        List.map_cons]
  · -- the line belongs to the interface
    rw [if_neg hxs] at hknown
    have hnone : ∀ m ∈ xs, m.key ≠ "public_key" := fun m hm hkey => hxs ⟨m, hm, hkey⟩
    constructor
    · rw [describes_iff, describes_iff, opening_append_of_notBegins hnone,
        opening_append_of_notBegins hnone, blocks_append_of_notBegins hnone,
        blocks_append_of_notBegins hnone, opening_cons hl, blocks_cons hl,
        forall_mem_insert (Line.validForInterface_of_notMem hknown)]
    · intro name
      simp only [interfaceKeys, List.mem_cons, List.not_mem_nil, or_false, not_or] at hknown
      obtain ⟨hkey, hport, hmark⟩ := hknown
      rw [deviceOf, deviceOf, privateKeyOf, privateKeyOf, opening_append_of_notBegins hnone,
        opening_append_of_notBegins hnone, blocks_append_of_notBegins hnone,
        blocks_append_of_notBegins hnone, opening_cons hl, blocks_cons hl, lastReading_insert hkey,
        lastReading_insert hport, lastReading_insert hmark]

end Unknown

/-! ### Pairs -/

/-- The key and the value around the first equals sign of a line. -/
def Line.ofText (line : List Char) : Line :=
  ⟨String.ofList (line.takeWhile (· ≠ '=')), (line.dropWhile (· ≠ '=')).tail⟩

lemma once_of_count {line : List Char} (h : line.count '=' = 1) :
    once '=' line = some ((Line.ofText line).key.toList, (Line.ofText line).value) := by
  rw [once_eq, if_pos h, Line.ofText, String.toList_ofList]

lemma Pairs.cons_eq_iff {x : String × List Char} {p : Pairs} {items : List (String × List Char)} :
    (⟨x :: p.items, p.fault⟩ : Pairs) = ⟨items, none⟩ ↔
      ∃ later, p = ⟨later, none⟩ ∧ x :: later = items := by
  obtain ⟨later, fault⟩ := p
  simp only [Pairs.mk.injEq]
  constructor
  · rintro ⟨rfl, rfl⟩
    exact ⟨later, ⟨rfl, rfl⟩, rfl⟩
  · rintro ⟨_, ⟨rfl, rfl⟩, rfl⟩
    exact ⟨rfl, rfl⟩

lemma Pairs.ofLines_true_eq_iff {body : List (List Char)} {items : List (String × List Char)} :
    Pairs.ofLines true body = ⟨items, none⟩ ↔ body = [] ∧ [] = items := by
  cases body <;> simp [Pairs.ofLines]

/-- Lines are pairs without a fault exactly if each has one equals sign and none but the last is the
status. -/
lemma ofLines_eq_iff {body : List (List Char)} {items : List (String × List Char)} :
    Pairs.ofLines false body = ⟨items, none⟩ ↔
      (∀ line ∈ body, line.count '=' = 1) ∧
        (∀ l ∈ (body.map Line.ofText).dropLast, l.key ≠ statusKey) ∧
        (body.map Line.ofText).map Line.pair = items := by
  induction body generalizing items with
  | nil => simp [Pairs.ofLines]
  | cons line rest ih =>
      rw [Pairs.ofLines, List.forall_mem_cons]
      by_cases hcount : line.count '=' = 1
      · rw [once_of_count hcount]
        simp only [String.ofList_toList, Bool.false_eq_true, if_false]
        rw [Pairs.cons_eq_iff]
        by_cases hkey : (Line.ofText line).key = statusKey
        · simp only [hkey, decide_true, Pairs.ofLines_true_eq_iff]
          cases rest with
          | nil => simp [hcount, Line.pair, hkey]
          | cons next rest => simp [hkey]
        · simp only [hkey, decide_false, ih]
          cases rest with
          | nil => simp [hcount, Line.pair]
          | cons next rest => simp [hcount, Line.pair, hkey, and_assoc]
      · rw [once_eq, if_neg hcount]
        simp [hcount]

/-! ### The status -/

lemma checkStatus_eq_ok_iff {operation : String} {code : Option Int32} :
    checkStatus operation code = .ok () ↔ code = some 0 := by
  cases code with
  | none => simp [checkStatus]
  | some code =>
      rw [checkStatus]
      split_ifs with hzero
      · simp [hzero]
      · simp [hzero]

namespace DeviceDraft

lemma take_status {d d' : DeviceDraft} {l : Line} (h : l.key = statusKey) :
    d.take l.key l.value = .ok d' ↔
      ∃ code, number? Decimal.readInt32 l.value = some code ∧
        { d with code := some code } = d' := by
  have htake : d.take l.key l.value =
      (fun code => { d with code := some code }) <$> number Decimal.readInt32 l.key l.value := by
    rw [take, step]
    exact (if_pos h).trans (bind_pure_comp _ _)
  simp only [htake, Except.map_eq_ok_iff, number_eq_ok_iff]

/-- Lines behind which the status stands are read as without it, but for its code. -/
lemma through_concat_status {d d' : DeviceDraft} {before : List Line} {last : Line}
    (hlast : last.key = statusKey) :
    (through take d (before ++ [last])).bind finishPeer = .ok d' ↔
      ∃ code closed, number? Decimal.readInt32 last.value = some code ∧
        (through take d before).bind finishPeer = .ok closed ∧
        { closed with code := some code } = d' := by
  constructor
  · intro h
    obtain ⟨d₂, hrun, hfinish⟩ := Except.bind_eq_ok_iff.mp h
    rw [through_append] at hrun
    obtain ⟨d₁, hbefore, hstatus⟩ := Except.bind_eq_ok_iff.mp hrun
    rw [through_singleton] at hstatus
    obtain ⟨code, hvalue, rfl⟩ := (take_status hlast).mp hstatus
    rw [finishPeer_withCode] at hfinish
    obtain ⟨closed, hclosed, rfl⟩ := Except.map_eq_ok_iff.mp hfinish
    exact ⟨code, closed, hvalue, Except.bind_eq_ok_iff.mpr ⟨d₁, hbefore, hclosed⟩, rfl⟩
  · rintro ⟨code, closed, hvalue, hrun, rfl⟩
    obtain ⟨d₁, hbefore, hclosed⟩ := Except.bind_eq_ok_iff.mp hrun
    refine Except.bind_eq_ok_iff.mpr ⟨{ d₁ with code := some code }, ?_, ?_⟩
    · rw [through_append]
      refine Except.bind_eq_ok_iff.mpr ⟨d₁, hbefore, ?_⟩
      rw [through_singleton]
      exact (take_status hlast).mpr ⟨code, hvalue, rfl⟩
    · rw [finishPeer_withCode, hclosed]
      rfl

/-- **Lines end well** exactly if the last of them reports no error and the others describe a
device. -/
lemma through_status {dev : Device} {before : List Line} (h : ∀ l ∈ before, l.key ≠ statusKey)
    (last : Line) {d : DeviceDraft} :
    ((through take ⟨dev, none, none⟩ (before ++ [last])).bind finishPeer = .ok d ∧
        d.code = some 0) ↔
      (last.key = statusKey ∧ number? Decimal.readInt32 last.value = some 0) ∧
        Describes before ∧
        ⟨{ interfaceGiven dev (opening before) with
          peers := dev.peers ++ (blocks before).map PeerBlock.peer }, none, some 0⟩ = d := by
  by_cases hlast : last.key = statusKey
  · rw [through_concat_status hlast]
    constructor
    · rintro ⟨⟨code, closed, hvalue, hrun, rfl⟩, hcode⟩
      obtain rfl := Option.some.inj hcode
      obtain ⟨hdescribes, rfl⟩ := (through_take_eq_ok_iff h).mp hrun
      exact ⟨⟨hlast, hvalue⟩, hdescribes, rfl⟩
    · rintro ⟨⟨-, hvalue⟩, hdescribes, rfl⟩
      exact ⟨⟨0, _, hvalue, (through_take_eq_ok_iff h).mpr ⟨hdescribes, rfl⟩, rfl⟩, rfl⟩
  · have hall : ∀ l ∈ before ++ [last], l.key ≠ statusKey := by
      rw [List.forall_mem_append, List.forall_mem_singleton]
      exact ⟨h, hlast⟩
    constructor
    · rintro ⟨hd, hcode⟩
      obtain ⟨-, rfl⟩ := (through_take_eq_ok_iff hall).mp hd
      cases hcode
    · rintro ⟨⟨hstatus, -⟩, -⟩
      exact absurd hstatus hlast

end DeviceDraft

/-! ### Responses -/

/-- The last line, and no other, is the status, and it reports no error. -/
@[mk_iff]
structure EndsWell (lines : List Line) : Prop where
  /-- The last line is the status, which reports no error. -/
  last : ∃ value, lines.getLast? = some ⟨statusKey, value⟩ ∧
    number? Decimal.readInt32 value = some 0
  /-- No other line is. -/
  once : ∀ l ∈ lines.dropLast, l.key ≠ statusKey

/-- The lines of a response that stand before its first blank line are accepted. -/
@[mk_iff]
structure Accepted (body : List (List Char)) : Prop where
  /-- Every line has one equals sign. -/
  equals : ∀ line ∈ body, line.count '=' = 1
  /-- The status ends them, and reports no error. -/
  status : EndsWell (body.map Line.ofText)
  /-- The lines describe a device. -/
  describes : Describes (body.map Line.ofText)

lemma Pairs.foldM_eq_ok_iff {σ : Type} {f : σ → String × List Char → Except Error σ} {s s' : σ}
    {p : Pairs} :
    p.foldM f s = .ok s' ↔ ∃ items, p = ⟨items, none⟩ ∧ items.foldlM f s = .ok s' := by
  obtain ⟨items, fault⟩ := p
  rw [foldM]
  cases hrun : items.foldlM f s <;> cases fault <;>
    simp [hrun, bind, Except.bind, pure, Except.pure, throw, throwThe, MonadExceptOf.throw]

variable {name : String} {response : List Char} {device : Device}

/-- The steps of reading a response that succeeds. -/
lemma readGet_eq_ok_iff : readGet name response = .ok device ↔
    ∃ items, Pairs.ofText response = ⟨items, none⟩ ∧
      ∃ d, (items.foldlM DeviceDraft.step { device := startOf name }).bind
          DeviceDraft.finishPeer = .ok d ∧
        d.code = some 0 ∧ withDerivedKey d.device = device := by
  have hread : readGet name response = (do
      let d ← (Pairs.ofText response).foldM DeviceDraft.step { device := startOf name }
      let d ← d.finishPeer
      checkStatus "get" d.code
      return withDerivedKey d.device) := rfl
  rw [hread]
  constructor
  · intro h
    obtain ⟨d₁, hrun, h⟩ := Except.bind_eq_ok_iff.mp h
    obtain ⟨d, hfinish, h⟩ := Except.bind_eq_ok_iff.mp h
    obtain ⟨_, hstatus, h⟩ := Except.bind_eq_ok_iff.mp h
    obtain ⟨items, hpairs, hitems⟩ := Pairs.foldM_eq_ok_iff.mp hrun
    exact ⟨items, hpairs, d, Except.bind_eq_ok_iff.mpr ⟨d₁, hitems, hfinish⟩,
      checkStatus_eq_ok_iff.mp hstatus, Except.ok.inj h⟩
  · rintro ⟨items, hpairs, d, hrun, hcode, rfl⟩
    obtain ⟨d₁, hitems, hfinish⟩ := Except.bind_eq_ok_iff.mp hrun
    exact Except.bind_eq_ok_iff.mpr ⟨d₁, Pairs.foldM_eq_ok_iff.mpr ⟨items, hpairs, hitems⟩,
      Except.bind_eq_ok_iff.mpr ⟨d, hfinish,
        Except.bind_eq_ok_iff.mpr ⟨(), checkStatus_eq_ok_iff.mpr hcode, rfl⟩⟩⟩

lemma unknownAfter_status (value : List Char) (before : List Line) :
    Line.UnknownAfter ⟨statusKey, value⟩ before := by
  have hkeys : statusKey ≠ "public_key" ∧ statusKey ∉ peerKeys ∧ statusKey ∉ interfaceKeys := by
    decide
  refine ⟨hkeys.1, ?_⟩
  split_ifs
  · exact hkeys.2.1
  · exact hkeys.2.2

/-- The lines of a response are read to their end exactly if they describe a device and the status
behind it reports no error. -/
lemma through_lines {lines : List Line} (h : ∀ l ∈ lines.dropLast, l.key ≠ statusKey) :
    (∃ d, (through DeviceDraft.take ⟨startOf name, none, none⟩ lines).bind
        DeviceDraft.finishPeer = .ok d ∧ d.code = some 0 ∧ withDerivedKey d.device = device) ↔
      EndsWell lines ∧ Describes lines ∧ deviceOf name lines = device := by
  rw [endsWell_iff, and_iff_left h]
  rcases List.eq_nil_or_concat lines with rfl | ⟨before, last, hlines⟩
  · constructor
    · rintro ⟨d, hd, hcode, -⟩
      cases hd
      cases hcode
    · rintro ⟨⟨value, hlast, -⟩, -⟩
      cases hlast
  · rw [List.concat_eq_append] at hlines
    rw [hlines, List.dropLast_concat] at h
    rw [hlines, List.getLast?_concat]
    constructor
    · rintro ⟨d, hd, hcode, rfl⟩
      obtain ⟨⟨hkey, hvalue⟩, hdescribes, rfl⟩ := (DeviceDraft.through_status h last).mp ⟨hd, hcode⟩
      obtain ⟨key, value⟩ := last
      obtain rfl := hkey
      obtain ⟨hiff, hdevice⟩ := describes_insert (unknownAfter_status value before) []
      rw [List.append_nil] at hiff hdevice
      exact ⟨⟨value, rfl, hvalue⟩, hiff.mpr hdescribes,
        (hdevice name).trans (withDerivedKey_given name before).symm⟩
    · rintro ⟨⟨value, hlast, hvalue⟩, hdescribes, rfl⟩
      obtain rfl := Option.some.inj hlast
      obtain ⟨hiff, hdevice⟩ := describes_insert (unknownAfter_status value before) []
      rw [List.append_nil] at hiff hdevice
      obtain ⟨hd, hcode⟩ := (DeviceDraft.through_status h ⟨statusKey, value⟩).mpr
        ⟨⟨rfl, hvalue⟩, hiff.mp hdescribes, rfl⟩
      exact ⟨_, hd, hcode, (withDerivedKey_given name before).trans (hdevice name).symm⟩

/-- **A response is read** exactly if its lines are accepted, and as the device they describe. -/
lemma readGet_eq_ok_iff_accepted : readGet name response = .ok device ↔
    Accepted (Pairs.body response) ∧
      deviceOf name ((Pairs.body response).map Line.ofText) = device := by
  rw [readGet_eq_ok_iff, Pairs.ofText, accepted_iff]
  constructor
  · rintro ⟨items, hpairs, hrun⟩
    obtain ⟨hequals, honce, rfl⟩ := ofLines_eq_iff.mp hpairs
    rw [List.foldlM_map] at hrun
    obtain ⟨hstatus, hdescribes, hdevice⟩ := (through_lines honce).mp hrun
    exact ⟨⟨hequals, hstatus, hdescribes⟩, hdevice⟩
  · rintro ⟨⟨hequals, hstatus, hdescribes⟩, hdevice⟩
    refine ⟨_, ofLines_eq_iff.mpr ⟨hequals, hstatus.once, rfl⟩, ?_⟩
    rw [List.foldlM_map]
    exact (through_lines hstatus.once).mpr ⟨hstatus, hdescribes, hdevice⟩

/-- **A response whose status reports no error** fails only because it is malformed. -/
lemma failsOnly_readGet_of_endsWell (hequals : ∀ line ∈ Pairs.body response, line.count '=' = 1)
    (hstatus : EndsWell ((Pairs.body response).map Line.ofText)) :
    FailsOnly Error.IsDecode (readGet name response) := by
  have hpairs := ofLines_eq_iff.mpr ⟨hequals, hstatus.once, rfl⟩
  rw [readGet, Pairs.ofText, hpairs]
  refine .bind_of_ok (Pairs.failsOnly_foldM DeviceDraft.failsOnly_step _ _) fun d₁ hrun => ?_
  refine .bind_of_ok d₁.failsOnly_finishPeer fun d hfinish => ?_
  obtain ⟨items, hitems, hrun⟩ := Pairs.foldM_eq_ok_iff.mp hrun
  obtain rfl := (Pairs.mk.inj hitems).1
  rw [List.foldlM_map] at hrun
  obtain ⟨value, hlast, hvalue⟩ := hstatus.last
  obtain ⟨before, hlines⟩ := List.getLast?_eq_some_iff.mp hlast
  rw [hlines] at hrun
  have hall : (through DeviceDraft.take _ (before ++ [⟨statusKey, value⟩])).bind
      DeviceDraft.finishPeer = .ok d := Except.bind_eq_ok_iff.mpr ⟨d₁, hrun, hfinish⟩
  obtain ⟨code, closed, hcode, -, rfl⟩ := (DeviceDraft.through_concat_status rfl).mp hall
  obtain rfl := Option.some.inj (hcode.symm.trans hvalue)
  exact .ok _

/-! ### What a response may have besides -/

lemma body_of_blank {front blank : List Char} (hfront : Whole front)
    (hblank : blank = ['\n'] ∨ blank = ['\r', '\n']) (rest : List Char) :
    Pairs.body (front ++ blank ++ rest) = Pairs.body front := by
  have hline : split (blank ++ rest) = [] :: split rest := by
    rcases hblank with rfl | rfl
    · exact @split_line [] (by simp) rest
    · exact @split_line ['\r'] (by simp) rest
  rw [Pairs.body, List.append_assoc, split_whole_append hfront, hline, Pairs.body,
    List.takeWhile_append, List.takeWhile_cons_of_neg (by simp), List.append_nil, ite_eq_right_iff]
  intro hlength
  exact ((List.takeWhile_prefix _).eq_of_length hlength).symm

/-- A line without a meaning, in front of the status, does not matter to whether lines are
accepted. -/
lemma accepted_insert {before later : List (List Char)} {line : List Char}
    (hcount : line.count '=' = 1) (hkey : (Line.ofText line).key ≠ statusKey)
    (hunknown : (Line.ofText line).UnknownAfter (before.map Line.ofText)) (hlater : later ≠ []) :
    Accepted (before ++ line :: later) ↔ Accepted (before ++ later) := by
  have hmap : later.map Line.ofText ≠ [] := mt List.map_eq_nil_iff.mp hlater
  have hequals := forall_mem_insert (P := fun x : List Char => x.count '=' = 1) hcount before later
  have honce : (∀ l ∈ ((before ++ line :: later).map Line.ofText).dropLast, l.key ≠ statusKey) ↔
      ∀ l ∈ ((before ++ later).map Line.ofText).dropLast, l.key ≠ statusKey := by
    rw [List.map_append, List.map_cons, List.dropLast_append_of_ne_nil (List.cons_ne_nil _ _),
      List.dropLast_cons_of_ne_nil hmap, List.map_append, List.dropLast_append_of_ne_nil hmap]
    exact forall_mem_insert (P := fun l : Line => l.key ≠ statusKey) hkey _ _
  have hstatus : ((before ++ line :: later).map Line.ofText).getLast? =
      ((before ++ later).map Line.ofText).getLast? := by
    rw [List.map_append, List.map_cons, List.getLast?_append_of_ne_nil _ (List.cons_ne_nil _ _),
      List.getLast?_cons_of_ne_nil hmap, List.map_append, List.getLast?_append_of_ne_nil _ hmap]
  have hdescribes : Describes ((before ++ line :: later).map Line.ofText) ↔
      Describes ((before ++ later).map Line.ofText) := by
    rw [List.map_append, List.map_cons, List.map_append]
    exact (describes_insert hunknown _).1
  rw [accepted_iff, accepted_iff, endsWell_iff, endsWell_iff, hequals, honce, hstatus, hdescribes]

/-- **The responses that describe a device.** Of a response only the lines before its first blank
line matter. It is read exactly if every one of them has one equals sign, the last and no other is
the status and reports no error, those in front of the first `public_key` are valid for an
interface, and each `public_key` begins with the lines up to the next a valid block; and then as the
device whose interface has the last values of the former, and which has one peer for each block, in
order, with the last values and all networks of that block. Text behind a blank line does not
matter, nor does a line whose key has no meaning where it stands. -/
theorem readGet_grammar (name : String) (response : List Char) :
    (∀ device, readGet name response = .ok device ↔
      Accepted (Pairs.body response) ∧
        device = deviceOf name ((Pairs.body response).map Line.ofText)) ∧
    (∀ front blank rest, response = front ++ blank ++ rest → Whole front →
      (blank = ['\n'] ∨ blank = ['\r', '\n']) → readGet name response = readGet name front) ∧
    ∀ other before line later,
      Pairs.body response = before ++ line :: later → Pairs.body other = before ++ later →
      later ≠ [] → line.count '=' = 1 → (Line.ofText line).key ≠ statusKey →
      (Line.ofText line).UnknownAfter (before.map Line.ofText) →
      ∀ device, readGet name response = .ok device ↔ readGet name other = .ok device := by
  refine ⟨?_, ?_, ?_⟩
  · intro device
    rw [readGet_eq_ok_iff_accepted]
    exact and_congr_right fun _ => eq_comm
  · rintro front blank rest rfl hfront hblank
    rw [readGet, readGet, Pairs.ofText, Pairs.ofText, body_of_blank hfront hblank]
  · intro other before line later hresponse hother hlater hcount hkey hunknown device
    have hdevice := (describes_insert hunknown (later.map Line.ofText)).2 name
    rw [readGet_eq_ok_iff_accepted, readGet_eq_ok_iff_accepted, hresponse, hother,
      accepted_insert hcount hkey hunknown hlater, List.map_append, List.map_cons, hdevice,
      List.map_append]

end WireGuardControl.Uapi
