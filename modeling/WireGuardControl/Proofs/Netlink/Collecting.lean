import Mathlib.Tactic
import WireGuardControl.Netlink.Exchange
/-!
What an exchange collects, however its messages arrive.

* `Message.counts`, `Exchange.conclusion`: the messages that mean something to a request, and how
  the first of them that is no data ends its answer.
* `absorb_eq`: the step. One datagram takes an exchange as far as the messages that count in it.
* `feedAll_eq`: the run over datagrams is the step over all of their messages at once, so that
  neither the cuts between datagrams nor foreign messages matter.
* `feedAll_start`: the same for a request that is just sent.
-/

namespace WireGuardControl.Netlink

/-! ### Messages that count -/

namespace Message

/-- Whether a message counts for the request number `sequence`: it belongs to this request, and
has a meaning. -/
def counts (sequence : UInt32) (m : Message) : Bool := m.sequence = sequence ∧ m.role ≠ .noop

/-- Whether a message is part of the answer, and does not end it. -/
def isData (m : Message) : Bool := m.role = .data

/-- How a message ends an answer: with success if its code is zero, or is not negative at the end
of a dump, and otherwise with the magnitude of the code, so far as it has room in a code. -/
def verdict (m : Message) : Except Error Bool :=
  if m.errorCode = 0 ∨ m.role = .done ∧ 0 ≤ m.errorCode then .ok true
  else .error (.io (.code (Int32.ofInt (min m.errorCode.toInt.natAbs 2147483647))))

lemma verdict_of_error {m : Message} (h : m.role = .error) :
    m.verdict = if m.errorCode = 0 then .ok true
      else .error (.io (.code (Int32.ofInt (min m.errorCode.toInt.natAbs 2147483647)))) := by
  simp [verdict, h]

lemma verdict_of_done {m : Message} (h : m.role = .done) :
    m.verdict = if m.errorCode < 0
      then .error (.io (.code (Int32.ofInt (min m.errorCode.toInt.natAbs 2147483647))))
      else .ok true := by
  have hiff : (m.errorCode = 0 ∨ m.role = .done ∧ 0 ≤ m.errorCode) ↔ ¬ m.errorCode < 0 := by
    rw [Int32.not_lt]
    constructor
    · rintro (hzero | hle)
      · exact hzero ▸ Int32.le_refl _
      · exact hle.2
    · exact fun hle => .inr ⟨h, hle⟩
  simp only [verdict, hiff, ite_not]

lemma verdict_ne_incomplete (m : Message) : m.verdict ≠ .ok false := by
  rw [verdict]
  split_ifs <;> simp

end Message

namespace Exchange

/-- What messages that count say about an answer: the first that is no data ends it, and without
such a message it is incomplete. -/
def conclusion (own : List Message) : Except Error Bool :=
  match own.find? fun m => !m.isData with
  | none => .ok false
  | some m => m.verdict

/-- The magnitude of a code is its distance from zero, so far as that has room. -/
lemma magnitude_eq (code : Int32) :
    magnitude code = Int32.ofInt (min code.toInt.natAbs 2147483647) := by
  have hlow := code.le_toInt
  have hhigh := code.toInt_lt
  have hzero : code < 0 ↔ code.toInt < 0 := Int32.lt_iff_toInt_lt
  rw [← Int32.toInt_inj, Int32.toInt_ofInt_of_le (by omega) (by omega), magnitude]
  split_ifs with hmin hneg
  · rw [hmin]
    rfl
  · have hne : code.toInt ≠ -2 ^ 31 := fun heq =>
      hmin (Int32.toInt_inj.mp (heq.trans Int32.toInt_minValue.symm))
    have hlt := hzero.mp hneg
    rw [Int32.toInt_neg, Int.bmod_eq_of_le (by omega) (by omega)]
    omega
  · have hle : ¬ code.toInt < 0 := fun hlt => hneg (hzero.mpr hlt)
    omega

lemma failure_eq (code : Int32) :
    failure code = .io (.code (Int32.ofInt (min code.toInt.natAbs 2147483647))) := by
  rw [failure, magnitude_eq]

/-! ### Messages before the end -/

lemma conclusion_cons_of_isData {m : Message} (hm : m.isData = true) (rest : List Message) :
    conclusion (m :: rest) = conclusion rest := by
  rw [conclusion, List.find?_cons_of_neg (by simp [hm])]
  rfl

lemma conclusion_cons_of_not_isData {m : Message} (hm : m.isData = false) (rest : List Message) :
    conclusion (m :: rest) = m.verdict := by
  rw [conclusion, List.find?_cons_of_pos (by simp [hm])]

/-- An answer is incomplete exactly if all of its messages are data. -/
lemma conclusion_eq_incomplete_iff {own : List Message} :
    conclusion own = .ok false ↔ ∀ m ∈ own, m.isData = true := by
  induction own with
  | nil => simp [conclusion]
  | cons m rest ih =>
      cases hm : m.isData with
      | true => simp [conclusion_cons_of_isData hm, ih, hm]
      | false => simp [conclusion_cons_of_not_isData hm, m.verdict_ne_incomplete, hm]

/-- Behind data, an answer ends as it does without the data. -/
lemma conclusion_append_of_incomplete {own : List Message} (h : conclusion own = .ok false)
    (rest : List Message) : conclusion (own ++ rest) = conclusion rest := by
  rw [conclusion_eq_incomplete_iff] at h
  induction own with
  | nil => rfl
  | cons m own ih =>
      rw [List.forall_mem_cons] at h
      rw [List.cons_append, conclusion_cons_of_isData h.1, ih h.2]

/-- Behind its end, nothing changes an answer. -/
lemma append_of_complete {own : List Message} (h : conclusion own ≠ .ok false)
    (rest : List Message) : conclusion (own ++ rest) = conclusion own ∧
      (own ++ rest).takeWhile Message.isData = own.takeWhile Message.isData := by
  induction own with
  | nil => exact absurd rfl h
  | cons m own ih =>
      rw [List.cons_append]
      cases hm : m.isData with
      | true =>
          rw [conclusion_cons_of_isData hm] at h
          obtain ⟨hend, hdata⟩ := ih h
          rw [conclusion_cons_of_isData hm, conclusion_cons_of_isData hm,
            List.takeWhile_cons_of_pos hm, List.takeWhile_cons_of_pos hm, hend, hdata]
          exact ⟨rfl, rfl⟩
      | false =>
          have hm' : ¬ m.isData = true := by simp [hm]
          rw [conclusion_cons_of_not_isData hm, conclusion_cons_of_not_isData hm,
            List.takeWhile_cons_of_neg hm', List.takeWhile_cons_of_neg hm']
          exact ⟨rfl, rfl⟩

/-! ### One datagram -/

/-- An exchange that has collected more messages. -/
def gathering (x : Exchange) (more : List Message) : Exchange :=
  { x with messages := x.messages ++ more }

@[simp] lemma gathering_nil (x : Exchange) : x.gathering [] = x := by simp [gathering]

@[simp] lemma gathering_gathering (x : Exchange) (xs ys : List Message) :
    (x.gathering xs).gathering ys = x.gathering (xs ++ ys) := by simp [gathering]

/-- No message completes an answer as the only one of it: the request asked for an
acknowledgement, or more messages follow each that is data. -/
def Sustained (x : Exchange) (messages : List Message) : Prop :=
  x.acknowledged = true ∨
    ∀ m ∈ messages, m.sequence = x.sequence → m.role = .data → m.isMulti = true

variable {x : Exchange} {m : Message}

lemma absorb_cons_of_not_counts (h : m.counts x.sequence = false) (rest : List Message) :
    x.absorb false (m :: rest) = x.absorb false rest := by
  rw [absorb]
  by_cases hforeign : m.sequence = x.sequence
  · have hnoop : m.role = .noop := by
      by_contra hne
      rw [Message.counts, decide_eq_false_iff_not] at h
      exact h ⟨hforeign, hne⟩
    rw [if_neg (not_not.mpr hforeign), hnoop]
  · rw [if_pos hforeign]

lemma absorb_cons_of_isData (h : m.counts x.sequence = true) (hm : m.isData = true)
    (hmore : x.acknowledged = true ∨ m.isMulti = true) (rest : List Message) :
    x.absorb false (m :: rest) = (x.gathering [m]).absorb false rest := by
  have hown : ¬ m.sequence ≠ x.sequence := by
    rw [Message.counts, decide_eq_true_eq] at h
    exact not_not.mpr h.1
  have hrole : m.role = .data := of_decide_eq_true hm
  have hincomplete : (false || (!m.isMulti && !x.acknowledged)) = false := by
    rcases hmore with hmore | hmore <;> simp [hmore]
  rw [absorb, if_neg hown, hrole]
  simp only [hincomplete]
  rfl

lemma absorb_cons_of_not_isData (h : m.counts x.sequence = true) (hm : m.isData = false)
    (rest : List Message) : x.absorb false (m :: rest) = (m.verdict, x) := by
  rw [Message.counts, decide_eq_true_eq] at h
  rw [absorb, if_neg (not_not.mpr h.1)]
  cases hrole : m.role with
  | noop => exact absurd hrole h.2
  | data => exact absurd hrole (of_decide_eq_false hm)
  | error => rw [Message.verdict_of_error hrole, failure_eq]
  | done => rw [Message.verdict_of_done hrole, failure_eq]

/-- **One datagram takes an exchange as far as the messages that count in it.** -/
lemma absorb_eq {messages : List Message} (h : x.Sustained messages) :
    x.absorb false messages =
      (conclusion (messages.filter (Message.counts x.sequence)),
        x.gathering ((messages.filter (Message.counts x.sequence)).takeWhile Message.isData)) := by
  induction messages generalizing x with
  | nil => simp [absorb, conclusion]
  | cons m rest ih =>
      have hrest : x.Sustained rest := h.imp_right fun hall n hn => hall n (by simp [hn])
      cases hcounts : m.counts x.sequence with
      | false =>
          rw [absorb_cons_of_not_counts hcounts, ih hrest,
            List.filter_cons_of_neg (by simp [hcounts])]
      | true =>
          rw [List.filter_cons_of_pos hcounts]
          cases hm : m.isData with
          | false =>
              rw [absorb_cons_of_not_isData hcounts hm, conclusion_cons_of_not_isData hm,
                List.takeWhile_cons_of_neg (by simp [hm]), gathering_nil]
          | true =>
              have hmore : x.acknowledged = true ∨ m.isMulti = true :=
                h.imp_right fun hall => hall m (by simp) (of_decide_eq_true hcounts).1
                  (of_decide_eq_true hm)
              rw [absorb_cons_of_isData hcounts hm hmore, ih (x := x.gathering [m]) hrest,
                conclusion_cons_of_isData hm, List.takeWhile_cons_of_pos hm, gathering_gathering]
              rfl

/-! ### All datagrams -/

/-- **Many datagrams take an exchange as far as the messages that count in all of them**, wherever
one datagram ends and the next begins. -/
lemma feedAll_eq {datagrams : List Bytes} {messages : List (List Message)}
    (hread : List.Forall₂ (fun b ms => Message.decodeAll b = .ok ms) datagrams messages)
    (h : x.Sustained messages.flatten) :
    x.feedAll datagrams =
      (conclusion (messages.flatten.filter (Message.counts x.sequence)),
        x.gathering
          ((messages.flatten.filter (Message.counts x.sequence)).takeWhile Message.isData)) := by
  induction hread generalizing x with
  | nil => simp [feedAll, conclusion]
  | @cons datagram ms rest later hms _ ih =>
      rw [List.flatten_cons] at h ⊢
      have hfirst : x.Sustained ms := h.imp_right fun hall n hn => hall n (by simp [hn])
      have hlater : x.Sustained later.flatten :=
        h.imp_right fun hall n hn => hall n (List.mem_append_right _ hn)
      have hfeed : x.feed datagram = x.absorb false ms := by rw [feed, hms]
      rw [List.filter_append]
      set own := ms.filter (Message.counts x.sequence) with hown
      by_cases hend : conclusion own = .ok false
      · have hdata := conclusion_eq_incomplete_iff.mp hend
        have hall : own.takeWhile Message.isData = own := by
          simpa using @List.takeWhile_append_of_pos _ Message.isData own [] hdata
        rw [feedAll, hfeed, absorb_eq hfirst, ← hown, hend]
        simp only
        rw [ih (x := x.gathering (own.takeWhile Message.isData)) hlater,
          conclusion_append_of_incomplete hend, gathering_gathering,
          List.takeWhile_append_of_pos hdata, hall]
        rfl
      · obtain ⟨hsame, hcollected⟩ :=
          append_of_complete hend (later.flatten.filter (Message.counts x.sequence))
        rw [hsame, hcollected, feedAll, hfeed, absorb_eq hfirst, ← hown]
        split
        · next heq => exact absurd (Prod.mk.inj heq).1 hend
        · rfl

/-- **An exchange is a faithful automaton**: for any number and flags of a request and any
datagrams, the answer and its outcome depend only on the messages that count, in order. The data
before the first of them that is no data is the answer, and that message is its outcome; without
such a message the answer is incomplete, and holds all data. -/
theorem feedAll_start {datagrams : List Bytes} {messages : List (List Message)}
    (hread : List.Forall₂ (fun b ms => Message.decodeAll b = .ok ms) datagrams messages)
    (sequence : UInt32) (flags : UInt16)
    (h : flags &&& flagAck ≠ 0 ∨ ∀ m ∈ messages.flatten, m.sequence = sequence →
      m.role = .data → m.isMulti = true) :
    let own := messages.flatten.filter (Message.counts sequence)
    (start sequence flags).feedAll datagrams =
      (conclusion own,
        { start sequence flags with messages := own.takeWhile Message.isData }) := by
  refine feedAll_eq hread (h.imp_left fun hflag => ?_)
  simpa [start] using hflag

/-- A dump in three datagrams: data behind a message of another request, a message without a
meaning and more data, and the end with a message behind it. -/
theorem feedAll_start_dump :
    let first : Message := { kind := 0x1C, flags := flagMulti, sequence := 3, payload := [1] }
    let second : Message := { kind := 0x1C, flags := flagMulti, sequence := 3, payload := [2] }
    let foreign : Message := { kind := kindError, sequence := 2, payload := [237, 255, 255, 255] }
    let noop : Message := { kind := kindNoop, sequence := 3 }
    let done : Message :=
      { kind := kindDone, flags := flagMulti, sequence := 3, payload := [0, 0, 0, 0] }
    let messages := [[foreign, first], [noop, second], [done, first]]
    let datagrams : List Bytes :=
      [[20, 0, 0, 0, 2, 0, 0, 0, 2, 0, 0, 0, 0, 0, 0, 0, 237, 255, 255, 255,
          17, 0, 0, 0, 28, 0, 2, 0, 3, 0, 0, 0, 0, 0, 0, 0, 1, 0, 0, 0],
        [16, 0, 0, 0, 1, 0, 0, 0, 3, 0, 0, 0, 0, 0, 0, 0,
          17, 0, 0, 0, 28, 0, 2, 0, 3, 0, 0, 0, 0, 0, 0, 0, 2, 0, 0, 0],
        [20, 0, 0, 0, 3, 0, 2, 0, 3, 0, 0, 0, 0, 0, 0, 0, 0, 0, 0, 0,
          17, 0, 0, 0, 28, 0, 2, 0, 3, 0, 0, 0, 0, 0, 0, 0, 1]]
    List.Forall₂ (fun b ms => Message.decodeAll b = .ok ms) datagrams messages ∧
      (∀ m ∈ messages.flatten, m.sequence = 3 → m.role = .data → m.isMulti = true) ∧
      (start 3 (flagRequest ||| flagDump)).feedAll datagrams =
        (.ok true, { start 3 (flagRequest ||| flagDump) with messages := [first, second] }) := by
  intro first second foreign noop done messages datagrams
  have hread : List.Forall₂ (fun b ms => Message.decodeAll b = .ok ms) datagrams messages := by
    refine .cons ?_ (.cons ?_ (.cons ?_ .nil)) <;> cbv
  have hmulti : ∀ m ∈ messages.flatten, m.sequence = 3 → m.role = .data → m.isMulti = true := by
    decide
  exact ⟨hread, hmulti, feedAll_start hread 3 (flagRequest ||| flagDump) (.inr hmulti)⟩

end Exchange

end WireGuardControl.Netlink
