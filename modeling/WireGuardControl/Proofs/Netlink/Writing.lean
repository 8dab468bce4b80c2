import WireGuardControl.Proofs.Netlink.Forest
/-!
Writing into one encoder, operation by operation.

* `Encoder.Writing`: what is done to an encoder. A failure takes nothing back by itself.
  `Encoder.push` writes an attribute piece by piece.
* `Operation`, `Script`: an operation, and operations one after the other, where each may depend on
  how those before it ended. The attributes inside a nested one are written by a script.
* `Script.addAll_eq`: writing a list of items is carrying out a script.
* `Script.steps`: the operations of a script as they are carried out. `Operation.octets` is what an
  operation writes on its own.
* `Script.steps_atomic`: every operation writes all that it writes on its own, or nothing.
-/

namespace WireGuardControl.Netlink

/-! ### Writing piece by piece -/

namespace Encoder

/-- What is done to an encoder. If it fails, what was written before the failure stays written. -/
abbrev Writing : Type := ExceptT Error (StateM Encoder) Unit

/-- The outcome of what is done to an encoder, and the encoder behind it. -/
def Writing.on (w : Writing) (e : Encoder) : Except Error Unit × Encoder := (ExceptT.run w).run e

/-- Writes octets behind the others. -/
def extend (b : Bytes) : Writing := modify fun e => ⟨e.octets ++ b⟩

/-- Carries all that is written to a multiple of four. -/
def align : Writing :=
  modify fun e => ⟨e.octets ++ List.replicate (Bytes.padding e.octets.size) (0 : UInt8)⟩

/-- Writes an attribute behind the others. -/
def push (kind : UInt16) (payload : Bytes) : Writing := do
  let length := attributeHeaderLength + payload.length
  if maxLength < length then
    throw (Item.overflow kind payload)
  extend (Bytes.ofUInt16LE (UInt16.ofNat length))
  extend (Bytes.ofUInt16LE kind)
  extend payload
  align

/-- The outcome of writing, and the encoder behind it, which is the one before if it fails. -/
def kept (e : Encoder) : Except Error Encoder → Except Error Unit × Encoder
  | .ok e' => (.ok (), e')
  | .error cause => (.error cause, e)

lemma on_push (e : Encoder) (kind : UInt16) (payload : Bytes) :
    (push kind payload).on e = e.kept (e.put kind payload) := by
  rw [put, push]
  by_cases h : attributeHeaderLength + payload.length ≤ maxLength
  · simp only [if_pos h, if_neg (not_lt.mpr h)]
    rfl
  · simp only [if_neg h, if_pos (not_le.mp h)]
    rfl

/-- Behind whole records, an attribute is written as it is written anywhere. -/
lemma on_push_eq {e : Encoder} (he : e.octets.size % 4 = 0) (kind : UInt16) (payload : Bytes) :
    (push kind payload).on e =
      e.kept ((recordOf kind payload).map fun b => ⟨e.octets ++ b.toArray⟩) := by
  rw [on_push, put_eq e he]

lemma length_mod_of_recordOf {kind : UInt16} {payload b : Bytes}
    (h : recordOf kind payload = .ok b) : b.length % 4 = 0 := by
  rw [recordOf] at h
  split_ifs at h
  cases h
  rw [length_record, Bytes.aligned_mod]

end Encoder

/-! ### Scripts -/

mutual

/-- An operation of an encoder. -/
inductive Operation where
  /-- An attribute with a value. -/
  | write (kind : UInt16) (value : Value)
  /-- An attribute that holds attributes, which are written into an encoder of their own. -/
  | nested (kind : UInt16) (inside : Script)

/-- Operations one after the other. -/
inductive Script where
  /-- There are no more, and this is the outcome. -/
  | stop (outcome : Except Error Unit)
  /-- An operation. What follows may depend on its outcome and on how many octets there are then. -/
  | perform (operation : Operation) (next : Except Error Unit → ℕ → Script)

end

mutual

/-- What an operation does. -/
def Operation.run : Operation → Encoder.Writing
  | .write kind value => Encoder.push kind value.payload
  | .nested kind inside => do
      let (outcome, child) := inside.run.on {}
      MonadExcept.ofExcept outcome
      Encoder.push (kind ||| nestedFlag) child.octets.toList

/-- What a script does. -/
def Script.run : Script → Encoder.Writing
  | .stop outcome => MonadExcept.ofExcept outcome
  | .perform operation next => do
      let outcome ← ExceptT.lift (ExceptT.run operation.run)
      let e ← get
      (next outcome e.octets.size).run

end

lemma Operation.on_nested (kind : UInt16) (inside : Script) (e : Encoder) :
    (nested kind inside).run.on e = match inside.run.on {} with
      | (.ok (), child) => (Encoder.push (kind ||| nestedFlag) child.octets.toList).on e
      | (.error cause, _) => (.error cause, e) := by
  rw [run]
  rcases inside.run.on {} with ⟨_ | _, child⟩ <;> rfl

/-- An operation as it was carried out. -/
structure Step where
  /-- The operation. -/
  operation : Operation
  /-- The encoder in front of it. -/
  before : Encoder
  /-- How it ended. -/
  outcome : Except Error Unit
  /-- The encoder behind it. -/
  after : Encoder

/-- An operation, carried out on an encoder. -/
def Operation.step (operation : Operation) (e : Encoder) : Step where
  operation := operation
  before := e
  outcome := (operation.run.on e).1
  after := (operation.run.on e).2

namespace Script

/-- The operations of a script as they are carried out. -/
def steps : Script → Encoder → List Step
  | .stop _, _ => []
  | .perform operation next, e =>
      let t := operation.step e
      t :: (next t.outcome t.after.octets.size).steps t.after

lemma on_stop (outcome : Except Error Unit) (e : Encoder) :
    (stop outcome).run.on e = (outcome, e) := by
  rw [run]
  cases outcome <;> rfl

lemma on_perform (operation : Operation) (next : Except Error Unit → ℕ → Script) (e : Encoder) :
    (perform operation next).run.on e =
      let t := operation.step e
      (next t.outcome t.after.octets.size).run.on t.after := by
  rw [run]
  rfl

end Script

/-- The induction principle of scripts: an operation is in front of whatever may follow. -/
@[elab_as_elim]
theorem Script.next_ind {P : Script → Prop} (stop : ∀ outcome, P (stop outcome))
    (perform : ∀ operation next, (∀ outcome length, P (next outcome length)) →
      P (perform operation next)) : ∀ s, P s
  | .stop outcome => stop outcome
  | .perform operation next =>
      perform operation next fun outcome length => next_ind stop perform (next outcome length)

/-! ### Items as scripts -/

mutual

/-- The operation that writes an item. -/
def Operation.ofItem : Item → Except Error Operation
  | .plain kind payload => .ok (.write kind (.octets payload))
  | .nested kind items => .ok (.nested kind (Script.ofItems items))
  | .refused cause => .error cause

/-- The script that writes items, up to the first that cannot be written. -/
def Script.ofItems : List Item → Script
  | [] => .stop (.ok ())
  | item :: rest =>
      match Operation.ofItem item with
      | .ok operation => .perform operation fun outcome _ =>
          match outcome with
          | .ok () => Script.ofItems rest
          | .error cause => .stop (.error cause)
      | .error cause => .stop (.error cause)

end

/-- The induction principle of lists of items: the first item is plain, or it holds items, or it
cannot be written. -/
@[elab_as_elim]
theorem Item.items_ind {P : List Item → Prop} (nil : P [])
    (plain : ∀ kind payload rest, P rest → P (plain kind payload :: rest))
    (nested : ∀ kind items rest, P items → P rest → P (nested kind items :: rest))
    (refused : ∀ cause rest, P (refused cause :: rest)) (items : List Item) : P items :=
  @Item.rec_1 (fun i => ∀ rest, P rest → P (i :: rest)) P plain
    (fun kind items hitems rest => nested kind items rest hitems)
    (fun cause rest _ => refused cause rest) nil (fun _ rest hi hrest => hi rest hrest) items

namespace Script

/-- The encoder behind a script that does not fail. -/
def result (s : Script) (e : Encoder) : Except Error Encoder :=
  let (outcome, e') := s.run.on e
  outcome.map fun () => e'

lemma addAll_cons {item : Item} {rest : List Item} {operation : Operation} {e : Encoder}
    (hitem : Operation.ofItem item = .ok operation)
    (hrun : operation.run.on e = e.kept (e.add item))
    (hrest : ∀ e, e.addAll rest = (ofItems rest).result e) :
    e.addAll (item :: rest) = (ofItems (item :: rest)).result e := by
  rw [Encoder.addAll, ofItems, hitem, result, on_perform, Operation.step, hrun]
  cases e.add item with
  | error cause =>
      -- Behind a failure, the script of a list of items does nothing but report it.
      have hstop := on_stop (.error cause) e
      change Except.error cause = (stop (.error cause)).result e
      rw [result, hstop]
      rfl
  | ok e' => exact hrest e'

/-- **Writing items is carrying out their script.** -/
lemma addAll_eq (items : List Item) (e : Encoder) :
    e.addAll items = (ofItems items).result e := by
  induction items using Item.items_ind generalizing e with
  | nil =>
      rw [Encoder.addAll, ofItems, result, on_stop]
      rfl
  | plain kind payload rest ih =>
      refine addAll_cons rfl ?_ ih
      rw [Encoder.add]
      exact e.on_push kind payload
  | nested kind items rest hinside ih =>
      refine addAll_cons rfl ?_ ih
      rw [Operation.on_nested, Encoder.add, hinside, result]
      rcases (ofItems items).run.on {} with ⟨cause | _, child⟩
      · rfl
      · exact e.on_push _ _
  | refused cause rest =>
      rw [Encoder.addAll, Encoder.add, ofItems, Operation.ofItem, result, on_stop]
      rfl

end Script

/-! ### Operations on whole records -/

namespace Operation

/-- What an operation writes on its own. -/
def octets : Operation → Except Error Bytes
  | .write kind value => Encoder.recordOf kind value.payload
  | .nested kind inside =>
      let (outcome, child) := inside.run.on {}
      outcome.bind fun () => Encoder.recordOf (kind ||| nestedFlag) child.octets.toList

/-- Behind whole records, an operation writes what it writes anywhere, or nothing. -/
lemma on_eq (operation : Operation) {e : Encoder} (he : e.octets.size % 4 = 0) :
    operation.run.on e = e.kept (operation.octets.map fun b => ⟨e.octets ++ b.toArray⟩) := by
  cases operation with
  | write kind value =>
      rw [run, octets]
      exact Encoder.on_push_eq he kind value.payload
  | nested kind inside =>
      rw [on_nested, octets]
      rcases inside.run.on {} with ⟨cause | _, child⟩
      · rfl
      · exact Encoder.on_push_eq he _ _

lemma length_mod_of_octets {operation : Operation} {b : Bytes}
    (h : operation.octets = .ok b) : b.length % 4 = 0 := by
  cases operation with
  | write kind value => exact Encoder.length_mod_of_recordOf h
  | nested kind inside =>
      rw [octets] at h
      generalize inside.run.on {} = ended at h
      rcases ended with ⟨cause | _, child⟩
      · cases h
      · exact Encoder.length_mod_of_recordOf h

/-- What an operation leaves in a new encoder. -/
def alone (operation : Operation) : Bytes := (operation.run.on {}).2.octets.toList

/-- On a new encoder, an operation leaves its octets. -/
lemma on_new (operation : Operation) :
    operation.run.on {} = Encoder.kept {} (operation.octets.map fun b => ⟨b.toArray⟩) := by
  rw [on_eq operation rfl]
  simp

end Operation

/-! ### Steps -/

namespace Step

/-- An operation is carried out as a whole or not at all, and as on a new encoder. -/
structure Atomic (t : Step) : Prop where
  /-- There were whole records in front of it. -/
  before_mod : t.before.octets.size % 4 = 0
  /-- There are whole records behind it. -/
  after_mod : t.after.octets.size % 4 = 0
  /-- It ended as it ends on a new encoder. -/
  outcome_eq : t.outcome = (t.operation.run.on {}).1
  /-- If it failed, nothing was written. -/
  of_error : ∀ cause, t.outcome = .error cause → t.after = t.before
  /-- If not, then what it leaves in a new encoder was written. -/
  of_ok : t.outcome = .ok () →
    t.after.octets.toList = t.before.octets.toList ++ t.operation.alone

/-- An operation on whole records is carried out as a whole or not at all. -/
lemma atomic (operation : Operation) {e : Encoder} (he : e.octets.size % 4 = 0) :
    (operation.step e).Atomic := by
  have hnew := operation.on_new
  rw [Operation.step, operation.on_eq he]
  cases hoctets : operation.octets with
  | error cause =>
      rw [hoctets] at hnew
      exact ⟨he, he, by rw [hnew]; rfl, fun _ _ => rfl, fun h => nomatch h⟩
  | ok b =>
      have hb := Operation.length_mod_of_octets hoctets
      have hsize : (e.octets ++ b.toArray).size % 4 = 0 := by
        simp only [Array.size_append, List.size_toArray]
        omega
      rw [hoctets] at hnew
      refine ⟨he, hsize, by rw [hnew]; rfl, fun _ h => (nomatch h), fun _ => ?_⟩
      rw [Operation.alone, hnew]
      exact Array.toList_append

/-- What the steps have written that succeeded, one behind the other. -/
def written (steps : List Step) : Bytes :=
  (steps.filter (·.outcome.isOk)).flatMap (·.operation.alone)

lemma Atomic.octets_after {t : Step} (h : t.Atomic) (later : List Step) :
    t.before.octets.toList ++ written (t :: later) = t.after.octets.toList ++ written later := by
  cases houtcome : t.outcome with
  | error cause =>
      have hfilter : ¬ t.outcome.isOk = true := by rw [houtcome]; exact Bool.false_ne_true
      rw [h.of_error cause houtcome, written, List.filter_cons, if_neg hfilter, written]
  | ok done =>
      have hfilter : t.outcome.isOk = true := by rw [houtcome]; rfl
      calc t.before.octets.toList ++ written (t :: later)
          = t.before.octets.toList ++ (t.operation.alone ++ written later) := by
            rw [written, List.filter_cons, if_pos hfilter, List.flatMap_cons, written]
        _ = t.after.octets.toList ++ written later := by
            rw [h.of_ok houtcome, List.append_assoc]

end Step

namespace Script

/-- Every operation of a script on whole records is carried out as a whole or not at all. -/
lemma atomic_of_mem_steps {s : Script} {e : Encoder} (he : e.octets.size % 4 = 0) {t : Step}
    (ht : t ∈ s.steps e) : t.Atomic := by
  induction s using next_ind generalizing e with
  | stop outcome => cases ht
  | perform operation next ih =>
      have hstep := Step.atomic operation he
      rcases List.mem_cons.mp ht with rfl | hlater
      · exact hstep
      · exact ih _ _ hstep.after_mod hlater

/-- What succeeds in a script on whole records is written, one behind the other. -/
lemma octets_on (s : Script) {e : Encoder} (he : e.octets.size % 4 = 0) :
    (s.run.on e).2.octets.toList = e.octets.toList ++ Step.written (s.steps e) := by
  induction s using next_ind generalizing e with
  | stop outcome =>
      rw [steps, on_stop]
      exact (List.append_nil _).symm
  | perform operation next ih =>
      have hstep := Step.atomic operation he
      set t := operation.step e
      calc ((perform operation next).run.on e).2.octets.toList
          = ((next t.outcome t.after.octets.size).run.on t.after).2.octets.toList := by
            rw [on_perform]
        _ = t.after.octets.toList ++
              Step.written ((next t.outcome t.after.octets.size).steps t.after) :=
            ih _ _ hstep.after_mod
        _ = e.octets.toList ++ Step.written ((perform operation next).steps e) :=
            (hstep.octets_after _).symm

/-- **Operations are atomic**: in whatever script on a new encoder, be it the one inside a nested
attribute, every operation finds and leaves whole records, writes what it leaves in a new encoder if
it succeeds there, and fails and writes nothing otherwise. In the end the encoder holds what the
operations that succeeded leave in a new one, one behind the other; this is a record for each. Lists
of items are written by such scripts. -/
theorem steps_atomic :
    (∀ s : Script, (∀ t ∈ s.steps {}, t.Atomic) ∧
      (s.run.on {}).2.octets.toList =
        ((s.steps {}).filter (·.outcome.isOk)).flatMap (·.operation.alone)) ∧
    (∀ operation : Operation, operation.run.on {} =
      Encoder.kept {} (operation.octets.map fun b => ⟨b.toArray⟩)) ∧
    ∀ (items : List Item) (e : Encoder), e.addAll items = (ofItems items).result e :=
  ⟨fun s => ⟨fun _ ht => atomic_of_mem_steps rfl ht, s.octets_on rfl⟩, Operation.on_new, addAll_eq⟩

/-- A nested attribute fails behind a number inside it, and the script goes on. -/
theorem steps_atomic_nested_failure :
    let inside : Script := .perform (.write 3 (.u16 0x201)) fun _ _ => .stop (.error .notExist)
    let s : Script := .perform (.write 1 (.u8 7)) fun _ _ => .perform (.nested 2 inside) fun _ _ =>
      .perform (.write 4 (.octets [])) fun outcome _ => .stop outcome
    (s.steps {}).map (·.outcome) = [.ok (), .error .notExist, .ok ()] ∧
      (∀ t ∈ s.steps {}, t.Atomic) ∧
      (s.run.on {}).2.octets.toList = [5, 0, 1, 0, 7, 0, 0, 0, 4, 0, 4, 0] := by
  intro inside s
  exact ⟨by decide, (steps_atomic.1 s).1, by decide⟩

end Script

end WireGuardControl.Netlink
