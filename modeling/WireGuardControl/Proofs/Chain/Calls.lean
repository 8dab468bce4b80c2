import Mathlib.Tactic
import WireGuardControl.Proofs.Chain.Asking
/-!
The calls that a chain makes.

* `Backend.noted`: a backend that keeps a journal of its calls next to its state, under its number
  in the chain, and does otherwise what it did; `notedFrom` numbers the backends of a chain.
* `Gives`: a chain gives an outcome, and the chain of noted backends gives the same after the same
  steps and has then noted some calls.
* `first_gives`, `gather_gives`, `closeAll_gives`: a backend is called once, and only where all
  before it have passed, have listed or passed, or in any case. Each goes by induction on the
  chain, the first call of which is one step.
* `backend_calls`: what a chain calls, and what it makes of the answers.
-/

namespace WireGuardControl

variable {σ α β : Type}

/-! ### Calls and journals -/

/-- A call of an operation of a backend. -/
inductive Call where
  /-- To list the devices. -/
  | devices
  /-- To read the device with a name. -/
  | device (name : String)
  /-- To update the device with a name. -/
  | configure (name : String) (config : Config)
  /-- To close. -/
  | close

/-- Calls in the order in which they were made, each with the number of its backend. -/
abbrev Journal := List (ℕ × Call)

/-- Notes a call and does what it did. -/
def noting (call : ℕ × Call) (x : StateM σ α) : StateM (Journal × σ) α := fun (log, s) =>
  let (a, s') := x s
  (a, (log ++ [call], s'))

lemma noting_run {call : ℕ × Call} {x : StateM σ α} {a : α} {s s' : σ} (h : x s = (a, s'))
    (log : Journal) : noting call x (log, s) = (a, (log ++ [call], s')) := by
  simp only [noting, h]

/-- The backend with the number `i`, whose calls are noted. -/
def Backend.noted (i : ℕ) (b : Backend (StateM σ)) : Backend (StateM (Journal × σ)) where
  name := b.name
  devices := noting (i, .devices) b.devices
  device := fun name => noting (i, .device name) (b.device name)
  configure := fun name config => noting (i, .configure name config) (b.configure name config)
  close := noting (i, .close) b.close

namespace Chain

/-- The backends of a chain, numbered from `i` on, whose calls are noted. -/
def notedFrom (i : ℕ) : List (Backend (StateM σ)) → List (Backend (StateM (Journal × σ)))
  | [] => []
  | b :: rest => b.noted i :: notedFrom (i + 1) rest

/-- One call of each of `n` backends, in order, of which the first has the number `i`. -/
def callsFrom (i n : ℕ) (call : Call) : Journal := (List.range' i n).map (·, call)

lemma append_callsFrom (log : Journal) (i n : ℕ) (call : Call) :
    log ++ [(i, call)] ++ callsFrom (i + 1) n call = log ++ callsFrom i (n + 1) call := by
  rw [callsFrom, callsFrom, List.range'_succ, List.map_cons, List.append_assoc,
    List.singleton_append]

/-- A chain gives `outcome` and leaves the state `s'`. The chain of noted backends does so too, and
has then noted `calls`. -/
structure Gives (chain : StateM σ (Except Error β)) (noted : StateM (Journal × σ) (Except Error β))
    (s : σ) (outcome : Except Error β) (s' : σ) (calls : Journal) : Prop where
  /-- What the chain gives. -/
  plain : chain s = (outcome, s')
  /-- What the chain of noted backends gives. -/
  noted : ∀ log, noted (log, s) = (outcome, (log ++ calls, s'))

/-- An answer says that the device is not there or that the backend is not available. -/
def Passes (answer : Except Error α) : Prop :=
  ∃ e, answer = .error e ∧ (e.kind = .notExist ∨ e.kind = .unimplemented)

lemma passes_error_iff {e : Error} : Passes (.error e : Except Error α) ↔ e.passes = true := by
  have hkind : e.passes = true ↔ e.kind = .notExist ∨ e.kind = .unimplemented := by
    rw [Error.passes]
    cases e.kind <;> simp
  constructor
  · rintro ⟨_, ⟨⟩, h⟩
    exact hkind.mpr h
  · intro h
    exact ⟨e, rfl, hkind.mp h⟩

/-- The outcome is the last answer, the first that does not pass, or there is no device if all of
`total` backends pass. -/
def FirstAnswer (total : ℕ) (answers : List (Except Error α)) (outcome : Except Error α) : Prop :=
  (∃ passed last, answers = passed ++ [last] ∧ (∀ a ∈ passed, Passes a) ∧ ¬ Passes last ∧
    outcome = last) ∨
  (answers.length = total ∧ (∀ a ∈ answers, Passes a) ∧ outcome = .error .notExist)

lemma FirstAnswer.cons {total : ℕ} {answers : List (Except Error α)} {a outcome : Except Error α}
    (ha : Passes a) (h : FirstAnswer total answers outcome) :
    FirstAnswer (total + 1) (a :: answers) outcome := by
  rcases h with ⟨passed, last, rfl, hpassed, hlast, hout⟩ | ⟨hlength, hpassed, hout⟩
  · exact .inl ⟨a :: passed, last, rfl, List.forall_mem_cons.mpr ⟨ha, hpassed⟩, hlast, hout⟩
  · exact .inr ⟨congrArg (· + 1) hlength, List.forall_mem_cons.mpr ⟨ha, hpassed⟩, hout⟩

/-! ### One after the other -/

lemma mapM_cons_run {ask : Backend (StateM σ) → StateM σ α} {b : Backend (StateM σ)}
    {bs : List (Backend (StateM σ))} {s s₁ s' : σ} {a : α} {answers : List α}
    (hb : ask b s = (a, s₁)) (hbs : bs.mapM ask s₁ = (answers, s')) :
    (b :: bs).mapM ask s = (a :: answers, s') := by
  rw [List.mapM_cons]
  simp only [bind, StateT.bind, hb, hbs]
  rfl

section First

variable {ask : (τ : Type) → Backend (StateM τ) → StateM τ (Except Error α)} {call : Call}

lemma gives_first_of_passes (hask : ∀ i (b : Backend (StateM σ)),
      ask _ (b.noted i) = noting (i, call) (ask σ b)) {b : Backend (StateM σ)}
    {bs : List (Backend (StateM σ))} {i n : ℕ} {a outcome : Except Error α} {s s₁ s' : σ}
    (hb : ask σ b s = (a, s₁)) (ha : Passes a)
    (h : Gives (first (ask σ) bs) (first (ask _) (notedFrom (i + 1) bs)) s₁ outcome s'
      (callsFrom (i + 1) n call)) :
    Gives (first (ask σ) (b :: bs)) (first (ask _) (notedFrom i (b :: bs))) s outcome s'
      (callsFrom i (n + 1) call) := by
  obtain ⟨e, rfl, -⟩ := id ha
  have he := passes_error_iff.mp ha
  constructor
  · rw [first_cons_of_passes hb he, h.plain]
  · intro log
    have hnoted : ask _ (b.noted i) (log, s) = (.error e, (log ++ [(i, call)], s₁)) := by
      rw [hask, noting_run hb]
    rw [notedFrom, first_cons_of_passes hnoted he, h.noted, append_callsFrom]

lemma gives_first_of_stops (hask : ∀ i (b : Backend (StateM σ)),
      ask _ (b.noted i) = noting (i, call) (ask σ b)) {b : Backend (StateM σ)}
    (bs : List (Backend (StateM σ))) (i : ℕ) {a : Except Error α} {s s₁ : σ}
    (hb : ask σ b s = (a, s₁)) (ha : ¬ Passes a) :
    Gives (first (ask σ) (b :: bs)) (first (ask _) (notedFrom i (b :: bs))) s a s₁
      (callsFrom i 1 call) := by
  have hstops : ∀ e, a = .error e → e.passes = false := by
    rintro e rfl
    exact Bool.eq_false_iff.mpr fun he => ha (passes_error_iff.mpr he)
  constructor
  · rw [first_cons_of_stops, hb]
    intro e s₂ heq
    rw [hb] at heq
    exact hstops e (congrArg Prod.fst heq)
  · intro log
    have hnoted : ask _ (b.noted i) (log, s) = (a, (log ++ [(i, call)], s₁)) := by
      rw [hask, noting_run hb]
    rw [notedFrom, first_cons_of_stops, hnoted]
    · rfl
    · intro e s₂ heq
      rw [hnoted] at heq
      exact hstops e (congrArg Prod.fst heq)

variable (ask) in
/-- **A chain asks its backends in order**, each once, until one does not pass. -/
lemma first_gives (hask : ∀ i (b : Backend (StateM σ)),
      ask _ (b.noted i) = noting (i, call) (ask σ b)) (bs : List (Backend (StateM σ))) (i : ℕ)
    (s : σ) :
    ∃ answers outcome s', (bs.take answers.length).mapM (ask σ) s = (answers, s') ∧
      FirstAnswer bs.length answers outcome ∧
      Gives (first (ask σ) bs) (first (ask _) (notedFrom i bs)) s outcome s'
        (callsFrom i answers.length call) := by
  induction bs generalizing i s with
  | nil =>
      refine ⟨[], .error .notExist, s, rfl, .inr ⟨rfl, by simp, rfl⟩, rfl, fun log => ?_⟩
      rw [List.length_nil, callsFrom, List.range'_zero, List.map_nil, List.append_nil]
      rfl
  | cons b bs ih =>
      rcases hb : ask σ b s with ⟨a, s₁⟩
      by_cases ha : Passes a
      · obtain ⟨answers, outcome, s', hrun, hfirst, hgives⟩ := ih (i + 1) s₁
        exact ⟨a :: answers, outcome, s', mapM_cons_run hb hrun, hfirst.cons ha,
          gives_first_of_passes hask hb ha hgives⟩
      · exact ⟨[a], a, s₁, mapM_cons_run hb rfl, .inl ⟨[], a, rfl, by simp, ha, rfl⟩,
          gives_first_of_stops hask bs i hb ha⟩

end First

/-! ### Listing -/

/-- An answer to a listing after which the next backend is called. -/
def ListsOrPasses (answer : Except Error (List Device)) : Prop :=
  (∃ found, answer = .ok found) ∨ Passes answer

/-- The devices of an answer; an error has none. -/
def found : Except Error (List Device) → List Device
  | .ok ds => ds
  | .error _ => []

/-- The outcome is the last answer, the first error that does not pass, or, if none of `total`
backends fails in this way, all that they have listed. -/
def JoinedAnswer (total : ℕ) (answers : List (Except Error (List Device)))
    (outcome : Except Error (List Device)) : Prop :=
  (∃ before e, answers = before ++ [.error e] ∧ (∀ a ∈ before, ListsOrPasses a) ∧
    ¬ ListsOrPasses (.error e) ∧ outcome = .error e) ∨
  (answers.length = total ∧ (∀ a ∈ answers, ListsOrPasses a) ∧
    outcome = .ok (answers.flatMap found))

lemma JoinedAnswer.cons {total : ℕ} {answers : List (Except Error (List Device))}
    {a outcome : Except Error (List Device)} (ha : ListsOrPasses a)
    (h : JoinedAnswer total answers outcome) :
    JoinedAnswer (total + 1) (a :: answers) (outcome.map (found a ++ ·)) := by
  rcases h with ⟨before, e, rfl, hbefore, hlast, rfl⟩ | ⟨hlength, hall, rfl⟩
  · exact .inl ⟨a :: before, e, rfl, List.forall_mem_cons.mpr ⟨ha, hbefore⟩, hlast, rfl⟩
  · exact .inr ⟨congrArg (· + 1) hlength, List.forall_mem_cons.mpr ⟨ha, hall⟩, rfl⟩

lemma map_nil_append (outcome : Except Error (List Device)) :
    outcome.map (([] : List Device) ++ ·) = outcome := by
  cases outcome <;> rfl

lemma gather_cons_of_continues {b : Backend (StateM σ)} {bs : List (Backend (StateM σ))}
    {a : Except Error (List Device)} {s s₁ : σ} (answer : b.devices s = (a, s₁))
    (ha : ListsOrPasses a) :
    gather (b :: bs) s = (((gather bs s₁).1.map (found a ++ ·)), (gather bs s₁).2) := by
  rw [gather]
  rcases ha with ⟨ds, rfl⟩ | hpass
  · simp only [bind, StateT.bind, answer]
    rfl
  · obtain ⟨e, rfl, -⟩ := id hpass
    simp only [bind, StateT.bind, answer, passes_error_iff.mp hpass, if_true, found,
      map_nil_append]
    rfl

lemma gather_cons_of_stops {b : Backend (StateM σ)} {bs : List (Backend (StateM σ))} {e : Error}
    {s s₁ : σ} (answer : b.devices s = (.error e, s₁)) (h : ¬ ListsOrPasses (.error e)) :
    gather (b :: bs) s = (.error e, s₁) := by
  have he : e.passes = false := Bool.eq_false_iff.mpr fun he => h (.inr (passes_error_iff.mpr he))
  rw [gather]
  simp only [bind, StateT.bind, answer, he]
  rfl

lemma gives_gather_of_continues {b : Backend (StateM σ)} {bs : List (Backend (StateM σ))}
    {i n : ℕ} {a outcome : Except Error (List Device)} {s s₁ s' : σ}
    (hb : b.devices s = (a, s₁)) (ha : ListsOrPasses a)
    (h : Gives (gather bs) (gather (notedFrom (i + 1) bs)) s₁ outcome s'
      (callsFrom (i + 1) n .devices)) :
    Gives (gather (b :: bs)) (gather (notedFrom i (b :: bs))) s (outcome.map (found a ++ ·)) s'
      (callsFrom i (n + 1) .devices) := by
  constructor
  · rw [gather_cons_of_continues hb ha, h.plain]
  · intro log
    have hnoted : (b.noted i).devices (log, s) = (a, (log ++ [(i, .devices)], s₁)) :=
      noting_run hb log
    rw [notedFrom, gather_cons_of_continues hnoted ha, h.noted, append_callsFrom]

lemma gives_gather_of_stops {b : Backend (StateM σ)} (bs : List (Backend (StateM σ))) (i : ℕ)
    {e : Error} {s s₁ : σ} (hb : b.devices s = (.error e, s₁)) (he : ¬ ListsOrPasses (.error e)) :
    Gives (gather (b :: bs)) (gather (notedFrom i (b :: bs))) s (.error e) s₁
      (callsFrom i 1 .devices) := by
  refine ⟨gather_cons_of_stops hb he, fun log => ?_⟩
  have hnoted : (b.noted i).devices (log, s) = (.error e, (log ++ [(i, .devices)], s₁)) :=
    noting_run hb log
  rw [notedFrom, gather_cons_of_stops hnoted he]
  rfl

/-- **A chain lists its backends in order**, each once, until one fails and does not pass. -/
lemma gather_gives (bs : List (Backend (StateM σ))) (i : ℕ) (s : σ) :
    ∃ answers outcome s', (bs.take answers.length).mapM (·.devices) s = (answers, s') ∧
      JoinedAnswer bs.length answers outcome ∧
      Gives (gather bs) (gather (notedFrom i bs)) s outcome s'
        (callsFrom i answers.length .devices) := by
  induction bs generalizing i s with
  | nil =>
      refine ⟨[], .ok [], s, rfl, .inr ⟨rfl, by simp, rfl⟩, rfl, fun log => ?_⟩
      rw [List.length_nil, callsFrom, List.range'_zero, List.map_nil, List.append_nil]
      rfl
  | cons b bs ih =>
      rcases hb : b.devices s with ⟨a, s₁⟩
      by_cases ha : ListsOrPasses a
      · obtain ⟨answers, outcome, s', hrun, hjoined, hgives⟩ := ih (i + 1) s₁
        exact ⟨a :: answers, outcome.map (found a ++ ·), s', mapM_cons_run hb hrun,
          hjoined.cons ha, gives_gather_of_continues hb ha hgives⟩
      · cases a with
        | ok ds => exact absurd (.inl ⟨ds, rfl⟩) ha
        | error e =>
            exact ⟨[.error e], .error e, s₁, mapM_cons_run hb rfl,
              .inl ⟨[], e, rfl, by simp, ha, rfl⟩, gives_gather_of_stops bs i hb ha⟩

/-! ### Closing -/

/-- The outcome is the first failure, if there is one. -/
def FirstFailure (answers : List (Except Error Unit)) (outcome : Except Error Unit) : Prop :=
  ((∀ a ∈ answers, a = .ok ()) ∧ outcome = .ok ()) ∨
    ∃ before e after, answers = before ++ .error e :: after ∧ (∀ a ∈ before, a = .ok ()) ∧
      outcome = .error e

/-- The outcome of a closing before others. -/
def failingFirst (a later : Except Error Unit) : Except Error Unit :=
  match a with
  | .ok _ => later
  | .error e => .error e

lemma FirstFailure.cons {answers : List (Except Error Unit)} {outcome : Except Error Unit}
    (a : Except Error Unit) (h : FirstFailure answers outcome) :
    FirstFailure (a :: answers) (failingFirst a outcome) := by
  cases a with
  | error e => exact .inr ⟨[], e, answers, rfl, by simp, rfl⟩
  | ok u =>
      rcases h with ⟨hall, hout⟩ | ⟨before, e, after, rfl, hbefore, hout⟩
      · exact .inl ⟨List.forall_mem_cons.mpr ⟨rfl, hall⟩, hout⟩
      · exact .inr ⟨.ok u :: before, e, after, rfl, List.forall_mem_cons.mpr ⟨rfl, hbefore⟩, hout⟩

lemma closeAll_cons {b : Backend (StateM σ)} {bs : List (Backend (StateM σ))}
    {a : Except Error Unit} {s s₁ : σ} (answer : b.close s = (a, s₁)) :
    closeAll (b :: bs) s = (failingFirst a (closeAll bs s₁).1, (closeAll bs s₁).2) := by
  rw [closeAll]
  simp only [bind, StateT.bind, answer]
  rfl

/-- **A chain closes its backends in order**, each once, whatever they answer. -/
lemma closeAll_gives (bs : List (Backend (StateM σ))) (i : ℕ) (s : σ) :
    ∃ answers outcome s', bs.mapM (·.close) s = (answers, s') ∧ FirstFailure answers outcome ∧
      Gives (closeAll bs) (closeAll (notedFrom i bs)) s outcome s'
        (callsFrom i bs.length .close) := by
  induction bs generalizing i s with
  | nil =>
      refine ⟨[], .ok (), s, rfl, .inl ⟨by simp, rfl⟩, rfl, fun log => ?_⟩
      rw [List.length_nil, callsFrom, List.range'_zero, List.map_nil, List.append_nil]
      rfl
  | cons b bs ih =>
      rcases hb : b.close s with ⟨a, s₁⟩
      have hnoted : ∀ log, (b.noted i).close (log, s) = (a, (log ++ [(i, .close)], s₁)) :=
        noting_run hb
      obtain ⟨answers, outcome, s', hrun, hfailure, hgives⟩ := ih (i + 1) s₁
      refine ⟨a :: answers, failingFirst a outcome, s', mapM_cons_run hb hrun, hfailure.cons a,
        ?_, fun log => ?_⟩
      · rw [closeAll_cons hb, hgives.plain]
      · rw [notedFrom, closeAll_cons (hnoted log), hgives.noted, append_callsFrom,
          List.length_cons]

/-! ### The chain -/

/-- **What a chain calls**, and what it makes of the answers. A device is read or updated by the
backends in order, each called once, until one does not pass, and the answer of this one is the
outcome; if all pass, there is no device. Devices are listed by the backends in order, each called
once, until one fails and does not pass, whose error is the outcome; if there is none, the outcome
is all that was listed. All backends are closed in order, each once, and the first failure is the
outcome. -/
theorem backend_calls (bs : List (Backend (StateM σ))) (s : σ) :
    (∀ name, ∃ answers outcome s',
      (bs.take answers.length).mapM (·.device name) s = (answers, s') ∧
      FirstAnswer bs.length answers outcome ∧
      Gives ((Chain.mk bs).backend.device name)
        ((Chain.mk (notedFrom 0 bs)).backend.device name) s outcome s'
        (callsFrom 0 answers.length (.device name))) ∧
    (∀ name config, ∃ answers outcome s',
      (bs.take answers.length).mapM (·.configure name config) s = (answers, s') ∧
      FirstAnswer bs.length answers outcome ∧
      Gives ((Chain.mk bs).backend.configure name config)
        ((Chain.mk (notedFrom 0 bs)).backend.configure name config) s outcome s'
        (callsFrom 0 answers.length (.configure name config))) ∧
    (∃ answers outcome s',
      (bs.take answers.length).mapM (·.devices) s = (answers, s') ∧
      JoinedAnswer bs.length answers outcome ∧
      Gives (Chain.mk bs).backend.devices (Chain.mk (notedFrom 0 bs)).backend.devices s outcome s'
        (callsFrom 0 answers.length .devices)) ∧
    ∃ answers outcome s',
      bs.mapM (·.close) s = (answers, s') ∧ FirstFailure answers outcome ∧
      Gives (Chain.mk bs).backend.close (Chain.mk (notedFrom 0 bs)).backend.close s outcome s'
        (callsFrom 0 bs.length .close) := by
  refine ⟨fun name => ?_, fun name config => ?_, gather_gives bs 0 s, closeAll_gives bs 0 s⟩
  · exact first_gives (fun _ b => b.device name) (fun _ _ => rfl) bs 0 s
  · exact first_gives (fun _ b => b.configure name config) (fun _ _ => rfl) bs 0 s

end Chain

end WireGuardControl
