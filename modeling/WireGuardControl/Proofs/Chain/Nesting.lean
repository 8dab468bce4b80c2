import Mathlib.Tactic
import WireGuardControl.Proofs.Chain.Calls
/-!
Chains inside chains.

* `first_append`, `gather_append`, `closeAll_append`: what a chain does with backends in front of
  others, in any monad. A device that the first do not have is asked of the others, what both list
  is joined, and all of them are closed.
* `gather_bind_congr`: a listing that fails does not pass, so that a chain around it fails too.
* `backend_nested`: a chain of chains is the chain of all their backends.
* `session_nested`: the two give the same answers to any calls one after the other, and their
  backends receive the same calls in the same order.
-/

namespace WireGuardControl

namespace Chain

variable {m : Type → Type} {α : Type}

section Monad

variable [Monad m]

/-! ### Asking -/

/-- Gives an answer, or asks further on if it passes. -/
def orElseAsk (next : m (Except Error α)) : Except Error α → m (Except Error α)
  | .ok a => pure (.ok a)
  | .error e => if e.passes then next else pure (.error e)

lemma first_cons (ask : Backend m → m (Except Error α)) (b : Backend m) (rest : List (Backend m)) :
    first ask (b :: rest) = ask b >>= orElseAsk (first ask rest) := by
  rw [first]
  refine congrArg _ (funext fun answer => ?_)
  cases answer <;> rfl

/-! ### Listing -/

/-- Joins what is listed further on to `ds`. -/
def joinTo (ds : List Device) (next : m (Except Error (List Device))) :
    m (Except Error (List Device)) := do
  return (← next).map (ds ++ ·)

/-- Joins what is listed further on to what was listed. -/
def joinNext (next : m (Except Error (List Device))) :
    Except Error (List Device) → m (Except Error (List Device))
  | .ok ds => joinTo ds next
  | .error e => pure (.error e)

/-- Joins what is listed further on to what was listed, which may be passed over. -/
def joinNextOrPass (next : m (Except Error (List Device))) :
    Except Error (List Device) → m (Except Error (List Device))
  | .ok ds => joinTo ds next
  | .error e => if e.passes then next else pure (.error e)

lemma gather_cons (b : Backend m) (rest : List (Backend m)) :
    gather (b :: rest) = b.devices >>= joinNextOrPass (gather rest) := by
  rw [gather]
  refine congrArg _ (funext fun answer => ?_)
  cases answer <;> rfl

/-! ### Closing -/

/-- Closes further on, whatever was answered before. -/
def closeNext (next : m (Except Error Unit)) (outcome : Except Error Unit) :
    m (Except Error Unit) := do
  return failingFirst outcome (← next)

lemma closeAll_cons_eq (b : Backend m) (rest : List (Backend m)) :
    closeAll (b :: rest) = b.close >>= closeNext (closeAll rest) := by
  rw [closeAll]
  refine congrArg _ (funext fun outcome => congrArg _ (funext fun later => ?_))
  cases outcome <;> rfl

end Monad

section LawfulMonad

variable [Monad m] [LawfulMonad m]

/-! ### Backends in front of others -/

lemma orElseAsk_bind (next later : m (Except Error α)) (answer : Except Error α) :
    orElseAsk next answer >>= orElseAsk later = orElseAsk (next >>= orElseAsk later) answer := by
  cases answer with
  | ok a => simp only [orElseAsk, pure_bind]
  | error e => cases he : e.passes <;> simp [orElseAsk, he]

/-- A chain asks the backends in front, and the others if these pass. -/
lemma first_append (ask : Backend m → m (Except Error α)) (xs ys : List (Backend m)) :
    first ask (xs ++ ys) = first ask xs >>= orElseAsk (first ask ys) := by
  induction xs with
  | nil =>
      rw [List.nil_append, first, pure_bind]
      rfl
  | cons b rest ih =>
      rw [List.cons_append, first_cons, first_cons, ih, bind_assoc]
      exact congrArg _ (funext fun answer => (orElseAsk_bind _ _ answer).symm)

lemma joinTo_nil (next : m (Except Error (List Device))) : joinTo [] next = next := by
  rw [joinTo]
  simp only [map_nil_append, bind_pure]

lemma joinTo_append (xs ys : List Device) (next : m (Except Error (List Device))) :
    joinTo (xs ++ ys) next = joinTo xs (joinTo ys next) := by
  simp only [joinTo, bind_assoc, pure_bind]
  refine congrArg _ (funext fun later => ?_)
  cases later <;> simp [Except.map]

lemma joinNext_map (next : m (Except Error (List Device))) (ds : List Device)
    (answer : Except Error (List Device)) :
    joinNext next (answer.map (ds ++ ·)) = joinTo ds (joinNext next answer) := by
  cases answer with
  | ok found => exact joinTo_append ds found next
  | error e => simp only [joinTo, joinNext, pure_bind, Except.map]

lemma joinNextOrPass_bind (next later : m (Except Error (List Device)))
    (answer : Except Error (List Device)) :
    joinNextOrPass next answer >>= joinNext later =
      joinNextOrPass (next >>= joinNext later) answer := by
  cases answer with
  | ok ds =>
      simp only [joinNextOrPass, joinTo, bind_assoc, pure_bind]
      exact congrArg _ (funext fun found => joinNext_map later ds found)
  | error e => cases he : e.passes <;> simp [joinNextOrPass, joinNext, he]

/-- A chain joins what the backends in front list to what the others list. -/
lemma gather_append (xs ys : List (Backend m)) :
    gather (xs ++ ys) = gather xs >>= joinNext (gather ys) := by
  induction xs with
  | nil => rw [List.nil_append, gather, pure_bind, joinNext, joinTo_nil]
  | cons b rest ih =>
      rw [List.cons_append, gather_cons, gather_cons, ih, bind_assoc]
      exact congrArg _ (funext fun answer => (joinNextOrPass_bind _ _ answer).symm)

/-- What follows a listing matters only for lists and for failures that do not pass. -/
lemma gather_bind_congr {β : Type} {f g : Except Error (List Device) → m β}
    (hok : ∀ ds, f (.ok ds) = g (.ok ds))
    (herror : ∀ e, e.passes = false → f (.error e) = g (.error e)) (bs : List (Backend m)) :
    gather bs >>= f = gather bs >>= g := by
  induction bs generalizing f g with
  | nil => simp only [gather, pure_bind, hok]
  | cons b rest ih =>
      rw [gather_cons, bind_assoc, bind_assoc]
      refine congrArg _ (funext fun answer => ?_)
      cases answer with
      | ok ds =>
          simp only [joinNextOrPass, joinTo, bind_assoc, pure_bind]
          exact ih (fun found => hok (ds ++ found)) herror
      | error e =>
          cases he : e.passes
          · simp [joinNextOrPass, he, herror e he]
          · simpa [joinNextOrPass, he] using ih hok herror

lemma gather_bind_joinNextOrPass (bs : List (Backend m)) (next : m (Except Error (List Device))) :
    gather bs >>= joinNextOrPass next = gather bs >>= joinNext next := by
  apply gather_bind_congr
  · intro ds
    rfl
  · intro e he
    simp [joinNextOrPass, joinNext, he]

/-- A chain closes the backends in front and the others. -/
lemma closeAll_append (xs ys : List (Backend m)) :
    closeAll (xs ++ ys) = closeAll xs >>= closeNext (closeAll ys) := by
  induction xs with
  | nil =>
      rw [List.nil_append, closeAll, pure_bind, closeNext]
      simp [failingFirst]
  | cons b rest ih =>
      rw [List.cons_append, closeAll_cons_eq, closeAll_cons_eq, ih, bind_assoc]
      refine congrArg _ (funext fun outcome => ?_)
      cases outcome <;> simp [closeNext, failingFirst]

/-! ### Chains of chains -/

/-- A chain of chains, each of some backends. -/
def nested (bss : List (List (Backend m))) : Backend m :=
  (Chain.mk (bss.map fun bs => (Chain.mk bs).backend)).backend

lemma first_nested {ask : Backend m → m (Except Error α)}
    (hask : ∀ bs, ask (Chain.mk bs).backend = first ask bs) (bss : List (List (Backend m))) :
    first ask (bss.map fun bs => (Chain.mk bs).backend) = first ask bss.flatten := by
  induction bss with
  | nil => rfl
  | cons bs rest ih =>
      rw [List.map_cons, List.flatten_cons, first_cons, hask, ih, first_append]

lemma gather_nested (bss : List (List (Backend m))) :
    gather (bss.map fun bs => (Chain.mk bs).backend) = gather bss.flatten := by
  induction bss with
  | nil => rfl
  | cons bs rest ih =>
      rw [List.map_cons, List.flatten_cons, gather_cons, ih, gather_append,
        ← gather_bind_joinNextOrPass]
      rfl

lemma closeAll_nested (bss : List (List (Backend m))) :
    closeAll (bss.map fun bs => (Chain.mk bs).backend) = closeAll bss.flatten := by
  induction bss with
  | nil => rfl
  | cons bs rest ih =>
      rw [List.map_cons, List.flatten_cons, closeAll_cons_eq, ih, closeAll_append]
      rfl

/-- **A chain of chains is the chain of all their backends**, in any monad. -/
theorem backend_nested (bss : List (List (Backend m))) :
    nested bss = (Chain.mk bss.flatten).backend := by
  have hdevice : ∀ name, first (·.device name) (bss.map fun bs => (Chain.mk bs).backend) =
      first (·.device name) bss.flatten := fun name => first_nested (fun _ => rfl) bss
  have hconfigure : ∀ name config,
      first (·.configure name config) (bss.map fun bs => (Chain.mk bs).backend) =
        first (·.configure name config) bss.flatten :=
    fun name config => first_nested (fun _ => rfl) bss
  rw [nested, backend, backend]
  simp only [hdevice, hconfigure, gather_nested, closeAll_nested]

end LawfulMonad

end Chain

/-! ### Sessions -/

/-- An answer to a call. -/
inductive Answer where
  /-- To a listing. -/
  | devices (answer : Except Error (List Device))
  /-- To the reading of a device. -/
  | device (answer : Except Error Device)
  /-- To the update of a device. -/
  | configure (answer : Except Error Unit)
  /-- To a closing. -/
  | close (answer : Except Error Unit)

namespace Backend

variable {m : Type → Type} [Monad m]

/-- Makes a call. -/
def answer (b : Backend m) : Call → m Answer
  | .devices => Answer.devices <$> b.devices
  | .device name => Answer.device <$> b.device name
  | .configure name config => Answer.configure <$> b.configure name config
  | .close => Answer.close <$> b.close

/-- Makes calls one after the other. -/
def session (b : Backend m) (calls : List Call) : m (List Answer) := calls.mapM b.answer

end Backend

namespace Chain

variable {σ α β : Type}

/-- The backends of chains inside a chain, numbered from `i` on over all of them, whose calls are
noted. -/
def notedLists (i : ℕ) : List (List (Backend (StateM σ))) →
    List (List (Backend (StateM (Journal × σ))))
  | [] => []
  | bs :: rest => notedFrom i bs :: notedLists (i + bs.length) rest

lemma notedFrom_append (i : ℕ) (xs ys : List (Backend (StateM σ))) :
    notedFrom i (xs ++ ys) = notedFrom i xs ++ notedFrom (i + xs.length) ys := by
  induction xs generalizing i with
  | nil => rfl
  | cons b rest ih =>
      rw [List.cons_append, notedFrom, notedFrom, ih, List.cons_append, List.length_cons,
        Nat.add_right_comm, Nat.add_assoc]

lemma flatten_notedLists (i : ℕ) (bss : List (List (Backend (StateM σ)))) :
    (notedLists i bss).flatten = notedFrom i bss.flatten := by
  induction bss generalizing i with
  | nil => rfl
  | cons bs rest ih => rw [notedLists, List.flatten_cons, List.flatten_cons, ih, notedFrom_append]

/-- A computation gives `a` and leaves the state `s'`. The computation with noted backends does so
too, and has then noted `calls`. -/
def Notes (x : StateM σ α) (noted : StateM (Journal × σ) α) (s : σ) (a : α) (s' : σ)
    (calls : Journal) : Prop :=
  x s = (a, s') ∧ ∀ log, noted (log, s) = (a, (log ++ calls, s'))

lemma notes_pure (a : α) (s : σ) : Notes (pure a) (pure a) s a s [] :=
  ⟨rfl, fun log => by rw [List.append_nil]; rfl⟩

lemma Notes.bind {x : StateM σ α} {noted : StateM (Journal × σ) α} {f : α → StateM σ β}
    {noted' : α → StateM (Journal × σ) β} {s s₁ s₂ : σ} {a : α} {b : β} {calls₁ calls₂ : Journal}
    (hx : Notes x noted s a s₁ calls₁) (hf : Notes (f a) (noted' a) s₁ b s₂ calls₂) :
    Notes (x >>= f) (noted >>= noted') s b s₂ (calls₁ ++ calls₂) := by
  refine ⟨?_, fun log => ?_⟩
  · simp only [Bind.bind, StateT.bind, hx.1]
    exact hf.1
  · simp only [Bind.bind, StateT.bind, hx.2]
    rw [← List.append_assoc]
    exact hf.2 (log ++ calls₁)

lemma Gives.notes_map {chain : StateM σ (Except Error β)}
    {noted : StateM (Journal × σ) (Except Error β)} {s s' : σ} {outcome : Except Error β}
    {calls : Journal} (h : Gives chain noted s outcome s' calls) (f : Except Error β → α) :
    Notes (f <$> chain) (f <$> noted) s (f outcome) s' calls := by
  refine ⟨?_, fun log => ?_⟩
  · simp only [Functor.map, StateT.map, h.plain]
    rfl
  · simp only [Functor.map, StateT.map, h.noted]
    rfl

/-- A call of a chain does the same with noted backends, and is noted. -/
lemma exists_notes_answer (bs : List (Backend (StateM σ))) (call : Call) (s : σ) :
    ∃ a s' calls, Notes ((Chain.mk bs).backend.answer call)
      ((Chain.mk (notedFrom 0 bs)).backend.answer call) s a s' calls := by
  cases call with
  | devices =>
      obtain ⟨_, outcome, s', -, -, h⟩ := gather_gives bs 0 s
      exact ⟨_, s', _, h.notes_map Answer.devices⟩
  | device name =>
      have hask : ∀ i (b : Backend (StateM σ)),
          (b.noted i).device name = noting (i, .device name) (b.device name) := fun _ _ => rfl
      obtain ⟨_, outcome, s', -, -, h⟩ := first_gives (fun _ b => b.device name) hask bs 0 s
      exact ⟨_, s', _, h.notes_map Answer.device⟩
  | configure name config =>
      have hask : ∀ i (b : Backend (StateM σ)), (b.noted i).configure name config =
          noting (i, .configure name config) (b.configure name config) := fun _ _ => rfl
      obtain ⟨_, outcome, s', -, -, h⟩ :=
        first_gives (fun _ b => b.configure name config) hask bs 0 s
      exact ⟨_, s', _, h.notes_map Answer.configure⟩
  | close =>
      obtain ⟨_, outcome, s', -, -, h⟩ := closeAll_gives bs 0 s
      exact ⟨_, s', _, h.notes_map Answer.close⟩

/-- A session of a chain does the same with noted backends, and its calls are noted. -/
lemma exists_notes_session (bs : List (Backend (StateM σ))) (calls : List Call) (s : σ) :
    ∃ answers s' journal, Notes ((Chain.mk bs).backend.session calls)
      ((Chain.mk (notedFrom 0 bs)).backend.session calls) s answers s' journal := by
  induction calls generalizing s with
  | nil => exact ⟨[], s, [], notes_pure [] s⟩
  | cons call rest ih =>
      obtain ⟨a, s₁, calls₁, hcall⟩ := exists_notes_answer bs call s
      obtain ⟨as, s₂, calls₂, hrest⟩ := ih s₁
      simp only [Backend.session, List.mapM_cons] at hrest ⊢
      exact ⟨a :: as, s₂, _, hcall.bind (hrest.bind (notes_pure (a :: as) s₂))⟩

/-- **Nesting chains changes nothing.** A chain of chains and the chain of all their backends, in
the same state, give the same answers to the same calls and leave the same state, and their
backends have then received the same calls in the same order. -/
theorem session_nested (bss : List (List (Backend (StateM σ)))) (calls : List Call) (s : σ) :
    ∃ answers s' journal,
      Notes ((nested bss).session calls) ((nested (notedLists 0 bss)).session calls)
        s answers s' journal ∧
      Notes ((Chain.mk bss.flatten).backend.session calls)
        ((Chain.mk (notedFrom 0 bss.flatten)).backend.session calls) s answers s' journal := by
  obtain ⟨answers, s', journal, h⟩ := exists_notes_session bss.flatten calls s
  refine ⟨answers, s', journal, ?_, h⟩
  rwa [backend_nested, backend_nested, flatten_notedLists]

end Chain

end WireGuardControl
