import Mathlib.Tactic
import WireGuardControl.Chain
/-!
Which backends of a chain are asked.

* `PassedOver`: a run over backends each of which is asked and passes the question on. The
  backend behind them is asked where this run ends.
* `first_append_of_passedOver` and `first_cons_of_stops`: behind such backends a chain answers as
  the rest of it does, and a backend that does not pass gives the answer of the chain.
* `passedOver_append`: a run over two lists is a run over the first and then over the second.
-/

namespace WireGuardControl.Chain

variable {σ α : Type} {ask : Backend (StateM σ) → StateM σ (Except Error α)}

/-- Backends that are asked one after the other, each passing the question on. -/
inductive PassedOver (ask : Backend (StateM σ) → StateM σ (Except Error α)) :
    List (Backend (StateM σ)) → σ → σ → Prop
  /-- Nobody is asked. -/
  | nil (s : σ) : PassedOver ask [] s s
  /-- A backend is asked first, and passes. -/
  | cons {b : Backend (StateM σ)} {bs : List (Backend (StateM σ))} {e : Error} {s s₁ s' : σ}
      (answer : ask b s = (.error e, s₁)) (passes : e.passes = true)
      (later : PassedOver ask bs s₁ s') : PassedOver ask (b :: bs) s s'

lemma passedOver_append {xs ys : List (Backend (StateM σ))} {s s' : σ} :
    PassedOver ask (xs ++ ys) s s' ↔
      ∃ s₁, PassedOver ask xs s s₁ ∧ PassedOver ask ys s₁ s' := by
  constructor
  · intro h
    induction xs generalizing s with
    | nil => exact ⟨s, .nil s, h⟩
    | cons x xs ih =>
        cases h with
        | cons answer passes later =>
            obtain ⟨s₁, hxs, hys⟩ := ih later
            exact ⟨s₁, .cons answer passes hxs, hys⟩
  · rintro ⟨s₁, hxs, hys⟩
    induction hxs with
    | nil s => exact hys
    | cons answer passes _ ih => exact .cons answer passes (ih hys)

lemma passedOver_cons {b : Backend (StateM σ)} {bs : List (Backend (StateM σ))} {s s' : σ} :
    PassedOver ask (b :: bs) s s' ↔
      ∃ e s₁, ask b s = (.error e, s₁) ∧ e.passes = true ∧ PassedOver ask bs s₁ s' := by
  constructor
  · intro h
    cases h with
    | cons answer passes later => exact ⟨_, _, answer, passes, later⟩
  · rintro ⟨e, s₁, answer, passes, later⟩
    exact .cons answer passes later

lemma first_cons_of_passes {b : Backend (StateM σ)} {bs : List (Backend (StateM σ))} {e : Error}
    {s s₁ : σ} (answer : ask b s = (.error e, s₁)) (passes : e.passes = true) :
    first ask (b :: bs) s = first ask bs s₁ := by
  rw [first]
  simp only [bind, StateT.bind, answer, passes, if_true]

/-- A backend that does not pass gives the answer of the chain. -/
lemma first_cons_of_stops {b : Backend (StateM σ)} (bs : List (Backend (StateM σ))) {s : σ}
    (h : ∀ e s₁, ask b s = (.error e, s₁) → e.passes = false) :
    first ask (b :: bs) s = ask b s := by
  rw [first]
  rcases hanswer : ask b s with ⟨e | a, s₁⟩
  · simp only [bind, StateT.bind, hanswer, h e s₁ hanswer]
    rfl
  · simp only [bind, StateT.bind, hanswer]
    rfl

/-- Behind backends that pass, a chain answers as the backends behind them do. -/
lemma first_append_of_passedOver {xs ys : List (Backend (StateM σ))} {s s₁ : σ}
    (h : PassedOver ask xs s s₁) : first ask (xs ++ ys) s = first ask ys s₁ := by
  induction h with
  | nil s => rfl
  | cons answer passes _ ih => rw [List.cons_append, first_cons_of_passes answer passes, ih]

end WireGuardControl.Chain
