import Mathlib.Tactic
import WireGuardControl.Time
/-!
Computations that may fail.

* `Except.bind_eq_ok_iff`, `Except.map_eq_ok_iff`: what a computation that succeeds is made of;
  `Except.foldlM_eq_ok_iff`, `Except.mapM_eq_ok_iff`: what a run over a list is.
* `FailsOnly P x`: whatever `x` fails with has the property `P`. The lemmas beside it go through a
  computation as it is built: from its failures, its steps, its branches and its runs over lists.
* `Error.IsDecode`, `Error.IsRejection`: a failure says that an answer is malformed, or that, or
  reports an error number that is not zero. No such failure passes a question on.
-/

namespace WireGuardControl

universe u v w

variable {ε : Type u} {ε' : Type w} {α β : Type v} {σ : Type v}

/-- Both steps of a computation that succeeds have succeeded. -/
lemma Except.bind_eq_ok_iff {x : Except ε α} {f : α → Except ε β} {b : β} :
    (x >>= f) = .ok b ↔ ∃ a, x = .ok a ∧ f a = .ok b := by
  cases x with
  | error e => simp [bind, Except.bind]
  | ok a => simp [bind, Except.bind]

lemma Except.map_eq_ok_iff {x : Except ε α} {f : α → β} {b : β} :
    f <$> x = .ok b ↔ ∃ a, x = .ok a ∧ f a = b := by
  cases x <;> simp [Functor.map, Except.map]

/-- A run of steps succeeds if each of them may be taken and does the same to every state. -/
lemma Except.foldlM_eq_ok_iff {f : σ → α → Except ε σ} {P : α → Prop} {g : σ → α → σ}
    (h : ∀ s a s', f s a = .ok s' ↔ P a ∧ s' = g s a) {s s' : σ} {xs : List α} :
    xs.foldlM f s = .ok s' ↔ (∀ a ∈ xs, P a) ∧ s' = xs.foldl g s := by
  induction xs generalizing s with
  | nil => simp [pure, Except.pure, eq_comm]
  | cons a rest ih =>
      rw [List.foldlM_cons, bind_eq_ok_iff]
      simp only [h, ih, List.forall_mem_cons, List.foldl_cons]
      exact ⟨fun ⟨_, ⟨ha, rfl⟩, hrest, hs'⟩ => ⟨⟨ha, hrest⟩, hs'⟩,
        fun ⟨⟨ha, hrest⟩, hs'⟩ => ⟨_, ⟨ha, rfl⟩, hrest, hs'⟩⟩

lemma Except.mapM_eq_ok_iff {f : α → Except ε β} {P : α → Prop} {g : α → β}
    (h : ∀ a b, f a = .ok b ↔ P a ∧ b = g a) {xs : List α} {bs : List β} :
    xs.mapM f = .ok bs ↔ (∀ a ∈ xs, P a) ∧ bs = xs.map g := by
  induction xs generalizing bs with
  | nil => simp [pure, Except.pure, eq_comm]
  | cons a rest ih =>
      rw [List.mapM_cons, bind_eq_ok_iff]
      simp only [bind_eq_ok_iff, h, ih, List.forall_mem_cons, List.map_cons]
      constructor
      · rintro ⟨b, ⟨ha, rfl⟩, later, ⟨hrest, rfl⟩, hbs⟩
        exact ⟨⟨ha, hrest⟩, (Except.ok.inj hbs).symm⟩
      · rintro ⟨⟨ha, hrest⟩, rfl⟩
        exact ⟨_, ⟨ha, rfl⟩, _, ⟨hrest, rfl⟩, rfl⟩

/-- The failures of a computation have a property. -/
def FailsOnly (P : ε → Prop) (x : Except ε α) : Prop := ∀ e, x = .error e → P e

namespace FailsOnly

variable {P : ε → Prop} {x : Except ε α}

lemma ok (a : α) : FailsOnly P (.ok a : Except ε α) := by
  intro e h
  cases h

lemma error {e : ε} (h : P e) : FailsOnly P (.error e : Except ε α) := by
  rintro _ ⟨⟩
  exact h

lemma mono {Q : ε → Prop} (hx : FailsOnly P x) (h : ∀ e, P e → Q e) : FailsOnly Q x := by
  intro e he
  exact h e (hx e he)

/-- The second step matters only for what the first gives. -/
lemma bind_of_ok {f : α → Except ε β} (hx : FailsOnly P x)
    (hf : ∀ a, x = .ok a → FailsOnly P (f a)) : FailsOnly P (x >>= f) := by
  cases x with
  | error e => exact error (hx e rfl)
  | ok a => exact hf a rfl

lemma bind {f : α → Except ε β} (hx : FailsOnly P x) (hf : ∀ a, FailsOnly P (f a)) :
    FailsOnly P (x >>= f) :=
  hx.bind_of_ok fun a _ => hf a

/-- A computation that only puts the result of another to use. -/
lemma pure_bind (hx : FailsOnly P x) (f : α → β) :
    FailsOnly P (do let a ← x; return f a) :=
  bind hx fun a => ok (f a)

lemma map (f : α → β) (hx : FailsOnly P x) : FailsOnly P (x.map f) := by
  cases x with
  | error e => exact error (hx e rfl)
  | ok a => exact ok (f a)

lemma mapError {Q : ε' → Prop} {f : ε → ε'} (h : ∀ e, Q (f e)) : FailsOnly Q (x.mapError f) := by
  cases x with
  | error e => exact error (h e)
  | ok a => exact ok a

lemma ite {c : Prop} [Decidable c] {y : Except ε α} (hx : FailsOnly P x) (hy : FailsOnly P y) :
    FailsOnly P (if c then x else y) := by
  split_ifs
  · exact hx
  · exact hy

lemma dite {c : Prop} [Decidable c] {f : c → Except ε α} {g : ¬ c → Except ε α}
    (hf : ∀ h, FailsOnly P (f h)) (hg : ∀ h, FailsOnly P (g h)) :
    FailsOnly P (if h : c then f h else g h) := by
  split_ifs with h
  · exact hf h
  · exact hg h

/-- A run over a list fails only as its steps do. -/
lemma foldlM {f : σ → α → Except ε σ} (hf : ∀ s a, FailsOnly P (f s a)) (s : σ) (xs : List α) :
    FailsOnly P (xs.foldlM f s) := by
  induction xs generalizing s with
  | nil => exact ok s
  | cons a rest ih =>
      rw [List.foldlM_cons]
      exact bind (hf s a) ih

lemma mapM {f : α → Except ε β} (hf : ∀ a, FailsOnly P (f a)) (xs : List α) :
    FailsOnly P (xs.mapM f) := by
  induction xs with
  | nil => exact ok []
  | cons a rest ih =>
      rw [List.mapM_cons]
      exact bind (hf a) fun b => bind ih fun bs => ok (b :: bs)

end FailsOnly

/-! ### Malformed answers -/

namespace Error

/-- The failure says that an answer is malformed. -/
def IsDecode (e : Error) : Prop := e.kind = .decode

lemma IsDecode.decode (detail : String) : (Error.decode detail).IsDecode := rfl

lemma IsDecode.exists_eq {e : Error} (h : e.IsDecode) : ∃ detail, e = .decode detail := by
  cases e with
  | decode detail => exact ⟨detail, rfl⟩
  | _ => cases h

/-- The failure says that an answer is malformed, or that it reports an error number, which is not
zero. -/
def IsRejection (e : Error) : Prop :=
  e.IsDecode ∨ ∃ operation code, e = .errno operation code ∧ code ≠ 0

variable {e : Error}

lemma IsRejection.kind (h : e.IsRejection) : e.kind = .decode ∨ e.kind = .transport := by
  rcases h with hdecode | ⟨operation, code, rfl, -⟩
  · exact .inl hdecode
  · exact .inr rfl

lemma IsRejection.passes (h : e.IsRejection) : e.passes = false := by
  rcases h.kind with hkind | hkind <;> rw [Error.passes, hkind]

lemma IsRejection.ne_notExist (h : e.IsRejection) : e ≠ .notExist := by
  rintro rfl
  cases h.passes

end Error

namespace Instant

lemma failsOnly_ofHandshake (seconds nanoseconds : UInt64) :
    FailsOnly Error.IsDecode (ofHandshake seconds nanoseconds) := by
  rw [ofHandshake]
  split_ifs with hzero hnanos
  · exact .ok none
  · split
    · exact .ok _
    · exact .error rfl
  · exact .error rfl

lemma failsOnly_ofSignedHandshake {negative : Error} (h : negative.IsDecode)
    (seconds nanoseconds : Int64) :
    FailsOnly Error.IsDecode (ofSignedHandshake negative seconds nanoseconds) :=
  .ite (.error h) (failsOnly_ofHandshake _ _)

end Instant

end WireGuardControl
