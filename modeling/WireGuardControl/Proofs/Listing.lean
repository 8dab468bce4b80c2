import Mathlib.Tactic
import WireGuardControl.Proofs.Failing
import WireGuardControl.Backend
/-!
Devices read one after the other.

* `readEach`: reads a device for each element of a list, without those that do not exist. Every
  backend lists its devices in this way, one step of which is `readThen`.
* `readEach_append_of_fails`: the first failure of another sort ends the reading, and nothing behind
  it is read.
* `Lists`: how a listing ends, read off the answers of those that were asked for.
  `readEach_lists`: so a reading ends; what one element does is a step of the induction.
-/

namespace WireGuardControl

variable {σ α τ ξ : Type} {read : α → StateM σ (Except Error Device)}

/-- Reads a device and then others, or only these if the device does not exist. -/
def readThen (device : StateM σ (Except Error Device))
    (later : StateM σ (Except Error (List Device))) : StateM σ (Except Error (List Device)) := do
  match ← device with
  | .ok d => return (← later).map (d :: ·)
  | .error .notExist => later
  | .error e => return .error e

/-- Reads devices one after the other, without those that do not exist. -/
def readEach (read : α → StateM σ (Except Error Device)) :
    List α → StateM σ (Except Error (List Device))
  | [] => pure (.ok [])
  | a :: rest => readThen (read a) (readEach read rest)

lemma readEach_cons_of_ok {a : α} {d : Device} {s s₁ : σ} (h : read a s = (.ok d, s₁))
    (rest : List α) :
    readEach read (a :: rest) s =
      ((readEach read rest s₁).1.map (d :: ·), (readEach read rest s₁).2) := by
  rw [readEach, readThen]
  simp only [bind, StateT.bind, h]
  rfl

lemma readEach_cons_of_notExist {a : α} {s s₁ : σ} (h : read a s = (.error .notExist, s₁))
    (rest : List α) : readEach read (a :: rest) s = readEach read rest s₁ := by
  rw [readEach, readThen]
  simp only [bind, StateT.bind, h]

lemma readEach_cons_of_fails {a : α} {e : Error} {s s₁ : σ} (h : read a s = (.error e, s₁))
    (he : e ≠ .notExist) (rest : List α) : readEach read (a :: rest) s = (.error e, s₁) := by
  rw [readEach, readThen]
  simp only [bind, StateT.bind, h]
  rfl

/-- **A failure ends the reading of devices**, unless it says that a device does not exist. -/
lemma readEach_append_of_fails {before : List α} {ds : List Device} {a : α} {e : Error}
    {s s₁ s₂ : σ} (hbefore : readEach read before s = (.ok ds, s₁))
    (ha : read a s₁ = (.error e, s₂)) (he : e ≠ .notExist) (after : List α) :
    readEach read (before ++ a :: after) s = (.error e, s₂) := by
  induction before generalizing s ds with
  | nil =>
      obtain rfl : s = s₁ := congrArg Prod.snd hbefore
      exact readEach_cons_of_fails ha he after
  | cons x before ih =>
      rw [List.cons_append]
      rcases hx : read x s with ⟨f | d, s'⟩
      · by_cases hf : f = .notExist
        · rw [hf] at hx
          rw [readEach_cons_of_notExist hx] at hbefore ⊢
          exact ih hbefore
        · rw [readEach_cons_of_fails hx hf] at hbefore
          cases congrArg Prod.fst hbefore
      · rw [readEach_cons_of_ok hx] at hbefore ⊢
        rcases hrest : readEach read before s' with ⟨g | ds', s''⟩
        · rw [hrest] at hbefore
          cases congrArg Prod.fst hbefore
        · rw [hrest] at hbefore
          obtain rfl : s'' = s₁ := congrArg Prod.snd hbefore
          rw [ih hrest]
          rfl

/-! ### What is asked for -/

/-- How the devices of `all` are listed, of which `asked` were asked for and gave `answers`. -/
structure Lists (all asked : List α) (answers : List (Except Error Device))
    (outcome : Except Error (List Device)) : Prop where
  /-- They are asked for in order. -/
  initial : asked <+: all
  /-- A failure that does not deny a device is the last answer, and the outcome. -/
  stops : ∀ before e after, answers = before ++ .error e :: after → e ≠ .notExist →
    after = [] ∧ outcome = .error e
  /-- If there is none, then all are asked for, and those that exist are listed in order. -/
  complete : (∀ e, .error e ∈ answers → e = .notExist) →
    asked = all ∧ outcome = .ok (answers.filterMap Except.toOption)

namespace Lists

variable {all asked : List α} {answers : List (Except Error Device)}
  {outcome : Except Error (List Device)}

lemma nil : Lists ([] : List α) [] [] (.ok []) :=
  ⟨List.prefix_rfl, fun before e after h _ => by simp at h, fun _ => ⟨rfl, rfl⟩⟩

lemma fails (a : α) (rest : List α) {e : Error} (he : e ≠ .notExist) :
    Lists (a :: rest) [a] [.error e] (.error e) where
  initial := List.cons_prefix_cons.mpr ⟨rfl, List.nil_prefix⟩
  stops before e' after h _ := by
    obtain ⟨rfl, hcons⟩ := List.append_eq_cons_iff.mp h.symm |>.resolve_right (by simp)
    obtain ⟨hfault, rfl⟩ := List.cons.inj hcons
    exact ⟨rfl, congrArg _ (Except.error.inj hfault).symm⟩
  complete h := absurd (h e (List.mem_singleton.mpr rfl)) he

lemma cons_ok (h : Lists all asked answers outcome) (a : α) (d : Device) :
    Lists (a :: all) (a :: asked) (.ok d :: answers) (outcome.map (d :: ·)) where
  initial := List.cons_prefix_cons.mpr ⟨rfl, h.initial⟩
  stops before e after hanswers he := by
    cases before with
    | nil => cases List.cons.inj hanswers |>.1
    | cons x before =>
        obtain ⟨hafter, rfl⟩ := h.stops before e after (List.cons.inj hanswers).2 he
        exact ⟨hafter, rfl⟩
  complete hnone := by
    obtain ⟨rfl, rfl⟩ := h.complete fun e he => hnone e (List.mem_cons_of_mem _ he)
    exact ⟨rfl, rfl⟩

lemma cons_notExist (h : Lists all asked answers outcome) (a : α) :
    Lists (a :: all) (a :: asked) (.error .notExist :: answers) outcome where
  initial := List.cons_prefix_cons.mpr ⟨rfl, h.initial⟩
  stops before e after hanswers he := by
    cases before with
    | nil => exact absurd (Except.error.inj (List.cons.inj hanswers).1).symm he
    | cons x before => exact h.stops before e after (List.cons.inj hanswers).2 he
  complete hnone := by
    obtain ⟨rfl, houtcome⟩ := h.complete fun e he => hnone e (List.mem_cons_of_mem _ he)
    exact ⟨rfl, houtcome⟩

end Lists

/-- A reading and one that keeps a record next to the state are asked for the device of `a`: both
make the inquiry `x`, give its answer and leave the same state, and the record has its events. -/
def Inquires (events : ξ → List τ) (answer : ξ → Except Error Device)
    (device : StateM σ (Except Error Device)) (device' : StateM (σ × List τ) (Except Error Device))
    (s : σ) (x : ξ) (s' : σ) : Prop :=
  device s = (answer x, s') ∧ ∀ log, device' (s, log) = (answer x, (s', log ++ events x))

/-- **Devices are read one after the other.** -/
lemma readEach_lists {read' : α → StateM (σ × List τ) (Except Error Device)} {Query : α → ξ → Prop}
    {events : ξ → List τ} {answer : ξ → Except Error Device} (all : List α)
    (hread : ∀ a ∈ all, ∀ s, ∃ x s', Query a x ∧ Inquires events answer (read a) (read' a) s x s')
    (s : σ) :
    ∃ outcome s' asked queries, readEach read all s = (outcome, s') ∧
      (∀ log, readEach read' all (s, log) = (outcome, (s', log ++ queries.flatMap events))) ∧
      List.Forall₂ Query asked queries ∧ Lists all asked (queries.map answer) outcome := by
  induction all generalizing s with
  | nil =>
      refine ⟨.ok [], s, [], [], rfl, fun log => ?_, .nil, .nil⟩
      rw [List.flatMap_nil, List.append_nil]
      rfl
  | cons a rest ih =>
      obtain ⟨x, s₁, hquery, hplain, hnoted⟩ := hread a List.mem_cons_self s
      obtain ⟨outcome, s', asked, queries, hlater, hlog, hall, hlists⟩ :=
        ih (fun b hb => hread b (List.mem_cons_of_mem _ hb)) s₁
      have hlog' (log : List τ) : readEach read' rest (s₁, log ++ events x) =
          (outcome, (s', log ++ (x :: queries).flatMap events)) := by
        rw [hlog, List.flatMap_cons, List.append_assoc]
      rcases hanswer : answer x with e | d
      · rw [hanswer] at hplain hnoted
        by_cases he : e = .notExist
        · subst he
          refine ⟨outcome, s', a :: asked, x :: queries,
            (readEach_cons_of_notExist hplain rest).trans hlater,
            fun log => (readEach_cons_of_notExist (hnoted log) rest).trans (hlog' log),
            .cons hquery hall, ?_⟩
          rw [List.map_cons, hanswer]
          exact hlists.cons_notExist a
        · refine ⟨.error e, s₁, [a], [x], readEach_cons_of_fails hplain he rest,
            fun log => ?_, .cons hquery .nil, ?_⟩
          · rw [readEach_cons_of_fails (hnoted log) he, List.flatMap_singleton]
          · rw [List.map_singleton, hanswer]
            exact .fails a rest he
      · rw [hanswer] at hplain hnoted
        refine ⟨outcome.map (d :: ·), s', a :: asked, x :: queries, ?_, fun log => ?_,
          .cons hquery hall, ?_⟩
        · rw [readEach_cons_of_ok hplain, hlater]
        · rw [readEach_cons_of_ok (hnoted log), hlog']
        · rw [List.map_cons, hanswer]
          exact hlists.cons_ok a d

/-- Elements without a device may be left out in front. -/
lemma readEach_filter {keep : α → Bool} (hread : ∀ a, keep a = false → ∀ s,
    read a s = (.error .notExist, s)) (all : List α) :
    readEach read (all.filter keep) = readEach read all := by
  induction all with
  | nil => rfl
  | cons a rest ih =>
      funext s
      by_cases ha : keep a = true
      · rw [List.filter_cons_of_pos ha, readEach, readEach, ih]
      · rw [List.filter_cons_of_neg ha,
          readEach_cons_of_notExist (hread a (Bool.not_eq_true _ ▸ ha) s), ih]

end WireGuardControl
