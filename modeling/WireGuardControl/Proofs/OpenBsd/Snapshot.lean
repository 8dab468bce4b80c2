import Mathlib.Tactic
import WireGuardControl.OpenBsd.Transfer
/-!
What is fetched from a kernel whose data change between the calls.

* `noted`: a question that keeps its inquiries next to the state of the kernel, each with the state
  in which the kernel was asked.
* `Fills`: the runs of a transfer. The call with the empty buffer is a run's first step like any
  other: a buffer of no octets, which fits only if there are no data.
* `transfer_fills`: every transfer is such a run, by induction on the buffers that are tried. What
  one step of a run keeps, the lemmas of `Fills` keep for all of it.
* `Serves`: a kernel that tells the size of the data that it has when it is asked, and writes them
  where they fit. `Fills.eq_data`: what is fetched from it are the data of one moment.
* `transfer_inquiries`: how often and with which buffers the kernel is asked, and what comes of it.
-/

namespace WireGuardControl.OpenBsd

variable {σ : Type}

/-! ### Inquiries -/

/-- A call to the kernel. -/
structure Inquiry (σ : Type) where
  /-- The state in which the kernel is asked. -/
  state : σ
  /-- The buffer that it gets. -/
  buffer : Bytes
  /-- The answer: a failure, or the size of all data and the buffer after the call. -/
  answer : Except SystemFault (Nat × Bytes)

/-- The size that the kernel tells. -/
def Inquiry.told (x : Inquiry σ) : Option Nat := x.answer.toOption.map Prod.fst

/-- A question whose inquiries are noted. -/
def noted (ask : Question (StateM σ)) : Question (StateM (σ × List (Inquiry σ))) :=
  fun buffer (s, log) =>
    let (answer, s') := ask buffer s
    (answer, (s', log ++ [⟨s, buffer, answer⟩]))

lemma noted_run {ask : Question (StateM σ)} {buffer : Bytes}
    {answer : Except SystemFault (Nat × Bytes)} {s s' : σ} (h : ask buffer s = (answer, s'))
    (log : List (Inquiry σ)) :
    noted ask buffer (s, log) = (answer, (s', log ++ [⟨s, buffer, answer⟩])) := by
  simp only [noted, h]

/-- The failure after too many buffers. -/
def keptGrowing (what : String) : Error :=
  .decode (what ++ s!": buffer kept growing after {maxAttempts} attempts")

/-- The inquiries of a run that tries up to `attempts` buffers, the first of `size` octets, and
what it comes to. -/
inductive Fills (what : String) :
    (attempts size : ℕ) → List (Inquiry σ) → Except Error Bytes → Prop
  /-- No buffer is left to try. -/
  | exhausted (size : ℕ) : Fills what 0 size [] (.error (keptGrowing what))
  /-- The call fails. -/
  | refused (attempts size : ℕ) (s : σ) (fault : SystemFault) :
      Fills what (attempts + 1) size [⟨s, List.replicate size 0, .error fault⟩]
        (.error (.io fault))
  /-- The data fit. -/
  | fits {size needed : ℕ} (attempts : ℕ) (s : σ) (filled : Bytes) (room : needed ≤ size) :
      Fills what (attempts + 1) size [⟨s, List.replicate size 0, .ok (needed, filled)⟩]
        (.ok (filled.take needed))
  /-- The data do not fit, and the next buffer has the size that was told. -/
  | grows {attempts size needed : ℕ} {calls : List (Inquiry σ)} {outcome : Except Error Bytes}
      (s : σ) (filled : Bytes) (short : size < needed)
      (later : Fills what attempts needed calls outcome) :
      Fills what (attempts + 1) size
        (⟨s, List.replicate size 0, .ok (needed, filled)⟩ :: calls) outcome

/-! ### Transfers are such runs -/

section Runs

variable {what : String} {ask : Question (StateM σ)} {attempts size : ℕ} {s s' : σ}

lemma fill_of_error {fault : SystemFault} (hsize : size ≠ 0)
    (h : ask (List.replicate size 0) s = (.error fault, s')) :
    fill what ask (attempts + 1) size s = (.error (.io fault), s') := by
  rw [fill, if_neg hsize]
  simp only [bind, StateT.bind, h]
  rfl

lemma fill_of_le {needed : ℕ} {filled : Bytes} (hsize : size ≠ 0) (hle : needed ≤ size)
    (h : ask (List.replicate size 0) s = (.ok (needed, filled), s')) :
    fill what ask (attempts + 1) size s = (.ok (filled.take needed), s') := by
  rw [fill, if_neg hsize]
  simp only [bind, StateT.bind, h, if_pos hle]
  rfl

lemma fill_of_lt {needed : ℕ} {filled : Bytes} (hsize : size ≠ 0) (hlt : size < needed)
    (h : ask (List.replicate size 0) s = (.ok (needed, filled), s')) :
    fill what ask (attempts + 1) size s = fill what ask attempts needed s' := by
  rw [fill, if_neg hsize]
  simp only [bind, StateT.bind, h, if_neg (Nat.not_le_of_lt hlt)]

lemma transfer_of_error {fault : SystemFault} (h : ask [] s = (.error fault, s')) :
    transfer what ask s = (.error (.io fault), s') := by
  rw [transfer]
  simp only [bind, StateT.bind, h]
  rfl

lemma transfer_of_ok {filled : Bytes} (h : ask [] s = (.ok (size, filled), s')) :
    transfer what ask s = fill what ask maxAttempts size s' := by
  rw [transfer]
  simp only [bind, StateT.bind, h]

variable (what ask attempts) in
lemma fill_fills (hsize : size ≠ 0) (s : σ) :
    ∃ outcome s' calls, fill what ask attempts size s = (outcome, s') ∧
      (∀ log, fill what (noted ask) attempts size (s, log) = (outcome, (s', log ++ calls))) ∧
      (∀ x ∈ calls, (ask x.buffer x.state).1 = x.answer) ∧
      Fills what attempts size calls outcome := by
  induction attempts generalizing size s with
  | zero =>
      refine ⟨_, s, [], rfl, fun log => ?_, by simp, .exhausted size⟩
      rw [List.append_nil]
      rfl
  | succ attempts ih =>
      rcases hanswer : ask (List.replicate size 0) s with ⟨fault | ⟨needed, filled⟩, s₁⟩
      · exact ⟨_, s₁, _, fill_of_error hsize hanswer,
          fun log => fill_of_error hsize (noted_run hanswer log), by simp [hanswer],
          .refused attempts size s fault⟩
      · rcases Nat.lt_or_ge size needed with hlt | hle
        · obtain ⟨outcome, s', calls, hplain, hnoted, hasked, hfills⟩ :=
            ih (Nat.ne_zero_of_lt hlt) s₁
          refine ⟨outcome, s', _, (fill_of_lt hsize hlt hanswer).trans hplain, fun log => ?_,
            List.forall_mem_cons.mpr ⟨by simp [hanswer], hasked⟩, .grows s filled hlt hfills⟩
          rw [fill_of_lt hsize hlt (noted_run hanswer log), hnoted, List.append_assoc,
            List.singleton_append]
        · exact ⟨_, s₁, _, fill_of_le hsize hle hanswer,
            fun log => fill_of_le hsize hle (noted_run hanswer log), by simp [hanswer],
            .fits attempts s filled hle⟩

/-- **Every transfer is a run** of which the first buffer has no octets. -/
lemma transfer_fills (what : String) (ask : Question (StateM σ)) (s : σ) :
    ∃ outcome s' calls, transfer what ask s = (outcome, s') ∧
      (∀ log, transfer what (noted ask) (s, log) = (outcome, (s', log ++ calls))) ∧
      (∀ x ∈ calls, (ask x.buffer x.state).1 = x.answer) ∧
      Fills what (maxAttempts + 1) 0 calls outcome := by
  rcases hanswer : ask [] s with ⟨fault | ⟨size, filled⟩, s₁⟩
  · exact ⟨_, s₁, _, transfer_of_error hanswer,
      fun log => transfer_of_error (noted_run hanswer log), by simp [hanswer],
      .refused maxAttempts 0 s fault⟩
  · rcases Nat.eq_zero_or_pos size with rfl | hsize
    · have hempty : ∀ {τ : Type} (ask : Question (StateM τ)) (s : τ),
          fill what ask maxAttempts 0 s = (.ok (filled.take 0), s) := fun _ _ => rfl
      refine ⟨_, s₁, _, (transfer_of_ok hanswer).trans (hempty ask s₁), fun log => ?_,
        by simp [hanswer], .fits maxAttempts s filled le_rfl⟩
      exact (transfer_of_ok (noted_run hanswer log)).trans (hempty _ _)
    · obtain ⟨outcome, s', calls, hplain, hnoted, hasked, hfills⟩ :=
        fill_fills what ask maxAttempts (Nat.pos_iff_ne_zero.mp hsize) s₁
      refine ⟨outcome, s', _, (transfer_of_ok hanswer).trans hplain, fun log => ?_,
        List.forall_mem_cons.mpr ⟨by simp [hanswer], hasked⟩, .grows s filled hsize hfills⟩
      rw [transfer_of_ok (noted_run hanswer log), hnoted, List.append_assoc,
        List.singleton_append]
      rfl

end Runs

/-! ### What a run keeps -/

/-- The buffer of an inquiry is zeroed and has the size that the inquiry before was told. -/
def Follows (x y : Inquiry σ) : Prop :=
  ∃ needed filled, x.answer = .ok (needed, filled) ∧ y.buffer = List.replicate needed 0

/-- A kernel that has the data `data s` in the state `s`: it tells their size and, if they fit,
writes them at the front of the buffer. What the state is after the call is left open, and so is the
buffer if they do not fit. -/
def Serves (data : σ → Bytes) (ask : Question (StateM σ)) : Prop :=
  ∀ buffer s needed filled s', ask buffer s = (.ok (needed, filled), s') →
    needed = (data s).length ∧
      (needed ≤ buffer.length → filled = data s ++ buffer.drop needed)

namespace Fills

variable {what : String} {attempts size : ℕ} {calls : List (Inquiry σ)}
  {outcome : Except Error Bytes}

lemma length_le (h : Fills what attempts size calls outcome) : calls.length ≤ attempts := by
  induction h with
  | exhausted _ => exact le_rfl
  | refused _ _ _ _ => simp
  | fits _ _ _ _ => simp
  | grows _ _ _ _ ih => exact Nat.succ_le_succ ih

lemma buffer_of_mem_head? (h : Fills what attempts size calls outcome) :
    ∀ x ∈ calls.head?, x.buffer = List.replicate size 0 := by
  cases h <;> simp

lemma ne_nil (h : Fills what (attempts + 1) size calls outcome) : calls ≠ [] := by
  cases h <;> simp

/-- Each buffer has the size that was told last. -/
lemma isChain_follows (h : Fills what attempts size calls outcome) : calls.IsChain Follows := by
  induction h with
  | exhausted _ => exact .nil
  | refused _ _ _ _ => exact .singleton _
  | fits _ _ _ _ => exact .singleton _
  | grows _ filled _ later ih =>
      refine List.isChain_cons.mpr ⟨fun y hy => ?_, ih⟩
      exact ⟨_, filled, rfl, later.buffer_of_mem_head? y hy⟩

/-- A call that fails is the last. -/
lemma of_error (h : Fills what attempts size calls outcome) {before later : List (Inquiry σ)}
    {x : Inquiry σ} {fault : SystemFault} (hcalls : calls = before ++ x :: later)
    (hx : x.answer = .error fault) : later = [] ∧ outcome = .error (.io fault) := by
  induction h generalizing before with
  | exhausted _ => simp at hcalls
  | refused _ _ _ _ =>
      cases before with
      | nil =>
          obtain ⟨rfl, rfl⟩ := List.cons.inj hcalls
          cases hx
          exact ⟨rfl, rfl⟩
      | cons y before => simp at hcalls
  | fits _ _ _ _ =>
      cases before with
      | nil =>
          obtain ⟨rfl, -⟩ := List.cons.inj hcalls
          cases hx
      | cons y before => simp at hcalls
  | grows _ _ _ _ ih =>
      cases before with
      | nil =>
          obtain ⟨rfl, -⟩ := List.cons.inj hcalls
          cases hx
      | cons y before => exact ih (List.cons.inj hcalls).2

/-- A run gives up exactly when every buffer was tried and each time more was told than before. -/
lemma eq_decode_iff (h : Fills what attempts size calls outcome) :
    (∃ detail, outcome = .error (.decode detail)) ↔
      ∃ sizes : List ℕ, sizes.length = attempts ∧ calls.map Inquiry.told = sizes.map some ∧
        (size :: sizes).Pairwise (· < ·) := by
  induction h with
  | exhausted size => exact iff_of_true ⟨_, rfl⟩ ⟨[], rfl, rfl, List.pairwise_singleton _ size⟩
  | refused attempts size s fault =>
      refine iff_of_false (by simp) ?_
      rintro ⟨sizes, -, htold, -⟩
      cases sizes with
      | nil => cases htold
      | cons n sizes => cases (List.cons.inj htold).1
  | @fits size needed attempts s filled room =>
      refine iff_of_false (by simp) ?_
      rintro ⟨sizes, -, htold, hincreasing⟩
      cases sizes with
      | nil => cases htold
      | cons n sizes =>
          obtain rfl : needed = n := Option.some.inj (List.cons.inj htold).1
          have hlt := List.rel_of_pairwise_cons hincreasing List.mem_cons_self
          omega
  | @grows attempts size needed calls outcome s filled short later ih =>
      rw [ih]
      constructor
      · rintro ⟨sizes, rfl, htold, hincreasing⟩
        refine ⟨needed :: sizes, rfl, congrArg (some needed :: ·) htold, ?_⟩
        refine List.pairwise_cons.mpr ⟨List.forall_mem_cons.mpr ⟨short, fun n hn => ?_⟩,
          hincreasing⟩
        exact short.trans (List.rel_of_pairwise_cons hincreasing hn)
      · rintro ⟨sizes, hlength, htold, hincreasing⟩
        cases sizes with
        | nil => cases htold
        | cons n sizes =>
            obtain ⟨hn, hrest⟩ := List.cons.inj htold
            obtain rfl : needed = n := Option.some.inj hn
            exact ⟨sizes, Nat.succ.inj hlength, hrest, (List.pairwise_cons.mp hincreasing).2⟩

/-- **What is fetched are the data of one moment**: of the last call. -/
lemma eq_data {data : σ → Bytes} {ask : Question (StateM σ)} (hserves : Serves data ask)
    (h : Fills what attempts size calls outcome)
    (hasked : ∀ x ∈ calls, (ask x.buffer x.state).1 = x.answer) {b : Bytes}
    (hb : outcome = .ok b) : ∃ x ∈ calls.getLast?, b = data x.state := by
  induction h with
  | exhausted _ => cases hb
  | refused _ _ _ _ => cases hb
  | @fits size needed attempts s filled room =>
      obtain rfl := Except.ok.inj hb
      refine ⟨_, rfl, ?_⟩
      have hanswer : ask (List.replicate size 0) s = (.ok (needed, filled), _) :=
        Prod.ext (hasked _ List.mem_cons_self) rfl
      obtain ⟨hneeded, hfilled⟩ := hserves _ _ _ _ _ hanswer
      rw [hfilled (by rwa [List.length_replicate]), hneeded, List.take_left]
      rfl
  | grows _ _ _ later ih =>
      obtain ⟨x, hx, hdata⟩ := ih (fun x hx => hasked x (List.mem_cons_of_mem _ hx)) hb
      exact ⟨x, List.mem_getLast?_cons hx, hdata⟩

/-- Where there are no data, no other buffer is tried. -/
lemma of_told_zero (h : Fills what (attempts + 1) 0 calls outcome) {x : Inquiry σ}
    {later : List (Inquiry σ)} {filled : Bytes} (hcalls : calls = x :: later)
    (hx : x.answer = .ok (0, filled)) : later = [] ∧ outcome = .ok [] := by
  cases h with
  | refused _ _ _ _ =>
      obtain ⟨rfl, -⟩ := List.cons.inj hcalls
      cases hx
  | fits _ _ _ _ =>
      obtain ⟨rfl, rfl⟩ := List.cons.inj hcalls
      cases hx
      exact ⟨rfl, rfl⟩
  | grows _ _ short _ =>
      obtain ⟨rfl, -⟩ := List.cons.inj hcalls
      cases hx
      exact absurd short (Nat.lt_irrefl 0)

end Fills

/-- Sizes increase from zero on exactly when they increase and the first of them is not zero. -/
lemma pairwise_zero_cons_iff {sizes : List ℕ} :
    (0 :: sizes).Pairwise (· < ·) ↔ sizes.head? ≠ some 0 ∧ sizes.Pairwise (· < ·) := by
  cases sizes with
  | nil => simp
  | cons n sizes =>
      rw [List.pairwise_cons, List.forall_mem_cons, List.head?_cons, Ne, Option.some_inj, ← Ne,
        ← Nat.pos_iff_ne_zero]
      refine and_congr_left fun hincreasing => and_iff_left_of_imp fun hn m hm => ?_
      exact hn.trans (List.rel_of_pairwise_cons hincreasing hm)

/-- **A transfer fetches a consistent snapshot.** The first call has an empty buffer, and each of at
most eight others a zeroed buffer of the size that the call before told. A call that fails is the
last, and so is the first if it tells that there are no data. The transfer gives up exactly when the
first call tells of data and each of eight others of more than the one before. From a kernel that
serves data, which may change in any way between the calls, it fetches those of the last call. -/
theorem transfer_inquiries (what : String) (ask : Question (StateM σ)) (s : σ) :
    ∃ outcome s' calls,
      transfer what ask s = (outcome, s') ∧
      (∀ log, transfer what (noted ask) (s, log) = (outcome, (s', log ++ calls))) ∧
      (∃ probe fillings, calls = probe :: fillings ∧ probe.buffer = [] ∧ fillings.length ≤ 8 ∧
        ∀ filled, probe.answer = .ok (0, filled) → fillings = [] ∧ outcome = .ok []) ∧
      calls.IsChain Follows ∧
      (∀ before x later fault, calls = before ++ x :: later → x.answer = .error fault →
        later = [] ∧ outcome = .error (.io fault)) ∧
      ((∃ detail, outcome = .error (.decode detail)) ↔
        ∃ sizes : List ℕ, sizes.length = 9 ∧ calls.map Inquiry.told = sizes.map some ∧
          sizes.head? ≠ some 0 ∧ sizes.Pairwise (· < ·)) ∧
      ∀ data, Serves data ask → ∀ b, outcome = .ok b →
        ∃ x ∈ calls.getLast?, b = data x.state := by
  obtain ⟨outcome, s', calls, hplain, hnoted, hasked, hfills⟩ := transfer_fills what ask s
  obtain ⟨probe, fillings, rfl⟩ := List.exists_cons_of_ne_nil hfills.ne_nil
  refine ⟨outcome, s', probe :: fillings, hplain, hnoted, ?_, hfills.isChain_follows, ?_, ?_, ?_⟩
  · exact ⟨probe, fillings, rfl, hfills.buffer_of_mem_head? probe rfl,
      Nat.le_of_succ_le_succ hfills.length_le, fun filled hzero => hfills.of_told_zero rfl hzero⟩
  · intro before x later fault hcalls hx
    exact hfills.of_error hcalls hx
  · rw [hfills.eq_decode_iff]
    simp only [pairwise_zero_cons_iff, maxAttempts]
  · intro data hserves b hb
    exact hfills.eq_data hserves hasked hb

/-! ### Data that change -/

/-- A kernel with data for each call in turn, and with none once these are used up. -/
def changing : Question (StateM (List Bytes)) := fun buffer moments =>
  let now := moments.headD []
  let filled := if now.length ≤ buffer.length then now ++ buffer.drop now.length else buffer
  (.ok (now.length, filled), moments.tail)

lemma serves_changing : Serves (·.headD []) changing := by
  intro buffer moments needed filled moments' h
  obtain ⟨hanswer, -⟩ := Prod.mk.inj h
  obtain ⟨rfl, rfl⟩ := Prod.mk.inj (Except.ok.inj hanswer)
  exact ⟨rfl, fun hle => if_pos hle⟩

/-- Data that first grow beyond the size that was told, and then shrink below it: what is fetched
are the two octets of the third call, and nothing else of its buffer. -/
theorem transfer_inquiries_changing :
    Serves (·.headD []) changing ∧
    ∃ calls : List (Inquiry (List Bytes)),
      transfer "SIOCGWG" (noted changing) ([[1], [1, 2, 3], [7, 8], [9]], []) =
        (.ok [7, 8], ([[9]], calls)) ∧
      calls.map (·.buffer.length) = [0, 1, 3] ∧
      ∃ x ∈ calls.getLast?, x.state.headD [] = [7, 8] := by
  obtain ⟨outcome, s', calls, -, hnoted, -, -, -, -, hdata⟩ :=
    transfer_inquiries "SIOCGWG" changing [[1], [1, 2, 3], [7, 8], [9]]
  have hrun : ∃ calls, transfer "SIOCGWG" (noted changing) ([[1], [1, 2, 3], [7, 8], [9]], []) =
      (.ok [7, 8], ([[9]], calls)) ∧ calls.map (·.buffer.length) = [0, 1, 3] := ⟨_, rfl, rfl⟩
  obtain ⟨calls', hcalls, hbuffers⟩ := hrun
  obtain ⟨rfl, hstate⟩ := Prod.mk.inj ((hnoted []).symm.trans hcalls)
  obtain rfl : calls = calls' := (Prod.mk.inj hstate).2
  obtain ⟨x, hx, hmoment⟩ := hdata _ serves_changing _ rfl
  exact ⟨serves_changing, calls, hcalls, hbuffers, x, hx, hmoment.symm⟩

end WireGuardControl.OpenBsd
