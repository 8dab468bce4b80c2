import Mathlib.Tactic
import WireGuardControl.Proofs.Uapi.Grammar
/-!
The status of a response, as its two readers judge it.

* `DeviceDraft.setStep_of_step`: a pair that the reader of devices takes in is taken in by the
  reader of updates, and both have the same status behind it; `Pairs.foldM_setStep` is the run over
  all pairs of a response.
* `readGet_eq_checkStatus`: a response that is not malformed for the reader of devices is judged by
  the status that the reader of updates finds in it.
* `readers_agree`: what a success, an error number and a malformed response mean for the other
  reader.
-/

namespace WireGuardControl.Uapi

open Text Lines

/-! ### Pairs -/

namespace DeviceDraft

variable {d d' : DeviceDraft}

/-- A pair that is no status leaves the status alone. -/
lemma code_of_step {key : String} {v : List Char} (hkey : key ≠ statusKey)
    (h : d.step (key, v) = .ok d') : d'.code = d.code := by
  simp only [step, if_neg hkey] at h
  by_cases hpeer : key = "public_key"
  · rw [if_pos hpeer] at h
    obtain ⟨closed, hfinish, h⟩ := Except.bind_eq_ok_iff.mp h
    obtain ⟨k, -, h⟩ := Except.bind_eq_ok_iff.mp h
    cases h
    rw [finishPeer_eq_ok hfinish]
  · rw [if_neg hpeer] at h
    cases hcurrent : d.current with
    | some draft =>
        simp only [hcurrent] at h
        obtain ⟨draft', -, h⟩ := Except.bind_eq_ok_iff.mp h
        cases h
        rfl
    | none =>
        simp only [hcurrent] at h
        obtain ⟨dev, -, h⟩ := Except.bind_eq_ok_iff.mp h
        cases h
        rfl

/-- **A pair of a device is a pair of a status**: the reader of updates takes in what the reader of
devices does, and has its status. -/
lemma setStep_of_step {pair : String × List Char} (h : d.step pair = .ok d') :
    setStep d.code pair = .ok d'.code := by
  obtain ⟨key, v⟩ := pair
  by_cases hkey : key = statusKey
  · obtain ⟨code, hvalue, rfl⟩ := (take_status (l := ⟨key, v⟩) hkey).mp h
    rw [setStep, if_pos hkey, number_eq_ok_iff.mpr hvalue]
    rfl
  · rw [setStep, if_neg hkey, code_of_step hkey h]

/-- Pairs of a device are pairs of a status. -/
lemma foldlM_setStep {items : List (String × List Char)} (h : items.foldlM step d = .ok d') :
    items.foldlM setStep d.code = .ok d'.code := by
  induction items generalizing d with
  | nil =>
      cases h
      rfl
  | cons pair rest ih =>
      rw [List.foldlM_cons] at h ⊢
      obtain ⟨d₁, hpair, hrest⟩ := Except.bind_eq_ok_iff.mp h
      exact Except.bind_eq_ok_iff.mpr ⟨d₁.code, setStep_of_step hpair, ih hrest⟩

end DeviceDraft

/-- What the reader of devices reads to its end, with no fault behind it, the reader of updates
does. -/
lemma Pairs.foldM_setStep {p : Pairs} {d d' : DeviceDraft}
    (h : p.foldM DeviceDraft.step d = .ok d') : p.foldM setStep d.code = .ok d'.code := by
  obtain ⟨items, hp, hrun⟩ := Pairs.foldM_eq_ok_iff.mp h
  exact Pairs.foldM_eq_ok_iff.mpr ⟨items, hp, DeviceDraft.foldlM_setStep hrun⟩

/-! ### Judgements -/

/-- The status that a response reports, `none` if it has no line for it. -/
def statusOf (response : List Char) : Except Error (Option Int32) :=
  (Pairs.ofText response).foldM setStep none

variable {operation : String} {code : Option Int32}

lemma checkStatus_eq_errno_iff {other : String} {n : Int32} :
    checkStatus operation code = .error (.errno other n) ↔
      operation = other ∧ code = some n ∧ n ≠ 0 := by
  cases code with
  | none => simp [checkStatus]
  | some m =>
      rw [checkStatus]
      split_ifs with hzero
      · subst hzero
        simp only [Option.some.injEq, false_iff, not_and, not_not]
        exact fun _ h => h.symm
      · simp only [Except.error.injEq, Error.errno.injEq, Option.some.injEq]
        constructor
        · rintro ⟨hoperation, rfl⟩
          exact ⟨hoperation, rfl, hzero⟩
        · rintro ⟨hoperation, hm, -⟩
          exact ⟨hoperation, hm⟩

/-- A status is malformed exactly if there is none. -/
lemma exists_checkStatus_eq_decode_iff :
    (∃ detail, checkStatus operation code = .error (.decode detail)) ↔ code = none := by
  cases code with
  | none => simp [checkStatus]
  | some m =>
      rw [checkStatus]
      split_ifs <;> simp

lemma readSet_eq (response : List Char) :
    readSet response = (do checkStatus "set" (← statusOf response)) := rfl

/-- **A response is malformed for the reader of devices, or judged by its status**, which is the one
that the reader of updates finds. -/
lemma readGet_eq_checkStatus (name : String) (response : List Char) :
    (∃ detail, readGet name response = .error (.decode detail)) ∨
      ∃ code device, statusOf response = .ok code ∧
        readGet name response = (do checkStatus "get" code; return device) := by
  have hread : readGet name response = (do
      let d ← (Pairs.ofText response).foldM DeviceDraft.step { device := startOf name }
      let d ← d.finishPeer
      checkStatus "get" d.code
      return withDerivedKey d.device) := rfl
  rw [hread]
  cases hrun : (Pairs.ofText response).foldM DeviceDraft.step { device := startOf name } with
  | error e =>
      obtain ⟨detail, rfl⟩ :=
        (Pairs.failsOnly_foldM DeviceDraft.failsOnly_step _ _ e hrun).exists_eq
      exact .inl ⟨detail, rfl⟩
  | ok d₁ =>
      have hstatus : statusOf response = .ok d₁.code := Pairs.foldM_setStep hrun
      simp only [bind, Except.bind]
      cases hfinish : d₁.finishPeer with
      | error e =>
          obtain ⟨detail, rfl⟩ := (d₁.failsOnly_finishPeer e hfinish).exists_eq
          exact .inl ⟨detail, rfl⟩
      | ok d =>
          have hcode : d.code = d₁.code := by rw [DeviceDraft.finishPeer_eq_ok hfinish]
          exact .inr ⟨d.code, withDerivedKey d.device, hcode ▸ hstatus, rfl⟩

/-- **The two readers of a response agree on its status.** A response that describes a device says
that an update was applied; an error number that the reader of devices reports is reported by the
reader of updates; and what is malformed for the latter is malformed for the former. -/
theorem readers_agree (name : String) (response : List Char) :
    (∀ device, readGet name response = .ok device → readSet response = .ok ()) ∧
      (∀ operation code, readGet name response = .error (.errno operation code) →
        readSet response = .error (.errno "set" code)) ∧
      ∀ detail, readSet response = .error (.decode detail) →
        ∃ detail', readGet name response = .error (.decode detail') := by
  rcases readGet_eq_checkStatus name response with ⟨detail, hget⟩ | ⟨code, device, hstatus, hget⟩
  · rw [hget]
    refine ⟨?_, ?_, fun _ _ => ⟨detail, rfl⟩⟩
    · rintro device ⟨⟩
    · rintro operation code ⟨⟩
  · have hset : readSet response = checkStatus "set" code := by rw [readSet_eq, hstatus]; rfl
    rw [hget, hset]
    cases hcheck : checkStatus "get" code with
    | ok _ =>
        obtain rfl := checkStatus_eq_ok_iff.mp hcheck
        refine ⟨fun _ _ => rfl, ?_, ?_⟩
        · rintro operation n ⟨⟩
        · rintro detail ⟨⟩
    | error e =>
        refine ⟨?_, ?_, ?_⟩
        · rintro device ⟨⟩
        · rintro operation n hn
          obtain rfl := Except.error.inj hn
          obtain ⟨-, hcode, hne⟩ := checkStatus_eq_errno_iff.mp hcheck
          exact checkStatus_eq_errno_iff.mpr ⟨rfl, hcode, hne⟩
        · intro detail hdetail
          obtain rfl := exists_checkStatus_eq_decode_iff.mp ⟨detail, hdetail⟩
          cases hcheck
          exact ⟨_, rfl⟩

/-- A status without an error; an error number; and lines behind a status, in front of which the
reader of devices already finds a value that is no number. -/
theorem readers_agree_statuses :
    let fine := "errno=0\n\n".toList
    let failed := "fwmark=1\nerrno=22\n\n".toList
    let malformed := "fwmark=x\nerrno=0\nfwmark=1\n\n".toList
    (readGet "wg0" fine = .ok { name := "wg0", deviceType := .userspace } ∧
        readSet fine = .ok ()) ∧
      (readGet "wg0" failed = .error (.errno "get" 22) ∧
        readSet failed = .error (.errno "set" 22)) ∧
      (readSet malformed = .error (.decode "line after errno: \"fwmark=1\"") ∧
        ∃ detail, readGet "wg0" malformed = .error (.decode detail)) := by
  intro fine failed malformed
  have hpairs : ∀ {lines : List (List Char)},
      (∀ l ∈ lines, l ≠ [] ∧ '\n' ∉ l ∧ l.getLast? ≠ some '\r') →
        Pairs.ofText (paragraph lines) = Pairs.ofLines false lines := by
    intro lines h
    rw [Pairs.ofText, body_paragraph (fun l hl => (h l hl).1) (fun l hl => (h l hl).2.1)
      fun l hl => (h l hl).2.2]
  have hfine : Pairs.ofText fine = _ := @hpairs ["errno=0".toList] (by decide)
  have hfailed : Pairs.ofText failed = _ :=
    @hpairs ["fwmark=1".toList, "errno=22".toList] (by decide)
  have hmalformed : Pairs.ofText malformed = _ :=
    @hpairs ["fwmark=x".toList, "errno=0".toList, "fwmark=1".toList] (by decide)
  have hgetFine : readGet "wg0" fine = .ok { name := "wg0", deviceType := .userspace } := by
    rw [readGet, hfine]
    rfl
  have hgetFailed : readGet "wg0" failed = .error (.errno "get" 22) := by
    rw [readGet, hfailed]
    rfl
  have hsetMalformed :
      readSet malformed = .error (.decode "line after errno: \"fwmark=1\"") := by
    rw [readSet, hmalformed]
    decide
  exact ⟨⟨hgetFine, (readers_agree "wg0" fine).1 _ hgetFine⟩,
    ⟨hgetFailed, (readers_agree "wg0" failed).2.1 _ _ hgetFailed⟩,
    hsetMalformed, (readers_agree "wg0" malformed).2.2 _ hsetMalformed⟩

end WireGuardControl.Uapi
