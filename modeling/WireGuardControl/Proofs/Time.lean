import Mathlib.Tactic
import WireGuardControl.Bytes
import WireGuardControl.Proofs.Failing
/-!
The time of a handshake that two counters report.

* `Instant.InRange`: unsigned counters stand for a time, and `Instant.reported` is that time.
  `Instant.ofHandshake_eq_ok_iff`: they are read exactly if they do.
* `Instant.handshake?`: the time that signed counters stand for, if they do.
  `Instant.ofSignedHandshake_eq_ok_iff`: it is what they are read as.
* `counters`: the octets of two signed counters.
* `Reads x expected`: a computation gives the result that is expected, or says that an answer is
  malformed if none is.
-/

namespace WireGuardControl

namespace Instant

/-! ### Unsigned counters -/

/-- Seconds since the epoch for which an instant has room, and nanoseconds below one second. -/
def InRange (seconds nanoseconds : UInt64) : Prop :=
  seconds.toNat ≤ maxSeconds ∧ nanoseconds.toNat < nanosPerSecond

/-- The time that two counters stand for, none if both are zero. -/
def reported (seconds nanoseconds : UInt64) : Option Instant :=
  if seconds = 0 ∧ nanoseconds = 0 then none
  else if h : nanoseconds.toNat < nanosPerSecond then some ⟨seconds.toInt64, ⟨_, h⟩⟩
  else none

/-- **Counters are read** exactly if they stand for a time. -/
lemma ofHandshake_eq_ok_iff {seconds nanoseconds : UInt64} {time : Option Instant} :
    ofHandshake seconds nanoseconds = .ok time ↔
      InRange seconds nanoseconds ∧ reported seconds nanoseconds = time := by
  rw [ofHandshake, reported, InRange]
  split_ifs with hzero hnanos
  · obtain ⟨rfl, rfl⟩ := hzero
    simp [maxSeconds, nanosPerSecond]
  · by_cases hseconds : seconds.toNat ≤ maxSeconds
    · simp [ofEpoch?, hseconds, hnanos]
    · simp [ofEpoch?, hseconds]
  · simp [hnanos]

/-! ### Signed counters -/

/-- The time that two signed counters stand for, if they do: none at all if both are zero, and else
the instant so many seconds and nanoseconds behind the epoch. -/
def handshake? (seconds nanoseconds : Int64) : Option (Option Instant) :=
  if seconds = 0 ∧ nanoseconds = 0 then some none
  else if h : 0 ≤ seconds.toInt ∧ 0 ≤ nanoseconds.toInt ∧ nanoseconds.toInt < nanosPerSecond then
    some (some ⟨seconds, ⟨nanoseconds.toInt.toNat, by omega⟩⟩)
  else none

lemma toNat_toUInt64 {x : Int64} (h : 0 ≤ x.toInt) : x.toUInt64.toNat = x.toInt.toNat := by
  have hint : x.toInt = x.toBitVec.toInt := rfl
  have hnat : x.toUInt64.toNat = x.toBitVec.toNat := rfl
  rw [hint, BitVec.toInt_eq_toNat_cond] at h ⊢
  rw [hnat]
  split_ifs at h ⊢ <;> omega

lemma toUInt64_eq_zero_iff {x : Int64} : x.toUInt64 = 0 ↔ x = 0 := by
  constructor
  · intro h
    rw [← x.toInt64_toUInt64, h]
    rfl
  · rintro rfl
    rfl

variable {seconds nanoseconds : Int64} {time : Option Instant}

lemma handshake?_of_neg (h : seconds.toInt < 0 ∨ nanoseconds.toInt < 0) :
    handshake? seconds nanoseconds = none := by
  rw [handshake?, if_neg, dif_neg (by omega)]
  rintro ⟨rfl, rfl⟩
  rw [Int64.toInt_zero] at h
  omega

/-- Counters that are not negative stand for the same time as unsigned ones. -/
lemma reported_eq_iff (hseconds : 0 ≤ seconds.toInt) (hnanos : 0 ≤ nanoseconds.toInt) :
    InRange seconds.toUInt64 nanoseconds.toUInt64 ∧
        reported seconds.toUInt64 nanoseconds.toUInt64 = time ↔
      handshake? seconds nanoseconds = some time := by
  have hroom : seconds.toInt.toNat ≤ maxSeconds := by
    have hlt := seconds.toInt_lt
    rw [maxSeconds]
    omega
  have hbelow : nanoseconds.toInt.toNat < nanosPerSecond ↔ nanoseconds.toInt < nanosPerSecond := by
    omega
  simp only [InRange, reported, handshake?, toNat_toUInt64 hseconds, toNat_toUInt64 hnanos,
    toUInt64_eq_zero_iff, Int64.toInt64_toUInt64, hroom, hseconds, hnanos, hbelow, true_and]
  by_cases hzero : seconds = 0 ∧ nanoseconds = 0
  · obtain ⟨rfl, rfl⟩ := hzero
    simp [nanosPerSecond]
  · rw [if_neg hzero, if_neg hzero]
    by_cases hnanos : nanoseconds.toInt < nanosPerSecond
    · rw [dif_pos hnanos, dif_pos hnanos, and_iff_right hnanos, Option.some_inj]
    · rw [dif_neg hnanos, dif_neg hnanos]
      exact iff_of_false (fun h => hnanos h.1) (by simp)

/-- **Signed counters are read** as the time that they stand for. -/
lemma ofSignedHandshake_eq_ok_iff {negative : Error} :
    ofSignedHandshake negative seconds nanoseconds = .ok time ↔
      handshake? seconds nanoseconds = some time := by
  simp only [ofSignedHandshake, Int64.lt_iff_toInt_lt, Int64.toInt_zero]
  split_ifs with hnegative
  · simp [handshake?_of_neg hnegative]
  · rw [not_or, not_lt, not_lt] at hnegative
    rw [ofHandshake_eq_ok_iff, reported_eq_iff hnegative.1 hnegative.2]

end Instant

/-- The octets of two signed counters. -/
def counters (seconds nanoseconds : Int64) : Bytes :=
  Bytes.ofUInt64LE seconds.toUInt64 ++ Bytes.ofUInt64LE nanoseconds.toUInt64

lemma toInt64LE_ofUInt64LE (x : Int64) : Bytes.toInt64LE (Bytes.ofUInt64LE x.toUInt64) = x := by
  rw [Bytes.toInt64LE, Bytes.toUInt64LE_ofUInt64LE, Int64.toInt64_toUInt64]

lemma toInt32LE_ofUInt32LE (x : Int32) : Bytes.toInt32LE (Bytes.ofUInt32LE x.toUInt32) = x := by
  rw [Bytes.toInt32LE, Bytes.toUInt32LE_ofUInt32LE, Int32.toInt32_toUInt32]

/-! ### Expected results -/

/-- A computation gives the result that is expected, and if none is expected, it says that an
answer is malformed. -/
def Reads {α : Type} (x : Except Error α) : (expected : Option α) → Prop
  | some a => x = .ok a
  | none => ∃ e, x = .error e ∧ e.IsDecode

namespace Reads

variable {α β : Type} {x : Except Error α} {expected : Option α}

lemma of_eq_ok_iff (hok : ∀ a, x = .ok a ↔ expected = some a)
    (hfails : FailsOnly Error.IsDecode x) : Reads x expected := by
  cases expected with
  | some a => exact (hok a).mpr rfl
  | none =>
      cases x with
      | error e => exact ⟨e, rfl, hfails e rfl⟩
      | ok a => cases (hok a).mp rfl

/-- A computation that only puts the result of another to use. -/
lemma pure_bind (h : Reads x expected) (f : α → β) :
    Reads (do let a ← x; return f a) (expected.map f) := by
  cases expected with
  | some a =>
      obtain rfl : x = .ok a := h
      rfl
  | none =>
      obtain ⟨e, rfl, he⟩ := h
      exact ⟨e, rfl, he⟩

end Reads

/-- **Signed counters** are read as the time that they stand for, or are malformed. -/
lemma Instant.reads_ofSignedHandshake {negative : Error} (h : negative.IsDecode)
    (seconds nanoseconds : Int64) :
    Reads (ofSignedHandshake negative seconds nanoseconds) (handshake? seconds nanoseconds) :=
  .of_eq_ok_iff (fun _ => ofSignedHandshake_eq_ok_iff) (failsOnly_ofSignedHandshake h _ _)

end WireGuardControl
