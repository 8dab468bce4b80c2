import WireGuardControl.Bytes
/-!
Octets by their offsets in a row.

* `Outside`: an access that ends behind the row.
* `Bytes.octetsAt` and `Bytes.slice`: octets one by one, and a run of them. Either is refused if
  the row is too short; `octetsAt_eq` and `slice_eq` say what they give otherwise.
-/

namespace WireGuardControl

/-- An access that does not stay inside a row. -/
structure Outside where
  /-- The offset at which the access ends. -/
  stop : Nat
  /-- How many octets there are. -/
  room : Nat
  deriving DecidableEq

namespace Bytes

/-- The octet at an offset. -/
def octetAt (b : Bytes) (offset : Nat) : Except Outside UInt8 :=
  if h : offset < b.length then .ok b[offset] else .error ⟨offset + 1, b.length⟩

/-- The octets at `width` offsets, of which `start` is the first. -/
def octetsAt (b : Bytes) (start : Nat) : (width : Nat) → Except Outside Bytes
  | 0 => .ok []
  | width + 1 => do
      let x ← b.octetAt start
      let rest ← octetsAt b (start + 1) width
      return x :: rest

/-- The octets from the offset `start` up to the offset `stop`. -/
def slice (b : Bytes) (start stop : Nat) : Except Outside Bytes :=
  if start ≤ stop ∧ stop ≤ b.length then .ok (b.field start (stop - start))
  else .error ⟨stop, b.length⟩

theorem octetsAt_eq (b : Bytes) (start width : Nat) (h : start + width ≤ b.length) :
    b.octetsAt start width = .ok (b.field start width) := by
  induction width generalizing start with
  | zero => simp [octetsAt, field]
  | succ width ih =>
      have hstart : start < b.length := by omega
      rw [octetsAt, octetAt, dif_pos hstart, ih (start + 1) (by omega), field, field,
        List.drop_eq_getElem_cons hstart, List.take_succ_cons]
      rfl

theorem slice_eq (b : Bytes) (start stop : Nat) (h : start ≤ stop) (hstop : stop ≤ b.length) :
    b.slice start stop = .ok (b.field start (stop - start)) := by
  rw [slice, if_pos ⟨h, hstop⟩]

/-- The octets up to the end, from an offset on that may lie behind it. -/
theorem slice_min_length (b : Bytes) (start : Nat) :
    b.slice (min start b.length) b.length = .ok (b.drop start) := by
  rw [slice_eq b _ _ (Nat.min_le_right _ _) (Nat.le_refl _), field]
  by_cases h : start ≤ b.length
  · rw [Nat.min_eq_left h, List.take_of_length_le (by simp)]
  · rw [List.drop_eq_nil_of_le (by omega), List.drop_eq_nil_of_le (by omega), List.take_nil]

end Bytes

end WireGuardControl
