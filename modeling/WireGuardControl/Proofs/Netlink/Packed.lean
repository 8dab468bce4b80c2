import Mathlib.Tactic
import WireGuardControl.Bytes
/-!
Units that stand one behind the other, each carried to a multiple of four octets.

* `Packed`: the octets of units with any padding between them, of which only the last unit may
  lack some or all.
* `Packed.length_mod`: every unit begins at a multiple of four.
* `Packed.drop` and `Packed.of_drop`: a unit may be taken from the head of a row, and put back.
* `packed_zeros`: units that are padded with zero octets.
* `units_ind`: the induction principle of rows, unit by unit. `exists_packed_iff`: what reads a row
  unit by unit accepts exactly the packed ones.
-/

namespace WireGuardControl

variable {α : Type} {octets : α → Bytes}

/-- A row of octets holds units, each with its padding. -/
structure Packed (octets : α → Bytes) (units : List (α × Bytes)) (b : Bytes) : Prop where
  /-- The row is the octets and the padding of one unit behind those of another. -/
  flatMap_octets : units.flatMap (fun u => octets u.1 ++ u.2) = b
  /-- Every unit but the last is carried to the next multiple of four. -/
  full : ∀ u ∈ units.dropLast, u.2.length = Bytes.padding (octets u.1).length
  /-- No unit has more padding. -/
  length_le : ∀ u ∈ units, u.2.length ≤ Bytes.padding (octets u.1).length

namespace Packed

variable {x : α} {pad b : Bytes} {units : List (α × Bytes)}

lemma nil_iff : Packed octets [] b ↔ b = [] := by
  constructor
  · exact fun h => h.flatMap_octets.symm
  · rintro rfl
    exact ⟨rfl, by simp, by simp⟩

/-- A row begins with a unit. -/
lemma cons_iff : Packed octets ((x, pad) :: units) b ↔
    pad.length ≤ Bytes.padding (octets x).length ∧
      (units ≠ [] → pad.length = Bytes.padding (octets x).length) ∧
      ∃ rest, Packed octets units rest ∧ b = octets x ++ pad ++ rest := by
  constructor
  · intro h
    have hle := List.forall_mem_cons.mp h.length_le
    refine ⟨hle.1, fun hne => ?_, _, ⟨rfl, fun u hu => h.full u ?_, hle.2⟩,
      h.flatMap_octets.symm⟩
    · exact h.full (x, pad) (by simp [List.dropLast_cons_of_ne_nil hne])
    · have hne : units ≠ [] := fun hnil => by simp [hnil] at hu
      simp [List.dropLast_cons_of_ne_nil hne, hu]
  · rintro ⟨hle, hfull, rest, h, rfl⟩
    refine ⟨by rw [List.flatMap_cons, h.flatMap_octets], fun u hu => ?_,
      List.forall_mem_cons.mpr ⟨hle, h.length_le⟩⟩
    cases hunits : units with
    | nil => simp [hunits] at hu
    | cons v vs =>
        have hne : units ≠ [] := by simp [hunits]
        rw [List.dropLast_cons_of_ne_nil hne] at hu
        rcases List.mem_cons.mp hu with rfl | hu
        · exact hfull hne
        · exact h.full u hu

/-- **Every unit begins at a multiple of four.** -/
lemma length_mod {earlier later : List (α × Bytes)} {u : α × Bytes}
    (h : Packed octets (earlier ++ u :: later) b) :
    (earlier.flatMap fun v => octets v.1 ++ v.2).length % 4 = 0 := by
  induction earlier generalizing b with
  | nil => rfl
  | cons v earlier ih =>
      rw [List.cons_append, cons_iff] at h
      obtain ⟨-, hfull, rest, hrest, -⟩ := h
      -- Another unit follows, so this one has all of its padding.
      have hpad := hfull (by simp)
      have hmod := ih hrest
      have haligned := Bytes.aligned_mod (octets v.1).length
      rw [Bytes.aligned] at haligned
      simp only [List.flatMap_cons, List.length_append] at hmod ⊢
      omega

/-- Behind the first unit, the rest of the row holds the other units. -/
lemma drop (h : Packed octets ((x, pad) :: units) b) :
    octets x <+: b ∧ Packed octets units (b.drop (Bytes.aligned (octets x).length)) := by
  obtain ⟨hle, hfull, rest, hrest, rfl⟩ := cons_iff.mp h
  refine ⟨⟨pad ++ rest, by rw [List.append_assoc]⟩, ?_⟩
  by_cases hne : units = []
  · subst hne
    obtain rfl := nil_iff.mp hrest
    rw [nil_iff, List.drop_eq_nil_iff, List.append_nil, List.length_append, Bytes.aligned]
    omega
  · have hlen : Bytes.aligned (octets x).length = (octets x ++ pad).length := by
      rw [List.length_append, hfull hne, Bytes.aligned]
    rwa [hlen, List.drop_left]

/-- A unit is put in front of a row, with the padding that stands there. -/
lemma of_drop (hne : ∀ x, octets x ≠ []) (hx : octets x <+: b)
    (h : Packed octets units (b.drop (Bytes.aligned (octets x).length))) :
    ∃ pad, Packed octets ((x, pad) :: units) b := by
  obtain ⟨tail, rfl⟩ := hx
  rw [Bytes.aligned, List.drop_length_add_append] at h
  refine ⟨tail.take (Bytes.padding (octets x).length), cons_iff.mpr ⟨?_, fun hunits => ?_,
    tail.drop (Bytes.padding (octets x).length), h, ?_⟩⟩
  · rw [List.length_take]
    exact Nat.min_le_left _ _
  · rw [List.length_take_of_le]
    by_contra hlt
    rw [List.drop_eq_nil_of_le (by omega)] at h
    obtain ⟨u, units, rfl⟩ := List.exists_cons_of_ne_nil hunits
    have hnil := h.flatMap_octets
    rw [List.flatMap_cons, List.append_eq_nil_iff, List.append_eq_nil_iff] at hnil
    exact hne u.1 hnil.1.1
  · rw [List.append_assoc, List.take_append_drop]

end Packed

/-- Units that are padded with zero octets are packed. -/
lemma packed_zeros (octets : α → Bytes) (xs : List α) :
    Packed octets (xs.map fun x => (x, List.replicate (Bytes.padding (octets x).length) 0))
      (xs.flatMap fun x => Bytes.padded (octets x)) where
  flatMap_octets := by rw [List.flatMap_map]; rfl
  full u hu := by
    obtain ⟨x, -, rfl⟩ := List.mem_map.mp (List.mem_of_mem_dropLast hu)
    exact List.length_replicate
  length_le u hu := by
    obtain ⟨x, -, rfl⟩ := List.mem_map.mp hu
    exact List.length_replicate.le

/-! ### Reading unit by unit -/

lemma length_drop_lt (hne : ∀ x, octets x ≠ []) {x : α} {b : Bytes} (h : octets x <+: b) :
    (b.drop (Bytes.aligned (octets x).length)).length < b.length := by
  have hpos := List.length_pos_of_ne_nil (hne x)
  have hle := h.length_le
  rw [List.length_drop, Bytes.aligned]
  omega

section Reading

variable {Stops P : Bytes → Prop}

/-- The induction principle of rows, where a row is empty, or reading stops at it, or a unit stands
at its head: what holds of a row behind a unit holds of the row with the unit. -/
theorem units_ind (hne : ∀ x, octets x ≠ [])
    (hcases : ∀ b, b = [] ∨ Stops b ∨ ∃ x, octets x <+: b) (nil : P []) (stops : ∀ b, Stops b → P b)
    (unit : ∀ b x, octets x <+: b → P (b.drop (Bytes.aligned (octets x).length)) → P b)
    (b : Bytes) : P b := by
  induction hn : b.length using Nat.strong_induction_on generalizing b with
  | _ n ih =>
      -- Behind a unit there are fewer octets, on the number of which the induction is.
      rcases hcases b with rfl | hb | ⟨x, hx⟩
      · exact nil
      · exact stops b hb
      · exact unit b x hx (ih _ (hn ▸ length_drop_lt hne hx) _ rfl)

/-- **A reader that takes units from the head of a row accepts exactly the packed rows**: it accepts
nothing at all, refuses a row at which it stops, and decides on the row behind a unit otherwise. -/
lemma exists_packed_iff (hne : ∀ x, octets x ≠ [])
    (hcases : ∀ b, b = [] ∨ Stops b ∨ ∃ x, octets x <+: b) (nil : P [])
    (stops : ∀ b, Stops b → ¬ P b)
    (unit : ∀ b x, octets x <+: b →
      (P b ↔ P (b.drop (Bytes.aligned (octets x).length)))) (b : Bytes) :
    P b ↔ ∃ units, Packed octets units b := by
  constructor
  · refine units_ind (P := fun b => P b → ∃ units, Packed octets units b) hne hcases
      (fun _ => ⟨[], Packed.nil_iff.mpr rfl⟩) (fun b hb h => absurd h (stops b hb))
      (fun b x hx ih h => ?_) b
    obtain ⟨units, hunits⟩ := ih ((unit b x hx).mp h)
    obtain ⟨pad, hpad⟩ := Packed.of_drop hne hx hunits
    exact ⟨(x, pad) :: units, hpad⟩
  · rintro ⟨units, h⟩
    induction units generalizing b with
    | nil => rwa [Packed.nil_iff.mp h]
    | cons u units ih =>
        obtain ⟨hhead, hrest⟩ := h.drop
        exact (unit b u.1 hhead).mpr (ih _ hrest)

end Reading

end WireGuardControl
