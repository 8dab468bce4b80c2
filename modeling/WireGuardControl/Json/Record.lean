import WireGuardControl.Json.Reader
import WireGuardControl.Json.Skip
/-!
Values of record types as JSON objects.

* `Codec`: how the values of a type are written and read.
* `Field`: a named part of a record; `Record`: its fields in the order in which they are
  written.
* `Record.codec`: a record is written as an object. It is read from an object with its members
  in any order, or from a list of the fields' values in the order of the fields. A field that
  stands twice is refused, and so is one that is required and missing.

That the package which writes and reads JSON for the program gives records this form is assumed.
-/

namespace WireGuardControl.Json

open Text

/-- How the values of a type are written and read. -/
structure Codec (α : Type) where
  /-- The JSON of a value; some values have none. -/
  write : α → Except Fault Value
  /-- The reader of values. -/
  reader : Reader α

namespace Codec

/-- The text of a value. -/
def text {α : Type} (c : Codec α) (a : α) : Except Fault (List Char) :=
  (c.write a).map Value.compact

/-- Reads a value from a whole text. -/
def parse {α : Type} (c : Codec α) (s : List Char) : Except Fault α := c.reader.parse s

/-- Truth values. -/
def bool : Codec Bool := ⟨fun b => .ok (.bool b), Reader.bool⟩

/-- Natural numbers up to `limit`. -/
def natural (limit : Nat) : Codec Nat := ⟨fun n => .ok (.number n), Reader.natural limit⟩

/-- Values written through an image `f` that `g` reads back where it can. -/
def via {α β : Type} (c : Codec α) (f : β → α) (g : α → Option β) : Codec β :=
  ⟨fun b => c.write (f b), c.reader.checked g⟩

/-- Texts. -/
def chars : Codec (List Char) :=
  ⟨fun s => .ok (.string (String.ofList s)), Reader.chars⟩

/-- Values written as texts that `g` reads back where it can. -/
def spelled {β : Type} (f : β → String) (g : List Char → Option β) : Codec β :=
  chars.via (fun b => (f b).toList) g

/-- Values that may be absent. -/
def optional {α : Type} (c : Codec α) : Codec (Option α) where
  write
    | none => .ok .null
    | some a => c.write a
  reader := c.reader.optional

/-- Lists. -/
def list {α : Type} (c : Codec α) : Codec (List α) where
  write := fun l => (l.mapM c.write).map Value.list
  reader := c.reader.list

/-- Values with names, of which `name` gives the one to write. -/
def choice {α : Type} (values : List α) (name : α → String) : Codec α where
  write := fun a => .ok (.string (name a))
  reader := Reader.choice (values.map fun a => (name a, a))

end Codec

/-! ### Fields -/

/-- A named part of the record `σ`. -/
structure Field (σ : Type) where
  /-- The name. -/
  name : String
  /-- Whether an object without this field is refused. -/
  required : Bool
  /-- The JSON of the part of a record. -/
  write : σ → Except Fault Value
  /-- Reads the part into a record. -/
  reader : Reader (σ → σ)

/-- The field with values of the type `α`, which `get` takes out of a record and `put` puts into
one. -/
def Field.of {σ α : Type} (name : String) (c : Codec α) (get : σ → α) (put : α → σ → σ) :
    Field σ where
  name := name
  required := true
  write := fun x => c.write (get x)
  reader := c.reader.checked fun a => some (put a)

/-- The same field, which an object may leave out. -/
def Field.leftOut {σ : Type} (f : Field σ) : Field σ := { f with required := false }

/-- A record type as a row of fields. -/
structure Record (σ : Type) where
  /-- The record before any of its fields has been read. -/
  start : σ
  /-- The fields in the order in which they are written. -/
  fields : List (Field σ)
  /-- Whether members that are no fields are passed over. -/
  tolerant : Bool := true
  /-- Whether a list may end before all fields have their values. -/
  abridged : Bool := false
  /-- What the fields must satisfy together. -/
  valid : σ → Bool := fun _ => true

namespace Record

variable {σ : Type}

/-- The object of a record. -/
def write (r : Record σ) (x : σ) : Except Fault Value :=
  let member := fun (f : Field σ) => (f.write x).map fun v => (f.name, v)
  (r.fields.mapM member).map Value.object

/-! ### Reading objects -/

/-- A record while its members are read. -/
structure Progress (σ : Type) where
  /-- The names of the fields that have been read. -/
  names : List String
  /-- The record so far. -/
  record : σ

/-- Reads a member whose opening quote has been taken already. -/
def readMember (r : Record σ) (p : Progress σ) (s : List Char) :
    Except Fault (Progress σ × List Char) := do
  let (key, s) ← readChars true s
  match r.fields.find? fun f => f.name.toList = key with
  | some f =>
      if f.name ∈ p.names then throw .unsuitable
      else
        let s ← expect ':' s
        let (put, s) ← f.reader.read s
        return (⟨f.name :: p.names, put p.record⟩, s)
  | none =>
      if r.tolerant then
        let s ← expect ':' s
        return (p, ← skipValue s)
      else throw .unsuitable

theorem length_readMember_lt {r : Record σ} {p p' : Progress σ} {s rest : List Char}
    (h : r.readMember p s = .ok (p', rest)) : rest.length < s.length := by
  obtain ⟨⟨key, s₁⟩, h₁, h⟩ := bind_eq_ok h
  have := length_readChars_lt h₁
  dsimp only at h
  split at h
  · rename_i f hf
    split at h
    · cases h
    · obtain ⟨s₂, h₂, h⟩ := bind_eq_ok h
      obtain ⟨⟨put, s₃⟩, h₃, h⟩ := bind_eq_ok h
      cases h
      have := length_expect_lt h₂
      have := f.reader.length_lt h₃
      dsimp only
      omega
  · split at h
    · obtain ⟨s₂, h₂, h⟩ := bind_eq_ok h
      obtain ⟨s₃, h₃, h⟩ := bind_eq_ok h
      cases h
      have := length_expect_lt h₂
      have := length_skipFrom_le h₃
      omega
    · cases h

/-- The record whose members have all been read, if none that is required is missing. -/
def complete (r : Record σ) (p : Progress σ) : Except Fault σ :=
  if r.fields.all fun f => ¬ f.required ∨ f.name ∈ p.names then
    if r.valid p.record then .ok p.record else .error .unsuitable
  else .error .unsuitable

/-- Reads the remaining members behind the opening quote of the first of them. -/
def readMembers (r : Record σ) (p : Progress σ) (s : List Char) :
    Except Fault (σ × List Char) :=
  match h : r.readMember p s with
  | .error fault => .error fault
  | .ok (p', s₁) =>
      match h₁ : skipBlank s₁ with
      | [] => .error .unfinished
      | c :: s₂ =>
          if c = '\x7d' then (r.complete p').map (·, s₂)
          else if c = ',' then
            match h₂ : expect '"' s₂ with
            | .ok s₃ =>
                have := length_readMember_lt h
                have : (c :: s₂).length ≤ s₁.length := h₁ ▸ length_skipBlank_le s₁
                have := length_expect_lt h₂
                r.readMembers p' s₃
            | .error fault => .error fault
          else .error .malformed
  termination_by s.length
  decreasing_by simp only [List.length_cons] at *; omega

theorem length_readMembers_lt {r : Record σ} {p : Progress σ} {s rest : List Char} {x : σ}
    (h : r.readMembers p s = .ok (x, rest)) : rest.length < s.length := by
  fun_induction readMembers r p s with
  | case1 => cases h
  | case2 => cases h
  | case3 p s p' s₁ h₀ s₂ h₁ =>
    obtain ⟨y, hy, h⟩ := map_eq_ok h
    cases h
    have := length_readMember_lt h₀
    have hl := length_skipBlank_le s₁
    rw [h₁, List.length_cons] at hl
    omega
  | case4 p s p' s₁ _ s₂ s₃ _ _ _ _ _ hl ih =>
    have := ih h
    rw [List.length_cons] at hl
    omega
  | case5 => cases h
  | case6 => cases h

/-- Reads an object behind its opening brace. -/
def readObject (r : Record σ) (s : List Char) : Except Fault (σ × List Char) :=
  match skipBlank s with
  | [] => .error .unfinished
  | c :: rest =>
      if c = '\x7d' then (r.complete ⟨[], r.start⟩).map (·, rest)
      else if c = '"' then r.readMembers ⟨[], r.start⟩ rest
      else .error .malformed

/-! ### Reading lists -/

/-- Reads the values of fields out of a list. -/
def readValues (r : Record σ) (first : Bool) :
    List (Field σ) → σ → List Char → Except Fault (σ × List Char)
  | [], x, s => .ok (x, s)
  | f :: fields, x, s => do
      match ← listHead first s with
      | .close s => if r.abridged then return (x, s) else throw .unsuitable
      | .item s =>
          let (put, s) ← f.reader.read s
          r.readValues false fields (put x) s

/-- Reads a list of the fields' values behind its bracket. -/
def readRow (r : Record σ) (s : List Char) : Except Fault (σ × List Char) := do
  let (x, s) ← r.readValues true r.fields r.start s
  if r.valid x then return (x, ← expect ']' s) else throw .unsuitable

theorem length_readValues_le {r : Record σ} {first : Bool} {fields : List (Field σ)} {x y : σ}
    {s rest : List Char} (h : r.readValues first fields x s = .ok (y, rest)) :
    rest.length ≤ s.length := by
  induction fields generalizing first x s with
  | nil => cases h; exact Nat.le_refl _
  | cons f fields ih =>
    obtain ⟨head, h₁, h⟩ := bind_eq_ok h
    have := length_listHead_le h₁
    cases head with
    | close t =>
      dsimp only at h
      split at h
      · cases h; exact this
      · cases h
    | item t =>
      obtain ⟨⟨put, s₂⟩, h₂, h⟩ := bind_eq_ok h
      have := f.reader.length_lt h₂
      have := ih h
      simp only [ListHead.text] at *
      omega

/-! ### Reading records -/

/-- Reads a record. -/
def read (r : Record σ) (s : List Char) : Except Fault (σ × List Char) :=
  match skipBlank s with
  | '[' :: rest => r.readRow rest
  | '\x7b' :: rest => r.readObject rest
  | other => .error (mismatch other)

theorem length_read_lt {r : Record σ} {s rest : List Char} {x : σ}
    (h : r.read s = .ok (x, rest)) : rest.length < s.length := by
  have hs := length_skipBlank_le s
  unfold read at h
  split at h
  · rename_i t ht
    obtain ⟨⟨y, s₁⟩, h₁, h⟩ := bind_eq_ok h
    have := length_readValues_le h₁
    dsimp only at h
    split at h
    · obtain ⟨s₂, h₂, h⟩ := bind_eq_ok h
      cases h
      have := length_expect_lt h₂
      rw [ht, List.length_cons] at hs
      omega
    · cases h
  · rename_i t ht
    rw [ht, List.length_cons] at hs
    have ht := length_skipBlank_le t
    unfold readObject at h
    split at h
    · cases h
    · rename_i c u hu
      rw [hu, List.length_cons] at ht
      split at h
      · obtain ⟨y, hy, h⟩ := map_eq_ok h
        cases h
        omega
      split at h
      · have := length_readMembers_lt h
        omega
      · cases h
  · cases h

/-- The codec of a record type. -/
def codec (r : Record σ) : Codec σ := ⟨r.write, ⟨r.read, length_read_lt⟩⟩

end Record

end WireGuardControl.Json
