import WireGuardControl.Json.Value
import WireGuardControl.Text.Utf8
/-!
The parts of JSON texts below values.

* `Fault`: a text is refused because it is no JSON, because it ends too early, or because it
  is a value of another kind than the one asked for. The first fault from the left counts.
* `skipBlank`, `expect`, `literal`: blanks, a mark behind blanks, and a fixed word.
* `readChars`: a text up to its closing quote, with its escapes undone. Half of a surrogate
  pair that stands alone is refused where `strict` is set.

That the package which reads JSON for the program undoes these escapes, and finds these faults,
is assumed.
-/

namespace WireGuardControl.Json

open Text

/-- Why a text is refused. -/
inductive Fault where
  /-- The text is no JSON. -/
  | malformed
  /-- The text is the JSON of something else. -/
  | unsuitable
  /-- The text ends too early. -/
  | unfinished
  deriving DecidableEq, Repr

/-- The fault of a text that does not go on as it must. -/
def unexpected : List Char → Fault
  | [] => .unfinished
  | _ :: _ => .malformed

/-- What a step of a reading that succeeds is made of. -/
theorem bind_eq_ok {α β : Type} {x : Except Fault α} {f : α → Except Fault β} {b : β}
    (h : (x >>= f) = .ok b) : ∃ a, x = .ok a ∧ f a = .ok b := by
  cases x with
  | error e => cases h
  | ok a => exact ⟨a, rfl, h⟩

/-! ### Blanks, marks and words -/

/-- Whether a character may stand between the parts of a text. -/
def isBlank (c : Char) : Bool := c = ' ' ∨ c = '\n' ∨ c = '\t' ∨ c = '\r'

/-- A text without the blanks in front of it. -/
def skipBlank (s : List Char) : List Char := s.dropWhile isBlank

theorem length_skipBlank_le (s : List Char) : (skipBlank s).length ≤ s.length :=
  (List.dropWhile_sublist _).length_le

/-- What stands behind the mark `c`, in front of which there may be blanks. -/
def expect (c : Char) (s : List Char) : Except Fault (List Char) :=
  match skipBlank s with
  | [] => .error .unfinished
  | d :: rest => if d = c then .ok rest else .error .malformed

theorem length_expect_lt {c : Char} {s rest : List Char} (h : expect c s = .ok rest) :
    rest.length < s.length := by
  have hs := length_skipBlank_le s
  unfold expect at h
  split at h
  · cases h
  · rename_i d r hd
    split at h
    · cases h
      rw [hd, List.length_cons] at hs
      omega
    · cases h

/-- What stands behind a word. -/
def literal : List Char → List Char → Except Fault (List Char)
  | [], s => .ok s
  | _ :: _, [] => .error .unfinished
  | c :: word, d :: s => if d = c then literal word s else .error .malformed

theorem length_literal_le {word s rest : List Char} (h : literal word s = .ok rest) :
    rest.length ≤ s.length := by
  fun_induction literal word s with
  | case1 s => cases h; exact Nat.le_refl _
  | case2 => cases h
  | case3 c word s ih => exact Nat.le_succ_of_le (ih h)
  | case4 => cases h

/-! ### Texts -/

/-- The value of a hexadecimal digit of either case. -/
def hexValue? (c : Char) : Option Nat :=
  if c.toNat < 128 then Hex.value? (UInt8.ofNat c.toNat) else none

/-- Reads a number of four hexadecimal digits. -/
def readQuad (s : List Char) : Except Fault (Nat × List Char) :=
  match (s.take 4).mapM hexValue? with
  | some [a, b, c, d] => .ok (4096 * a + 256 * b + 16 * c + d, s.drop 4)
  | _ => .error (if (Utf8.encode (s.take 4)).length < 4 then .unfinished else .malformed)

theorem length_readQuad_le {s rest : List Char} {n : Nat} (h : readQuad s = .ok (n, rest)) :
    rest.length ≤ s.length := by
  unfold readQuad at h
  split at h
  · simp only [Except.ok.injEq, Prod.mk.injEq] at h
    rw [← h.2, List.length_drop]
    omega
  · cases h

/-- Whether a number is the first half of a surrogate pair. -/
def isHighHalf (n : Nat) : Bool := 0xD800 ≤ n ∧ n ≤ 0xDBFF

/-- Whether a number is the second half of a surrogate pair. -/
def isLowHalf (n : Nat) : Bool := 0xDC00 ≤ n ∧ n ≤ 0xDFFF

/-- Reads the second half of a surrogate pair behind its first half `n`. -/
def readLowHalf (n : Nat) (s : List Char) : Except Fault (Char × List Char) := do
  let s ← literal ['\\', 'u'] s
  let (m, s) ← readQuad s
  if isLowHalf m then
    return (Char.ofNat (0x10000 + 0x400 * (n - 0xD800) + (m - 0xDC00)), s)
  else throw .malformed

/-- Reads a character by its number, or by the two halves of its pair. -/
def readNumbered (strict : Bool) (s : List Char) : Except Fault (Char × List Char) := do
  let (n, s) ← readQuad s
  if strict ∧ isLowHalf n then throw .malformed
  else if strict ∧ isHighHalf n then readLowHalf n s
  else return (Char.ofNat n, s)

/-- The characters that stand for others behind a backslash. -/
def escapes : List (Char × Char) := [('"', '"'), ('\\', '\\'), ('/', '/')] ++ shortEscapes

/-- Reads what stands behind a backslash. -/
def readEscape (strict : Bool) : List Char → Except Fault (Char × List Char)
  | [] => .error .unfinished
  | c :: s =>
      if c = 'u' then readNumbered strict s
      else match escapes.lookup c with
        | some d => .ok (d, s)
        | none => .error .malformed

theorem length_readLowHalf_le {n : Nat} {s rest : List Char} {c : Char}
    (h : readLowHalf n s = .ok (c, rest)) : rest.length ≤ s.length := by
  obtain ⟨s₁, h₁, h⟩ := bind_eq_ok h
  obtain ⟨⟨m, s₂⟩, h₂, h⟩ := bind_eq_ok h
  have l₁ := length_literal_le h₁
  have l₂ := length_readQuad_le h₂
  dsimp only at h
  split at h
  · simp only [pure, Except.pure, Except.ok.injEq, Prod.mk.injEq] at h
    rw [← h.2]
    omega
  · cases h

theorem length_readNumbered_le {strict : Bool} {s rest : List Char} {c : Char}
    (h : readNumbered strict s = .ok (c, rest)) : rest.length ≤ s.length := by
  obtain ⟨⟨n, s₁⟩, h₁, h⟩ := bind_eq_ok h
  have l₁ := length_readQuad_le h₁
  dsimp only at h
  split at h
  · cases h
  · split at h
    · have := length_readLowHalf_le h
      omega
    · cases h; exact l₁

theorem length_readEscape_le {strict : Bool} {s rest : List Char} {c : Char}
    (h : readEscape strict s = .ok (c, rest)) : rest.length ≤ s.length := by
  cases s with
  | nil => cases h
  | cons d s =>
    rw [readEscape] at h
    rw [List.length_cons]
    split at h
    · have := length_readNumbered_le h
      omega
    · split at h
      · cases h; omega
      · cases h

/-- Reads a text behind its opening quote. -/
def readChars (strict : Bool) : List Char → Except Fault (List Char × List Char)
  | [] => .error .unfinished
  | c :: s =>
      if c = '"' then .ok ([], s)
      else if c = '\\' then
        match h : readEscape strict s with
        | .ok (d, rest) =>
            have := length_readEscape_le h
            (readChars strict rest).map fun t => (d :: t.1, t.2)
        | .error fault => .error fault
      else if c.toNat < 32 then .error .malformed
      else (readChars strict s).map fun t => (c :: t.1, t.2)
  termination_by s => s.length
  decreasing_by all_goals rw [List.length_cons]; omega

theorem map_eq_ok {α β : Type} {x : Except Fault α} {f : α → β} {b : β}
    (h : x.map f = .ok b) : ∃ a, x = .ok a ∧ f a = b := by
  cases x with
  | error e => cases h
  | ok a => exact ⟨a, rfl, Except.ok.inj h⟩

theorem length_readChars_lt {strict : Bool} {s t rest : List Char}
    (h : readChars strict s = .ok (t, rest)) : rest.length < s.length := by
  fun_induction readChars strict s generalizing t with
  | case1 => cases h
  | case2 s => cases h; exact Nat.lt_succ_self _
  | case3 s _ r _ _ _ ih =>
    obtain ⟨u, hu, ht⟩ := map_eq_ok h
    cases ht
    have := ih hu
    rw [List.length_cons]
    omega
  | case4 => cases h
  | case5 => cases h
  | case6 c s h₁ h₂ h₃ ih =>
    obtain ⟨u, hu, ht⟩ := map_eq_ok h
    cases ht
    exact Nat.lt_succ_of_lt (ih hu)

end WireGuardControl.Json
