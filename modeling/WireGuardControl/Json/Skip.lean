import WireGuardControl.Json.Numeral
/-!
Passing over values of any kind.

* `Stage`: what is awaited inside the lists and objects that are still open, innermost first;
  there may be any number of them.
* `advance`: takes one value, key or mark; `skipFrom` goes on until nothing is open, and
  `skipValue` passes over one value.

Only the grammar counts here: numbers of any size pass, and so does half of a surrogate pair.
That the package which reads JSON for the program passes over the same values is assumed.
-/

namespace WireGuardControl.Json

/-- A list or an object that is still open. -/
inductive Level where
  /-- A list. -/
  | list
  /-- An object. -/
  | object
  deriving DecidableEq, Repr

/-- The mark that ends a level. -/
def Level.closing : Level → Char
  | .list => ']'
  | .object => '\x7d'

/-- What is awaited. -/
inductive Awaited where
  /-- A value. -/
  | value
  /-- The first item of a list, or its end. -/
  | item
  /-- A key. -/
  | key
  /-- The first key of an object, or its end. -/
  | member
  /-- A comma or the end of the innermost level. -/
  | separator
  deriving DecidableEq, Repr

/-- How far a value has been passed over. -/
structure Stage where
  /-- What is awaited. -/
  awaited : Awaited
  /-- The open levels, innermost first. -/
  levels : List Level
  deriving DecidableEq, Repr

/-- Passes over a word, a number or a text that begins with `c`. -/
def skipScalar (c : Char) (s : List Char) : Except Fault (List Char) :=
  if c = 'n' then literal "ull".toList s
  else if c = 't' then literal "rue".toList s
  else if c = 'f' then literal "alse".toList s
  else if c = '"' then (readChars false s).map (·.2)
  else (Numeral.scan .malformed (c :: s)).map (·.2)

/-- Takes a value that begins with `c`, or what opens it. -/
def beginValue (levels : List Level) (c : Char) (s : List Char) :
    Except Fault (Stage × List Char) :=
  if c = '[' then .ok (⟨.item, .list :: levels⟩, s)
  else if c = '\x7b' then .ok (⟨.member, .object :: levels⟩, s)
  else (skipScalar c s).map (⟨.separator, levels⟩, ·)

/-- Takes a key, whose quote has been taken already, and the colon behind it. -/
def finishKey (levels : List Level) (s : List Char) : Except Fault (Stage × List Char) := do
  let (_, s) ← readChars false s
  let s ← expect ':' s
  return (⟨.value, levels⟩, s)

/-- Takes the comma `c` or the end of the level `level`. -/
def separate (level : Level) (outer : List Level) (c : Char) (s : List Char) :
    Except Fault (Stage × List Char) :=
  if c = ',' then
    .ok (⟨match level with | .list => .value | .object => .key, level :: outer⟩, s)
  else if c = level.closing then .ok (⟨.separator, outer⟩, s)
  else .error .malformed

/-- Takes the next value, key or mark, which begins with `c`. -/
def advance (stage : Stage) (c : Char) (s : List Char) : Except Fault (Stage × List Char) :=
  match stage with
  | ⟨.value, levels⟩ => beginValue levels c s
  | ⟨.item, levels⟩ =>
      if c = ']' then .ok (⟨.separator, levels.tail⟩, s) else beginValue levels c s
  | ⟨.key, levels⟩ => if c = '"' then finishKey levels s else .error .malformed
  | ⟨.member, levels⟩ =>
      if c = '\x7d' then .ok (⟨.separator, levels.tail⟩, s)
      else if c = '"' then finishKey levels s
      else .error .malformed
  | ⟨.separator, []⟩ => .error .malformed
  | ⟨.separator, level :: outer⟩ => separate level outer c s

theorem length_skipScalar_le {c : Char} {s rest : List Char} (h : skipScalar c s = .ok rest) :
    rest.length ≤ s.length := by
  unfold skipScalar at h
  split at h
  · exact length_literal_le h
  split at h
  · exact length_literal_le h
  split at h
  · exact length_literal_le h
  split at h
  · obtain ⟨⟨t, r⟩, ht, h⟩ := map_eq_ok h
    cases h
    exact Nat.le_of_lt (length_readChars_lt ht)
  · obtain ⟨⟨t, r⟩, ht, h⟩ := map_eq_ok h
    cases h
    exact Nat.le_of_lt_succ (Numeral.length_scan_lt ht)

theorem length_beginValue_le {levels : List Level} {c : Char} {s rest : List Char}
    {stage : Stage} (h : beginValue levels c s = .ok (stage, rest)) :
    rest.length ≤ s.length := by
  unfold beginValue at h
  split at h
  · cases h; exact Nat.le_refl _
  split at h
  · cases h; exact Nat.le_refl _
  · obtain ⟨r, hr, h⟩ := map_eq_ok h
    cases h
    exact length_skipScalar_le hr

theorem length_finishKey_le {levels : List Level} {s rest : List Char} {stage : Stage}
    (h : finishKey levels s = .ok (stage, rest)) : rest.length ≤ s.length := by
  obtain ⟨⟨_, s₁⟩, h₁, h⟩ := bind_eq_ok h
  obtain ⟨s₂, h₂, h⟩ := bind_eq_ok h
  cases h
  have := length_readChars_lt h₁
  have := length_expect_lt h₂
  omega

theorem length_separate_le {level : Level} {outer : List Level} {c : Char}
    {s rest : List Char} {stage : Stage} (h : separate level outer c s = .ok (stage, rest)) :
    rest.length ≤ s.length := by
  unfold separate at h
  split at h
  · cases h; exact Nat.le_refl _
  split at h
  · cases h; exact Nat.le_refl _
  · cases h

theorem length_advance_le {stage next : Stage} {c : Char} {s rest : List Char}
    (h : advance stage c s = .ok (next, rest)) : rest.length ≤ s.length := by
  unfold advance at h
  split at h
  · exact length_beginValue_le h
  · split at h
    · cases h; exact Nat.le_refl _
    · exact length_beginValue_le h
  · split at h
    · exact length_finishKey_le h
    · cases h
  · split at h
    · cases h; exact Nat.le_refl _
    split at h
    · exact length_finishKey_le h
    · cases h
  · cases h
  · exact length_separate_le h

/-- Goes on from a stage until nothing is open. -/
def skipFrom (stage : Stage) (s : List Char) : Except Fault (List Char) :=
  if stage = ⟨.separator, []⟩ then .ok s
  else
    match hs : skipBlank s with
    | [] => .error .unfinished
    | c :: rest =>
        match h : advance stage c rest with
        | .ok (next, after) =>
            have : (c :: rest).length ≤ s.length := hs ▸ length_skipBlank_le s
            have := length_advance_le h
            skipFrom next after
        | .error fault => .error fault
  termination_by s.length
  decreasing_by simp only [List.length_cons] at *; omega

/-- Passes over a value. -/
def skipValue (s : List Char) : Except Fault (List Char) := skipFrom ⟨.value, []⟩ s

theorem length_skipFrom_le {stage : Stage} {s rest : List Char}
    (h : skipFrom stage s = .ok rest) : rest.length ≤ s.length := by
  fun_induction skipFrom stage s with
  | case1 s => cases h; exact Nat.le_refl _
  | case2 => cases h
  | case3 stage s _ c r hs next after ha _ _ ih =>
    have := ih h
    have hl := length_skipBlank_le s
    have := length_advance_le ha
    rw [hs, List.length_cons] at hl
    omega
  | case4 => cases h

end WireGuardControl.Json
