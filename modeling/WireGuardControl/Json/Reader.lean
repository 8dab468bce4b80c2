import WireGuardControl.Json.Numeral
/-!
Readers of JSON values of a known kind.

* `Reader`: reads a value from the front of a text and gives the rest, which is always shorter.
* `Reader.bool`, `Reader.natural`, `Reader.chars`, `Reader.optional`, `Reader.list` and
  `Reader.choice`: the readers of the common kinds; `Reader.checked` narrows another one.
* `mismatch`: the fault of a value of another kind. Such a value must still be JSON as far as
  its kind is told from it.
* `Reader.parse`: reads a whole text.

That the package which reads JSON for the program accepts these texts for values of each kind, and
finds these faults in others, is assumed.
-/

namespace WireGuardControl.Json

open Text

/-- Reads values of the type `α`. -/
structure Reader (α : Type) where
  /-- Reads a value from the front of a text. -/
  read : List Char → Except Fault (α × List Char)
  /-- A value takes at least one character. -/
  length_lt : ∀ {s : List Char} {a : α} {rest : List Char},
    read s = .ok (a, rest) → rest.length < s.length

/-! ### Values of another kind -/

/-- The fault of a value of another kind, given what a reading of it comes to. -/
def unsuitable {α : Type} : Except Fault α → Fault
  | .ok _ => .unsuitable
  | .error fault => fault

/-- Whether a number may begin with a character. -/
def startsNumber (c : Char) : Bool := c = '-' ∨ Numeral.isDigit c

/-- Reads a number that floating point has room for. -/
def readNumeral (s : List Char) : Except Fault (Numeral × List Char) :=
  match Numeral.scan .unfinished s with
  | .ok (x, rest) => if x.isFinite then .ok (x, rest) else .error .malformed
  | .error fault => .error fault

/-- The fault of a text that begins with a value of another kind. -/
def mismatch : List Char → Fault
  | [] => .unfinished
  | c :: s =>
      if c = 'n' then unsuitable (literal "ull".toList s)
      else if c = 't' then unsuitable (literal "rue".toList s)
      else if c = 'f' then unsuitable (literal "alse".toList s)
      else if startsNumber c then unsuitable (readNumeral (c :: s))
      else if c = '"' then unsuitable (readChars true s)
      else if c = '[' ∨ c = '\x7b' then .unsuitable
      else .malformed

/-! ### Simple kinds -/

/-- Reads a truth value. -/
def readBool (s : List Char) : Except Fault (Bool × List Char) :=
  match skipBlank s with
  | 't' :: rest => (literal "rue".toList rest).map (true, ·)
  | 'f' :: rest => (literal "alse".toList rest).map (false, ·)
  | other => .error (mismatch other)

/-- Reads a null. -/
def readNull (s : List Char) : Except Fault (List Char) :=
  match skipBlank s with
  | 'n' :: rest => literal "ull".toList rest
  | other => .error (mismatch other)

/-- Reads a natural number up to `limit`. -/
def readNatural (limit : Nat) (s : List Char) : Except Fault (Nat × List Char) :=
  match skipBlank s with
  | [] => .error .unfinished
  | c :: rest =>
      if startsNumber c then
        match readNumeral (c :: rest) with
        | .ok (x, after) =>
            match x.natural? with
            | some n => if n ≤ limit then .ok (n, after) else .error .unsuitable
            | none => .error .unsuitable
        | .error fault => .error fault
      else .error (mismatch (c :: rest))

/-- Reads a text. -/
def readString (s : List Char) : Except Fault (List Char × List Char) :=
  match skipBlank s with
  | '"' :: rest => readChars true rest
  | other => .error (mismatch other)

theorem length_readBool_lt {s rest : List Char} {b : Bool} (h : readBool s = .ok (b, rest)) :
    rest.length < s.length := by
  have hs := length_skipBlank_le s
  unfold readBool at h
  split at h
  · rename_i r hr
    obtain ⟨t, ht, h⟩ := map_eq_ok h
    cases h
    have := length_literal_le ht
    rw [hr, List.length_cons] at hs
    omega
  · rename_i r hr
    obtain ⟨t, ht, h⟩ := map_eq_ok h
    cases h
    have := length_literal_le ht
    rw [hr, List.length_cons] at hs
    omega
  · cases h

theorem length_readNull_lt {s rest : List Char} (h : readNull s = .ok rest) :
    rest.length < s.length := by
  have hs := length_skipBlank_le s
  unfold readNull at h
  split at h
  · rename_i r hr
    have := length_literal_le h
    rw [hr, List.length_cons] at hs
    omega
  · cases h

theorem length_readNumeral_lt {s rest : List Char} {x : Numeral}
    (h : readNumeral s = .ok (x, rest)) : rest.length < s.length := by
  unfold readNumeral at h
  split at h
  · rename_i y r hy
    split at h
    · cases h; exact Numeral.length_scan_lt hy
    · cases h
  · cases h

theorem length_readNatural_lt {limit : Nat} {s rest : List Char} {n : Nat}
    (h : readNatural limit s = .ok (n, rest)) : rest.length < s.length := by
  have hs := length_skipBlank_le s
  unfold readNatural at h
  split at h
  · cases h
  · rename_i c r hr
    split at h
    · split at h
      · rename_i x t hx
        have := length_readNumeral_lt hx
        rw [hr] at hs
        split at h
        · split at h
          · cases h; omega
          · cases h
        · cases h
      · cases h
    · cases h

theorem length_readString_lt {s t rest : List Char} (h : readString s = .ok (t, rest)) :
    rest.length < s.length := by
  have hs := length_skipBlank_le s
  unfold readString at h
  split at h
  · rename_i r hr
    have := length_readChars_lt h
    rw [hr, List.length_cons] at hs
    omega
  · cases h

/-! ### Lists -/

/-- What stands in front of the next item of a list, or the rest behind the list. `first` is
set where no item has been read yet. -/
inductive ListHead where
  /-- An item stands at the front of the text. -/
  | item (text : List Char)
  /-- The list ends, with its bracket at the front of the text. -/
  | close (text : List Char)

/-- The text at a head. -/
def ListHead.text : ListHead → List Char
  | .item text | .close text => text

/-- Goes to the next item of a list, of which none has been read yet if `first` is set. -/
def listHead (first : Bool) (s : List Char) : Except Fault ListHead :=
  match skipBlank s with
  | [] => .error .unfinished
  | c :: rest =>
      if c = ']' then .ok (.close (c :: rest))
      else if first then .ok (.item (c :: rest))
      else if c = ',' then
        match skipBlank rest with
        | [] => .error .unfinished
        | d :: after => if d = ']' then .error .malformed else .ok (.item (d :: after))
      else .error .malformed

theorem length_listHead_le {first : Bool} {s : List Char} {head : ListHead}
    (h : listHead first s = .ok head) : head.text.length ≤ s.length := by
  have hs := length_skipBlank_le s
  unfold listHead at h
  split at h
  · cases h
  · rename_i c r hr
    rw [hr, List.length_cons] at hs
    split at h
    · cases h; exact hs
    · split at h
      · cases h; exact hs
      · split at h
        · have := length_skipBlank_le r
          split at h
          · cases h
          · rename_i d t ht
            rw [ht] at this
            split at h
            · cases h
            · cases h
              exact Nat.le_trans this (by omega)
        · cases h

namespace Reader

/-- Reads the items of a list from behind its bracket. -/
def readItems {α : Type} (item : Reader α) (first : Bool) (s : List Char) :
    Except Fault (List α × List Char) :=
  match h : listHead first s with
  | .error fault => .error fault
  | .ok (.close text) => .ok ([], text.drop 1)
  | .ok (.item text) =>
      match hr : item.read text with
      | .error fault => .error fault
      | .ok (a, rest) =>
          have := length_listHead_le h
          have := item.length_lt hr
          (item.readItems false rest).map fun t => (a :: t.1, t.2)
  termination_by s.length
  decreasing_by simp only [ListHead.text] at *; omega

theorem length_readItems_le {α : Type} {item : Reader α} {first : Bool} {s rest : List Char}
    {l : List α} (h : item.readItems first s = .ok (l, rest)) : rest.length ≤ s.length := by
  fun_induction readItems item first s generalizing l with
  | case1 => cases h
  | case2 first s text hc =>
    have := length_listHead_le hc
    cases h
    rw [List.length_drop]
    simp only [ListHead.text] at this
    omega
  | case3 => cases h
  | case4 first s text hi a r hr _ _ ih =>
    obtain ⟨t, ht, h⟩ := map_eq_ok h
    cases h
    have := ih ht
    have := length_listHead_le hi
    have := item.length_lt hr
    simp only [ListHead.text] at *
    omega

/-- Reads a list. -/
def readList {α : Type} (item : Reader α) (s : List Char) : Except Fault (List α × List Char) :=
  match skipBlank s with
  | '[' :: rest => item.readItems true rest
  | other => .error (mismatch other)

/-! ### Choices -/

/-- The meaning of a name. -/
def chosen {α : Type} (names : List (String × α)) (name : List Char) : Except Fault α :=
  match names.lookup (String.ofList name) with
  | some a => .ok a
  | none => .error .unsuitable

/-- Reads one of several names, which may also stand as the only member of an object, with
null as its value. -/
def readChoice {α : Type} (names : List (String × α)) (s : List Char) :
    Except Fault (α × List Char) :=
  match skipBlank s with
  | '"' :: rest => do
      let (name, rest) ← readChars true rest
      return (← chosen names name, rest)
  | '\x7b' :: rest => do
      let rest ← expect '"' rest
      let (name, rest) ← readChars true rest
      let a ← chosen names name
      let rest ← expect ':' rest
      let rest ← readNull rest
      return (a, ← expect '\x7d' rest)
  | other => .error (unexpected other)

theorem length_readChoice_lt {α : Type} {names : List (String × α)} {s rest : List Char} {a : α}
    (h : readChoice names s = .ok (a, rest)) : rest.length < s.length := by
  have hs := length_skipBlank_le s
  unfold readChoice at h
  split at h
  · rename_i r hr
    obtain ⟨⟨t, r₁⟩, h₁, h⟩ := bind_eq_ok h
    obtain ⟨b, h₂, h⟩ := bind_eq_ok h
    cases h
    have := length_readChars_lt h₁
    rw [hr, List.length_cons] at hs
    omega
  · rename_i r hr
    obtain ⟨r₀, h₀, h⟩ := bind_eq_ok h
    obtain ⟨⟨t, r₁⟩, h₁, h⟩ := bind_eq_ok h
    obtain ⟨b, h₂, h⟩ := bind_eq_ok h
    obtain ⟨r₂, h₃, h⟩ := bind_eq_ok h
    obtain ⟨r₃, h₄, h⟩ := bind_eq_ok h
    obtain ⟨r₄, h₅, h⟩ := bind_eq_ok h
    cases h
    have := length_expect_lt h₀
    have := length_readChars_lt h₁
    have := length_expect_lt h₃
    have := length_readNull_lt h₄
    have := length_expect_lt h₅
    rw [hr, List.length_cons] at hs
    omega
  · cases h

/-! ### The readers -/

/-- The reader of truth values. -/
def bool : Reader Bool := ⟨readBool, length_readBool_lt⟩

/-- The reader of natural numbers up to `limit`. -/
def natural (limit : Nat) : Reader Nat := ⟨readNatural limit, length_readNatural_lt⟩

/-- The reader of texts. -/
def chars : Reader (List Char) := ⟨readString, length_readString_lt⟩

/-- The reader of lists. -/
def list {α : Type} (item : Reader α) : Reader (List α) where
  read := item.readList
  length_lt := by
    intro s l rest h
    have hs := length_skipBlank_le s
    unfold readList at h
    split at h
    · rename_i r hr
      have := length_readItems_le h
      rw [hr, List.length_cons] at hs
      omega
    · cases h

/-- The reader of names that stand for values. -/
def choice {α : Type} (names : List (String × α)) : Reader α :=
  ⟨readChoice names, length_readChoice_lt⟩

/-- Reads a value unless a null stands there. -/
def readOptional {α : Type} (value : Reader α) (s : List Char) :
    Except Fault (Option α × List Char) :=
  match skipBlank s with
  | 'n' :: rest => (literal "ull".toList rest).map (none, ·)
  | _ => (value.read s).map fun t => (some t.1, t.2)

/-- The reader of values that may be null. -/
def optional {α : Type} (value : Reader α) : Reader (Option α) where
  read := value.readOptional
  length_lt := by
    intro s a rest h
    have hs := length_skipBlank_le s
    unfold readOptional at h
    split at h
    · rename_i r hr
      obtain ⟨t, ht, h⟩ := map_eq_ok h
      cases h
      have := length_literal_le ht
      rw [hr, List.length_cons] at hs
      omega
    · obtain ⟨t, ht, h⟩ := map_eq_ok h
      cases h
      exact value.length_lt ht

/-- The reader of those values that `f` has an image for. -/
def checked {α β : Type} (value : Reader α) (f : α → Option β) : Reader β where
  read := fun s =>
    match value.read s with
    | .ok (a, rest) =>
        match f a with
        | some b => .ok (b, rest)
        | none => .error .unsuitable
    | .error fault => .error fault
  length_lt := by
    intro s b rest h
    split at h
    · rename_i a r hr
      split at h
      · cases h; exact value.length_lt hr
      · cases h
    · cases h

/-- Reads a whole text. -/
def parse {α : Type} (value : Reader α) (s : List Char) : Except Fault α :=
  match value.read s with
  | .ok (a, rest) => if skipBlank rest = [] then .ok a else .error .malformed
  | .error fault => .error fault

end Reader

end WireGuardControl.Json
