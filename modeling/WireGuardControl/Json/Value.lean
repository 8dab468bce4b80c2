import WireGuardControl.Text.Decimal
import WireGuardControl.Text.Hex
/-!
JSON values and their two written forms.

* `Value`: the values that are written here; the numbers are natural ones, and the members of
  an object keep their order.
* `quoted`: a text between quotes. Quotes, backslashes and control characters are escaped and
  everything else stands for itself.
* `Value.compact`: no blanks at all; `Value.pretty`: a line for each item and each member,
  indented by two blanks for each level.

The program takes its JSON from a package that is no part of it. That the package writes values
like this is assumed.
-/

namespace WireGuardControl.Json

open Text

/-- A JSON value. -/
inductive Value where
  /-- No value. -/
  | null
  /-- A truth value. -/
  | bool (b : Bool)
  /-- A natural number. -/
  | number (n : Nat)
  /-- A text. -/
  | string (s : String)
  /-- A list of values. -/
  | list (items : List Value)
  /-- Named values in order. -/
  | object (members : List (String × Value))

/-! ### Texts -/

/-- The letters that stand behind a backslash for a control character. -/
def shortEscapes : List (Char × Char) :=
  [('b', '\x08'), ('f', '\x0c'), ('n', '\n'), ('r', '\r'), ('t', '\t')]

/-- A character as it is written between quotes. -/
def escaped (c : Char) : List Char :=
  if c = '"' ∨ c = '\\' then ['\\', c]
  else if 32 ≤ c.toNat then [c]
  else match shortEscapes.find? fun e => e.2 = c with
    | some e => ['\\', e.1]
    | none => ['\\', 'u', '0', '0', Hex.digit (c.toNat / 16), Hex.digit (c.toNat % 16)]

/-- A text between quotes. -/
def quoted (s : List Char) : List Char := '"' :: s.flatMap escaped ++ ['"']

/-! ### Values -/

namespace Value

/-- The text of a truth value. -/
def boolText (b : Bool) : List Char := if b then "true".toList else "false".toList

mutual

/-- A value without blanks. -/
def compact : Value → List Char
  | null => "null".toList
  | bool b => boolText b
  | number n => Decimal.ofNat n
  | string s => quoted s.toList
  | list items => '[' :: [','].intercalate (compactItems items) ++ [']']
  | object members => '{' :: [','].intercalate (compactMembers members) ++ ['}']

/-- The items of a list, each without blanks. -/
def compactItems : List Value → List (List Char)
  | [] => []
  | v :: rest => v.compact :: compactItems rest

/-- The members of an object, each without blanks. -/
def compactMembers : List (String × Value) → List (List Char)
  | [] => []
  | (key, v) :: rest => (quoted key.toList ++ ':' :: v.compact) :: compactMembers rest

end

/-- The beginning of a line `depth` levels deep. -/
def lineStart (depth : Nat) : List Char := '\n' :: List.replicate (2 * depth) ' '

/-- Parts on lines of their own, `depth` levels deep, between two brackets. -/
def bracketed (depth : Nat) (left right : Char) (parts : List (List Char)) : List Char :=
  match parts with
  | [] => [left, right]
  | _ =>
      left :: lineStart (depth + 1) ++ (',' :: lineStart (depth + 1)).intercalate parts ++
        lineStart depth ++ [right]

mutual

/-- A value that begins on a line `depth` levels deep. -/
def prettyAt (depth : Nat) : Value → List Char
  | null => "null".toList
  | bool b => boolText b
  | number n => Decimal.ofNat n
  | string s => quoted s.toList
  | list items => bracketed depth '[' ']' (prettyItems depth items)
  | object members => bracketed depth '{' '}' (prettyMembers depth members)

/-- The items of a list that begins `depth` levels deep. -/
def prettyItems (depth : Nat) : List Value → List (List Char)
  | [] => []
  | v :: rest => v.prettyAt (depth + 1) :: prettyItems depth rest

/-- The members of an object that begins `depth` levels deep. -/
def prettyMembers (depth : Nat) : List (String × Value) → List (List Char)
  | [] => []
  | (key, v) :: rest =>
      (quoted key.toList ++ ':' :: ' ' :: v.prettyAt (depth + 1)) :: prettyMembers depth rest

end

/-- A value with a line for each item and each member. -/
def pretty (v : Value) : List Char := v.prettyAt 0

end Value

end WireGuardControl.Json
