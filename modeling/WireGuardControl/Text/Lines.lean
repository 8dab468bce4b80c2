/-!
The lines of a text.

* `Lines.split`: the lines of a text, each ended by a line feed that a carriage return may
  precede; the last line may lack its end, and then a carriage return belongs to it.
* `Lines.once`: a line as the two parts around its only occurrence of a character.
* `Lines.cut`: a text as the two parts around the first occurrence of another.
-/

namespace WireGuardControl.Text.Lines

/-- Takes a carriage return off the end of a line. -/
def chomp (line : List Char) : List Char :=
  if line.getLast? = some '\r' then line.dropLast else line

/-- The lines of a text. -/
def split : List Char → List (List Char)
  | [] => []
  | c :: s =>
      let line := (c :: s).takeWhile (· ≠ '\n')
      match h : (c :: s).dropWhile (· ≠ '\n') with
      | [] => [line]
      | d :: rest =>
          have : (d :: rest).length ≤ (c :: s).length :=
            h ▸ (List.dropWhile_sublist _).length_le
          chomp line :: split rest
  termination_by s => s.length
  decreasing_by simp only [List.length_cons] at *; omega

/-- The parts of a text before and behind the only occurrence of `mark`. -/
def once (mark : Char) (s : List Char) : Option (List Char × List Char) :=
  match s.dropWhile (· ≠ mark) with
  | [] => none
  | _ :: rest => if mark ∈ rest then none else some (s.takeWhile (· ≠ mark), rest)

/-- The parts of a text before and behind the first occurrence of `mark`. -/
def cut (mark : List Char) : List Char → Option (List Char × List Char)
  | [] => if mark.isEmpty then some ([], []) else none
  | c :: s =>
      if mark.isPrefixOf (c :: s) then some ([], (c :: s).drop mark.length)
      else (cut mark s).map fun r => (c :: r.1, r.2)

end WireGuardControl.Text.Lines
