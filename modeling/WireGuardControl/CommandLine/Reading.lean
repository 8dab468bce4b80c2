import WireGuardControl.CommandLine.Grammar
import WireGuardControl.Options
import WireGuardControl.Show.Format
/-!
Reading the words of one level of a command line.

* `Given`: what the words have set so far.
* `Pending`: a value is not judged before the next flag or the next plain word is taken, or the
  words of the level end; until then it is pending.
* `Reading.advance`: takes one word that is no command. `Reading.readWords` takes words up
  to the end or up to a command.
-/

namespace WireGuardControl.CommandLine

open Show (Format)

/-- What words have set. -/
structure Given where
  /-- The directories of sockets. -/
  socketDirs : List String := []
  /-- The backends. -/
  backends : List BackendKind := []
  /-- The format. -/
  format : Option Format := none
  /-- The device. -/
  name : Option String := none
  /-- Whether keys are revealed. -/
  showKeys : Bool := false
  deriving DecidableEq, Repr

namespace Given

/-- The parts of a value between its commas. -/
def valueParts (value : String) : List (List Char) := value.toList.splitOn ','

/-- Adds directories of sockets, none of which may be empty. -/
def addSocketDirs (g : Given) (value : String) : Except Refusal Given :=
  let parts := valueParts value
  if [] ∈ parts then .error .invalidValue
  else .ok { g with socketDirs := g.socketDirs ++ parts.map String.ofList }

/-- Adds backends. -/
def addBackends (g : Given) (value : String) : Except Refusal Given :=
  match (valueParts value).mapM BackendKind.ofName with
  | .ok kinds => .ok { g with backends := g.backends ++ kinds }
  | .error _ => .error .unreadableValue

/-- Sets the format, unless it is set. -/
def chooseFormat (g : Given) (value : String) : Except Refusal Given :=
  if g.format.isSome then .error .repeated
  else match [Format.table, .json].find? fun f => f.name = value with
    | some f => .ok { g with format := some f }
    | none => .error .invalidValue

/-- Takes the value of an option. -/
def take (g : Given) (o : OptionName) (value : String) : Except Refusal Given :=
  match o with
  | .socketDir => g.addSocketDirs value
  | .backend => g.addBackends value
  | .format => g.chooseFormat value

/-- Takes a flag. -/
def raise (g : Given) : Flag → Except Refusal Given
  | .help => .error .help
  | .version => .error .version
  | .showKeys => if g.showKeys then .error .repeated else .ok { g with showKeys := true }

end Given

/-- What is not judged yet. -/
inductive Pending where
  /-- Nothing. -/
  | nothing
  /-- An option that has no value yet. -/
  | awaiting (o : OptionName)
  /-- The value of an option. -/
  | value (o : OptionName) (text : String)
  /-- The name of a device. -/
  | name (text : String)
  deriving DecidableEq, Repr

/-- How far the words of a level have been read. -/
structure Reading where
  /-- What has been set. -/
  given : Given := {}
  /-- What is pending. -/
  pending : Pending := .nothing
  /-- Whether the separator has been read. -/
  separated : Bool := false
  deriving DecidableEq, Repr

namespace Reading

/-- What has been set once nothing is pending any more. -/
def settle (r : Reading) : Except Refusal Given :=
  match r.pending with
  | .nothing => .ok r.given
  | .awaiting _ => .error .invalidValue
  | .value o text => r.given.take o text
  | .name text => .ok { r.given with name := some text }

/-- The reading with a change of what has been set, once nothing is pending. -/
def change (r : Reading) (f : Given → Except Refusal Given) : Except Refusal Reading := do
  return { r with given := ← f (← r.settle), pending := .nothing }

/-- The reading with something else pending, once nothing is pending. -/
def defer (r : Reading) (p : Pending) : Except Refusal Reading := do
  return { r with given := ← r.settle, pending := p }

/-- Takes an option with the value attached to it, or without one so far. -/
def takeOption (r : Reading) (o : OptionName) : Option (List Char) → Except Refusal Reading
  | some value => r.change (·.take o (String.ofList value))
  | none => r.defer (.awaiting o)

/-- Takes a long flag. -/
def takeLong (l : Level) (r : Reading) (name : List Char) (value : Option (List Char)) :
    Except Refusal Reading :=
  match l.long? name, value with
  | none, _ => .error .unknownArgument
  | some (.option o), value => r.takeOption o value
  | some (.flag f), none => r.change (·.raise f)
  | some (.flag _), some _ => .error .surplusValue

/-- What is attached to a short option; an equals sign in front of it does not count. -/
def attached : List Char → Option (List Char)
  | [] => none
  | '=' :: value => some value
  | value => some value

/-- Takes short flags. -/
def takeShorts (l : Level) (r : Reading) : List Char → Except Refusal Reading
  | [] => .ok r
  | c :: rest =>
      match l.short? c with
      | none => .error .unknownArgument
      | some (.option o) => r.takeOption o (attached rest)
      | some (.flag f) => do takeShorts l (← r.change (·.raise f)) rest

/-- Why a plain word has no place. -/
def stray (l : Level) (r : Reading) (word : String) : Refusal :=
  match l with
  | .program =>
      if r.separated ∧ (commandName? word).isSome then .unknownArgument else .unknownCommand
  | .command _ => .unknownArgument

/-- Whether a plain word can be the name of the device. -/
def hasPlace (l : Level) (r : Reading) : Bool :=
  match r.pending with
  | .name _ => false
  | _ => l = .command .show ∧ r.given.name = none

/-- Takes a plain word that is no value. -/
def takePlain (l : Level) (r : Reading) (word : String) : Except Refusal Reading :=
  if hasPlace l r then r.defer (.name word) else .error (stray l r word)

/-- Takes a word that is no command. -/
def advance (l : Level) (r : Reading) (word : String) : Except Refusal Reading :=
  if r.separated then takePlain l r word
  else match Shape.of word.toList, r.pending with
    | .separator, _ => .ok { r with separated := true }
    | .long name value, _ => takeLong l r name value
    | .short c rest, _ => takeShorts l r (c :: rest)
    | .plain, .awaiting o => .ok { r with pending := .value o word }
    | .plain, _ => takePlain l r word

/-- The command that a word stands for, where there may be one. -/
def commandAt (l : Level) (r : Reading) (word : String) : Option CommandName :=
  match l, r.separated, r.pending with
  | .command _, _, _ => none
  | _, true, _ => none
  | _, _, .awaiting _ => none
  | .program, false, _ => commandName? word

/-- Takes words up to a command, with which the words behind it are given. -/
def readWords (l : Level) (r : Reading) :
    List String → Except Refusal (Reading × Option (CommandName × List String))
  | [] => .ok (r, none)
  | word :: rest =>
      match commandAt l r word with
      | some c => .ok (r, some (c, rest))
      | none => do readWords l (← advance l r word) rest

end Reading

end WireGuardControl.CommandLine
