import WireGuardControl.Command.Show
import WireGuardControl.CommandLine.Reading
/-!
Whole command lines.

* `Task`: what is to be done.
* `Invocation`: a task with the options that hold for all tasks. They may stand in front of the
  command or behind it, where they count more.
* `Invocation.ofArguments`: reads a command line, and `Invocation.ofWords` one without the name
  of the program in front.
-/

namespace WireGuardControl.CommandLine

open Show (Format)

/-- What is to be done. -/
inductive Task where
  /-- Prints devices. -/
  | show (request : Command.Request)
  /-- Makes a private key. -/
  | genkey
  /-- Makes a preshared key. -/
  | genpsk
  /-- Derives a public key. -/
  | pubkey
  deriving DecidableEq, Repr

/-- A command line that can be carried out. -/
structure Invocation where
  /-- What is to be done. -/
  task : Task
  /-- The format of the output. -/
  format : Format
  /-- The backends that are named. -/
  backends : List BackendKind
  /-- The directories of sockets that are named. -/
  socketDirs : List String
  deriving DecidableEq, Repr

namespace Invocation

/-- The options of a command line: what it does not name stays as it is without further
choice. -/
def options (i : Invocation) : Options :=
  let o : Options := {}
  let o := if i.backends = [] then o else o.withBackends i.backends
  if i.socketDirs = [] then o else o.withSocketDirectories i.socketDirs

/-- The answer to a request for help on the commands that `words` name. -/
def helpOn : List String → Refusal
  | [] => .help
  | [word] => if (commandName? word).isSome then .help else .unknownCommand
  | _ => .unknownCommand

/-- The refusal of a command line without a command. -/
def withoutCommand (given : Given) : Refusal :=
  if given = {} then .helpForNothing else .missingCommand

/-- The invocation of a task, with what has been set in front of the command and behind it. -/
def build (task : Task) (outer inner : Given) : Invocation where
  task := task
  format := (inner.format.or outer.format).getD .table
  backends := if inner.backends = [] then outer.backends else inner.backends
  socketDirs := if inner.socketDirs = [] then outer.socketDirs else inner.socketDirs

/-- Reads the words behind a command. -/
def readCommand (c : CommandName) (words : List String) : Except Refusal Given := do
  let (r, _) ← Reading.readWords (.command c) {} words
  r.settle

/-- The task of a command, and what has been set behind the command. -/
def readTask (c : CommandName) (words : List String) : Except Refusal (Task × Given) :=
  match c with
  | .show => (readCommand c words).map fun g => (.show ⟨g.name, g.showKeys⟩, g)
  | .genkey => (readCommand c words).map fun g => (.genkey, g)
  | .genpsk => (readCommand c words).map fun g => (.genpsk, g)
  | .pubkey => (readCommand c words).map fun g => (.pubkey, g)
  | .help => .error (helpOn words)

/-- Reads a command line without the name of the program. What stands in front of the command
is judged last. -/
def ofWords (words : List String) : Except Refusal Invocation := do
  let (r, next) ← Reading.readWords .program {} words
  match next with
  | none => throw (withoutCommand (← r.settle))
  | some (c, rest) =>
      let (task, inner) ← readTask c rest
      return build task (← r.settle) inner

/-- Reads a command line that begins with the name of the program. -/
def ofArguments : List String → Except Refusal Invocation
  | [] => .error .helpForNothing
  | _ :: words => ofWords words

end Invocation

end WireGuardControl.CommandLine
