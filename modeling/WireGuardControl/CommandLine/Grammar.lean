/-!
The words of a command line.

* `Shape`: how a word looks, `Shape.of` telling a separator, flags and plain words apart.
* `Level`: the words may belong to the program itself or to one of its commands;
  `Level.long?` and `Level.short?` are the flags and options that are known there.
* `Refusal`: why a command line is not carried out; asking for help is one of the reasons.

The flags and commands are the program's own. It leaves the reading of words to a package that is
no part of it; that the package tells words apart like this, and finds the first fault in the
order of `Reading.advance`, is assumed.
-/

namespace WireGuardControl.CommandLine

/-- Why a command line is not carried out. -/
inductive Refusal where
  /-- Help is asked for. -/
  | help
  /-- Nothing at all is given, which calls for help too. -/
  | helpForNothing
  /-- The version is asked for. -/
  | version
  /-- An option has no value, or one that it does not know. -/
  | invalidValue
  /-- The value of an option cannot be read. -/
  | unreadableValue
  /-- A flag has a value. -/
  | surplusValue
  /-- A word belongs nowhere. -/
  | unknownArgument
  /-- A flag or an option stands twice where it may stand once. -/
  | repeated
  /-- A word stands in the place of a command and is none. -/
  | unknownCommand
  /-- There is no command. -/
  | missingCommand
  deriving DecidableEq, Repr

/-! ### Words -/

/-- How a word looks. -/
inductive Shape where
  /-- The separator, behind which all words are plain. -/
  | separator
  /-- A long flag, perhaps with a value behind an equals sign. -/
  | long (name : List Char) (value : Option (List Char))
  /-- Short flags, of which there is at least one. -/
  | short (first : Char) (rest : List Char)
  /-- A plain word. -/
  | plain
  deriving DecidableEq, Repr

/-- A long flag, its name cut at the first equals sign. -/
def longShape (s : List Char) : Shape :=
  let name := s.takeWhile (· ≠ '=')
  match s.dropWhile (· ≠ '=') with
  | [] => .long name none
  | _ :: value => .long name (some value)

/-- How a word looks. -/
def Shape.of : List Char → Shape
  | ['-', '-'] => .separator
  | '-' :: '-' :: s => longShape s
  | '-' :: c :: s => .short c s
  | _ => .plain

/-! ### Levels -/

/-- An option, which has a value. -/
inductive OptionName where
  /-- A directory of sockets. -/
  | socketDir
  /-- A backend. -/
  | backend
  /-- The format of the output. -/
  | format
  deriving DecidableEq, Repr

/-- A flag, which has no value. -/
inductive Flag where
  /-- Asks for help. -/
  | help
  /-- Asks for the version. -/
  | version
  /-- Reveals keys. -/
  | showKeys
  deriving DecidableEq, Repr

/-- What a flag or an option is. -/
inductive Entry where
  /-- An option. -/
  | option (o : OptionName)
  /-- A flag. -/
  | flag (f : Flag)
  deriving DecidableEq, Repr

/-- A command. -/
inductive CommandName where
  /-- Prints devices. -/
  | show
  /-- Makes a private key. -/
  | genkey
  /-- Makes a preshared key. -/
  | genpsk
  /-- Derives a public key. -/
  | pubkey
  /-- Prints help. -/
  | help
  deriving DecidableEq, Repr

/-- The commands by their names. -/
def commandNames : List (String × CommandName) :=
  [("show", .show), ("genkey", .genkey), ("genpsk", .genpsk), ("pubkey", .pubkey),
    ("help", .help)]

/-- The command with a name. -/
def commandName? (word : String) : Option CommandName := commandNames.lookup word

/-- To what a word belongs. -/
inductive Level where
  /-- The program itself. -/
  | program
  /-- A command. -/
  | command (name : CommandName)
  deriving DecidableEq, Repr

namespace Level

/-- The entries with long names at a level. -/
def longEntries (l : Level) : List (String × Entry) :=
  [("socket-dir", .option .socketDir), ("backend", .option .backend),
    ("format", .option .format), ("help", .flag .help)] ++
  match l with
  | .program => [("version", .flag .version)]
  | .command .show => [("show-keys", .flag .showKeys)]
  | _ => []

/-- The entries with short names at a level. -/
def shortEntries (l : Level) : List (Char × Entry) :=
  [('b', .option .backend), ('f', .option .format), ('h', .flag .help)] ++
  match l with
  | .program => [('V', .flag .version)]
  | _ => []

/-- The entry with a long name. -/
def long? (l : Level) (name : List Char) : Option Entry :=
  l.longEntries.lookup (String.ofList name)

/-- The entry with a short name. -/
def short? (l : Level) (c : Char) : Option Entry := l.shortEntries.lookup c

end Level

end WireGuardControl.CommandLine
