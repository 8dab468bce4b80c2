import Std.Time.DateTime.Timestamp
import WireGuardControl.Command.Keys
import WireGuardControl.CommandLine.Invocation
/-!
The program.

It makes and derives keys, and prints devices as far as they can be reached: the program itself
opens neither netlink nor sockets, and says so where a command needs them.
-/

namespace WireGuardControl.Main

open Command CommandLine

/-- The present in seconds since the epoch. -/
def now : IO Nat := do
  return (← Std.Time.Timestamp.now).toSecondsSinceUnixEpoch.val.toNat

/-- Why sockets are not used. -/
def noSockets : SystemFault := .words "sockets cannot be opened"

/-- The directories and sockets that the program reaches, which are none. -/
def host : Uapi.Host IO where
  entries := fun _ => return .error noSockets
  exchange := fun _ _ => return .error (.connect noSockets)

/-- What the program can reach. -/
def platform : Platform IO where
  netlink := return .ok (some (.unavailable BackendKind.netlink.name "netlink cannot be opened"))
  host := host
  now := now

/-- Thirty-two random octets as a key. -/
def randomKey : IO Key := do
  match Key.ofBytes (← IO.getRandomBytes 32).toList with
  | .ok key => return key
  | .error e => throw (IO.userError e.message)

/-- The octets of a stream up to its end, behind those that have been read. -/
partial def readAll (stream : IO.FS.Stream) (read : Bytes) : IO Bytes := do
  let more ← stream.read 4096
  if more.isEmpty then return read else readAll stream (read ++ more.toList)

/-- The text that a task prints. -/
def perform (i : Invocation) : IO (Except Failure String) := do
  match i.task with
  | .show request => request.run platform i.options i.format
  | .genkey => return .ok (privateKeyLine (← randomKey))
  | .genpsk => return .ok (presharedKeyLine (← randomKey))
  | .pubkey => return publicKeyLine (← readAll (← IO.getStdin) [])

/-- What a failed task was about, if the failure is told together with it. -/
def purpose : Task → String
  | .show _ => "unable to show devices: "
  | .pubkey => "unable to derive public key: "
  | .genkey | .genpsk => ""

/-- How the program is called. -/
def usage : String :=
  "options: --backend NAME, --socket-dir PATH, --format table|json\n" ++
  "commands: show [NAME] [--show-keys], genkey, genpsk, pubkey"

/-- The failure to write what a task prints. -/
def writeFailure (i : Invocation) (e : IO.Error) : Failure :=
  match i.task, i.format with
  | .show _, .json => .unprintable ("JSON serialization failed: " ++ e.toString)
  | _, _ => .io (.words e.toString)

/-- Writes what a task prints. -/
def write (i : Invocation) (text : String) : IO (Except Failure Unit) := do
  try
    IO.print text
    (← IO.getStdout).flush
    return .ok ()
  catch e => return .error (writeFailure i e)

/-- Carries a task out and writes what it prints. -/
def runTask (i : Invocation) : IO (Except Failure Unit) := do
  try
    match ← perform i with
    | .ok text => write i text
    | .error failure => return .error failure
  catch e => return .error (.io (.words e.toString))

/-- Carries a command line out. -/
def carryOut (i : Invocation) : IO UInt32 := do
  match ← runTask i with
  | .ok _ => return 0
  | .error failure =>
      IO.eprintln ("Error: " ++ purpose i.task ++ failure.message)
      return 1

end WireGuardControl.Main

open WireGuardControl WireGuardControl.CommandLine in
/-- Runs the program with its arguments. -/
def main (arguments : List String) : IO UInt32 := do
  match Invocation.ofWords arguments with
  | .ok invocation => Main.carryOut invocation
  | .error .help =>
      IO.println Main.usage
      return 0
  | .error .version =>
      IO.println "0.1.0"
      return 0
  | .error _ =>
      IO.eprintln Main.usage
      return 2
