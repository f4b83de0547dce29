import Std.Async.DNS
import Std.Async.TCP
import Std.Time.DateTime.Timestamp
import Workbench.Cli.Run
import Workbench.Http.Message

/-!
# The program

Runs the command line against the real world: the file system, hosts that speak plain HTTP, the
clock, and the standard streams. A connection that needs encryption counts as dropped, and nothing
limits the time that an answer may take. Redirects are not followed: an answer that names another
place to ask is passed on with the status that it has.
-/
namespace Workbench.Program

open Std.Async (Async DNS.getAddrInfo)
open Std.Async.TCP (Socket.Client)

/-! ## Files -/

/-- The number of an error; some calls give its negative in 32 bits. -/
def errorNumber (n : UInt32) : Nat := if n < 0x80000000 then n.toNat else 0x100000000 - n.toNat

def fileError (e : IO.Error) : FileError :=
  let numbered (n : UInt32) (message : String) : FileError :=
    match errorNumber n with
    | 2 => .notFound
    | 17 => .alreadyExists
    | 20 => .notADirectory
    | 21 => .isADirectory
    | 36 => .nameTooLong
    | n => .other n message
  match e with
  | .noFileOrDirectory _ n m => numbered n m
  | .alreadyExists _ n m => numbered n m
  | .inappropriateType _ n m => numbered n m
  | .invalidArgument _ n m => numbered n m
  | .permissionDenied _ n m => numbered n m
  | .resourceExhausted _ n m => numbered n m
  | e => .other 0 e.toString

/-- Does something with a path that can be one. -/
def withPath {α : Type} (path : String) (act : IO α) : IO (Except FileError α) :=
  if path.toList.contains '\x00' then return .error .nulByte
  else do
    try return .ok (← act)
    catch e => return .error (fileError e)

def doesExist (path : String) : IO Bool := do
  try
    let _ ← IO.FS.realPath path
    return path != ""
  catch _ => return false

/-- Makes a directory and, where that fails for want of it, the one above first. -/
partial def makeDirectories (path : String) : IO (Except FileError Unit) := do
  if path = "" then return .ok ()
  match ← withPath path (IO.FS.createDir path) with
  | .ok () => return .ok ()
  | .error .alreadyExists => withPath path (IO.FS.createDirAll path)
  | .error .notFound =>
    match ((Files.Path.parse path).parent?).map (·.text) with
    | none => return .error .notFound
    | some above =>
      match ← makeDirectories above with
      | .error e => return .error e
      | .ok () => withPath path (IO.FS.createDirAll path)
  | .error e => return .error e

def fileReply : (c : Files.Call) → IO c.Reply
  | .read path => withPath path do return (← IO.FS.readBinFile path).toList
  | .write path contents => withPath path (IO.FS.writeBinFile path ⟨contents.toArray⟩)
  | .makeDirectories path => makeDirectories path
  | .doesExist path => doesExist path

/-! ## Exchanges -/

/-- All that comes before the connection is closed. -/
partial def receive (socket : Socket.Client) (sofar : ByteArray) : Async ByteArray := do
  match ← socket.recv? 65536 with
  | some bytes => receive socket (sofar ++ bytes)
  | none => return sofar

def addressOf (ip : Std.Net.IPAddr) (port : UInt16) : Std.Net.SocketAddress :=
  match ip with
  | .v4 a => .v4 ⟨a, port⟩
  | .v6 a => .v6 ⟨a, port⟩

/-- The name by which a host is looked up. -/
def lookupName : Url.Host → String
  | .ipv6 pieces => Url.ipv6Text pieces
  | host => host.text

/-- Sends a message to a host and waits for what it has to say. -/
def converse (host : Url.Host) (port : Nat) (message : String) : IO (List UInt8) := do
  let addresses ← (DNS.getAddrInfo (lookupName host) (toString port)).block
  let some ip := addresses[0]? | throw (.userError "unknown host")
  let socket ← Socket.Client.mk
  let bytes ← Async.block do
    socket.connect (addressOf ip (UInt16.ofNat port))
    socket.send message.toUTF8
    receive socket .empty
  return bytes.toList

def exchange (r : Http.Request) : IO (Option Http.Response) := do
  match r.url.scheme, r.url.authority with
  | "http", some a =>
    try return Http.Response.ofMessage? r.url (← converse a.host (a.port.getD 80) r.message)
    catch _ => return none
  | _, _ => return none

/-! ## Sessions -/

def reply : (c : Cli.Call) → IO c.Reply
  | .files c => fileReply c
  | .exchange r => exchange r
  | .print text => IO.print text
  | .notify text => IO.eprint text

def play {α : Type} : Cli.Session α → IO α
  | .done a => return a
  | .ask c next => do play (next (← reply c))

def now : IO Instant := do
  let t := (← Std.Time.Timestamp.now).toNanosecondsSinceUnixEpoch.val
  return ⟨t / nanosPerSecond, (t % nanosPerSecond).toNat⟩

/-- The variables of the environment that a run looks at. -/
def watched : List String :=
  ["HOME", "XDG_CONFIG_HOME"] ++
    (Cli.globals ++ Cli.hostParameters).filterMap (·.environment)

def environment : IO (List (String × String)) :=
  watched.filterMapM fun name => do return (← IO.getEnv name).map fun value => (name, value)

end Workbench.Program

open Workbench in
def main (arguments : List String) : IO UInt32 := do
  let given ← Program.environment
  let status ←
    Program.play (Cli.run (fun name => given.lookup name) (← Program.now) arguments)
  return UInt32.ofNat status
