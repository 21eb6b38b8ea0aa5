import ScrapeDiscovery.Client.Arguments
import ScrapeDiscovery.Client.Exchange
import Std.Async.TCP
import Std.Async.DNS

/-!
# The program

Asks an agent over a connection of its own and shows what it answers. Only plain
connections are made; an address that asks for more cannot be reached.
-/

namespace ScrapeDiscovery.Client

/-- Receives everything up to the end of the connection. -/
partial def receiveAll (socket : Std.Async.TCP.Socket.Client) (received : List Nat) :
    Std.Async.Async (List Nat) := do
  match ← socket.recv? 65536 with
  | none => return received
  | some bytes =>
    if bytes.isEmpty then return received
    else receiveAll socket (received ++ bytes.toList.map UInt8.toNat)

/-- The socket address of a host that was looked up. -/
def socketAddress (port : UInt16) : Std.Net.IPAddr → Std.Net.SocketAddress
  | .v4 addr => .v4 { addr, port }
  | .v6 addr => .v6 { addr, port }

/-- Sends a request to one of the hosts that bear the name. -/
def exchange (r : Request) (host : Std.Net.IPAddr) : Std.Async.Async (Option Reply) := do
  let socket ← Std.Async.TCP.Socket.Client.mk
  socket.connect (socketAddress r.address.portNumber.toUInt16 host)
  socket.sendAll #[r.wireText.toUTF8]
  return Reply.ofBytes? (← receiveAll socket [])

/-- Looks up the host of a request and asks the first one that is found. -/
def askHost (r : Request) : Std.Async.Async (Option Reply) := do
  let hosts ← Std.Async.DNS.getAddrInfo r.address.host (toString r.address.portNumber)
  match hosts[0]? with
  | none => return none
  | some host => exchange r host

/-- Asks for what is at the address of a request. -/
def askAgent (r : Request) : IO (Option Reply) := do
  if r.address.scheme = "http" then
    try (askHost r).block
    catch _ => return none
  else return none

/-- Whether texts are shown in colours: when the environment forces it, else on a terminal unless
the environment forbids it. -/
def wantsColors : IO Bool := do
  let isOn (value : Option String) : Bool := value.any (· ≠ "0")
  if isOn (← IO.getEnv "CLICOLOR_FORCE") then return true
  else if (← IO.getEnv "NO_COLOR").isSome || (← IO.getEnv "CLICOLOR") = some "0" then return false
  else (← IO.getStdout).isTty

/-- Shows how a run ends. -/
def finish (e : Ending) : IO UInt32 := do
  (← IO.getStdout).putStr e.output
  if !e.complaint.isEmpty then (← IO.getStderr).putStrLn e.complaint
  return e.code.toUInt32

end ScrapeDiscovery.Client

open ScrapeDiscovery.Client

/-- Runs the program. -/
def main (args : List String) : IO UInt32 := do
  let colored ← wantsColors
  match Invocation.parse (← IO.getEnv "DISCOCTL_API_URL") args with
  | .error stop => finish (stop.ending colored)
  | .ok i =>
    let shown ← match i.command.prepare i.address with
      | .error e => pure (.error e)
      | .ok r =>
        match ← askAgent r with
        | none => pure (.error .notSent)
        | some reply => pure (i.command.report i.format colored reply)
    finish (endingOf shown)
