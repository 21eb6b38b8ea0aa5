import ScrapeDiscovery.Client.Command

/-!
# Requests and answers on the wire

A request is sent as the lines of version 1.0 of the protocol, so that the answer
is everything up to the end of the connection: a line with the status, lines with
properties, an empty line and the body.
-/

namespace ScrapeDiscovery.Client

/-- The lines of a request. -/
def Request.wireText (r : Request) : String :=
  let port := r.address.port.map fun n => ":" ++ toString n
  "GET " ++ r.target ++ " HTTP/1.0\r\nhost: " ++ r.address.host ++ port.getD "" ++
    "\r\naccept: */*\r\nconnection: close\r\n\r\n"

namespace Reply

/-- The bytes of a line end and an empty line. -/
def emptyLine : List Nat := [13, 10, 13, 10]

/-- Splits an answer after the first empty line. -/
def splitHead : List Nat → Option (List Nat × List Nat)
  | [] => none
  | b :: bs =>
    if emptyLine.isPrefixOf (b :: bs) then some ([], (b :: bs).drop 4)
    else (splitHead bs).map fun (head, body) => (b :: head, body)

/-- The status of a first line. -/
def statusOf? (head : List Nat) : Option Nat :=
  let line := (Text.decodeUtf8Lossy head).toList.takeWhile (· ≠ '\r')
  match Text.splitOnChar (· == ' ') line with
  | version :: status :: _ =>
    if "HTTP/1.".toList.isPrefixOf version && status.length = 3 && status.all Char.isDigit then
      some (Double.digitsValue status)
    else none
  | _ => none

/-- Reads an answer. -/
def ofBytes? (bs : List Nat) : Option Reply := do
  let (head, body) ← splitHead bs
  let status ← statusOf? head
  return { status, body := Text.decodeUtf8Lossy body }

end Reply

end ScrapeDiscovery.Client
