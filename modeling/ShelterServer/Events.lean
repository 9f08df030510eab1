import ShelterServer.Alerts
import ShelterServer.Foundations.Runs
import ShelterServer.Requests

/-!
# Runs of the server

The loop of `start_server` as a sequence of events, each handled to its end
before the next.  An event carries what the system calls of its handler
return.  A fault ends the process; later events find nobody to handle them.
-/

namespace ShelterServer

open Foundations

/-- Which of its three log lines `accept_tcp_connection` writes. -/
inductive PeerFamily where
  | mappedIPv4
  | ipv6
  | ipv4

def PeerFamily.connectedText : PeerFamily → Bytes
  | .mappedIPv4 => ascii "New TCP IPv4 client connected from IP: "
  | .ipv6 => ascii "New TCP IPv6 client connected from IP: "
  | .ipv4 => ascii "New IPv4 client connected from IP: "

inductive Event where
  /-- Activity on the listening TCP socket; the result of `accept`. -/
  | tcpConnection (context : RequestContext) (family : PeerFamily)
      (accepted : Option Nat)
  /-- Activity on a client descriptor; whether `getpeername` succeeds, and
  the result of `recv`. -/
  | tcpActivity (context : RequestContext) (clientFd : Nat) (peername : Bool)
      (received : Received)
  | udpActivity (context : RequestContext) (sockfd : Nat)
      (datagram : Datagram)
  /-- Activity on the Unix socket; whether `accept` succeeds, and the result
  of `recv`. -/
  | unixActivity (context : RequestContext) (accepted : Bool)
      (received : Received)
  /-- Activity on the FIFO; whether `open` succeeds, and the result of
  `read`. -/
  | fifoActivity (context : RequestContext) (opened : Bool)
      (received : Received)

def Event.context : Event → RequestContext
  | .tcpConnection context _ _ => context
  | .tcpActivity context _ _ _ => context
  | .udpActivity context _ _ => context
  | .unixActivity context _ _ => context
  | .fifoActivity context _ _ => context

/-- A block from a TCP client or the Unix socket, which its handler terminates,
leaves room for that. -/
def Event.FitsBuffer : Event → Prop
  | .tcpActivity _ _ true received => received.FitsBuffer
  | .unixActivity _ true received => received.FitsBuffer
  | _ => True

/-- `accept_tcp_connection` on success, and the `FD_SET` that follows it. -/
def acceptTcpConnection (context : RequestContext) (family : PeerFamily)
    (clientFd : Nat) : Handler PUnit := do
  modify fun server => server.act [.accepted clientFd]
  logEvent (snprintf256 (family.connectedText ++ context.clientIp))
  recordTcpClient clientFd
  modify fun server =>
    { server with connected := insert clientFd server.connected }

/-- `close`, `FD_CLR` and `remove_tcp_client`. -/
def closeTcpClient (clientFd : Nat) : Handler PUnit := do
  modify fun server => server.act [.closed clientFd]
  modify fun server =>
    { server with connected := server.connected.erase clientFd }
  forgetTcpClient clientFd

/-- What follows a request: a connection that is not to be kept is closed. -/
def keepOrClose (context : RequestContext) (clientFd : Nat) (served : Bool) :
    Handler PUnit :=
  if served then pure ⟨⟩
  else do
    logEvent (snprintf256
      (ascii "TCP client disconnected from IP: " ++ context.clientIp))
    closeTcpClient clientFd

section Events

variable (parse : Bytes → Option Json)

def handleTcpSocketActivity (context : RequestContext) (clientFd : Nat)
    (peername : Bool) (received : Received) : Handler PUnit := do
  if peername then
    let served ← checkTcpClientsMessages parse context clientFd received
    keepOrClose context clientFd served
  else closeTcpClient clientFd

def handleUdpSocketActivity (context : RequestContext) (sockfd : Nat)
    (datagram : Datagram) : Handler PUnit := do
  let _ ← checkUdpClientsMessages parse context sockfd datagram
  pure ⟨⟩

/-- One dispatch of the loop.  `accept` never returns a descriptor that is in
use, and `select` reports only descriptors of connected clients; where an
event says otherwise, nothing happens. -/
def handleEvent : Event → Handler PUnit
  | .tcpConnection _ _ none => pure ⟨⟩
  | .tcpConnection context family (some clientFd) => do
      let server ← get
      if clientFd ∈ server.connected then pure ⟨⟩
      else acceptTcpConnection context family clientFd
  | .tcpActivity context clientFd peername received => do
      let server ← get
      if clientFd ∈ server.connected then
        handleTcpSocketActivity parse context clientFd peername received
      else pure ⟨⟩
  | .udpActivity context sockfd datagram =>
      handleUdpSocketActivity parse context sockfd datagram
  | .unixActivity context accepted received =>
      handleUnixConnection context accepted received
  | .fifoActivity context opened received =>
      checkAlerts context opened received

/-- The event brings its handler to pass the request to
`update_supplies_from_json`. -/
def Event.Updates (request : Json) : Event → Prop
  | .tcpActivity context _ peername received =>
      peername = true ∧ tcpRequest parse received = .ok (some request) ∧
        request.Requests (ascii "update") ∧ context.access.Granted
  | .udpActivity _ _ datagram =>
      udpRequest parse datagram.received = some request ∧
        request.Requests (ascii "update") ∧ request.NamesAdmin
  | _ => False

/-- A server process, running or stopped by a fault. -/
structure Process where
  server : Server
  fault : Option Fault

def Process.running (server : Server) : Process := ⟨server, none⟩

def Process.FitsBuffer (process : Process) (event : Event) : Prop :=
  process.fault = none → event.FitsBuffer

/-- A guard of running processes counts all blocks where all of them fit. -/
theorem Process.FitsBuffer.guard_iff {process : Process} {event : Event}
    {guard : Prop} (fits : process.FitsBuffer event) :
    (event.FitsBuffer → process.fault = none → guard) ↔
      (process.fault = none → guard) :=
  ⟨fun holds running => holds (fits running) running, fun holds _ => holds⟩

/-- The process after a handler has been executed. -/
def Process.after : Except Fault PUnit × Server → Process
  | (.ok _, server) => ⟨server, none⟩
  | (.error fault, server) => ⟨server, some fault⟩

def Process.step (process : Process) (event : Event) : Process :=
  match process.fault with
  | none => .after (Faulting.exec (handleEvent parse event) process.server)
  | some _ => process

/-- What a process does to the outside while it handles an event. -/
def Process.actions (process : Process) (event : Event) : List Action :=
  (process.step parse event).server.trace.drop process.server.trace.length

theorem actions_of_trace {process : Process} {event : Event}
    {actions : List Action}
    (trace : (process.step parse event).server.trace =
      process.server.trace ++ actions) :
    process.actions parse event = actions := by
  rw [Process.actions, trace, List.drop_left]

@[simp] theorem Process.server_after (outcome : Except Fault PUnit × Server) :
    (Process.after outcome).server = outcome.2 := by
  rcases outcome with ⟨result, server⟩
  cases result <;> rfl

/-- A run of the server from given supplies. -/
def serverRun (supplies : Supplies) (events : List Event) : Process :=
  run (Process.step parse) (.running (.initial supplies)) events

theorem serverRun_concat (supplies : Supplies) (events : List Event)
    (event : Event) :
    serverRun parse supplies (events ++ [event]) =
      (serverRun parse supplies events).step parse event :=
  run_concat _ _ _ _

end Events

/-! ## A concrete request -/

/-- A request with the given members for `message` and `hostname`, adding five
to the meat counter. -/
def hostRequest (message hostname : Bytes) : Json :=
  .object [(ascii "message", .string message),
    (ascii "hostname", .string hostname),
    (ascii "food", .object [(ascii "meat", .number 5)])]

/-- The text of such a request. -/
def hostRequestText (message hostname : Bytes) : Bytes :=
  ascii "\x7b\"message\":\"" ++ message ++ ascii "\",\"hostname\":\"" ++
    hostname ++ ascii "\",\"food\":\x7b\"meat\":5\x7d\x7d"

/-- A parser that knows two update requests. -/
def parseUpdates : Bytes → Option Json :=
  Json.parseTable
    [(hostRequestText (ascii "update") adminUser,
        hostRequest (ascii "update") adminUser),
      (hostRequestText (ascii "update") (ascii "guest"),
        hostRequest (ascii "update") (ascii "guest"))]

/-- A datagram with an update request. -/
def updateDatagram (hostname : Bytes) : Event :=
  .udpActivity .attached 4
    ⟨.bytes (hostRequestText (ascii "update") hostname), .loopback⟩

end ShelterServer
