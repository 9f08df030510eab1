import Mathlib.Data.Finset.Basic
import ShelterServer.ClientTables
import ShelterServer.Foundations.DescriptorTable

/-!
# The select loop

The loop of `start_server` at the level of descriptors: what the kernel's
table refers to, the set handed to `select`, and the order in which one pass
over the reported descriptors calls the handlers.  Of a request only matters
whether its connection is kept.  Files that a call opens and closes before it
returns, such as the log file, are left out where nothing else depends on
them; `openBriefly_eq` is the reason.
-/

namespace ShelterServer

open Foundations

/-- `FD_SETSIZE`; no descriptor reaches it. -/
def fdSetSize : Nat := 1024

/-- What an open descriptor refers to.  Connections are numbered in the order
in which they are accepted. -/
inductive OpenFile where
  | inherited
  | tcpSocket
  | udpSocket
  | unixSocket
  | fifo
  | tcpClient (connection : Nat)
  | unixClient
  | fifoReader
deriving DecidableEq

/-- The handlers that one pass of the loop calls. -/
inductive Route where
  | acceptTcpConnection
  | handleUdpSocketActivity
  | handleUnixSocketActivity
  | checkAlerts
  | handleTcpSocketActivity
deriving DecidableEq

/-- The handler that serves a file. -/
def OpenFile.route : OpenFile → Option Route
  | .tcpSocket => some .acceptTcpConnection
  | .udpSocket => some .handleUdpSocketActivity
  | .unixSocket => some .handleUnixSocketActivity
  | .fifo => some .checkAlerts
  | .tcpClient _ => some .handleTcpSocketActivity
  | .inherited | .unixClient | .fifoReader => none

/-- The descriptors that `start_server` opens before its loop. -/
structure ServerFds where
  tcpSocketFd : Nat
  udpSocketFd : Nat
  unixSocketFd : Nat
  fifoFd : Nat

def ServerFds.all (fds : ServerFds) : Finset Nat :=
  {fds.tcpSocketFd, fds.udpSocketFd, fds.unixSocketFd, fds.fifoFd}

/-- The order of the tests in the loop. -/
def ServerFds.route (fds : ServerFds) (fd : Nat) : Route :=
  if fd = fds.tcpSocketFd then .acceptTcpConnection
  else if fd = fds.udpSocketFd then .handleUdpSocketActivity
  else if fd = fds.unixSocketFd then .handleUnixSocketActivity
  else if fd = fds.fifoFd then .checkAlerts
  else .handleTcpSocketActivity

/-- The variables of the loop and the kernel's table.  `accepted` numbers the
connections and has no counterpart in the source. -/
structure SelectLoop where
  files : DescriptorTable OpenFile
  masterFds : Finset Nat
  maxFd : Nat
  tcpClients : TCPClientList
  accepted : Nat

/-- What the calls of one pass return: `accept` on either listening socket,
`open` of the FIFO, and for a client descriptor `getpeername` and
`check_tcp_clients_messages`. -/
structure Answers where
  accepts : Bool
  unixAccepts : Bool
  fifoOpens : Bool
  peername : Nat → Bool
  served : Nat → Bool

/-- One call of a handler: the descriptor it is called for, what that referred
to at the time, and the handler. -/
structure Dispatch where
  fd : Nat
  file : Option OpenFile
  route : Route

/-- The table that the process starts with. -/
def inheritedFiles (used : Nat → Bool) : DescriptorTable OpenFile :=
  fun fd => if used fd then some .inherited else none

/-- `start_server` up to its loop. -/
def startServer (used : Nat → Bool) : Option (ServerFds × SelectLoop) := do
  let (tcpSocketFd, files) ←
    (inheritedFiles used).openLowest fdSetSize .tcpSocket
  let (udpSocketFd, files) ← files.openLowest fdSetSize .udpSocket
  let (unixSocketFd, files) ← files.openLowest fdSetSize .unixSocket
  let (fifoFd, files) ← files.openLowest fdSetSize .fifo
  let fds : ServerFds := { tcpSocketFd, udpSocketFd, unixSocketFd, fifoFd }
  pure (fds, {
    files
    masterFds := fds.all
    maxFd := max (max (max tcpSocketFd udpSocketFd) fifoFd) unixSocketFd
    tcpClients := .empty 0
    accepted := 0 })

namespace SelectLoop

/-- `add_tcp_client`, and the `FD_SET` and the new maximum that follow it in
the loop. -/
def withTcpClient (clientFd : Nat) (files : DescriptorTable OpenFile)
    (loop : SelectLoop) : SelectLoop where
  files
  masterFds := insert clientFd loop.masterFds
  maxFd := max loop.maxFd clientFd
  tcpClients := addTcpClient clientFd loop.tcpClients
  accepted := loop.accepted + 1

def acceptTcpConnection (answers : Answers) (loop : SelectLoop) :
    SelectLoop :=
  if answers.accepts then
    match loop.files.openLowest fdSetSize (.tcpClient loop.accepted) with
    | none => loop
    | some (clientFd, files) => loop.withTcpClient clientFd files
  else loop

/-- `close`, `FD_CLR` and `remove_tcp_client`. -/
def closeTcpClient (clientFd : Nat) (loop : SelectLoop) : SelectLoop :=
  { loop with
    files := loop.files.close clientFd
    masterFds := loop.masterFds.erase clientFd
    tcpClients := removeTcpClient clientFd loop.tcpClients }

def handleTcpSocketActivity (answers : Answers) (clientFd : Nat)
    (loop : SelectLoop) : SelectLoop :=
  if answers.peername clientFd then
    if answers.served clientFd then loop else loop.closeTcpClient clientFd
  else loop.closeTcpClient clientFd

/-- The accepted Unix connection is closed by its handler. -/
def handleUnixSocketActivity (answers : Answers) (loop : SelectLoop) :
    SelectLoop :=
  if answers.unixAccepts then
    { loop with files := loop.files.openBriefly fdSetSize .unixClient }
  else loop

/-- The FIFO is opened once more for reading. -/
def checkAlerts (answers : Answers) (loop : SelectLoop) : SelectLoop :=
  if answers.fifoOpens then
    { loop with files := loop.files.openBriefly fdSetSize .fifoReader }
  else loop

def handle (answers : Answers) (fd : Nat) : Route → SelectLoop → SelectLoop
  | .acceptTcpConnection, loop => loop.acceptTcpConnection answers
  | .handleUdpSocketActivity, loop => loop
  | .handleUnixSocketActivity, loop => loop.handleUnixSocketActivity answers
  | .checkAlerts, loop => loop.checkAlerts answers
  | .handleTcpSocketActivity, loop => loop.handleTcpSocketActivity answers fd

/-- The `for` loop from a descriptor on, over the set that `select` left; the
fuel bounds its rounds. -/
def scan (fds : ServerFds) (answers : Answers) (ready : Finset Nat) :
    Nat → Nat → SelectLoop → List Dispatch → Option (SelectLoop × List Dispatch)
  | 0, _, _, _ => none
  | fuel + 1, fd, loop, log =>
      if fd ≤ loop.maxFd then
        if fd ∈ ready then
          scan fds answers ready fuel (fd + 1)
            (loop.handle answers fd (fds.route fd))
            (log ++ [⟨fd, loop.files fd, fds.route fd⟩])
        else scan fds answers ready fuel (fd + 1) loop log
      else some (loop, log)

/-- One round of the `while` loop.  A descriptor in the set that is not open
makes `select` fail and the process exit. -/
def pass (fds : ServerFds) (answers : Answers) (ready : Finset Nat)
    (loop : SelectLoop) : Option (SelectLoop × List Dispatch) :=
  if ∀ fd ∈ loop.masterFds, (loop.files fd).isSome then
    loop.scan fds answers ready (fdSetSize + 1) fds.tcpSocketFd []
  else none

/-- The states at the calls of `select`.  It reports only descriptors of the
set that it is given. -/
inductive Reachable (used : Nat → Bool) : ServerFds → SelectLoop → Prop
  | start {fds : ServerFds} {loop : SelectLoop}
      (starts : startServer used = some (fds, loop)) :
      Reachable used fds loop
  | pass {fds : ServerFds} {loop after : SelectLoop} {answers : Answers}
      {ready : Finset Nat} {log : List Dispatch}
      (before : Reachable used fds loop) (reported : ready ⊆ loop.masterFds)
      (passes : loop.pass fds answers ready = some (after, log)) :
      Reachable used fds after

end SelectLoop

end ShelterServer
