import Mathlib.Data.Finset.Basic
import ShelterServer.ClientTables
import ShelterServer.Foundations.Faulting
import ShelterServer.ReceiveBuffers
import ShelterServer.Supplies

/-!
# The server state

The globals of the server process, the descriptors of its connected TCP
clients, and a trace of what it does to the outside: log lines, messages,
replies, accepted and closed connections, and the update requests it passes
to the supplies module.  A handler reads and writes this state and may stop
the process with a fault.
-/

namespace ShelterServer

open Foundations

/-- `ADMIN_USER`. -/
def adminUser : Bytes := ascii "ubuntu"

/-! ## Alert counters and emergency information -/

inductive Entry where
  | north
  | south
  | east
  | west
deriving DecidableEq

/-- The string that stands for an entry. -/
def Entry.word : Entry → Bytes
  | .north => ascii "NORTH"
  | .south => ascii "SOUTH"
  | .east => ascii "EAST"
  | .west => ascii "WEST"

structure EntryAlertsCount where
  north : Int
  south : Int
  east : Int
  west : Int
deriving DecidableEq

def initializeEntryAlertsCount : EntryAlertsCount := ⟨0, 0, 0, 0⟩

def getAlertsForEntry (counts : EntryAlertsCount) (entry : Bytes) : Int :=
  if entry = ascii "NORTH" then counts.north
  else if entry = ascii "SOUTH" then counts.south
  else if entry = ascii "EAST" then counts.east
  else if entry = ascii "WEST" then counts.west
  else -1

structure EmergencyInfo where
  lastKeepalived : Buffer 30
  lastEvent : Buffer 100

def updateEmergencyInfo (keepalived event : Bytes) : EmergencyInfo where
  lastKeepalived := .strncpy 30 keepalived
  lastEvent := .strncpy 100 event

/-- The string at `last_keepalived`; the field `last_event` and then `beyond`
lie behind it in memory. -/
def getLastKeepalived (info : EmergencyInfo) (beyond : Bytes) : Bytes :=
  info.lastKeepalived.text (info.lastEvent.bytes ++ beyond)

/-- The string at `last_event`, which ends the structure. -/
def getLastEvent (info : EmergencyInfo) (beyond : Bytes) : Bytes :=
  info.lastEvent.text beyond

/-! ## The outside -/

/-- The JSON objects the server answers with. -/
inductive Reply where
  | authSuccess
  | authFailure
  | status (supplies : Json)
  | summary (report : Json)

def Reply.json : Reply → Json
  | .authSuccess => .object [(ascii "message", .string (ascii "auth_success"))]
  | .authFailure => .object [(ascii "message", .string (ascii "auth_failure"))]
  | .status supplies => supplies
  | .summary report => report

/-- To whom a request is answered. -/
inductive Peer where
  | tcp (clientFd : Nat)
  | udp (clientAddr : SockaddrStorage)

inductive Action where
  | logEvent (message : Bytes)
  | accepted (clientFd : Nat)
  | closed (clientFd : Nat)
  | sendTcp (clientFd : Nat) (message : Bytes)
  | sendUdp (client : UDPClientData) (message : Bytes)
  | reply (peer : Peer) (reply : Reply)
  | updateSupplies (request : Json)

/-- What stops the process: a write outside an array, a string function on
NULL, or an access to the supplies through NULL. -/
inductive Fault where
  | outOfBounds
  | nullString
  | nullSupplies
deriving DecidableEq

structure Server where
  supplies : Supplies
  entryAlertsCount : EntryAlertsCount
  emergencyInfo : EmergencyInfo
  tcpClients : TCPClientList
  udpClients : UDPClientList
  /-- The client descriptors in `master_fds`. -/
  connected : Finset Nat
  trace : List Action

/-- The state in which `start_server` enters its loop, with the supplies that
`init_shared_memory_supplies` leaves. -/
def Server.initial (supplies : Supplies) : Server where
  supplies := supplies
  entryAlertsCount := initializeEntryAlertsCount
  emergencyInfo := ⟨.zeroed 30, .zeroed 100⟩
  tcpClients := .empty 0
  udpClients := .empty ⟨0, .zeroed 128, 0⟩
  connected := ∅
  trace := []

/-- Append to the trace. -/
def Server.act (server : Server) (actions : List Action) : Server :=
  { server with trace := server.trace ++ actions }

abbrev Handler := Faulting Fault Server

/-- What surrounds the handling of one request: the memory it finds, the texts
it derives from the client's address and the clock, and whether the supplies
segments can be attached by the handler and by `create_summary_json`. -/
structure RequestContext where
  stack : ReceiveBuffer
  behindStack : Bytes
  behindEmergencyInfo : Bytes
  clientIp : Bytes
  timestamp : Bytes
  access : SegmentAccess
  summaryAccess : SegmentAccess

/-- Attached segments, zeroed memory and no texts. -/
def RequestContext.attached : RequestContext where
  stack := .zeroed bufferSize
  behindStack := []
  behindEmergencyInfo := []
  clientIp := []
  timestamp := []
  access := ⟨true, true⟩
  summaryAccess := ⟨true, true⟩

/-- The outcome of a receive call: -1, or a number of bytes. -/
inductive Received where
  | failed
  | bytes (data : Bytes)

/-! ## Steps shared by the handlers -/

/-- `snprintf` into an array of `BUFFER_256` bytes. -/
def snprintf256 (text : Bytes) : Bytes :=
  text.take 255

def logEvent (message : Bytes) : Handler PUnit :=
  modify fun server => server.act [.logEvent message]

/-- `update_emergency_info` on the global structure. -/
def recordEmergency (keepalived event : Bytes) : Handler PUnit :=
  modify fun server =>
    { server with emergencyInfo := updateEmergencyInfo keepalived event }

/-- `add_tcp_client` on the global list, with its log line. -/
def Server.withTcpClient (server : Server) (clientFd : Nat) : Server :=
  { server with tcpClients := addTcpClient clientFd server.tcpClients }.act
    (if server.tcpClients.count < maxClients then
      [.logEvent (ascii "Added TCP client. Total connected: " ++
        ascii (toString (server.tcpClients.count + 1)))]
    else [])

/-- `remove_tcp_client` on the global list, with its log line. -/
def Server.withoutTcpClient (server : Server) (clientFd : Nat) : Server :=
  { server with tcpClients := removeTcpClient clientFd server.tcpClients }.act
    (if clientFd ∈ server.tcpClients.live then
      [.logEvent (ascii "TCP client disconnected. Total connected: " ++
        ascii (toString (server.tcpClients.count - 1)))]
    else [])

/-- `add_udp_client` on the global list, with its log line. -/
def Server.withUdpClient (server : Server) (client : UDPClientData) : Server :=
  let udpClients := addUdpClient server.udpClients client
  { server with udpClients := udpClients }.act
    (if server.udpClients.count < udpClients.count then
      [.logEvent (ascii "Added UDP client. Total cached: " ++
        ascii (toString udpClients.count))]
    else [])

def recordTcpClient (clientFd : Nat) : Handler PUnit :=
  modify fun server => server.withTcpClient clientFd

def forgetTcpClient (clientFd : Nat) : Handler PUnit :=
  modify fun server => server.withoutTcpClient clientFd

def recordUdpClient (client : UDPClientData) : Handler PUnit :=
  modify fun server => server.withUdpClient client

def sendToAllTcpClients (message : Bytes) : Handler PUnit :=
  modify fun server =>
    server.act (server.tcpClients.live.map fun clientFd =>
      .sendTcp clientFd message)

def sendToAllUdpClients (message : Bytes) : Handler PUnit :=
  modify fun server =>
    server.act (server.udpClients.live.map fun client =>
      .sendUdp client message)

/-- `send_json_to_tcp_client` and `send_json_to_udp_client`. -/
def sendJson (peer : Peer) (reply : Reply) : Handler PUnit :=
  modify fun server => server.act [.reply peer reply]

def sendJsonToTcpClient (clientFd : Nat) : Reply → Handler PUnit :=
  sendJson (.tcp clientFd)

def sendJsonToUdpClient (clientAddr : SockaddrStorage) :
    Reply → Handler PUnit :=
  sendJson (.udp clientAddr)

theorem exec_logEvent (message : Bytes) (server : Server) :
    Faulting.exec (logEvent message) server =
      (.ok ⟨⟩, server.act [.logEvent message]) :=
  rfl

theorem exec_recordEmergency (keepalived event : Bytes) (server : Server) :
    Faulting.exec (recordEmergency keepalived event) server =
      (.ok ⟨⟩, { server with
        emergencyInfo := updateEmergencyInfo keepalived event }) :=
  rfl

theorem exec_recordUdpClient (client : UDPClientData) (server : Server) :
    Faulting.exec (recordUdpClient client) server =
      (.ok ⟨⟩, server.withUdpClient client) :=
  rfl

/-- The operand of `strcmp` behind a looked-up item. -/
def stringOperand (item : Json) : Handler Bytes :=
  match item.valuestring with
  | none => throw .nullString
  | some value => pure value

theorem stringOperand_bind {α : Type} (item : Json)
    (next : Bytes → Handler α) :
    stringOperand item >>= next =
      match item.valuestring with
      | none => throw .nullString
      | some value => next value := by
  unfold stringOperand
  cases item.valuestring with
  | none => rfl
  | some value => exact pure_bind value next

/-- `update_supplies_from_json` on the shared segments. -/
def updateSupplies (access : SegmentAccess) (request : Json) :
    Handler PUnit := do
  modify fun server => server.act [.updateSupplies request]
  let server ← get
  match updateSuppliesFromJson access server.supplies request with
  | .updated supplies => modify fun server => { server with supplies }
  | .nullAccess supplies =>
      modify fun server => { server with supplies }
      throw .nullSupplies

theorem exec_updateSupplies_of_granted {access : SegmentAccess}
    (granted : access.Granted) (request : Json) (server : Server) :
    Faulting.exec (updateSupplies access request) server =
      (.ok ⟨⟩, { server.act [.updateSupplies request] with
        supplies := server.supplies.update request }) := by
  rw [updateSupplies, Faulting.exec_bind_of_ok (Faulting.exec_modify _ _),
    Faulting.exec_bind_of_ok (Faulting.exec_get _),
    updateSuppliesFromJson_of_granted granted]
  rfl

/-- `convert_supplies_to_json` on the shared segments. -/
def currentSupplies (access : SegmentAccess) : Handler Json := do
  let server ← get
  match convertSuppliesToJson access server.supplies with
  | none => throw .nullSupplies
  | some supplies => pure supplies

/-- The object that `create_summary_json` builds around the supplies. -/
def Server.summaryObject (server : Server) (behindEmergencyInfo : Bytes)
    (supplies : Json) : Json :=
  let alerts := getAlertsForEntry server.entryAlertsCount
  .object [
    (ascii "alerts", .object [
      (ascii "north_entry", .number (alerts (ascii "NORTH"))),
      (ascii "east_entry", .number (alerts (ascii "EAST"))),
      (ascii "west_entry", .number (alerts (ascii "WEST"))),
      (ascii "south_entry", .number (alerts (ascii "SOUTH")))]),
    (ascii "supplies", supplies),
    (ascii "emergency", .object [
      (ascii "last_keepalived", .string
        (getLastKeepalived server.emergencyInfo behindEmergencyInfo)),
      (ascii "last_event", .string
        (getLastEvent server.emergencyInfo behindEmergencyInfo))])]

def createSummaryJson (context : RequestContext) : Handler Json := do
  let supplies ← currentSupplies context.summaryAccess
  let server ← get
  pure (server.summaryObject context.behindEmergencyInfo supplies)

/-- The reply of the `"status"` branches. -/
def sendStatus (send : Reply → Handler PUnit) (access : SegmentAccess) :
    Handler PUnit := do
  let supplies ← currentSupplies access
  send (.status supplies)

/-- The reply of the `"summary"` branches. -/
def sendSummary (send : Reply → Handler PUnit) (context : RequestContext) :
    Handler PUnit := do
  let summary ← createSummaryJson context
  send (.summary summary)

theorem exec_sendStatus (peer : Peer) (access : SegmentAccess)
    (server : Server) :
    Faulting.exec (sendStatus (sendJson peer) access) server =
      match convertSuppliesToJson access server.supplies with
      | none => (.error .nullSupplies, server)
      | some supplies =>
          (.ok ⟨⟩, server.act [.reply peer (.status supplies)]) := by
  rw [sendStatus, currentSupplies, bind_assoc,
    Faulting.exec_bind_of_ok (Faulting.exec_get server)]
  split <;> rfl

theorem exec_sendSummary (peer : Peer) (context : RequestContext)
    (server : Server) :
    Faulting.exec (sendSummary (sendJson peer) context) server =
      match convertSuppliesToJson context.summaryAccess server.supplies with
      | none => (.error .nullSupplies, server)
      | some supplies =>
          (.ok ⟨⟩, server.act [.reply peer (.summary
            (server.summaryObject context.behindEmergencyInfo supplies))]) := by
  rw [sendSummary, createSummaryJson, currentSupplies, bind_assoc, bind_assoc,
    Faulting.exec_bind_of_ok (Faulting.exec_get server)]
  split <;> rfl

end ShelterServer
