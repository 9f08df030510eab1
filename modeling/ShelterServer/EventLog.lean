import ShelterServer.EmergencyNotices
import ShelterServer.Foundations.IpNotation
import ShelterServer.Foundations.TextInput

/-!
# The log file

Each call of `log_event` appends its timestamp, its message and a newline.  The
lines of the file are the calls, in order, as long as no message holds a
newline.  The messages that the server makes itself hold none; the texts from
the FIFO and the Unix socket are logged as they were received.
-/

namespace ShelterServer

open Foundations Faulting

/-! ## Calls of `log_event` -/

/-- Two digits of a `strftime` format. -/
def twoDigits (value : Nat) : Bytes :=
  [UInt8.ofNat (value / 10 % 10 + 48), UInt8.ofNat (value % 10 + 48)]

/-- The fields of `struct tm` that the timestamp shows. -/
structure LocalTime where
  tmYear : Int
  tmMon : Fin 12
  tmMday : Fin 32
  tmHour : Fin 24
  tmMin : Fin 60
  tmSec : Fin 61

/-- `strftime` with the format `[%Y-%m-%d %H:%M:%S]`. -/
def LocalTime.timestamp (time : LocalTime) : Bytes :=
  ascii "[" ++ ascii (toString (time.tmYear + 1900)) ++ ascii "-" ++
    twoDigits (time.tmMon + 1) ++ ascii "-" ++ twoDigits time.tmMday ++
    ascii " " ++ twoDigits time.tmHour ++ ascii ":" ++
    twoDigits time.tmMin ++ ascii ":" ++ twoDigits time.tmSec ++ ascii "]"

/-- A call of `log_event` and the time at which it is made. -/
structure LogCall where
  time : LocalTime
  message : Bytes

def LogCall.line (call : LogCall) : Bytes :=
  call.time.timestamp ++ ascii " " ++ call.message

/-- What `log_event` makes of the log file. -/
def LogCall.append (file : Bytes) (call : LogCall) : Bytes :=
  file ++ (call.line ++ ascii "\n")

def logFile (calls : List LogCall) : Bytes :=
  calls.foldl LogCall.append []

theorem logFile_eq (calls : List LogCall) :
    logFile calls = (calls.map LogCall.line).flatMap (· ++ [10]) := by
  have behind : ∀ file, calls.foldl LogCall.append file =
      file ++ (calls.map LogCall.line).flatMap (· ++ [10]) := by
    intro file
    induction calls generalizing file with
    | nil => simp
    | cons call calls induction =>
        rw [List.foldl_cons, induction, LogCall.append, List.map_cons,
          List.flatMap_cons, List.append_assoc]
        rfl
  exact behind []

theorem newline_notMem_twoDigits (value : Nat) : 10 ∉ twoDigits value := by
  have digit : ∀ rest < 10, (10 : UInt8) ≠ UInt8.ofNat (rest + 48) := by
    decide
  rw [twoDigits, List.mem_cons, List.mem_singleton, not_or]
  exact ⟨digit _ (Nat.mod_lt _ (by decide)), digit _ (Nat.mod_lt _ (by decide))⟩

theorem newline_notMem_timestamp (time : LocalTime) :
    10 ∉ time.timestamp := by
  simp only [LocalTime.timestamp, List.mem_append, not_or,
    newline_notMem_twoDigits, newline_notMem_intToString, not_false_eq_true,
    and_true]
  decide

theorem newline_mem_line_iff (call : LogCall) :
    10 ∈ call.line ↔ 10 ∈ call.message := by
  have blank : 10 ∉ ascii " " := by decide
  simp [LogCall.line, newline_notMem_timestamp, blank]

/-- The lines of the file are the calls, in order. -/
def LogIntact (calls : List LogCall) : Prop :=
  textLines (logFile calls) = calls.map LogCall.line

theorem logIntact_iff (calls : List LogCall) :
    LogIntact calls ↔ ∀ call ∈ calls, 10 ∉ call.message := by
  rw [LogIntact, logFile_eq, textLines_flatMap_iff, List.forall_mem_map]
  simp only [newline_mem_line_iff]

/-! ## The messages of a run -/

def Action.logMessage : Action → Option Bytes
  | .logEvent message => some message
  | _ => none

/-- The messages of a server process from its start on, and the one behind the
loop if the server has been turned off. -/
def Process.logMessages (process : Process) (turnedOff : Bool) : List Bytes :=
  [ascii "Server started"] ++
    process.server.trace.filterMap Action.logMessage ++
    if turnedOff then [ascii "Server turned off"] else []

/-- The calls of `log_event` with the readings of a clock. -/
def Process.logCalls (process : Process) (turnedOff : Bool)
    (clock : Nat → LocalTime) : List LogCall :=
  (process.logMessages turnedOff).zipIdx.map fun item =>
    ⟨clock item.2, item.1⟩

/-- No message that a server has logged holds a newline. -/
def Server.PlainLog (server : Server) : Prop :=
  ∀ message ∈ server.trace.filterMap Action.logMessage, 10 ∉ message

theorem logIntact_logCalls_iff (process : Process) (turnedOff : Bool)
    (clock : Nat → LocalTime) :
    LogIntact (process.logCalls turnedOff clock) ↔
      process.server.PlainLog := by
  have messages : (∀ call ∈ process.logCalls turnedOff clock,
      10 ∉ call.message) ↔
        ∀ message ∈ process.logMessages turnedOff, 10 ∉ message := by
    conv_rhs => rw [← List.zipIdx_map_fst 0 (process.logMessages turnedOff)]
    rw [Process.logCalls, List.forall_mem_map, List.forall_mem_map]
  have started : 10 ∉ ascii "Server started" := by decide
  have stopped : ∀ message ∈
      (if turnedOff then [ascii "Server turned off"] else []), 10 ∉ message := by
    cases turnedOff <;> decide
  rw [logIntact_iff, messages, Process.logMessages, List.forall_mem_append,
    List.forall_mem_append, List.forall_mem_singleton, and_iff_left stopped,
    and_iff_right started]
  rfl

theorem plainLog_act (server : Server) (actions : List Action) :
    (server.act actions).PlainLog ↔ server.PlainLog ∧
      ∀ message ∈ actions.filterMap Action.logMessage, 10 ∉ message := by
  rw [Server.PlainLog, Server.act, List.filterMap_append,
    List.forall_mem_append]
  rfl

/-- The log stays as plain as it was. -/
def SamePlain (before after : Server) : Prop :=
  after.PlainLog ↔ before.PlainLog

instance : Std.Refl SamePlain := ⟨fun _ => Iff.rfl⟩

instance : IsTrans Server SamePlain :=
  ⟨fun _ _ _ first second => second.trans first⟩

theorem samePlain_act {actions : List Action}
    (plain : ∀ message ∈ actions.filterMap Action.logMessage, 10 ∉ message)
    (server : Server) : SamePlain server (server.act actions) :=
  (plainLog_act server actions).trans (and_iff_left plain)

theorem samePlain_act_of_none {action : Action}
    (silent : action.logMessage = none) (server : Server) :
    SamePlain server (server.act [action]) :=
  samePlain_act (by simp [silent]) server

/-! ## Messages of the server itself -/

theorem samePlain_logEvent {message : Bytes} (plain : 10 ∉ message) :
    Within SamePlain (logEvent message) :=
  .modify (samePlain_act (by simpa [Action.logMessage] using plain))

theorem newline_notMem_snprintf256 {text : Bytes} (plain : 10 ∉ text) :
    10 ∉ snprintf256 text :=
  fun member => plain (List.mem_of_mem_take member)

/-- A label and the text of an address. -/
theorem samePlain_logPeer {label peer : Bytes} (labelPlain : 10 ∉ label)
    (peerPlain : 10 ∉ peer) :
    Within SamePlain (logEvent (snprintf256 (label ++ peer))) :=
  samePlain_logEvent (newline_notMem_snprintf256
    fun member => (List.mem_append.mp member).elim labelPlain peerPlain)

/-- A label and a number of clients, logged under a condition. -/
theorem samePlain_act_count {label : Bytes} (labelPlain : 10 ∉ label)
    (count : Nat) (logs : Prop) [Decidable logs] (server : Server) :
    SamePlain server (server.act
      (if logs then [.logEvent (label ++ ascii (toString count))] else [])) := by
  refine samePlain_act ?_ server
  split
  · have plain : 10 ∉ label ++ ascii (toString count) := fun member =>
      (List.mem_append.mp member).elim labelPlain
        (newline_notMem_toString count)
    simpa [Action.logMessage] using plain
  · simp

theorem samePlain_recordTcpClient (clientFd : Nat) :
    Within SamePlain (recordTcpClient clientFd) :=
  .modify fun server =>
    samePlain_act_count (by decide) _ _ { server with tcpClients := _ }

theorem samePlain_forgetTcpClient (clientFd : Nat) :
    Within SamePlain (forgetTcpClient clientFd) :=
  .modify fun server =>
    samePlain_act_count (by decide) _ _ { server with tcpClients := _ }

theorem samePlain_recordUdpClient (client : UDPClientData) :
    Within SamePlain (recordUdpClient client) :=
  .modify fun server =>
    samePlain_act_count (by decide) _ _ { server with udpClients := _ }

theorem samePlain_recordEmergency (timestamp event : Bytes) :
    Within SamePlain (recordEmergency timestamp event) :=
  .modify fun _ => Iff.rfl

theorem samePlain_sendJson (peer : Peer) (reply : Reply) :
    Within SamePlain (sendJson peer reply) :=
  .modify (samePlain_act_of_none rfl)

theorem samePlain_updateSupplies (access : SegmentAccess) (request : Json) :
    Within SamePlain (updateSupplies access request) := by
  intro server
  have heard : SamePlain server (server.act [.updateSupplies request]) :=
    samePlain_act_of_none rfl server
  rw [updateSupplies, exec_bind_of_ok (exec_modify _ _),
    exec_bind_of_ok (exec_get _)]
  split
  · exact heard
  · exact heard

theorem samePlain_sendStatus (peer : Peer) (access : SegmentAccess) :
    Within SamePlain (sendStatus (sendJson peer) access) := by
  intro server
  rw [exec_sendStatus]
  split
  · exact refl_of SamePlain server
  · exact samePlain_sendJson peer _ server

theorem samePlain_sendSummary (peer : Peer) (context : RequestContext) :
    Within SamePlain (sendSummary (sendJson peer) context) := by
  intro server
  rw [exec_sendSummary]
  split
  · exact refl_of SamePlain server
  · exact samePlain_sendJson peer _ server

theorem samePlain_closeTcpClient (clientFd : Nat) :
    Within SamePlain (closeTcpClient clientFd) := by
  refine .bind (.modify (samePlain_act_of_none rfl)) fun _ => ?_
  exact .bind (.modify fun _ => Iff.rfl)
    fun _ => samePlain_forgetTcpClient clientFd

/-! ## The handlers -/

/-- What `inet_ntop` makes of an address, or what stands for it where it is not
known. -/
def IsPeerText (text : Bytes) : Prop :=
  text = ascii "Unknown" ∨
    ∀ byte ∈ text, isHexDigit byte = true ∨ byte = 46 ∨ byte = 58

theorem IsPeerText.newline_notMem {text : Bytes} (peer : IsPeerText text) :
    10 ∉ text := by
  obtain rfl | letters := peer
  · decide
  · intro member
    exact absurd (letters 10 member) (by decide)

section Handlers

variable {context : RequestContext} (peer : 10 ∉ context.clientIp)

include peer

theorem samePlain_authenticateTcpClient (clientFd : Nat) (request : Json) :
    Within SamePlain (authenticateTcpClient context clientFd request) := by
  unfold authenticateTcpClient
  split
  · exact .pure _
  · rw [stringOperand_bind]
    split
    · exact .throw _
    · refine .ite (fun _ => ?_) fun _ => ?_
      · refine .bind (samePlain_logPeer (by decide) peer) fun _ => ?_
        exact .bind (samePlain_sendJson _ _) fun _ => .pure _
      · refine .bind (samePlain_logPeer (by decide) peer) fun _ => ?_
        exact .bind (samePlain_sendJson _ _) fun _ => .pure _

theorem samePlain_answerTcpRequest (clientFd : Nat) (value : Bytes)
    (request : Json) :
    Within SamePlain (answerTcpRequest context clientFd value request) := by
  refine .ite (fun _ => ?_) fun _ => .ite (fun _ => ?_) fun _ =>
    .ite (fun _ => ?_) fun _ => ?_
  · refine .bind (samePlain_recordEmergency _ _) fun _ => ?_
    refine .bind (samePlain_logPeer (by decide) peer) fun _ => ?_
    exact .bind (samePlain_sendStatus _ _) fun _ => .pure _
  · refine .bind (samePlain_recordEmergency _ _) fun _ => ?_
    refine .bind (samePlain_logPeer (by decide) peer) fun _ => ?_
    refine .ite (fun _ => ?_) fun _ => .pure _
    exact .bind (samePlain_updateSupplies _ _) fun _ => .pure _
  · refine .bind (samePlain_logPeer (by decide) peer) fun _ => ?_
    exact .bind (samePlain_sendSummary _ _) fun _ => .pure _
  · exact .bind (samePlain_logPeer (by decide) peer) fun _ => .pure _

theorem samePlain_handleTcpJson (clientFd : Nat) (request : Json) :
    Within SamePlain (handleTcpJson context clientFd request) := by
  unfold handleTcpJson
  split
  · exact .pure _
  · rw [stringOperand_bind]
    split
    · exact .throw _
    · exact .ite (fun _ => samePlain_authenticateTcpClient peer _ _)
        fun _ => samePlain_answerTcpRequest peer _ _ _

theorem samePlain_answerUdpRequest (clientAddr : SockaddrStorage)
    (message hostname request : Json) :
    Within SamePlain
      (answerUdpRequest context clientAddr message hostname request) := by
  rw [answerUdpRequest, stringOperand_bind]
  split
  · exact .throw _
  · refine .ite (fun _ => ?_) fun _ => .ite (fun _ => ?_) fun _ =>
      .ite (fun _ => ?_) fun _ => .pure _
    · rw [stringOperand_bind]
      split
      · exact .throw _
      · refine .ite (fun _ => ?_) fun _ => ?_
        · refine .bind (samePlain_updateSupplies _ _) fun _ => ?_
          exact .bind (samePlain_logPeer (by decide) peer) fun _ => .pure _
        · exact .bind (samePlain_logPeer (by decide) peer) fun _ => .pure _
    · refine .bind (samePlain_logPeer (by decide) peer) fun _ => ?_
      exact .bind (samePlain_sendStatus _ _) fun _ => .pure _
    · refine .bind (samePlain_logPeer (by decide) peer) fun _ => ?_
      exact .bind (samePlain_sendSummary _ _) fun _ => .pure _

theorem samePlain_handleUdpJson (sockfd : Nat) (datagram : Datagram)
    (request : Json) :
    Within SamePlain (handleUdpJson context sockfd datagram request) := by
  refine .bind (samePlain_recordUdpClient _) fun _ => ?_
  split
  · exact .pure _
  · split
    · exact .pure _
    · exact samePlain_answerUdpRequest peer _ _ _ _

theorem samePlain_acceptTcpConnection (family : PeerFamily) (clientFd : Nat) :
    Within SamePlain (acceptTcpConnection context family clientFd) := by
  have label : 10 ∉ family.connectedText := by cases family <;> decide
  refine .bind (.modify (samePlain_act_of_none rfl)) fun _ => ?_
  refine .bind (samePlain_logPeer label peer) fun _ => ?_
  exact .bind (samePlain_recordTcpClient clientFd)
    fun _ => .modify fun _ => Iff.rfl

theorem samePlain_keepOrClose (clientFd : Nat) (served : Bool) :
    Within SamePlain (keepOrClose context clientFd served) :=
  .ite (fun _ => .pure _) fun _ =>
    .bind (samePlain_logPeer (by decide) peer)
      fun _ => samePlain_closeTcpClient clientFd

variable (parse : Bytes → Option Json)

theorem samePlain_handleTcpSocketActivity (clientFd : Nat) (peername : Bool)
    (received : Received) :
    Within SamePlain
      (handleTcpSocketActivity parse context clientFd peername received) := by
  refine .ite (fun _ => ?_) fun _ => samePlain_closeTcpClient clientFd
  refine .bind ?_ fun served => samePlain_keepOrClose peer clientFd served
  rw [checkTcpClientsMessages, receiveTcpJson_eq]
  split
  · rw [pure_bind]
    split
    · exact .pure _
    · exact samePlain_handleTcpJson peer clientFd _
  · exact .throw _

theorem samePlain_handleUdpSocketActivity (sockfd : Nat)
    (datagram : Datagram) :
    Within SamePlain
      (handleUdpSocketActivity parse context sockfd datagram) := by
  refine .bind ?_ fun _ => .pure _
  rw [checkUdpClientsMessages, receiveUdpJson_eq, pure_bind]
  split
  · exact .pure _
  · exact samePlain_handleUdpJson peer sockfd datagram _

end Handlers

/-! ## Events -/

/-- A block from the Unix socket leaves room for its terminator. -/
def Event.FitsUnixBuffer : Event → Prop
  | .unixActivity _ true (.bytes data) => data.length < bufferSize
  | _ => True

def Process.FitsUnixBuffer (process : Process) (event : Event) : Prop :=
  process.fault = none → event.FitsUnixBuffer

/-- A running process reads no block from the Unix socket that fills its
buffer, and no text that is logged as it was received and holds a newline. -/
def Process.LogsPlainly (process : Process) (event : Event) : Prop :=
  process.fault = none →
    event.FitsUnixBuffer ∧ ∀ text ∈ event.emergency, 10 ∉ text

theorem plainLog_announceAlert (timestamp message : Bytes) (server : Server) :
    (exec (announceAlert timestamp message) server).2.PlainLog ↔
      server.PlainLog ∧ 10 ∉ message := by
  have quiet : (alertActions server message).filterMap Action.logMessage =
      [message, ascii "Sent alert notification to all connected clients"] := by
    simp [alertActions, List.filterMap_append, List.filterMap_map,
      Function.comp_def, Action.logMessage]
  have sent : 10 ∉
      ascii "Sent alert notification to all connected clients" := by decide
  rw [Server.PlainLog, trace_announceAlert, List.filterMap_append,
    List.forall_mem_append, quiet, List.forall_mem_cons,
    List.forall_mem_singleton, and_iff_left sent]
  rfl

theorem plainLog_handleUnixConnection {data : Bytes} (nonempty : data ≠ [])
    (room : data.length < bufferSize) (context : RequestContext)
    (server : Server) :
    (exec (handleUnixConnection context true (.bytes data)) server).2.PlainLog ↔
      server.PlainLog ∧ 10 ∉ untilNul data := by
  rw [exec_handleUnixConnection_of_lt nonempty room, plainLog_act]
  simp [List.filterMap_append, List.filterMap_map, Function.comp_def,
    Action.logMessage]

section Events

variable (parse : Bytes → Option Json)

/-- Handling an event keeps the log plain exactly if the text that is logged
as it was received, if any, is plain. -/
theorem plainLog_handleEvent {event : Event} (fits : event.FitsUnixBuffer)
    (peer : 10 ∉ event.context.clientIp) (server : Server) :
    (exec (handleEvent parse event) server).2.PlainLog ↔
      server.PlainLog ∧ ∀ text ∈ event.emergency, 10 ∉ text := by
  have own : ∀ {next : Server}, SamePlain server next →
      event.emergency = none →
      (next.PlainLog ↔
        server.PlainLog ∧ ∀ text ∈ event.emergency, 10 ∉ text) := by
    intro next same nothing
    exact same.trans (and_iff_left (by simp [nothing])).symm
  match event with
  | .tcpConnection _ _ none => exact own (refl_of SamePlain server) rfl
  | .tcpConnection context family (some clientFd) =>
      refine own ?_ rfl
      rw [handleEvent, exec_bind_of_ok (exec_get server)]
      exact Within.ite (fun _ => .pure _)
        (fun _ => samePlain_acceptTcpConnection peer family clientFd) server
  | .tcpActivity context clientFd peername received =>
      refine own ?_ rfl
      rw [handleEvent, exec_bind_of_ok (exec_get server)]
      exact Within.ite
        (fun _ => samePlain_handleTcpSocketActivity peer parse _ _ _)
        (fun _ => .pure _) server
  | .udpActivity context sockfd datagram =>
      exact own (samePlain_handleUdpSocketActivity peer parse _ _ server) rfl
  | .unixActivity context true (.bytes (byte :: data)) =>
      rw [handleEvent, plainLog_handleUnixConnection (by simp) fits]
      simp only [Event.emergency, Option.mem_some_iff, forall_eq']
  | .unixActivity context true (.bytes []) =>
      exact own (refl_of SamePlain server) rfl
  | .unixActivity context true .failed =>
      exact own (refl_of SamePlain server) rfl
  | .unixActivity context false received =>
      exact own (refl_of SamePlain server) rfl
  | .fifoActivity context true (.bytes (byte :: data)) =>
      obtain ⟨buffer, stored⟩ :
          ∃ buffer, checkAlertsBuffer (byte :: data) = some buffer :=
        ⟨_, rfl⟩
      have logged : Event.emergency
          (.fifoActivity context true (.bytes (byte :: data))) =
          some (buffer.text context.behindStack) := by
        simp [Event.emergency, stored]
      simp only [handleEvent, checkAlerts, if_true, stored, logged,
        plainLog_announceAlert, Option.mem_some_iff, forall_eq']
  | .fifoActivity context true (.bytes []) =>
      exact own (refl_of SamePlain server) rfl
  | .fifoActivity context true .failed =>
      exact own (refl_of SamePlain server) rfl
  | .fifoActivity context false received =>
      exact own (refl_of SamePlain server) rfl

theorem plainLog_step {process : Process} {event : Event}
    (peer : 10 ∉ event.context.clientIp) :
    process.FitsUnixBuffer event ∧ (process.step parse event).server.PlainLog ↔
      process.server.PlainLog ∧ process.LogsPlainly event := by
  obtain ⟨server, fault⟩ := process
  cases fault with
  | none =>
      simp only [Process.FitsUnixBuffer, Process.LogsPlainly, true_imp_iff]
      rw [and_left_comm]
      refine and_congr_right fun fits => ?_
      rw [Process.step, Process.server_after,
        plainLog_handleEvent parse fits peer]
  | some fault =>
      simp [Process.FitsUnixBuffer, Process.LogsPlainly, Process.step]

theorem plainLog_serverRun {supplies : Supplies} {events : List Event}
    (peers : ∀ event ∈ events, 10 ∉ event.context.clientIp) :
    GuardedRun (Process.step parse) Process.FitsUnixBuffer
          (.running (.initial supplies)) events ∧
        (serverRun parse supplies events).server.PlainLog ↔
      GuardedRun (Process.step parse) Process.LogsPlainly
        (.running (.initial supplies)) events := by
  induction events using List.reverseRecOn with
  | nil =>
      refine iff_of_true ⟨trivial, ?_⟩ trivial
      simp [serverRun, Process.running, Server.initial, Server.PlainLog]
  | append_singleton events event induction =>
      rw [List.forall_mem_append, List.forall_mem_singleton] at peers
      rw [guardedRun_concat, guardedRun_concat, ← induction peers.1,
        and_assoc, and_assoc, serverRun_concat]
      exact and_congr_right fun _ => plainLog_step parse peers.2

/-- The log file of a run has one line for each call of `log_event`, and no
block from the Unix socket fills its buffer, if and only if the server reads no
such block and no text that is logged as it was received holds a newline. -/
theorem logIntact_serverRun_iff (supplies : Supplies)
    (clock : Nat → LocalTime) (turnedOff : Bool) {events : List Event}
    (peers : ∀ event ∈ events, IsPeerText event.context.clientIp) :
    GuardedRun (Process.step parse) Process.FitsUnixBuffer
          (.running (.initial supplies)) events ∧
        LogIntact
          ((serverRun parse supplies events).logCalls turnedOff clock) ↔
      GuardedRun (Process.step parse) Process.LogsPlainly
        (.running (.initial supplies)) events := by
  rw [logIntact_logCalls_iff, plainLog_serverRun parse
    fun event member => (peers event member).newline_notMem]

end Events

/-- A text from the FIFO, while the last client was at `::1`. -/
def fifoText (data : Bytes) : Event :=
  .fifoActivity { RequestContext.attached with clientIp := ascii "::1" } true
    (.bytes data)

theorem isPeerText_fifoText (data : Bytes) :
    ∀ event ∈ [fifoText data], IsPeerText event.context.clientIp := by
  have text : ascii "::1" = [58, 58, 49] := by decide
  rw [List.forall_mem_singleton]
  refine Or.inr ?_
  simp only [fifoText, Event.context, text, List.forall_mem_cons]
  exact ⟨by decide, by decide, by decide, by simp⟩

/-- A failure message and then an alert. -/
def failureAndAlert : List Event :=
  [.unixActivity .attached true (.bytes (ascii "No electricity")),
    fifoText (ascii "NORTH ENTRY, ALERT, 38.5C ")]

theorem logIntact_serverRun_iff_of_alert :
    GuardedRun (Process.step fun _ => none) Process.FitsUnixBuffer
          (.running (.initial .zero)) failureAndAlert ∧
        LogIntact ((serverRun (fun _ => none) .zero failureAndAlert).logCalls
          true fun _ => ⟨124, 0, 1, 0, 0, 0⟩) ↔
      GuardedRun (Process.step fun _ => none) Process.LogsPlainly
        (.running (.initial .zero)) failureAndAlert := by
  refine logIntact_serverRun_iff _ _ _ _ (List.forall_mem_cons.mpr ⟨?_, ?_⟩)
  · exact Or.inr fun _ member => nomatch member
  · exact isPeerText_fifoText _

/-- A text from the FIFO with a line of its own forges an event. -/
theorem not_logIntact_serverRun :
    ¬ ∀ (parse : Bytes → Option Json) (supplies : Supplies)
      (clock : Nat → LocalTime) (turnedOff : Bool) (events : List Event),
      (∀ event ∈ events, IsPeerText event.context.clientIp) →
      LogIntact
        ((serverRun parse supplies events).logCalls turnedOff clock) := by
  intro intact
  have peers := isPeerText_fifoText
    (ascii "x\n[2024-01-01 00:00:00] Server turned off")
  have plain := (logIntact_logCalls_iff _ _ _).mp (intact (fun _ => none) .zero
    (fun _ => ⟨124, 0, 1, 0, 0, 0⟩) false _ peers)
  have guarded := (plainLog_serverRun _ fun event member =>
    (peers event member).newline_notMem).mp ⟨⟨fun _ => trivial, trivial⟩, plain⟩
  exact (guarded.1 rfl).2 _ rfl (by decide)

end ShelterServer
