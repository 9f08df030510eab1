import ShelterServer.AlertDelivery
import ShelterServer.Effects

/-!
# The emergency record

`emergency_info` is written by `check_alerts` and by the status and update
branches of the TCP handler.  Both fields are filled with `strncpy` and the
full size of the field, so the record of a run holds proper strings exactly
when every event that was recorded leaves room for its terminator.
-/

namespace ShelterServer

open Foundations Faulting

/-! ## What is recorded -/

/-- The event that the TCP handler records for a request. -/
def Json.recordedEvent (request : Json) (context : RequestContext) :
    Option Bytes :=
  if request.Requests (ascii "status") then
    some (snprintf256 (ascii "Status request from TCP client " ++
      context.clientIp))
  else if request.Requests (ascii "update") then
    some (snprintf256 (ascii "Update request from TCP client " ++
      context.clientIp))
  else none

section Events

variable (parse : Bytes → Option Json)

/-- The event that is recorded while the server handles an event of the
loop. -/
def Server.recordedEvent (server : Server) : Event → Option Bytes
  | .tcpActivity context clientFd true received =>
      if clientFd ∈ server.connected then
        match tcpRequest parse received with
        | .ok (some request) => request.recordedEvent context
        | _ => none
      else none
  | .fifoActivity context true (.bytes (byte :: data)) =>
      (checkAlertsBuffer (byte :: data)).map fun buffer =>
        buffer.text context.behindStack
  | _ => none

theorem Server.recordedEvent_fifoActivity {data : Bytes}
    (nonempty : data ≠ []) (room : data.length < bufferSize)
    (server : Server) (context : RequestContext) :
    server.recordedEvent parse (.fifoActivity context true (.bytes data)) =
      some (untilNul data) := by
  obtain ⟨byte, rest, rfl⟩ := List.exists_cons_of_ne_nil nonempty
  obtain ⟨buffer, stored, _, text⟩ :=
    (receiveIntoZeroed_delivers_iff le_rfl room.le).mpr (.inl room)
  rw [Server.recordedEvent, checkAlertsBuffer, stored, Option.map_some, text]

/-- The record after an event of the loop. -/
def EmergencyInfo.recording (info : EmergencyInfo) (timestamp : Bytes) :
    Option Bytes → EmergencyInfo
  | none => info
  | some event => updateEmergencyInfo timestamp event

end Events

/-! ## Handlers and the record -/

def KeepsEmergency (before after : Server) : Prop :=
  after.emergencyInfo = before.emergencyInfo

instance : Std.Refl KeepsEmergency := ⟨fun _ => rfl⟩

instance : IsTrans Server KeepsEmergency :=
  ⟨fun _ _ _ first second => second.trans first⟩

theorem keepsEmergency_sendStatus (peer : Peer) (access : SegmentAccess) :
    Within KeepsEmergency (sendStatus (sendJson peer) access) := by
  intro server
  rw [exec_sendStatus]
  split <;> rfl

theorem keepsEmergency_sendSummary (peer : Peer) (context : RequestContext) :
    Within KeepsEmergency (sendSummary (sendJson peer) context) := by
  intro server
  rw [exec_sendSummary]
  split <;> rfl

theorem keepsEmergency_updateSupplies (access : SegmentAccess)
    (request : Json) :
    Within KeepsEmergency (updateSupplies access request) := by
  intro server
  rw [updateSupplies, exec_bind_of_ok (exec_modify _ _),
    exec_bind_of_ok (exec_get _)]
  split <;> rfl

theorem keepsEmergency_closeTcpClient (clientFd : Nat) :
    Within KeepsEmergency (closeTcpClient clientFd) :=
  fun _ => rfl

theorem keepsEmergency_keepOrClose (context : RequestContext) (clientFd : Nat)
    (served : Bool) :
    Within KeepsEmergency (keepOrClose context clientFd served) :=
  .ite (fun _ => .pure _) fun _ =>
    .bind (.modify fun _ => rfl) fun _ => keepsEmergency_closeTcpClient clientFd

theorem keepsEmergency_authenticateTcpClient (context : RequestContext)
    (clientFd : Nat) (request : Json) :
    Within KeepsEmergency
      (authenticateTcpClient context clientFd request) := by
  unfold authenticateTcpClient
  split
  · exact .pure _
  · rw [stringOperand_bind]
    split
    · exact .throw _
    · refine .ite (fun _ => ?_) fun _ => ?_
      · exact .bind (.modify fun _ => rfl) fun _ =>
          .bind (.modify fun _ => rfl) fun _ => .pure _
      · exact .bind (.modify fun _ => rfl) fun _ =>
          .bind (.modify fun _ => rfl) fun _ => .pure _

theorem udpRespected_keepsEmergency : UdpRespected KeepsEmergency where
  refl _ := rfl
  trans first second := second.trans first
  logEvent _ := .modify fun _ => rfl
  status _ := keepsEmergency_sendStatus _
  summary _ := keepsEmergency_sendSummary _

theorem keepsEmergency_handleUdpJson (context : RequestContext)
    (sockfd : Nat) (datagram : Datagram) (request : Json) :
    Within KeepsEmergency (handleUdpJson context sockfd datagram request) :=
  udpRespected_keepsEmergency.handleUdpJson context sockfd datagram
    (.modify fun _ => rfl) fun _ _ => keepsEmergency_updateSupplies _ _

/-- Nothing behind a first step touches the record. -/
theorem emergencyInfo_bind {α β : Type} {action : Handler α}
    {next : α → Handler β} (rest : ∀ value, Within KeepsEmergency (next value))
    (server : Server) :
    (exec (action >>= next) server).2.emergencyInfo =
      (exec action server).2.emergencyInfo := by
  rw [exec_bind]
  rcases exec action server with ⟨result, state⟩
  cases result with
  | error fault => rfl
  | ok value => exact rest value state

theorem emergencyInfo_recordEmergency_bind {α : Type}
    {timestamp event : Bytes} {next : PUnit → Handler α}
    (rest : ∀ value, Within KeepsEmergency (next value)) (server : Server) :
    (exec (recordEmergency timestamp event >>= next)
        server).2.emergencyInfo =
      updateEmergencyInfo timestamp event :=
  emergencyInfo_bind rest server

theorem emergencyInfo_answerTcpRequest (context : RequestContext)
    (clientFd : Nat) (value : Bytes) (request : Json) (server : Server) :
    (exec (answerTcpRequest context clientFd value request)
        server).2.emergencyInfo =
      server.emergencyInfo.recording context.timestamp
        (if value = ascii "status" then
          some (snprintf256 (ascii "Status request from TCP client " ++
            context.clientIp))
        else if value = ascii "update" then
          some (snprintf256 (ascii "Update request from TCP client " ++
            context.clientIp))
        else none) := by
  unfold answerTcpRequest
  split
  · refine emergencyInfo_recordEmergency_bind (fun _ => ?_) server
    refine .bind (.modify fun _ => rfl) fun _ => ?_
    exact .bind (keepsEmergency_sendStatus _ _) fun _ => .pure _
  · split
    · refine emergencyInfo_recordEmergency_bind (fun _ => ?_) server
      refine .bind (.modify fun _ => rfl) fun _ => ?_
      refine .ite (fun _ => ?_) fun _ => .pure _
      exact .bind (keepsEmergency_updateSupplies _ _) fun _ => .pure _
    · split
      · have keeps : Within KeepsEmergency
            (sendSummary (sendJsonToTcpClient clientFd) context >>=
              fun _ => (pure true : Handler Bool)) :=
          .bind (keepsEmergency_sendSummary _ _) fun _ => .pure _
        rw [emergencyInfo_bind fun _ => keeps]
        rfl
      · rw [emergencyInfo_bind fun _ => .pure _]
        rfl

theorem Json.recordedEvent_of_not_string {request : Json}
    (none : (request.getObjectItem (ascii "message")).bind Json.valuestring =
      none) (context : RequestContext) :
    request.recordedEvent context = .none := by
  have requests : ∀ value, ¬ request.Requests value := by
    intro value requests
    rw [Json.Requests, none] at requests
    cases requests
  rw [Json.recordedEvent, if_neg (requests _), if_neg (requests _)]

theorem Json.recordedEvent_of_requests {request : Json} {value : Bytes}
    (requests : request.Requests value) (context : RequestContext) :
    request.recordedEvent context =
      if value = ascii "status" then
        some (snprintf256 (ascii "Status request from TCP client " ++
          context.clientIp))
      else if value = ascii "update" then
        some (snprintf256 (ascii "Update request from TCP client " ++
          context.clientIp))
      else none := by
  have same : ∀ other, request.Requests other ↔ value = other := by
    intro other
    rw [Json.Requests, show _ = some value from requests, Option.some.injEq]
  simp only [Json.recordedEvent, same]

theorem emergencyInfo_handleTcpJson (context : RequestContext)
    (clientFd : Nat) (request : Json) (server : Server) :
    (exec (handleTcpJson context clientFd request) server).2.emergencyInfo =
      server.emergencyInfo.recording context.timestamp
        (request.recordedEvent context) := by
  unfold handleTcpJson
  cases found : request.getObjectItem (ascii "message") with
  | none =>
      rw [Json.recordedEvent_of_not_string (by rw [found]; rfl)]
      rfl
  | some message =>
      simp only [stringOperand_bind]
      cases operand : message.valuestring with
      | none =>
          have none : (request.getObjectItem (ascii "message")).bind
              Json.valuestring = none := by
            rw [found]
            exact operand
          rw [Json.recordedEvent_of_not_string none]
          rfl
      | some value =>
          rw [Json.recordedEvent_of_requests
            (Json.requests_of_found found operand)]
          by_cases authenticates : value = ascii "authenticateme"
          · subst authenticates
            exact keepsEmergency_authenticateTcpClient context clientFd
              request server
          · simp only [if_neg authenticates]
            exact emergencyInfo_answerTcpRequest context clientFd value
              request server

section Loop

variable (parse : Bytes → Option Json)

theorem emergencyInfo_handleTcpSocketActivity (context : RequestContext)
    (clientFd : Nat) (received : Received) (server : Server) :
    (exec (handleTcpSocketActivity parse context clientFd true received)
        server).2.emergencyInfo =
      server.emergencyInfo.recording context.timestamp
        (match tcpRequest parse received with
          | .ok (some request) => request.recordedEvent context
          | _ => none) := by
  rw [handleTcpSocketActivity, if_pos rfl,
    emergencyInfo_bind fun served =>
      keepsEmergency_keepOrClose context clientFd served,
    checkTcpClientsMessages, receiveTcpJson_eq]
  cases tcpRequest parse received with
  | error fault => rfl
  | ok request =>
      cases request with
      | none => rfl
      | some request =>
          exact emergencyInfo_handleTcpJson context clientFd request server

theorem emergencyInfo_announceAlert (timestamp message : Bytes)
    (server : Server) :
    (exec (announceAlert timestamp message) server).2.emergencyInfo =
      updateEmergencyInfo timestamp message := by
  have logged : exec (logEvent message) server =
      (.ok ⟨⟩, server.act [.logEvent message]) := rfl
  rw [announceAlert, exec_bind_of_ok logged]
  refine emergencyInfo_recordEmergency_bind (fun _ => ?_) _
  refine .bind (.modify fun _ => rfl) fun _ => ?_
  refine .bind (.modify fun _ => rfl) fun _ => ?_
  refine .bind (.modify fun _ => rfl) fun _ => ?_
  split
  · exact .pure _
  · exact .modify fun _ => rfl

/-- An event of the loop writes the record if and only if it records an
event. -/
theorem emergencyInfo_handleEvent (server : Server) (event : Event) :
    (exec (handleEvent parse event) server).2.emergencyInfo =
      server.emergencyInfo.recording event.context.timestamp
        (server.recordedEvent parse event) := by
  cases event with
  | tcpConnection context family accepted =>
      cases accepted with
      | none => rfl
      | some clientFd =>
          rw [handleEvent, exec_bind_of_ok (exec_get server)]
          split <;> rfl
  | tcpActivity context clientFd peername received =>
      rw [handleEvent, exec_bind_of_ok (exec_get server)]
      by_cases connected : clientFd ∈ server.connected
      · rw [if_pos connected]
        cases peername with
        | false => rfl
        | true =>
            rw [emergencyInfo_handleTcpSocketActivity]
            simp only [Server.recordedEvent, if_pos connected]
            rfl
      · rw [if_neg connected]
        cases peername with
        | false => rfl
        | true =>
            simp only [Server.recordedEvent, if_neg connected]
            rfl
  | udpActivity context sockfd datagram =>
      exact udpRespected_keepsEmergency.handleUdpSocketActivity parse context
        sockfd (.modify fun _ => rfl)
        (fun _ _ _ _ => keepsEmergency_updateSupplies _ _) server
  | unixActivity context accepted received =>
      have keeps : Within KeepsEmergency
          (handleUnixConnection context accepted received) := by
        refine .ite (fun _ => ?_) fun _ => .pure _
        split
        · exact .pure _
        · exact .pure _
        · split
          · exact .throw _
          · exact .bind (.modify fun _ => rfl) fun _ => .modify fun _ => rfl
      exact keeps server
  | fifoActivity context opened received =>
      cases opened with
      | false => rfl
      | true =>
          match received with
          | .failed => rfl
          | .bytes [] => rfl
          | .bytes (byte :: data) =>
              simp only [handleEvent, checkAlerts, if_true,
                Server.recordedEvent]
              cases checkAlertsBuffer (byte :: data) with
              | none => rfl
              | some buffer =>
                  exact emergencyInfo_announceAlert _ _ server

/-! ## Runs -/

def Process.recordedEvent (process : Process) (event : Event) : Option Bytes :=
  match process.fault with
  | none => process.server.recordedEvent parse event
  | some _ => none

/-- The events that a run records, oldest first. -/
def recordedEvents (supplies : Supplies) (events : List Event) : List Bytes :=
  observe (Process.step parse)
    (fun process event => (process.recordedEvent parse event).toList)
    (.running (.initial supplies)) events

theorem recordedEvents_concat (supplies : Supplies) (events : List Event)
    (event : Event) :
    recordedEvents parse supplies (events ++ [event]) =
      recordedEvents parse supplies events ++
        ((serverRun parse supplies events).recordedEvent parse event).toList :=
  observe_concat _ _ _ _ _

theorem emergencyInfo_step (process : Process) (event : Event) :
    (process.step parse event).server.emergencyInfo =
      process.server.emergencyInfo.recording event.context.timestamp
        (process.recordedEvent parse event) := by
  rcases process with ⟨server, fault⟩
  cases fault with
  | some fault => rfl
  | none =>
      simp only [Process.step, Process.recordedEvent, Process.server_after]
      exact emergencyInfo_handleEvent parse server event

/-- A run that records nothing keeps the record. -/
theorem emergencyInfo_run_of_silent {process : Process} {events : List Event}
    (silent : observe (Process.step parse)
      (fun process event => (process.recordedEvent parse event).toList)
      process events = []) :
    (run (Process.step parse) process events).server.emergencyInfo =
      process.server.emergencyInfo := by
  induction events generalizing process with
  | nil => rfl
  | cons event events induction =>
      obtain ⟨now, later⟩ := List.append_eq_nil_iff.mp silent
      rw [run_cons, induction later, emergencyInfo_step,
        Option.toList_eq_nil_iff.mp now]
      rfl

/-- The record after a sequence of recorded events. -/
def EmergencyInfo.Holds (info : EmergencyInfo) (recorded : List Bytes) : Prop :=
  (recorded = [] ∧ info = ⟨.zeroed 30, .zeroed 100⟩) ∨
    ∃ earlier timestamp event, recorded = earlier ++ [event] ∧
      timestamp.length < 20 ∧ info = updateEmergencyInfo timestamp event

theorem holds_recordedEvents {supplies : Supplies} {events : List Event}
    (timestamps : ∀ event ∈ events, event.context.timestamp.length < 20) :
    (serverRun parse supplies events).server.emergencyInfo.Holds
      (recordedEvents parse supplies events) := by
  induction events using List.reverseRecOn with
  | nil => exact .inl ⟨rfl, rfl⟩
  | append_singleton events event induction =>
      have earlier := induction fun event member =>
        timestamps event (List.mem_append_left _ member)
      have timestamp := timestamps event (by simp)
      rw [recordedEvents_concat, serverRun_concat, emergencyInfo_step]
      cases (serverRun parse supplies events).recordedEvent parse event with
      | none =>
          rw [Option.toList_none, List.append_nil]
          exact earlier
      | some text => exact .inr ⟨_, _, text, rfl, timestamp, rfl⟩

/-- Both fields are proper strings, and the summary reports as much of the
latest event as fits its field with a terminator. -/
structure EmergencyInfo.Proper (info : EmergencyInfo) (recorded : List Bytes) :
    Prop where
  lastKeepalived : info.lastKeepalived.Terminated
  lastEvent : info.lastEvent.Terminated
  text : ∀ beyond,
    getLastEvent info beyond = (untilNul (recorded.getLastD [])).take 99

theorem EmergencyInfo.Holds.proper_iff {info : EmergencyInfo}
    {recorded : List Bytes} (holds : info.Holds recorded) :
    info.Proper recorded ↔
      ∀ event ∈ recorded.getLast?, (untilNul event).length < 100 := by
  rcases holds with ⟨rfl, rfl⟩ | ⟨earlier, timestamp, event, rfl, short, rfl⟩
  · refine iff_of_true ⟨Buffer.terminated_zeroed _, Buffer.terminated_zeroed _,
      fun beyond => ?_⟩ (by simp)
    rw [getLastEvent, Buffer.text_of_terminated (Buffer.terminated_zeroed _)]
    rfl
  · simp only [List.getLast?_append, List.getLast?_singleton, Option.some_or,
      Option.mem_def, Option.some.injEq, forall_eq']
    constructor
    · intro proper
      exact Buffer.terminated_strncpy_iff.mp proper.lastEvent
    · intro room
      refine ⟨Buffer.terminated_strncpy_iff.mpr ?_,
        Buffer.terminated_strncpy_iff.mpr room, fun beyond => ?_⟩
      · have stamp := length_untilNul_le timestamp
        omega
      · rw [getLastEvent, updateEmergencyInfo, Buffer.text_strncpy room,
          List.take_of_length_le]
        · simp
        · simp
          omega

/-- In every state of a run the record is proper if and only if every event
that the run records is shorter than the field. -/
theorem serverRun_emergencyInfo_proper_iff {supplies : Supplies}
    {events : List Event}
    (timestamps : ∀ event ∈ events, event.context.timestamp.length < 20) :
    (∀ front, front <+: events →
        (serverRun parse supplies front).server.emergencyInfo.Proper
          (recordedEvents parse supplies front)) ↔
      ∀ event ∈ recordedEvents parse supplies events,
        (untilNul event).length < 100 := by
  have proper : ∀ front, front <+: events →
      ((serverRun parse supplies front).server.emergencyInfo.Proper
          (recordedEvents parse supplies front) ↔
        ∀ event ∈ (recordedEvents parse supplies front).getLast?,
          (untilNul event).length < 100) := fun front initial =>
    (holds_recordedEvents parse fun event member =>
      timestamps event (initial.subset member)).proper_iff
  clear timestamps
  constructor
  · intro always
    replace always : ∀ front, front <+: events →
        ∀ event ∈ (recordedEvents parse supplies front).getLast?,
          (untilNul event).length < 100 :=
      fun front initial => (proper front initial).mp (always front initial)
    clear proper
    induction events using List.reverseRecOn with
    | nil => exact fun event member => nomatch member
    | append_singleton events event induction =>
        have earlier := induction fun front initial =>
          always front (initial.trans (List.prefix_append _ _))
        have last := always _ List.prefix_rfl
        rw [recordedEvents_concat] at last ⊢
        cases recorded :
            (serverRun parse supplies events).recordedEvent parse event with
        | none =>
            rw [Option.toList_none, List.append_nil]
            exact earlier
        | some text =>
            rw [recorded, Option.toList_some] at last
            rw [Option.toList_some]
            intro other member
            rcases List.mem_append.mp member with before | now
            · exact earlier other before
            · obtain rfl := List.mem_singleton.mp now
              exact last other (by simp)
  · intro short front initial
    refine (proper front initial).mpr fun event latest => ?_
    obtain ⟨back, rfl⟩ := initial
    apply short event
    rw [recordedEvents, observe_append]
    exact List.mem_append_left _ (List.mem_of_mem_getLast? latest)

end Loop

/-- One alert fits the record. -/
theorem serverRun_emergencyInfo_proper_of_one_alert :
    (∀ front, front <+: [Event.fifoActivity .attached true
          (.bytes (alertMessage (feverAlert .north)))] →
        (serverRun (fun _ => none) .zero front).server.emergencyInfo.Proper
          (recordedEvents (fun _ => none) .zero front)) ↔
      ∀ event ∈ recordedEvents (fun _ => none) .zero
          [.fifoActivity .attached true
            (.bytes (alertMessage (feverAlert .north)))],
        (untilNul event).length < 100 :=
  serverRun_emergencyInfo_proper_iff _ (by simp [Event.context,
    RequestContext.attached])

/-- Four alerts that were read at once. -/
def mergedAlerts : Bytes :=
  (List.replicate 4 (feverAlert .north)).flatMap alertMessage

/-- Four merged alerts fill the field without a terminator. -/
theorem not_serverRun_emergencyInfo_proper :
    ¬ ∀ (parse : Bytes → Option Json) (supplies : Supplies)
      (events : List Event),
      (∀ event ∈ events, event.context.timestamp.length < 20) →
      (∀ event ∈ recordedEvents parse supplies events,
        event.length < bufferSize) →
      (serverRun parse supplies events).server.emergencyInfo.Proper
        (recordedEvents parse supplies events) := by
  intro always
  let parse : Bytes → Option Json := fun _ => none
  let event : Event := .fifoActivity .attached true (.bytes mergedAlerts)
  have length : mergedAlerts.length = 112 := by decide +kernel
  have noNul : untilNul mergedAlerts = mergedAlerts :=
    untilNul_of_notMem (by decide +kernel)
  have recorded : recordedEvents parse .zero [event] = [mergedAlerts] := by
    have nonempty : mergedAlerts ≠ [] := by decide +kernel
    have one := Server.recordedEvent_fifoActivity parse nonempty
      (by rw [length]; decide) (.initial .zero) .attached
    rw [noNul] at one
    simp [recordedEvents, observe, Process.recordedEvent, Process.running,
      event, one]
  have timestamps : ∀ other ∈ [event], other.context.timestamp.length < 20 := by
    simp [event, Event.context, RequestContext.attached]
  have proper := always parse .zero [event] timestamps
    (by simp [recorded, length, bufferSize])
  have short := (holds_recordedEvents parse timestamps).proper_iff.mp proper
    mergedAlerts (by rw [recorded]; rfl)
  rw [noNul, length] at short
  revert short
  decide

end ShelterServer
