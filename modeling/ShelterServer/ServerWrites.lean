import ShelterServer.EmergencyNotices

/-!
# What the server writes to its TCP clients

The descriptors to which the handling of one event writes: an alert and a
failure go to all listed clients, and a request is answered on the connection
it came from.
-/

namespace ShelterServer

open Foundations Faulting

/-- The descriptor that an action writes to. -/
def Action.tcpPeer : Action → Option Nat
  | .sendTcp clientFd _ => some clientFd
  | .reply (.tcp clientFd) _ => some clientFd
  | _ => none

/-- A request is answered. -/
def Json.Answered (request : Json) (context : RequestContext) : Prop :=
  (request.Requests (ascii "authenticateme") ∧
      ((request.getObjectItem (ascii "hostname")).bind
        Json.valuestring).isSome = true) ∨
    (request.Requests (ascii "status") ∧ context.access.Granted) ∨
    (request.Requests (ascii "summary") ∧ context.summaryAccess.Granted)

/-- A running process that handles an event, in a block of whatever size, writes
to a descriptor: an alert and a failure go to all listed clients, and a request
is answered. -/
def Process.Writes (parse : Bytes → Option Json) (process : Process)
    (event : Event) (clientFd : Nat) : Prop :=
  process.fault = none ∧
    match event with
    | .fifoActivity _ true (.bytes (_ :: _)) =>
        clientFd ∈ process.server.tcpClients.live
    | .unixActivity _ true (.bytes (_ :: _)) =>
        clientFd ∈ process.server.tcpClients.live
    | .tcpActivity context sender true received =>
        clientFd = sender ∧ sender ∈ process.server.connected ∧
          ∃ request, carriedRequest parse received = some request ∧
            request.Answered context
    | _ => False

/-- The trace grows by actions that accept nothing and write to the given
descriptors. -/
def Wrote (writes : Nat → Prop) (before after : Server) : Prop :=
  ∃ actions, after.trace = before.trace ++ actions ∧
    (∀ clientFd, clientFd ∈ actions.filterMap Action.tcpPeer ↔
      writes clientFd) ∧
    ∀ clientFd, Action.accepted clientFd ∉ actions

theorem Wrote.trans {early late : Nat → Prop} {before middle after : Server}
    (first : Wrote early before middle) (second : Wrote late middle after) :
    Wrote (fun clientFd => early clientFd ∨ late clientFd) before after := by
  obtain ⟨front, firstTrace, firstWrites, firstAccepts⟩ := first
  obtain ⟨back, secondTrace, secondWrites, secondAccepts⟩ := second
  refine ⟨front ++ back, by rw [secondTrace, firstTrace, List.append_assoc],
    fun clientFd => ?_, fun clientFd member => ?_⟩
  · rw [List.filterMap_append, List.mem_append, firstWrites, secondWrites]
  · rcases List.mem_append.mp member with inFront | inBack
    · exact firstAccepts clientFd inFront
    · exact secondAccepts clientFd inBack

theorem Wrote.congr {writes others : Nat → Prop} {before after : Server}
    (wrote : Wrote writes before after)
    (same : ∀ clientFd, writes clientFd ↔ others clientFd) :
    Wrote others before after := by
  obtain ⟨actions, trace, written, accepts⟩ := wrote
  exact ⟨actions, trace, fun clientFd =>
    (written clientFd).trans (same clientFd), accepts⟩

def Silent : Server → Server → Prop := Wrote fun _ => False

theorem silent_of_trace {before after : Server}
    (same : after.trace = before.trace) : Silent before after :=
  ⟨[], by rw [same, List.append_nil], by simp, by simp⟩

instance : Std.Refl Silent := ⟨fun _ => silent_of_trace rfl⟩

instance : IsTrans Server Silent :=
  ⟨fun _ _ _ first second => (first.trans second).congr (by simp)⟩

theorem silent_act {action : Action} (unheard : action.tcpPeer = none)
    (connects : ∀ clientFd, action ≠ .accepted clientFd) (server : Server) :
    Silent server (server.act [action]) :=
  ⟨[action], rfl, by simp [unheard], by simpa [eq_comm] using connects⟩

theorem silent_logEvent (message : Bytes) :
    Within Silent (logEvent message) :=
  .modify (silent_act rfl (by simp))

theorem silent_recordEmergency (timestamp event : Bytes) :
    Within Silent (recordEmergency timestamp event) :=
  .modify fun _ => silent_of_trace rfl

theorem silent_recordUdpClient (client : UDPClientData) :
    Within Silent (recordUdpClient client) := by
  intro server
  change Silent server (Server.act _ _)
  split
  · exact silent_act rfl (by simp) _
  · exact silent_of_trace (List.append_nil _)

theorem silent_updateSupplies (access : SegmentAccess) (request : Json) :
    Within Silent (updateSupplies access request) := by
  intro server
  have heard : Silent server (server.act [.updateSupplies request]) :=
    silent_act rfl (by simp) server
  rw [updateSupplies, exec_bind_of_ok (exec_modify _ _),
    exec_bind_of_ok (exec_get _)]
  split
  · exact heard
  · exact heard

theorem silent_closeTcpClient (clientFd : Nat) :
    Within Silent (closeTcpClient clientFd) := by
  refine .bind (.modify (silent_act rfl (by simp))) fun _ => ?_
  refine .bind (.modify fun _ => silent_of_trace rfl) fun _ server => ?_
  change Silent server (Server.act _ _)
  split
  · exact silent_act rfl (by simp) _
  · exact silent_of_trace (List.append_nil _)

theorem silent_keepOrClose (context : RequestContext) (clientFd : Nat)
    (served : Bool) : Within Silent (keepOrClose context clientFd served) :=
  .ite (fun _ => .pure _) fun _ =>
    .bind (silent_logEvent _) fun _ => silent_closeTcpClient clientFd

theorem udpRespected_silent : UdpRespected Silent where
  refl := refl_of Silent
  trans := trans_of Silent
  logEvent := silent_logEvent
  status clientAddr access := by
    intro server
    rw [sendJsonToUdpClient, exec_sendStatus]
    split
    · exact refl_of Silent server
    · exact silent_act rfl (by simp) server
  summary clientAddr context := by
    intro server
    rw [sendJsonToUdpClient, exec_sendSummary]
    split
    · exact refl_of Silent server
    · exact silent_act rfl (by simp) server

section Sequencing

variable {α β : Type} {writes : Nat → Prop} {server : Server}

theorem wrote_of_silent {action : Handler α} (silent : Within Silent action)
    (nothing : ∀ clientFd, ¬ writes clientFd) :
    Wrote writes server (exec action server).2 :=
  (silent server).congr (by simpa using nothing)

theorem wrote_bind {action : Handler α} {next : α → Handler β}
    (first : Wrote writes server (exec action server).2)
    (rest : ∀ value, Within Silent (next value)) :
    Wrote writes server (exec (action >>= next) server).2 := by
  rw [exec_bind]
  rcases executed : exec action server with ⟨result, state⟩
  rw [executed] at first
  cases result with
  | error fault => exact first
  | ok value => exact (first.trans (rest value state)).congr (by simp)

theorem wrote_logEvent_bind {message : Bytes} {next : PUnit → Handler β}
    (rest : ∀ state : Server, Wrote writes state (exec (next ⟨⟩) state).2) :
    Wrote writes server (exec (logEvent message >>= next) server).2 := by
  rw [exec_bind_of_ok (exec_logEvent _ _)]
  exact ((silent_logEvent message server).trans (rest _)).congr (by simp)

theorem wrote_recordEmergency_bind {timestamp event : Bytes}
    {next : PUnit → Handler β}
    (rest : ∀ state : Server, Wrote writes state (exec (next ⟨⟩) state).2) :
    Wrote writes server
      (exec (recordEmergency timestamp event >>= next) server).2 := by
  rw [exec_bind_of_ok (exec_recordEmergency _ _ _)]
  exact ((silent_of_trace rfl).trans (rest _)).congr (by simp)

end Sequencing

/-! ## The TCP handler -/

theorem wrote_reply (clientFd : Nat) (reply : Reply) (server : Server) :
    Wrote (fun other => other = clientFd) server
      (server.act [.reply (.tcp clientFd) reply]) :=
  ⟨_, rfl, by simp [Action.tcpPeer], by simp⟩

theorem wrote_sendStatus (clientFd : Nat) (access : SegmentAccess)
    (server : Server) :
    Wrote (fun other => other = clientFd ∧ access.Granted) server
      (exec (sendStatus (sendJsonToTcpClient clientFd) access) server).2 := by
  rw [sendJsonToTcpClient, exec_sendStatus]
  by_cases granted : access.Granted
  · obtain ⟨json, converted⟩ :=
      convertSuppliesToJson_of_granted granted server.supplies
    rw [converted]
    exact (wrote_reply clientFd _ server).congr (by simp [granted])
  · rw [convertSuppliesToJson_of_not_granted granted]
    exact (refl_of Silent server).congr (by simp [granted])

theorem wrote_sendSummary (clientFd : Nat) (context : RequestContext)
    (server : Server) :
    Wrote (fun other => other = clientFd ∧ context.summaryAccess.Granted) server
      (exec (sendSummary (sendJsonToTcpClient clientFd) context) server).2 := by
  rw [sendJsonToTcpClient, exec_sendSummary]
  by_cases granted : context.summaryAccess.Granted
  · obtain ⟨json, converted⟩ :=
      convertSuppliesToJson_of_granted granted server.supplies
    rw [converted]
    exact (wrote_reply clientFd _ server).congr (by simp [granted])
  · rw [convertSuppliesToJson_of_not_granted granted]
    exact (refl_of Silent server).congr (by simp [granted])

theorem wrote_authenticateTcpClient (context : RequestContext)
    (clientFd : Nat) (request : Json) (server : Server) :
    Wrote (fun other => other = clientFd ∧
        ((request.getObjectItem (ascii "hostname")).bind
          Json.valuestring).isSome = true) server
      (exec (authenticateTcpClient context clientFd request) server).2 := by
  unfold authenticateTcpClient
  cases request.getObjectItem (ascii "hostname") with
  | none => exact (refl_of Silent server).congr (by simp)
  | some hostname =>
      simp only [stringOperand_bind, Option.bind_some]
      cases hostname.valuestring with
      | none => exact (refl_of Silent server).congr (by simp)
      | some value =>
          simp only [Option.isSome_some, and_true]
          split
          · exact wrote_logEvent_bind fun state =>
              wrote_bind (wrote_reply clientFd _ state) fun _ => .pure _
          · exact wrote_logEvent_bind fun state =>
              wrote_bind (wrote_reply clientFd _ state) fun _ => .pure _

theorem wrote_answerTcpRequest (context : RequestContext) (clientFd : Nat)
    (value : Bytes) (request : Json) (server : Server) :
    Wrote (fun other => other = clientFd ∧
        ((value = ascii "status" ∧ context.access.Granted) ∨
          (value = ascii "summary" ∧ context.summaryAccess.Granted))) server
      (exec (answerTcpRequest context clientFd value request) server).2 := by
  unfold answerTcpRequest
  by_cases status : value = ascii "status"
  · subst status
    rw [if_pos rfl]
    refine (wrote_recordEmergency_bind fun state => wrote_logEvent_bind
      fun state => wrote_bind (wrote_sendStatus clientFd context.access state)
        fun _ => .pure _).congr fun other => ?_
    simp [show ascii "status" ≠ ascii "summary" by decide]
  · by_cases update : value = ascii "update"
    · subst update
      rw [if_neg status, if_pos rfl]
      refine wrote_of_silent ?_ fun other => ?_
      · refine .bind (silent_recordEmergency _ _) fun _ => ?_
        refine .bind (silent_logEvent _) fun _ => ?_
        exact .ite (fun _ => .bind (silent_updateSupplies _ _) fun _ => .pure _)
          fun _ => .pure _
      · simp [status, show ascii "update" ≠ ascii "summary" by decide]
    · by_cases summary : value = ascii "summary"
      · subst summary
        rw [if_neg status, if_neg update, if_pos rfl]
        refine (wrote_logEvent_bind fun state =>
          wrote_bind (wrote_sendSummary clientFd context state)
            fun _ => .pure _).congr fun other => ?_
        simp [status]
      · rw [if_neg status, if_neg update, if_neg summary]
        refine wrote_of_silent (.bind (silent_logEvent _) fun _ => .pure _)
          fun other => ?_
        simp [status, summary]

theorem wrote_handleTcpJson (context : RequestContext) (clientFd : Nat)
    (request : Json) (server : Server) :
    Wrote (fun other => other = clientFd ∧ request.Answered context) server
      (exec (handleTcpJson context clientFd request) server).2 := by
  unfold handleTcpJson
  cases found : request.getObjectItem (ascii "message") with
  | none =>
      refine (refl_of Silent server).congr fun other => ?_
      simp [Json.Answered, Json.Requests, found]
  | some message =>
      simp only [stringOperand_bind]
      cases operand : message.valuestring with
      | none =>
          refine (refl_of Silent server).congr fun other => ?_
          simp [Json.Answered, Json.Requests, found, operand]
      | some value =>
          have same : ∀ other, request.Requests other ↔ value = other := by
            simp [Json.Requests, found, operand]
          simp only [Json.Answered, same]
          by_cases authenticates : value = ascii "authenticateme"
          · subst authenticates
            rw [if_pos rfl]
            refine (wrote_authenticateTcpClient context clientFd request
              server).congr fun other => ?_
            simp [show ascii "authenticateme" ≠ ascii "status" by decide,
              show ascii "authenticateme" ≠ ascii "summary" by decide]
          · rw [if_neg authenticates]
            refine (wrote_answerTcpRequest context clientFd value request
              server).congr fun other => ?_
            simp [authenticates]

/-! ## Events -/

theorem tcpPeer_sendToAllTcpClients (clients : List Nat) (message : Bytes) :
    (clients.map fun clientFd => Action.sendTcp clientFd message).filterMap
      Action.tcpPeer = clients := by
  rw [List.filterMap_map]
  exact List.filterMap_some

theorem tcpPeer_sendToAllUdpClients (clients : List UDPClientData)
    (message : Bytes) :
    (clients.map fun client => Action.sendUdp client message).filterMap
      Action.tcpPeer = [] := by
  rw [List.filterMap_map]
  exact List.filterMap_none clients

theorem wrote_announceAlert (timestamp message : Bytes) (server : Server) :
    Wrote (fun clientFd => clientFd ∈ server.tcpClients.live) server
      (exec (announceAlert timestamp message) server).2 := by
  refine ⟨_, trace_announceAlert timestamp message server, fun clientFd => ?_,
    by simp [alertActions]⟩
  simp only [alertActions, List.filterMap_append, tcpPeer_sendToAllTcpClients,
    tcpPeer_sendToAllUdpClients]
  simp [Action.tcpPeer]

theorem wrote_handleUnixConnection {data : Bytes} (nonempty : data ≠ [])
    (context : RequestContext) (server : Server) :
    Wrote (fun clientFd => data.length < bufferSize ∧
        clientFd ∈ server.tcpClients.live) server
      (exec (handleUnixConnection context true (.bytes data)) server).2 := by
  by_cases room : data.length < bufferSize
  · rw [exec_handleUnixConnection_of_lt nonempty room]
    refine ⟨_, rfl, fun clientFd => ?_, by simp⟩
    simp only [List.filterMap_append, tcpPeer_sendToAllTcpClients]
    simp [Action.tcpPeer, room]
  · obtain ⟨byte, rest, rfl⟩ := List.exists_cons_of_ne_nil nonempty
    have refused : receiveAndTerminate bufferSize le_rfl context.stack
        (byte :: rest) = none :=
      receiveAndTerminate_eq_none (Nat.le_of_not_lt room)
    simp only [handleUnixConnection, if_true, handleUnixConnectionBuffer,
      refused, exec_throw]
    exact (refl_of Silent server).congr fun _ =>
      ⟨False.elim, fun written => room written.1⟩

section Events

variable (parse : Bytes → Option Json)

theorem wrote_handleTcpSocketActivity (context : RequestContext)
    (clientFd : Nat) (received : Received) (server : Server) :
    Wrote (fun other => other = clientFd ∧
        ∃ request, tcpRequest parse received = .ok (some request) ∧
          request.Answered context) server
      (exec (handleTcpSocketActivity parse context clientFd true received)
        server).2 := by
  rw [handleTcpSocketActivity, if_pos rfl]
  refine wrote_bind ?_ fun served => silent_keepOrClose context clientFd served
  rw [checkTcpClientsMessages, receiveTcpJson_eq]
  cases tcpRequest parse received with
  | error fault => exact (refl_of Silent server).congr (by simp)
  | ok request =>
      rw [pure_bind]
      cases request with
      | none => exact (refl_of Silent server).congr (by simp)
      | some request =>
          exact (wrote_handleTcpJson context clientFd request server).congr
            (by simp)

/-- An event that connects nobody writes to the descriptors it should. -/
theorem wrote_handleEvent {event : Event}
    (other : ∀ context family clientFd,
      event ≠ .tcpConnection context family (some clientFd))
    (server : Server) :
    Wrote (fun clientFd => event.FitsBuffer ∧
        (Process.running server).Writes parse event clientFd) server
      (exec (handleEvent parse event) server).2 := by
  match event with
  | .tcpConnection _ _ none =>
      exact (refl_of Silent server).congr (by simp [Process.Writes])
  | .tcpConnection context family (some clientFd) =>
      exact (other context family clientFd rfl).elim
  | .udpActivity context sockfd datagram =>
      have silent := udpRespected_silent.handleUdpSocketActivity parse context
        sockfd (silent_recordUdpClient (datagram.client sockfd))
        (fun _ _ _ _ => silent_updateSupplies _ _) server
      exact silent.congr (by simp [Process.Writes])
  | .unixActivity context true (.bytes (byte :: data)) =>
      exact (wrote_handleUnixConnection (by simp) context server).congr
        (by simp [Process.Writes, Process.running, Event.FitsBuffer,
          Received.FitsBuffer])
  | .unixActivity context true (.bytes []) =>
      exact (refl_of Silent server).congr (by simp [Process.Writes])
  | .unixActivity context true .failed =>
      exact (refl_of Silent server).congr (by simp [Process.Writes])
  | .unixActivity context false received =>
      exact (refl_of Silent server).congr (by simp [Process.Writes])
  | .fifoActivity context true (.bytes (byte :: data)) =>
      have wrote : ∀ buffer, checkAlertsBuffer (byte :: data) = some buffer →
          Wrote (fun clientFd => clientFd ∈ server.tcpClients.live) server
            (exec (handleEvent parse (.fifoActivity context true
              (.bytes (byte :: data)))) server).2 := by
        intro buffer stored
        simp only [handleEvent, checkAlerts, if_true, stored]
        exact wrote_announceAlert _ _ server
      exact (wrote _ rfl).congr
        (by simp [Process.Writes, Process.running, Event.FitsBuffer])
  | .fifoActivity context true (.bytes []) =>
      exact (refl_of Silent server).congr (by simp [Process.Writes])
  | .fifoActivity context true .failed =>
      exact (refl_of Silent server).congr (by simp [Process.Writes])
  | .fifoActivity context false received =>
      exact (refl_of Silent server).congr (by simp [Process.Writes])
  | .tcpActivity context clientFd false received =>
      rw [handleEvent, exec_bind_of_ok (exec_get server)]
      refine wrote_of_silent ?_ (by simp [Process.Writes])
      exact .ite (fun _ => silent_closeTcpClient clientFd) fun _ => .pure _
  | .tcpActivity context clientFd true received =>
      rw [handleEvent, exec_bind_of_ok (exec_get server)]
      by_cases connected : clientFd ∈ server.connected
      · rw [if_pos connected]
        refine (wrote_handleTcpSocketActivity parse context clientFd received
          server).congr fun other => ?_
        simp only [Process.Writes, Process.running, connected, true_and,
          tcpRequest_eq_request_iff, and_assoc, exists_and_left]
        exact and_left_comm
      · rw [if_neg connected]
        refine wrote_of_silent (.pure _) ?_
        simp [Process.Writes, Process.running, connected]

/-- A new connection writes nothing. -/
theorem tcpPeer_acceptTcpConnection (context : RequestContext)
    (family : PeerFamily) (clientFd : Nat) (server : Server) :
    ∃ actions,
      (exec (acceptTcpConnection context family clientFd) server).2.trace =
        server.trace ++ actions ∧
      actions.filterMap Action.tcpPeer = [] := by
  by_cases room : server.tcpClients.count < maxClients
  · refine ⟨[.accepted clientFd, .logEvent (snprintf256
      (family.connectedText ++ context.clientIp)), .logEvent
        (ascii "Added TCP client. Total connected: " ++
          ascii (toString (server.tcpClients.count + 1)))], ?_, rfl⟩
    simp only [acceptTcpConnection, logEvent, recordTcpClient, exec_bind,
      exec_modify, Server.withTcpClient, Server.act, if_pos room,
      List.append_assoc, List.cons_append, List.nil_append]
  · refine ⟨[.accepted clientFd, .logEvent (snprintf256
      (family.connectedText ++ context.clientIp))], ?_, rfl⟩
    simp only [acceptTcpConnection, logEvent, recordTcpClient, exec_bind,
      exec_modify, Server.withTcpClient, Server.act, if_neg room,
      List.append_assoc, List.cons_append, List.nil_append, List.append_nil]

end Events

/-! ## Replies to a descriptor -/

section Replies

variable {parse : Bytes → Option Json}

theorem actions_of_stopped (server : Server) (fault : Fault) (event : Event) :
    Process.actions parse ⟨server, some fault⟩ event = [] :=
  actions_of_trace parse (List.append_nil _).symm

/-- Nobody is answered on a descriptor that is not written to. -/
theorem reply_notMem_of_not_writes {process : Process} {event : Event}
    {clientFd : Nat}
    (connects : ∀ context family clientFd,
      event ≠ .tcpConnection context family (some clientFd))
    (silent : ¬ (event.FitsBuffer ∧ process.Writes parse event clientFd))
    (reply : Reply) :
    .reply (.tcp clientFd) reply ∉ process.actions parse event := by
  rcases process with ⟨server, fault⟩
  cases fault with
  | some fault => simp [actions_of_stopped]
  | none =>
      obtain ⟨actions, trace, written, _⟩ :=
        wrote_handleEvent parse connects server
      have grown : (Process.step parse ⟨server, none⟩ event).server.trace =
          server.trace ++ actions := by
        rw [Process.step, Process.server_after, trace]
      rw [actions_of_trace parse grown]
      intro member
      exact silent ((written clientFd).mp
        (List.mem_filterMap.mpr ⟨_, member, rfl⟩))

theorem reply_notMem_tcpConnection (context : RequestContext)
    (family : PeerFamily) (accepted clientFd : Nat) (process : Process)
    (reply : Reply) :
    .reply (.tcp clientFd) reply ∉ process.actions parse
      (.tcpConnection context family (some accepted)) := by
  rcases process with ⟨server, fault⟩
  cases fault with
  | some fault => simp [actions_of_stopped]
  | none =>
      obtain ⟨actions, trace, unheard⟩ : ∃ actions,
          (Process.step parse ⟨server, none⟩ (.tcpConnection context family
            (some accepted))).server.trace = server.trace ++ actions ∧
          actions.filterMap Action.tcpPeer = [] := by
        rw [Process.step, Process.server_after, handleEvent,
          exec_bind_of_ok (exec_get server)]
        split
        · exact ⟨[], (List.append_nil _).symm, rfl⟩
        · exact tcpPeer_acceptTcpConnection context family accepted server
      rw [actions_of_trace parse trace]
      intro member
      have heard : clientFd ∈ actions.filterMap Action.tcpPeer :=
        List.mem_filterMap.mpr ⟨_, member, rfl⟩
      rw [unheard] at heard
      cases heard

theorem reply_notMem_unixActivity {data : Bytes} (nonempty : data ≠ [])
    (context : RequestContext) (clientFd : Nat) (process : Process)
    (reply : Reply) :
    .reply (.tcp clientFd) reply ∉ process.actions parse
      (.unixActivity context true (.bytes data)) := by
  by_cases room : data.length < bufferSize
  · rcases process with ⟨server, fault⟩
    cases fault with
    | some fault => simp [actions_of_stopped]
    | none =>
        have trace : (Process.step parse ⟨server, none⟩ (.unixActivity
            context true (.bytes data))).server.trace = server.trace ++ _ :=
          congrArg (fun outcome : Except Fault PUnit × Server =>
              (Process.after outcome).server.trace)
            (exec_handleUnixConnection_of_lt nonempty room context server)
        rw [actions_of_trace parse trace]
        simp
  · obtain ⟨byte, rest, rfl⟩ := List.exists_cons_of_ne_nil nonempty
    refine reply_notMem_of_not_writes (by simp) ?_ reply
    rintro ⟨fits, _⟩
    exact room fits

theorem reply_notMem_fifoActivity (context : RequestContext) (byte : UInt8)
    (data : Bytes) (clientFd : Nat) (process : Process) (reply : Reply) :
    .reply (.tcp clientFd) reply ∉ process.actions parse
      (.fifoActivity context true (.bytes (byte :: data))) := by
  rcases process with ⟨server, fault⟩
  cases fault with
  | some fault => simp [actions_of_stopped]
  | none =>
      have announced : ∀ buffer,
          checkAlertsBuffer (byte :: data) = some buffer →
          (Process.step parse ⟨server, none⟩ (.fifoActivity context true
            (.bytes (byte :: data)))).server.trace = server.trace ++
              alertActions server (buffer.text context.behindStack) := by
        intro buffer stored
        simp only [Process.step, handleEvent, checkAlerts, if_true, stored,
          Process.server_after, trace_announceAlert]
      rw [actions_of_trace parse (announced _ rfl)]
      simp [alertActions]

/-- Only activity on its descriptor gets a client an answer. -/
theorem reply_notMem_actions {event : Event} {clientFd : Nat}
    (other : ∀ context peername received,
      event ≠ .tcpActivity context clientFd peername received)
    (process : Process) (reply : Reply) :
    .reply (.tcp clientFd) reply ∉ process.actions parse event := by
  cases event with
  | tcpConnection context family accepted =>
      cases accepted with
      | none =>
          exact reply_notMem_of_not_writes (by simp)
            (fun writes => writes.2.2) _
      | some accepted =>
          exact reply_notMem_tcpConnection context family accepted _ _ _
  | tcpActivity context sender peername received =>
      refine reply_notMem_of_not_writes (by simp) (fun writes => ?_) _
      cases peername with
      | false => exact writes.2.2
      | true =>
          obtain rfl := writes.2.2.1
          exact other context true received rfl
  | udpActivity context sockfd datagram =>
      exact reply_notMem_of_not_writes (by simp)
        (fun writes => writes.2.2) _
  | unixActivity context accepted received =>
      by_cases heard : accepted = true ∧ ∃ data, received = .bytes data ∧
          data ≠ []
      · obtain ⟨rfl, data, rfl, nonempty⟩ := heard
        exact reply_notMem_unixActivity nonempty context _ _ _
      · refine reply_notMem_of_not_writes (by simp) (fun writes => heard ?_) _
        rcases accepted with _ | _
        · exact writes.2.2.elim
        · rcases received with _ | (_ | ⟨byte, data⟩)
          · exact writes.2.2.elim
          · exact writes.2.2.elim
          · exact ⟨rfl, _, rfl, List.cons_ne_nil _ _⟩
  | fifoActivity context opened received =>
      rcases opened with _ | _
      · exact reply_notMem_of_not_writes (by simp)
          (fun writes => writes.2.2) _
      · rcases received with _ | (_ | ⟨byte, data⟩)
        · exact reply_notMem_of_not_writes (by simp)
            (fun writes => writes.2.2) _
        · exact reply_notMem_of_not_writes (by simp)
            (fun writes => writes.2.2) _
        · exact reply_notMem_fifoActivity context byte data _ _ _

end Replies

end ShelterServer
