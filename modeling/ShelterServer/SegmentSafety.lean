import ShelterServer.RequestFraming
import ShelterServer.Transports

/-!
# Requests without segments

Either supplies segment may fail to be attached while a request is handled.
Only the TCP update checks the pointers it uses, so a run accesses no counter
through NULL, and changes none while a segment is missing, exactly when each
request it handles finds the segments that its handler uses.
-/

namespace ShelterServer

open Foundations Faulting

/-- A handler ended without an access through NULL and, where a segment was
missing, with the counters it had found. -/
structure Contained {α : Type} (access : SegmentAccess) (server : Server)
    (outcome : Except Fault α × Server) : Prop where
  safe : outcome.1 ≠ .error .nullSupplies
  unchanged : ¬ access.Granted → outcome.2.supplies = server.supplies

theorem respected_supplies :
    Respected fun before after => after.supplies = before.supplies :=
  .of_view (fun _ _ => rfl) fun _ _ quiet => quiet.supplies

theorem contained_of {α : Type} {action : Handler α}
    (faults : FaultsOnly (· ≠ .nullSupplies) action)
    {access : SegmentAccess} {server : Server}
    (keeps : ¬ access.Granted →
      (exec action server).2.supplies = server.supplies) :
    Contained access server (exec action server) :=
  ⟨fun stopped => faults server _ stopped rfl, keeps⟩

/-- What follows a handler does not matter if it accesses no segment. -/
theorem contained_bind_iff {α β : Type} {action : Handler α}
    {next : α → Handler β}
    (faults : ∀ value, FaultsOnly (· ≠ .nullSupplies) (next value))
    (keeps : ∀ value,
      Within (fun before after => after.supplies = before.supplies)
        (next value))
    (access : SegmentAccess) (server : Server) :
    Contained access server (exec (action >>= next) server) ↔
      Contained access server (exec action server) := by
  rw [exec_bind]
  rcases exec action server with ⟨result, state⟩
  cases result with
  | error fault =>
      exact ⟨fun contained => ⟨by simpa using contained.safe,
        contained.unchanged⟩, fun contained => ⟨by simpa using contained.safe,
        contained.unchanged⟩⟩
  | ok value =>
      have same := keeps value state
      constructor
      · intro contained
        refine ⟨by simp, fun refused => ?_⟩
        exact same.symm.trans (contained.unchanged refused)
      · intro contained
        refine ⟨fun stopped => faults value state _ stopped rfl, ?_⟩
        exact fun refused => same.trans (contained.unchanged refused)

/-! ## TCP -/

theorem exec_answerTcpRequest_status_of_not_granted {context : RequestContext}
    (refused : ¬ context.access.Granted) (clientFd : Nat) (request : Json)
    (server : Server) :
    (exec (answerTcpRequest context clientFd (ascii "status") request)
        server).1 = .error .nullSupplies := by
  rw [answerTcpRequest, if_pos rfl, exec_bind_of_ok (exec_recordEmergency _ _ _),
    exec_bind_of_ok (exec_logEvent _ _), sendJsonToTcpClient, exec_bind,
    exec_sendStatus, convertSuppliesToJson_of_not_granted refused]

theorem exec_answerTcpRequest_summary_of_not_granted {context : RequestContext}
    (refused : ¬ context.summaryAccess.Granted) (clientFd : Nat)
    (request : Json) (server : Server) :
    (exec (answerTcpRequest context clientFd (ascii "summary") request)
        server).1 = .error .nullSupplies := by
  rw [answerTcpRequest, if_neg (by decide), if_neg (by decide), if_pos rfl,
    exec_bind_of_ok (exec_logEvent _ _), sendJsonToTcpClient, exec_bind,
    exec_sendSummary, convertSuppliesToJson_of_not_granted refused]

theorem contained_handleTcpJson_iff (context : RequestContext)
    (clientFd : Nat) (request : Json) (server : Server) :
    Contained context.access server
        (exec (handleTcpJson context clientFd request) server) ↔
      context.TcpSegments request := by
  constructor
  · intro contained
    refine ⟨fun status => ?_, fun summary => ?_⟩
    · by_contra refused
      apply contained.safe
      rw [handleTcpJson_of_requests status (by decide)]
      exact exec_answerTcpRequest_status_of_not_granted refused _ _ server
    · by_contra refused
      apply contained.safe
      rw [handleTcpJson_of_requests summary (by decide)]
      exact exec_answerTcpRequest_summary_of_not_granted refused _ _ server
  · intro segments
    have faults : FaultsOnly (· ≠ .nullSupplies)
        (handleTcpJson context clientFd request) :=
      faultsOnly_handleTcpJson clientFd (by simp) fun missing =>
        (missing segments).elim
    refine contained_of faults fun refused => ?_
    exact respected_supplies.handleTcpJson context clientFd
      (fun _ granted => (refused granted).elim) server

/-! ## UDP -/

/-- The segments that the answer to a UDP request uses are attached; only an
update that affects no counter may do without. -/
def Server.UdpSegmentsSuffice (server : Server) (context : RequestContext)
    (request : Json) : Prop :=
  ∀ hostname, request.getObjectItem (ascii "hostname") = some hostname →
    (request.Requests (ascii "update") →
      hostname.valuestring = some adminUser →
        context.access.Granted ∨
          server.supplies.Unaffected context.access request) ∧
    (request.Requests (ascii "status") → context.access.Granted) ∧
    (request.Requests (ascii "summary") → context.summaryAccess.Granted)

theorem contained_udpUpdate_iff {request : Json} {clientAddr : SockaddrStorage}
    {message hostname : Json}
    (operand : message.valuestring = some (ascii "update"))
    (admin : hostname.valuestring = some adminUser)
    {context : RequestContext} (refused : ¬ context.access.Granted)
    (client : UDPClientData) (server : Server) :
    Contained context.access server (exec (do
        recordUdpClient client
        answerUdpRequest context clientAddr message hostname request)
        server) ↔
      server.supplies.Unaffected context.access request := by
  have ends := answered_udpUpdate request clientAddr operand admin context
    client server
  rw [← updateSuppliesFromJson_eq_self_iff]
  revert ends
  generalize exec (do
    recordUdpClient client
    answerUdpRequest context clientAddr message hostname request) server =
    outcome
  cases updateSuppliesFromJson context.access server.supplies request with
  | updated supplies =>
      intro ends
      simp only [answered, Prod.mk.injEq] at ends
      rw [UpdateResult.updated.injEq, ← ends.2.1]
      exact ⟨fun contained => contained.unchanged refused,
        fun same => ⟨by simp [ends.1], fun _ => same⟩⟩
  | nullAccess supplies =>
      intro ends
      simp only [answered, Prod.mk.injEq] at ends
      exact iff_of_false (fun contained => contained.safe ends.1) (by simp)

section HandleUdpJson

variable {context : RequestContext} {request hostname : Json}
  (sockfd : Nat) (datagram : Datagram)

theorem exec_handleUdpJson_status_of_not_granted
    (present : request.getObjectItem (ascii "hostname") = some hostname)
    (status : request.Requests (ascii "status"))
    (refused : ¬ context.access.Granted) (server : Server) :
    (exec (handleUdpJson context sockfd datagram request) server).1 =
      .error .nullSupplies := by
  obtain ⟨message, found, operand⟩ := Option.bind_eq_some_iff.mp status
  have alike := congrArg Prod.fst (answered_status request
    datagram.source.storage hostname operand (.refl context) 0
    (datagram.client sockfd) server)
  rw [handleUdpJson_of_found found present]
  exact alike.symm.trans
    (exec_answerTcpRequest_status_of_not_granted refused 0 request server)

theorem exec_handleUdpJson_summary_of_not_granted
    (present : request.getObjectItem (ascii "hostname") = some hostname)
    (summary : request.Requests (ascii "summary"))
    (refused : ¬ context.summaryAccess.Granted) (server : Server) :
    (exec (handleUdpJson context sockfd datagram request) server).1 =
      .error .nullSupplies := by
  obtain ⟨message, found, operand⟩ := Option.bind_eq_some_iff.mp summary
  have alike := congrArg Prod.fst (answered_summary request
    datagram.source.storage hostname operand (.refl context) 0
    (datagram.client sockfd) server)
  rw [handleUdpJson_of_found found present]
  exact alike.symm.trans
    (exec_answerTcpRequest_summary_of_not_granted refused 0 request server)

/-- Without the segments an update of the admin user is contained exactly if
there is nothing to add. -/
theorem contained_handleUdpJson_update_iff
    (present : request.getObjectItem (ascii "hostname") = some hostname)
    (update : request.Requests (ascii "update"))
    (admin : hostname.valuestring = some adminUser)
    (refused : ¬ context.access.Granted) (server : Server) :
    Contained context.access server
        (exec (handleUdpJson context sockfd datagram request) server) ↔
      server.supplies.Unaffected context.access request := by
  obtain ⟨message, found, operand⟩ := Option.bind_eq_some_iff.mp update
  rw [handleUdpJson_of_found found present]
  exact contained_udpUpdate_iff operand admin refused _ _

/-- With the segments that it uses, a request is contained. -/
theorem contained_handleUdpJson (segments : context.UdpSegments request)
    (granted : request.Requests (ascii "update") → request.NamesAdmin →
      context.access.Granted) (server : Server) :
    Contained context.access server
      (exec (handleUdpJson context sockfd datagram request) server) := by
  have faults : FaultsOnly (· ≠ .nullSupplies)
      (handleUdpJson context sockfd datagram request) :=
    faultsOnly_handleUdpJson sockfd datagram (by simp) fun missing =>
      (missing segments).elim
  refine contained_of faults fun refused => ?_
  exact respected_supplies.udp.handleUdpJson context sockfd datagram
    (fun _ => rfl)
    (fun update admin => (refused (granted update admin)).elim) server

end HandleUdpJson

theorem contained_handleUdpJson_iff (context : RequestContext)
    (sockfd : Nat) (datagram : Datagram) (request : Json) (server : Server) :
    Contained context.access server
        (exec (handleUdpJson context sockfd datagram request) server) ↔
      server.UdpSegmentsSuffice context request := by
  constructor
  · intro contained hostname present
    refine ⟨fun update admin => ?_, fun status => ?_, fun summary => ?_⟩
    · by_contra missing
      obtain ⟨refused, affected⟩ := not_or.mp missing
      exact affected ((contained_handleUdpJson_update_iff sockfd datagram
        present update admin refused server).mp contained)
    · by_contra refused
      exact contained.safe (exec_handleUdpJson_status_of_not_granted sockfd
        datagram present status refused server)
    · by_contra refused
      exact contained.safe (exec_handleUdpJson_summary_of_not_granted sockfd
        datagram present summary refused server)
  · intro suffice
    by_cases direct : request.Requests (ascii "update") ∧
        request.NamesAdmin ∧ ¬ context.access.Granted
    · obtain ⟨update, admin, refused⟩ := direct
      obtain ⟨hostname, present, auth⟩ := Option.bind_eq_some_iff.mp admin
      have unaffected :=
        ((suffice hostname present).1 update auth).resolve_left refused
      exact (contained_handleUdpJson_update_iff sockfd datagram present update
        auth refused server).mpr unaffected
    · have granted : request.Requests (ascii "update") →
          request.NamesAdmin → context.access.Granted := by
        intro update admin
        by_contra refused
        exact direct ⟨update, admin, refused⟩
      have segments : context.UdpSegments request := by
        intro hostname present
        obtain ⟨_, status, summary⟩ := suffice hostname present
        exact ⟨fun update auth => granted update
          (Json.namesAdmin_of_found present auth), status, summary⟩
      exact contained_handleUdpJson sockfd datagram segments granted server

/-! ## Runs -/

section Runs

variable (parse : Bytes → Option Json)

/-- A request that reaches a server in this state, in a block of whatever size,
finds the segments that its handler uses. -/
def Server.SegmentsSuffice (server : Server) : Event → Prop
  | .tcpActivity context clientFd true received =>
      clientFd ∈ server.connected →
        ∀ request, carriedRequest parse received = some request →
          context.TcpSegments request
  | .udpActivity context _ datagram =>
      ∀ request, udpRequest parse datagram.received = some request →
        server.UdpSegmentsSuffice context request
  | _ => True

def Process.SegmentsSuffice (process : Process) (event : Event) : Prop :=
  process.fault = none → process.server.SegmentsSuffice parse event

/-- The process handles an event without an access through NULL and, where a
segment is missing, without a change of the counters. -/
def Process.Contains (process : Process) (event : Event) : Prop :=
  process.fault = none →
    (process.step parse event).fault ≠ some .nullSupplies ∧
      (¬ event.context.access.Granted →
        (process.step parse event).server.supplies = process.server.supplies)

theorem contained_handleTcpSocketActivity_iff (context : RequestContext)
    (clientFd : Nat) (received : Received) (server : Server) :
    Contained context.access server
        (exec (handleTcpSocketActivity parse context clientFd true received)
          server) ↔
      ∀ request, tcpRequest parse received = .ok (some request) →
        context.TcpSegments request := by
  have closes : ∀ served,
      Within (fun before after => after.supplies = before.supplies)
        (keepOrClose context clientFd served) := by
    intro served server
    cases served <;> rfl
  rw [handleTcpSocketActivity, if_pos rfl,
    contained_bind_iff (fun served => faultsOnly_keepOrClose _ _ served)
      closes, checkTcpClientsMessages, receiveTcpJson_eq]
  cases returned : tcpRequest parse received with
  | error fault =>
      obtain rfl := eq_outOfBounds_of_tcpRequest parse returned
      exact iff_of_true ⟨by simp, fun _ => rfl⟩ (by simp)
  | ok request =>
      rw [pure_bind]
      cases request with
      | none => exact iff_of_true ⟨by simp, fun _ => rfl⟩ (by simp)
      | some request =>
          simp only [Except.ok.injEq, Option.some.injEq, forall_eq']
          exact contained_handleTcpJson_iff context clientFd request server

theorem contained_handleUdpSocketActivity_iff (context : RequestContext)
    (sockfd : Nat) (datagram : Datagram) (server : Server) :
    Contained context.access server
        (exec (handleUdpSocketActivity parse context sockfd datagram)
          server) ↔
      ∀ request, udpRequest parse datagram.received = some request →
        server.UdpSegmentsSuffice context request := by
  rw [handleUdpSocketActivity,
    contained_bind_iff (fun _ => .pure _) fun _ _ => rfl,
    checkUdpClientsMessages, receiveUdpJson_eq, pure_bind]
  cases udpRequest parse datagram.received with
  | none => exact iff_of_true ⟨by simp, fun _ => rfl⟩ (by simp)
  | some request =>
      simp only [Option.some.injEq, forall_eq']
      exact contained_handleUdpJson_iff context sockfd datagram request server

theorem contained_handleEvent_iff (server : Server) (event : Event) :
    Contained event.context.access server
        (exec (handleEvent parse event) server) ↔
      (event.FitsBuffer → server.SegmentsSuffice parse event) := by
  cases event with
  | tcpConnection context family accepted =>
      refine iff_of_true (contained_of ?_ fun _ => ?_) fun _ => trivial
      · cases accepted with
        | none => exact .pure _
        | some clientFd =>
            exact .bind .get fun _ => .ite (fun _ => .pure _) fun _ =>
              faultsOnly_acceptTcpConnection _ _ _
      · cases accepted with
        | none => rfl
        | some clientFd =>
            rw [handleEvent, exec_bind_of_ok (exec_get server)]
            split <;> rfl
  | unixActivity context accepted received =>
      refine iff_of_true (contained_of ?_ fun _ => ?_) fun _ => trivial
      · exact faultsOnly_handleUnixConnection context accepted (by simp)
      · exact (quiet_handleUnixConnection context accepted received
          server).supplies
  | fifoActivity context opened received =>
      refine iff_of_true (contained_of ?_ fun _ => ?_) fun _ => trivial
      · exact faultsOnly_checkAlerts context opened received
      · exact (quiet_checkAlerts context opened received server).supplies
  | udpActivity context sockfd datagram =>
      exact (contained_handleUdpSocketActivity_iff parse context sockfd datagram
        server).trans ⟨fun suffice _ => suffice, fun suffice => suffice trivial⟩
  | tcpActivity context clientFd peername received =>
      rw [handleEvent]
      change Contained context.access server _ ↔ _
      rw [exec_bind_of_ok (exec_get server)]
      cases peername with
      | false =>
          refine iff_of_true ?_ fun _ => trivial
          split
          · exact ⟨by simp [handleTcpSocketActivity, closeTcpClient, exec_bind,
              forgetTcpClient], fun _ => rfl⟩
          · exact ⟨by simp, fun _ => rfl⟩
      | true =>
          by_cases connected : clientFd ∈ server.connected
          · rw [if_pos connected, contained_handleTcpSocketActivity_iff]
            simp only [Server.SegmentsSuffice, connected, true_imp_iff,
              tcpRequest_eq_request_iff, and_imp]
            exact forall_comm
          · rw [if_neg connected]
            refine iff_of_true ⟨by simp, fun _ => rfl⟩ fun _ => ?_
            exact fun present => (connected present).elim

theorem process_contains_iff (process : Process) (event : Event) :
    process.Contains parse event ↔
      (event.FitsBuffer → process.SegmentsSuffice parse event) := by
  rcases process with ⟨server, fault⟩
  refine Iff.trans (forall_congr' fun running => ?_) imp.swap
  obtain rfl : fault = none := running
  rw [← contained_handleEvent_iff]
  simp only [Process.step]
  rcases exec (handleEvent parse event) server with ⟨result, state⟩
  cases result with
  | error fault =>
      simp only [Process.after]
      exact ⟨fun both => ⟨by simpa using both.1, both.2⟩,
        fun contained => ⟨by simpa using contained.safe, contained.unchanged⟩⟩
  | ok value =>
      exact ⟨fun both => ⟨by simp, both.2⟩,
        fun contained => ⟨by simp [Process.after], contained.unchanged⟩⟩

/-- Every event of a run is handled without an access through NULL, and
without a change of the counters where a segment is missing, if and only if
every request finds the segments that its handler uses.  A block of
`BUFFER_SIZE` bytes stops the process at the write behind the buffer; without
such blocks every request that a client sends is counted. -/
theorem serverRun_contains_iff (supplies : Supplies) (events : List Event) :
    ((∀ front event, front ++ [event] <+: events →
        (serverRun parse supplies front).Contains parse event) ↔
      GuardedRun (Process.step parse)
        (fun process event =>
          event.FitsBuffer → process.SegmentsSuffice parse event)
        (.running (.initial supplies)) events) ∧
    (GuardedRun (Process.step parse) Process.FitsBuffer
        (.running (.initial supplies)) events →
      ((∀ front event, front ++ [event] <+: events →
          (serverRun parse supplies front).Contains parse event) ↔
        GuardedRun (Process.step parse) (Process.SegmentsSuffice parse)
          (.running (.initial supplies)) events)) := by
  have handled : (∀ front event, front ++ [event] <+: events →
      (serverRun parse supplies front).Contains parse event) ↔
        GuardedRun (Process.step parse)
          (fun process event =>
            event.FitsBuffer → process.SegmentsSuffice parse event)
          (.running (.initial supplies)) events := by
    rw [guardedRun_iff]
    simp only [process_contains_iff, serverRun]
  exact ⟨handled, fun fits =>
    handled.trans (fits.congr fun _ _ fits => fits.guard_iff)⟩

end Runs

/-- With one segment attached, a TCP status request reads through NULL. -/
theorem not_serverRun_contains :
    ¬ ∀ (parse : Bytes → Option Json) (supplies : Supplies)
      (events front : List Event) (event : Event),
      front ++ [event] <+: events →
        (serverRun parse supplies front).Contains parse event := by
  intro contains
  let context : RequestContext :=
    { RequestContext.attached with access := ⟨true, false⟩ }
  let parse : Bytes → Option Json := fun _ => some statusRequest
  let event : Event := .tcpActivity context 8 true (.bytes statusRequestText)
  let front : List Event := [.tcpConnection .attached .ipv6 (some 8)]
  have contained := (process_contains_iff parse _ event).mp
    (contains parse .zero (front ++ [event]) front event List.prefix_rfl)
  have status : statusRequest.Requests (ascii "status") := rfl
  have fits : event.FitsBuffer := by
    change statusRequestText.length < bufferSize
    decide
  have segments := contained fits rfl (by decide) statusRequest rfl
  exact absurd (segments.1 status) (by decide)

end ShelterServer
