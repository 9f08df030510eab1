import ShelterServer.Faults

/-!
# String functions and NULL

The string of a looked-up member is compared without a check of its type.  A
run of the server uses no NULL string exactly when every request it handles
has strings where its handler compares them.
-/

namespace ShelterServer

open Foundations Faulting

variable (parse : Bytes → Option Json)

/-- A request that reaches a server in this state, in a block of whatever size,
has strings where its handler compares them. -/
def Server.ComparesStrings (server : Server) : Event → Prop
  | .tcpActivity _ clientFd true received =>
      clientFd ∈ server.connected →
        ∀ request, carriedRequest parse received = some request →
          request.TcpStrings
  | .udpActivity _ _ datagram =>
      ∀ request, udpRequest parse datagram.received = some request →
        request.UdpStrings
  | _ => True

def Process.ComparesStrings (process : Process) (event : Event) : Prop :=
  process.fault = none → process.server.ComparesStrings parse event

/-! ## One handler -/

theorem exec_handleTcpJson_of_not_tcpStrings {context : RequestContext}
    {clientFd : Nat} {request : Json} (mixed : ¬ request.TcpStrings)
    (server : Server) :
    (exec (handleTcpJson context clientFd request) server).1 =
      .error .nullString := by
  simp only [Json.TcpStrings, not_forall, not_and_or, not_not] at mixed
  obtain ⟨message, found, none | ⟨authenticates, hostname, present, none⟩⟩ :=
    mixed
  · simp only [handleTcpJson, found, stringOperand_bind, none, exec_throw]
  · simp only [handleTcpJson, found, stringOperand_bind, authenticates,
      if_true, authenticateTcpClient, present, none, exec_throw]

theorem exec_handleUdpJson_of_not_udpStrings {context : RequestContext}
    {sockfd : Nat} {datagram : Datagram} {request : Json}
    (mixed : ¬ request.UdpStrings) (server : Server) :
    (exec (handleUdpJson context sockfd datagram request) server).1 =
      .error .nullString := by
  simp only [Json.UdpStrings, not_forall, not_and_or, not_not] at mixed
  obtain ⟨message, found, hostname, present, none | ⟨updates, none⟩⟩ := mixed
  · rw [handleUdpJson, recordUdpClient, exec_bind_of_ok (exec_modify _ _)]
    simp only [found, present, answerUdpRequest, stringOperand_bind, none,
      exec_throw]
  · rw [handleUdpJson, recordUdpClient, exec_bind_of_ok (exec_modify _ _)]
    simp only [found, present, answerUdpRequest, stringOperand_bind, updates,
      if_true, none, exec_throw]

theorem exec_checkTcpClientsMessages_nullString_iff (context : RequestContext)
    (clientFd : Nat) (received : Received) (server : Server) :
    (exec (checkTcpClientsMessages parse context clientFd received) server).1 =
        .error .nullString ↔
      ∃ request, tcpRequest parse received = .ok (some request) ∧
        ¬ request.TcpStrings := by
  constructor
  · intro stopped
    by_contra strings
    have other : FaultsOnly (· ≠ .nullString)
        (checkTcpClientsMessages parse context clientFd received) := by
      refine faultsOnly_checkTcpClientsMessages parse clientFd ?_ ?_ ?_
      · rintro fault full rfl
        cases eq_outOfBounds_of_tcpRequest parse full
      · intro request returned mixed
        exact (strings ⟨request, returned, mixed⟩).elim
      · simp
    exact other server _ stopped rfl
  · rintro ⟨request, returned, mixed⟩
    rw [checkTcpClientsMessages, receiveTcpJson_eq, returned, pure_bind]
    exact exec_handleTcpJson_of_not_tcpStrings mixed server

theorem exec_checkUdpClientsMessages_nullString_iff (context : RequestContext)
    (sockfd : Nat) (datagram : Datagram) (server : Server) :
    (exec (checkUdpClientsMessages parse context sockfd datagram) server).1 =
        .error .nullString ↔
      ∃ request, udpRequest parse datagram.received = some request ∧
        ¬ request.UdpStrings := by
  constructor
  · intro stopped
    by_contra strings
    have other : FaultsOnly (· ≠ .nullString)
        (checkUdpClientsMessages parse context sockfd datagram) := by
      refine faultsOnly_checkUdpClientsMessages parse sockfd ?_ ?_
      · intro request returned mixed
        exact (strings ⟨request, returned, mixed⟩).elim
      · simp
    exact other server _ stopped rfl
  · rintro ⟨request, returned, mixed⟩
    rw [checkUdpClientsMessages, receiveUdpJson_eq, returned, pure_bind]
    exact exec_handleUdpJson_of_not_udpStrings mixed server

/-- What follows the request cannot use a NULL string. -/
theorem exec_handleTcpSocketActivity_nullString_iff (context : RequestContext)
    (clientFd : Nat) (received : Received) (server : Server) :
    (exec (handleTcpSocketActivity parse context clientFd true received)
        server).1 = .error .nullString ↔
      ∃ request, tcpRequest parse received = .ok (some request) ∧
        ¬ request.TcpStrings := by
  rw [← exec_checkTcpClientsMessages_nullString_iff parse context clientFd
    received server, handleTcpSocketActivity, if_pos rfl, exec_bind]
  rcases exec (checkTcpClientsMessages parse context clientFd received) server
    with ⟨result, state⟩
  cases result with
  | error fault => simp
  | ok served =>
      have other : FaultsOnly (fun _ => False)
          (keepOrClose context clientFd served) :=
        faultsOnly_keepOrClose context clientFd served
      exact iff_of_false (other state _) (by simp)

theorem exec_handleUdpSocketActivity_nullString_iff (context : RequestContext)
    (sockfd : Nat) (datagram : Datagram) (server : Server) :
    (exec (handleUdpSocketActivity parse context sockfd datagram) server).1 =
        .error .nullString ↔
      ∃ request, udpRequest parse datagram.received = some request ∧
        ¬ request.UdpStrings := by
  rw [← exec_checkUdpClientsMessages_nullString_iff parse context sockfd
    datagram server, handleUdpSocketActivity, exec_bind]
  rcases exec (checkUdpClientsMessages parse context sockfd datagram) server
    with ⟨result, state⟩
  cases result <;> simp

/-! ## Runs -/

theorem exec_handleEvent_nullString_iff (server : Server) (event : Event) :
    (exec (handleEvent parse event) server).1 = .error .nullString ↔
      ¬ (event.FitsBuffer → server.ComparesStrings parse event) := by
  cases event with
  | tcpConnection context family accepted =>
      have other : FaultsOnly (fun _ => False)
          (handleEvent parse (.tcpConnection context family accepted)) := by
        cases accepted with
        | none => exact .pure _
        | some clientFd =>
            exact .bind .get fun _ => .ite (fun _ => .pure _) fun _ =>
              faultsOnly_acceptTcpConnection _ _ _
      exact iff_of_false (other server _) (not_not_intro fun _ => trivial)
  | unixActivity context accepted received =>
      have other : FaultsOnly (· ≠ .nullString)
          (handleEvent parse (.unixActivity context accepted received)) :=
        faultsOnly_handleUnixConnection context accepted (by simp)
      exact iff_of_false (fun stopped => other server _ stopped rfl)
        (not_not_intro fun _ => trivial)
  | fifoActivity context opened received =>
      have other : FaultsOnly (fun _ => False)
          (handleEvent parse (.fifoActivity context opened received)) :=
        faultsOnly_checkAlerts context opened received
      exact iff_of_false (other server _) (not_not_intro fun _ => trivial)
  | udpActivity context sockfd datagram =>
      simp only [Event.FitsBuffer, Server.ComparesStrings, true_imp_iff,
        not_forall, exists_prop]
      exact exec_handleUdpSocketActivity_nullString_iff parse context sockfd
        datagram server
  | tcpActivity context clientFd peername received =>
      rw [handleEvent, exec_bind_of_ok (exec_get server)]
      by_cases connected : clientFd ∈ server.connected
      · rw [if_pos connected]
        cases peername with
        | false =>
            have other : FaultsOnly (fun _ => False)
                (handleTcpSocketActivity parse context clientFd false
                  received) :=
              faultsOnly_handleTcpSocketActivity parse (by simp)
            exact iff_of_false (other server _) (not_not_intro fun _ => trivial)
        | true =>
            rw [exec_handleTcpSocketActivity_nullString_iff parse context
              clientFd received server]
            simp only [Event.FitsBuffer, Server.ComparesStrings, connected,
              tcpRequest_eq_request_iff, and_assoc, exists_and_left,
              true_imp_iff, Classical.not_imp, not_forall]
      · rw [if_neg connected]
        refine iff_of_false (by simp) (not_not_intro fun _ => ?_)
        cases peername with
        | false => trivial
        | true => exact fun present => (connected present).elim

theorem fault_serverRun_ne_nullString (supplies : Supplies)
    (events : List Event) :
    (serverRun parse supplies events).fault ≠ some .nullString ↔
      GuardedRun (Process.step parse)
        (fun process event =>
          event.FitsBuffer → process.ComparesStrings parse event)
        (.running (.initial supplies)) events := by
  induction events using List.reverseRecOn with
  | nil => simp [serverRun, Process.running, GuardedRun]
  | append_singleton events event induction =>
      rw [guardedRun_concat, ← induction, serverRun_concat]
      change _ ↔ (serverRun parse supplies events).fault ≠ _ ∧
        (event.FitsBuffer →
          (serverRun parse supplies events).ComparesStrings parse event)
      generalize serverRun parse supplies events = process
      rcases process with ⟨server, fault⟩
      cases fault with
      | some fault =>
          simp [Process.step, Process.ComparesStrings]
      | none =>
          have handled := exec_handleEvent_nullString_iff parse server event
          simp only [Process.step, Process.ComparesStrings, ne_eq,
            reduceCtorEq, not_false_eq_true, true_and, true_imp_iff]
          rw [← not_iff_comm.mp handled.symm]
          rcases exec (handleEvent parse event) server with ⟨result, state⟩
          cases result <;> simp [Process.after]

/-- A run uses no NULL string if and only if each request it handles has
strings where its handler compares them.  A block of `BUFFER_SIZE` bytes stops
the process at the write behind the buffer; without such blocks every request
that a client sends is counted. -/
theorem serverRun_fault_ne_nullString_iff (supplies : Supplies)
    (events : List Event) :
    ((serverRun parse supplies events).fault ≠ some .nullString ↔
      GuardedRun (Process.step parse)
        (fun process event =>
          event.FitsBuffer → process.ComparesStrings parse event)
        (.running (.initial supplies)) events) ∧
    (GuardedRun (Process.step parse) Process.FitsBuffer
        (.running (.initial supplies)) events →
      ((serverRun parse supplies events).fault ≠ some .nullString ↔
        GuardedRun (Process.step parse) (Process.ComparesStrings parse)
          (.running (.initial supplies)) events)) := by
  have handled := fault_serverRun_ne_nullString parse supplies events
  exact ⟨handled, fun fits =>
    handled.trans (fits.congr fun _ _ fits => fits.guard_iff)⟩

/-- A request whose `message` is a number. -/
def numberMessage : Json :=
  .object [(ascii "message", .number 5),
    (ascii "hostname", .string (ascii "ubuntu"))]

def numberMessageText : Bytes :=
  ascii "\x7b\"message\":5,\"hostname\":\"ubuntu\"\x7d"

/-- A datagram with a numeric `message` stops the server. -/
theorem not_serverRun_fault_ne_nullString :
    ¬ ∀ (parse : Bytes → Option Json) (supplies : Supplies)
      (events : List Event),
      (serverRun parse supplies events).fault ≠ some .nullString := by
  intro safe
  let parse : Bytes → Option Json := fun text =>
    if text = numberMessageText then some numberMessage else none
  let event : Event := .udpActivity .attached 4
    ⟨.bytes numberMessageText, .loopback⟩
  have received :
      udpRequest parse (.bytes numberMessageText) = some numberMessage := rfl
  have stopped : (exec (handleEvent parse event) (.initial .zero)).1 =
      .error .nullString := by
    refine (exec_handleEvent_nullString_iff parse _ event).mpr fun strings => ?_
    exact (strings trivial numberMessage received _ rfl _ rfl).1 rfl
  apply safe parse .zero [event]
  simp only [serverRun, run_cons, run_nil, Process.step, Process.running]
  rcases executed : exec (handleEvent parse event) (.initial .zero) with
    ⟨result, state⟩
  rw [executed] at stopped
  obtain rfl : result = .error .nullString := stopped
  rfl

end ShelterServer
