import ShelterServer.Coupling
import ShelterServer.Effects
import ShelterServer.Faults

/-!
# Who influences the supplies

Two runs are compared: one of all events, and one from which the requests
without the admin's authority have been deleted.  On UDP the authority is in
the datagram; on TCP it is in the connection, once an authentication request
on it was answered with success.  The supplies agree as long as no request
without authority is a TCP update or stops the server.
-/

namespace ShelterServer

open Foundations Faulting

/-- An authentication request was answered with success since the descriptor
was last accepted. -/
def authenticated (trace : List Action) (clientFd : Nat) : Bool :=
  trace.foldl
    (fun known action =>
      match action with
      | .accepted other => if other = clientFd then false else known
      | .closed other => if other = clientFd then false else known
      | .reply (.tcp other) .authSuccess =>
          if other = clientFd then true else known
      | _ => known)
    false

/-- The event brings a TCP message or a UDP datagram. -/
def Event.isRequest : Event → Bool
  | .tcpActivity _ _ true (.bytes (_ :: _)) => true
  | .udpActivity _ _ ⟨.bytes _, _⟩ => true
  | _ => false

section Authority

variable (parse : Bytes → Option Json)

/-- The request has the admin's authority. -/
def Process.privileged (process : Process) : Event → Bool
  | .tcpActivity _ clientFd _ _ =>
      decide (clientFd ∈ process.server.connected) &&
        authenticated process.server.trace clientFd
  | .udpActivity _ _ datagram =>
      match udpRequest parse datagram.received with
      | none => false
      | some request => decide request.NamesAdmin
  | _ => false

/-- Everything but the requests without authority. -/
def Process.keeps (process : Process) (event : Event) : Bool :=
  !event.isRequest || process.privileged parse event

/-- The events of a run without the requests that had no authority when they
were handled. -/
def privilegedEvents (supplies : Supplies) (events : List Event) :
    List Event :=
  purge (Process.step parse) (Process.keeps parse)
    (.running (.initial supplies)) events

/-- A TCP message without authority is shorter than the buffer, and no update
request; and what a request without authority needs to be answered is there. -/
def Process.Harmless (process : Process) (event : Event) : Prop :=
  process.fault = none → process.privileged parse event = false →
    match event with
    | .tcpActivity context clientFd true (.bytes data) =>
        clientFd ∈ process.server.connected →
          data.length < bufferSize ∧
          ∀ request, parse (untilNul data) = some request →
            ¬ request.Requests (ascii "update") ∧ request.TcpStrings ∧
              context.TcpSegments request
    | .udpActivity context _ datagram =>
        ∀ request, udpRequest parse datagram.received = some request →
          request.UdpStrings ∧ context.UdpSegments request
    | _ => True

end Authority

/-- Both processes run, or both stopped for the same reason. -/
structure ProcessShadows (left right : Process) : Prop where
  fault : left.fault = right.fault
  server : Shadows left.server right.server

theorem ProcessShadows.after {left right : Except Fault PUnit × Server}
    (results : ResultsMatch Eq left.1 right.1)
    (server : Shadows left.2 right.2) :
    ProcessShadows (.after left) (.after right) := by
  rcases left with ⟨leftResult, leftServer⟩
  rcases right with ⟨rightResult, rightServer⟩
  cases leftResult with
  | error leftFault =>
      cases rightResult with
      | error rightFault => exact ⟨congrArg some results, server⟩
      | ok _ => exact results.elim
  | ok _ =>
      cases rightResult with
      | error rightFault => exact results.elim
      | ok _ => exact ⟨rfl, server⟩

/-! ## Hidden events -/

/-- The supplies stay, and connections are at most lost. -/
def Shrinks (before after : Server) : Prop :=
  after.supplies = before.supplies ∧ after.connected ⊆ before.connected

theorem respected_suppliesConnected :
    Respected fun before after =>
      (after.supplies, after.connected) =
        (before.supplies, before.connected) :=
  .of_view (fun _ _ => rfl) fun _ _ quiet =>
    Prod.ext quiet.supplies quiet.connected

theorem shrinks_of_same {before after : Server}
    (same : (after.supplies, after.connected) =
      (before.supplies, before.connected)) : Shrinks before after :=
  ⟨(Prod.ext_iff.mp same).1, (Prod.ext_iff.mp same).2.subset⟩

theorem respected_shrinks : Respected Shrinks where
  trans first second :=
    ⟨second.1.trans first.1, second.2.trans first.2⟩
  quiet quiet := ⟨quiet.supplies, quiet.connected.subset⟩
  status peer access :=
    (respected_suppliesConnected.status peer access).mono fun _ _ =>
      shrinks_of_same
  summary peer context :=
    (respected_suppliesConnected.summary peer context).mono fun _ _ =>
      shrinks_of_same

theorem shrinks_closeTcpClient (clientFd : Nat) :
    Within Shrinks (closeTcpClient clientFd) :=
  fun _ => ⟨rfl, Finset.erase_subset _ _⟩

theorem shrinks_recordUdpClient (client : UDPClientData) :
    Within Shrinks (recordUdpClient client) :=
  fun _ => ⟨rfl, Finset.Subset.refl _⟩

/-- The supplies stay, and at most one connection is lost. -/
def LosesAtMost (clientFd : Nat) (before after : Server) : Prop :=
  after.supplies = before.supplies ∧
    before.connected.erase clientFd ⊆ after.connected

theorem losesAtMost_of_same {clientFd : Nat} {before after : Server}
    (same : (after.supplies, after.connected) =
      (before.supplies, before.connected)) :
    LosesAtMost clientFd before after := by
  obtain ⟨supplies, connected⟩ := Prod.ext_iff.mp same
  refine ⟨supplies, ?_⟩
  rw [show after.connected = before.connected from connected]
  exact Finset.erase_subset _ _

theorem respected_losesAtMost (clientFd : Nat) :
    Respected (LosesAtMost clientFd) where
  trans first second := by
    refine ⟨second.1.trans first.1, fun other member => second.2 ?_⟩
    have kept := first.2 member
    exact Finset.mem_erase.mpr ⟨(Finset.mem_erase.mp member).1, kept⟩
  quiet quiet :=
    losesAtMost_of_same (Prod.ext quiet.supplies quiet.connected)
  status peer access :=
    (respected_suppliesConnected.status peer access).mono fun _ _ =>
      losesAtMost_of_same
  summary peer context :=
    (respected_suppliesConnected.summary peer context).mono fun _ _ =>
      losesAtMost_of_same

theorem losesAtMost_closeTcpClient (clientFd : Nat) :
    Within (LosesAtMost clientFd) (closeTcpClient clientFd) :=
  fun _ => ⟨rfl, Finset.Subset.refl _⟩

section Steps

variable (parse : Bytes → Option Json)

/-- A handler that only the left process executes, and that neither faults nor
touches the supplies. -/
theorem ProcessShadows.of_left {action : Handler PUnit}
    (returns : FaultsOnly (fun _ => False) action)
    (shrinks : Within Shrinks action) {server : Server} {other : Process}
    (initial : ProcessShadows (.running server) other) :
    ProcessShadows (.after (exec action server)) other := by
  obtain ⟨value, returned⟩ := returns.returns server
  have final := shrinks server
  rcases executed : exec action server with ⟨result, state⟩
  rw [executed] at returned final
  obtain rfl : result = .ok value := returned
  refine ⟨initial.fault, ?_, ?_⟩
  · exact final.1.trans initial.server.supplies
  · exact final.2.trans initial.server.connected

theorem tcpRequest_of_room {received : Received} {request : Json}
    (returned : tcpRequest parse received = .ok (some request)) :
    ∃ data, received = .bytes data ∧ parse (untilNul data) = some request := by
  match received with
  | .failed => cases returned
  | .bytes [] => cases returned
  | .bytes (byte :: data) =>
      refine ⟨_, rfl, ?_⟩
      by_cases room : (byte :: data).length < bufferSize
      · simp only [tcpRequest, if_pos room] at returned
        exact Except.ok.inj returned
      · simp only [tcpRequest, if_neg room] at returned
        cases returned

theorem tcpRequest_ne_error {data : Bytes} (room : data.length < bufferSize)
    (fault : Fault) : tcpRequest parse (.bytes data) ≠ .error fault := by
  cases data with
  | nil => simp [tcpRequest]
  | cons byte data =>
      simp only [tcpRequest, if_pos room]
      simp

/-- A TCP message without authority neither faults nor updates. -/
theorem harmless_handleTcpSocketActivity {context : RequestContext}
    (clientFd : Nat) {data : Bytes} (room : data.length < bufferSize)
    (requests : ∀ request, parse (untilNul data) = some request →
      ¬ request.Requests (ascii "update") ∧ request.TcpStrings ∧
        context.TcpSegments request) :
    FaultsOnly (fun _ => False)
        (handleTcpSocketActivity parse context clientFd true (.bytes data)) ∧
      Within Shrinks
        (handleTcpSocketActivity parse context clientFd true (.bytes data)) := by
  have conditions : ∀ request,
      tcpRequest parse (.bytes data) = .ok (some request) →
        ¬ request.Requests (ascii "update") ∧ request.TcpStrings ∧
          context.TcpSegments request := by
    intro request returned
    obtain ⟨other, same, parsed⟩ := tcpRequest_of_room parse returned
    obtain rfl := Received.bytes.inj same
    exact requests request parsed
  constructor
  · refine faultsOnly_handleTcpSocketActivity parse fun _ => ?_
    refine faultsOnly_checkTcpClientsMessages parse clientFd ?_ ?_ ?_
    · exact fun fault full => tcpRequest_ne_error parse room fault full
    · exact fun request returned mixed =>
        mixed (conditions request returned).2.1
    · exact fun request returned detached =>
        detached (conditions request returned).2.2
  · refine respected_shrinks.handleTcpSocketActivity parse context clientFd
      (shrinks_closeTcpClient clientFd) ?_
    exact fun request _ returned updates _ =>
      ((conditions request returned).1 updates).elim

/-- A datagram without authority neither faults nor updates. -/
theorem harmless_handleUdpSocketActivity {context : RequestContext}
    (sockfd : Nat) (datagram : Datagram)
    (requests : ∀ request, udpRequest parse datagram.received = some request →
      ¬ request.NamesAdmin ∧ request.UdpStrings ∧
        context.UdpSegments request) :
    FaultsOnly (fun _ => False)
        (handleUdpSocketActivity parse context sockfd datagram) ∧
      Within Shrinks
        (handleUdpSocketActivity parse context sockfd datagram) := by
  constructor
  · refine .bind ?_ fun _ => .pure _
    refine faultsOnly_checkUdpClientsMessages parse sockfd ?_ ?_
    · exact fun request returned mixed =>
        mixed (requests request returned).2.1
    · exact fun request returned detached =>
        detached (requests request returned).2.2
  · have check := respected_shrinks.udp.checkUdpClientsMessages parse context
      sockfd (shrinks_recordUdpClient (datagram.client sockfd))
      fun request returned _ admin => ((requests request returned).1 admin).elim
    exact respected_shrinks.bind check fun _ => respected_shrinks.pure _

/-- Handling a request that is deleted from the other run. -/
theorem ProcessShadows.step_left {left right : Process} {event : Event}
    (initial : ProcessShadows left right)
    (hidden : left.keeps parse event = false)
    (harmless : left.Harmless parse event) :
    ProcessShadows (left.step parse event) right := by
  rcases left with ⟨server, fault⟩
  cases fault with
  | some fault => exact initial
  | none =>
      simp only [Process.keeps, Bool.or_eq_false_iff,
        Bool.not_eq_eq_eq_not, Bool.not_false] at hidden
      obtain ⟨request, unprivileged⟩ := hidden
      have conditions := harmless rfl unprivileged
      change ProcessShadows (.after (exec (handleEvent parse event) server)) _
      match event with
      | .tcpActivity context clientFd true (.bytes (byte :: data)) =>
          rw [handleEvent, exec_bind_of_ok (exec_get server)]
          by_cases connected : clientFd ∈ server.connected
          · rw [if_pos connected]
            obtain ⟨room, requests⟩ := conditions connected
            obtain ⟨returns, shrinks⟩ :=
              harmless_handleTcpSocketActivity parse clientFd room requests
            exact .of_left returns shrinks initial
          · rw [if_neg connected]
            exact initial
      | .udpActivity context sockfd ⟨.bytes data, source⟩ =>
          obtain ⟨returns, shrinks⟩ := harmless_handleUdpSocketActivity parse
            sockfd ⟨.bytes data, source⟩ fun request returned =>
              ⟨by simpa [Process.privileged, returned] using unprivileged,
                conditions request returned⟩
          exact .of_left returns shrinks initial
      | .tcpActivity _ _ false _ => cases request
      | .tcpActivity _ _ true .failed => cases request
      | .tcpActivity _ _ true (.bytes []) => cases request
      | .udpActivity _ _ ⟨.failed, _⟩ => cases request
      | .tcpConnection _ _ _ => cases request
      | .unixActivity _ _ _ => cases request
      | .fifoActivity _ _ _ => cases request

/-! ## Visible events -/

/-- A disconnection that finds its connection on the right only. -/
theorem ProcessShadows.step_right {left : Server} {right : Process}
    {context : RequestContext} {clientFd : Nat} {peername : Bool}
    {received : Received} (initial : ProcessShadows (.running left) right)
    (silent : (Event.tcpActivity context clientFd peername
      received).isRequest = false)
    (absent : clientFd ∉ left.connected) :
    ProcessShadows (.running left)
      (.after (exec (handleTcpSocketActivity parse context clientFd peername
        received) right.server)) := by
  have nothing : peername = true →
      tcpRequest parse received = .ok none := by
    rintro rfl
    match received with
    | .failed => rfl
    | .bytes [] => rfl
    | .bytes (_ :: _) => cases silent
  have returns : FaultsOnly (fun _ => False)
      (handleTcpSocketActivity parse context clientFd peername received) := by
    refine faultsOnly_handleTcpSocketActivity parse fun named => ?_
    refine faultsOnly_checkTcpClientsMessages parse clientFd ?_ ?_ ?_ <;>
      simp [nothing named]
  have loses : Within (LosesAtMost clientFd)
      (handleTcpSocketActivity parse context clientFd peername received) := by
    refine (respected_losesAtMost clientFd).handleTcpSocketActivity parse
      context clientFd (losesAtMost_closeTcpClient clientFd) ?_
    intro request named returned
    simp [nothing named] at returned
  obtain ⟨value, returned⟩ := returns.returns right.server
  obtain ⟨supplies, connected⟩ := loses right.server
  rcases executed : exec (handleTcpSocketActivity parse context clientFd
    peername received) right.server with ⟨result, state⟩
  rw [executed] at returned supplies connected
  obtain rfl : result = .ok value := returned
  refine ⟨rfl, initial.server.supplies.trans supplies.symm, ?_⟩
  intro other member
  refine connected (Finset.mem_erase.mpr
    ⟨fun same => absent (same ▸ member), initial.server.connected member⟩)

/-- An accepted connection that the right already has. -/
theorem ProcessShadows.accept_left {left : Server} {right : Process}
    {clientFd : Nat} (initial : ProcessShadows (.running left) right)
    (present : clientFd ∈ right.server.connected) (context : RequestContext)
    (family : PeerFamily) :
    ProcessShadows
      (.after (exec (acceptTcpConnection context family clientFd) left))
      right :=
  ⟨initial.fault, initial.server.supplies,
    Finset.insert_subset present initial.server.connected⟩

/-- Handling an event that both runs contain. -/
theorem ProcessShadows.step {left right : Process} {event : Event}
    (initial : ProcessShadows left right)
    (visible : left.keeps parse event = true) :
    ProcessShadows (left.step parse event) (right.step parse event) := by
  rcases left with ⟨leftServer, leftFault⟩
  rcases right with ⟨rightServer, rightFault⟩
  obtain rfl : leftFault = rightFault := initial.fault
  cases leftFault with
  | some fault => exact initial
  | none =>
      have coupled : ∀ {action : Handler PUnit},
          Coupled Shadows Eq action action →
            ProcessShadows (.after (exec action leftServer))
              (.after (exec action rightServer)) := fun coupled =>
        have final := coupled leftServer rightServer initial.server
        .after final.1 final.2
      change ProcessShadows (.after (exec (handleEvent parse event) leftServer))
        (.after (exec (handleEvent parse event) rightServer))
      cases event with
      | tcpConnection context family accepted =>
          cases accepted with
          | none => exact initial
          | some clientFd =>
              rw [handleEvent, exec_bind_of_ok (exec_get leftServer),
                exec_bind_of_ok (exec_get rightServer)]
              by_cases inLeft : clientFd ∈ leftServer.connected
              · rw [if_pos inLeft, if_pos (initial.server.connected inLeft)]
                exact initial
              · rw [if_neg inLeft]
                by_cases inRight : clientFd ∈ rightServer.connected
                · rw [if_pos inRight]
                  exact initial.accept_left inRight context family
                · rw [if_neg inRight]
                  exact coupled (coupled_acceptTcpConnection _ _ _)
      | tcpActivity context clientFd peername received =>
          rw [handleEvent, exec_bind_of_ok (exec_get leftServer),
            exec_bind_of_ok (exec_get rightServer)]
          by_cases inLeft : clientFd ∈ leftServer.connected
          · rw [if_pos inLeft, if_pos (initial.server.connected inLeft)]
            exact coupled (coupled_handleTcpSocketActivity parse _ _ _ _)
          · rw [if_neg inLeft]
            by_cases inRight : clientFd ∈ rightServer.connected
            · rw [if_pos inRight]
              have silent : (Event.tcpActivity context clientFd peername
                  received).isRequest = false := by
                simpa [Process.keeps, Process.privileged, inLeft] using visible
              exact initial.step_right parse silent inLeft
            · rw [if_neg inRight]
              exact initial
      | udpActivity context sockfd datagram =>
          exact coupled (coupled_handleUdpSocketActivity parse _ _ _)
      | unixActivity context accepted received =>
          exact coupled (coupled_handleUnixConnection _ _ _)
      | fifoActivity context opened received =>
          exact coupled (coupled_checkAlerts _ _ _)

end Steps

/-- Deleting the requests without authority from a run leaves the final
supplies as they are, if those requests are harmless where they are
handled. -/
theorem supplies_privilegedEvents {parse : Bytes → Option Json}
    {supplies : Supplies} {events : List Event}
    (harmless : GuardedRun (Process.step parse) (Process.Harmless parse)
      (.running (.initial supplies)) events) :
    (serverRun parse supplies
        (privilegedEvents parse supplies events)).server.supplies =
      (serverRun parse supplies events).server.supplies := by
  have related : ProcessShadows (serverRun parse supplies events)
      (serverRun parse supplies (privilegedEvents parse supplies events)) := by
    refine purge_related (fun left right event => .step parse) ?_
      ⟨rfl, rfl, Finset.Subset.refl _⟩
    exact harmless.mono fun process event harmless hidden other initial =>
      initial.step_left parse hidden harmless
  exact related.server.supplies.symm

/-! ## Concrete runs -/

theorem supplies_privilegedEvents_of_two_datagrams :
    (serverRun parseUpdates .zero
        (privilegedEvents parseUpdates .zero
          [updateDatagram adminUser,
            updateDatagram (ascii "guest")])).server.supplies =
      (serverRun parseUpdates .zero
        [updateDatagram adminUser,
          updateDatagram (ascii "guest")]).server.supplies := by
  refine supplies_privilegedEvents ⟨?_, ?_, trivial⟩
  · intro _ unprivileged
    have authority : (Process.running (.initial .zero)).privileged parseUpdates
        (updateDatagram adminUser) = true := by decide +kernel
    exact (Bool.false_ne_true (unprivileged.symm.trans authority)).elim
  · intro _ _ request parsed
    obtain rfl : hostRequest (ascii "update") (ascii "guest") = request :=
      Option.some.inj parsed
    refine ⟨fun message found hostname present => ?_,
      fun hostname present => ⟨fun _ _ => ?_, fun _ => ?_, fun _ => ?_⟩⟩
    · obtain rfl : .string (ascii "update") = message := Option.some.inj found
      obtain rfl : .string (ascii "guest") = hostname := Option.some.inj present
      decide
    · decide
    · decide
    · decide

/-- An update on a connection that never authenticated changes the
supplies. -/
theorem not_supplies_privilegedEvents :
    ¬ ∀ (parse : Bytes → Option Json) (supplies : Supplies)
      (events : List Event),
      (serverRun parse supplies
          (privilegedEvents parse supplies events)).server.supplies =
        (serverRun parse supplies events).server.supplies := by
  intro same
  have meat := congrArg (fun supplies => supplies.food.meat)
    (same parseUpdates .zero
      [.tcpConnection .attached .ipv6 (some 8),
        .tcpActivity .attached 8 true
          (.bytes (hostRequestText (ascii "update") (ascii "guest")))])
  revert meat
  decide +kernel

end ShelterServer
