import ShelterServer.Effects
import ShelterServer.SupplyArithmetic

/-!
# The supplies as a ledger

The abstract ledger holds a total for each counter and replays the update
requests that the handlers passed to the supplies module, in handling order.
In every state of a run the supplies are that ledger, and every status or
summary reply reports the ledger of the updates before it.
-/

namespace ShelterServer

open Foundations Faulting

/-! ## What a trace says about the supplies -/

/-- The update requests of a trace, in order. -/
def updatesIn (trace : List Action) : List Json :=
  trace.filterMap fun action =>
    match action with
    | .updateSupplies request => some request
    | _ => none

/-- The ledger after the updates of a trace. -/
def ledger (trace : List Action) : Counter → Int :=
  replay ((updatesIn trace).map Json.amount)

/-- The number at a counter's place in an object with both sections. -/
def Json.numberAt (supplies : Json) (counter : Counter) : Option Int :=
  match (supplies.getObjectItem counter.sectionKey).bind
      (·.getObjectItem counter.key) with
  | some (.number value) => some value
  | _ => none

/-- What a reply reports for a counter. -/
def Reply.reported : Reply → Counter → Option Int
  | .status supplies, counter => supplies.numberAt counter
  | .summary report, counter =>
      (report.getObjectItem (ascii "supplies")).bind (·.numberAt counter)
  | _, _ => none

/-- The reply is a status or a summary. -/
def Reply.isReport : Reply → Bool
  | .status _ | .summary _ => true
  | .authSuccess | .authFailure => false

/-- Every report of a trace tells the ledger of the updates before it. -/
def ReportsFollow (trace : List Action) : Prop :=
  ∀ before peer reply, before ++ [.reply peer reply] <+: trace →
    reply.isReport = true →
      ∀ counter, reply.reported counter = some (ledger before counter)

/-- No addition that the updates cause exceeds `INT_MAX`. -/
def SumsBounded (updates : List Json) : Prop :=
  ∀ front request, front ++ [request] <+: updates →
    ∀ counter amount, request.amount counter = some amount →
      replay (front.map Json.amount) counter + amount ≤ intMax

structure FollowsLedger (server : Server) : Prop where
  supplies : ∀ counter,
    server.supplies.counter counter = ledger server.trace counter
  reports : ReportsFollow server.trace

@[simp] theorem updatesIn_append (front back : List Action) :
    updatesIn (front ++ back) = updatesIn front ++ updatesIn back :=
  List.filterMap_append

theorem updatesIn_of_quiet {actions : List Action}
    (quiet : ∀ action ∈ actions, action.quiet = true) :
    updatesIn actions = [] := by
  rw [updatesIn, List.filterMap_eq_nil_iff]
  intro action member
  have silent := quiet action member
  cases action with
  | updateSupplies request => cases silent
  | _ => rfl

theorem ledger_concat (trace : List Action) (action : Action)
    (other : ∀ request, action ≠ .updateSupplies request) :
    ledger (trace ++ [action]) = ledger trace := by
  have none : updatesIn [action] = [] := by
    cases action with
    | updateSupplies request => exact (other request rfl).elim
    | _ => rfl
  rw [ledger, updatesIn_append, none, List.append_nil]
  rfl

theorem ledger_updateSupplies (trace : List Action) (request : Json) :
    ledger (trace ++ [.updateSupplies request]) =
      post (ledger trace) request.amount := by
  rw [ledger, updatesIn_append, List.map_append]
  exact replay_concat _ _

theorem reportsFollow_concat {trace : List Action} {action : Action}
    (follows : ReportsFollow trace)
    (last : ∀ peer reply, action = .reply peer reply →
      reply.isReport = true →
        ∀ counter, reply.reported counter = some (ledger trace counter)) :
    ReportsFollow (trace ++ [action]) := by
  intro before peer reply initial report
  rcases List.prefix_concat_iff.mp initial with whole | earlier
  · obtain ⟨rfl, same⟩ := List.append_inj' whole rfl
    exact last peer reply (List.singleton_inj.mp same).symm report
  · exact follows before peer reply earlier report

theorem reportsFollow_append_quiet {trace actions : List Action}
    (follows : ReportsFollow trace)
    (quiet : ∀ action ∈ actions, action.quiet = true) :
    ReportsFollow (trace ++ actions) := by
  induction actions using List.reverseRecOn with
  | nil => simpa using follows
  | append_singleton actions action induction =>
      rw [← List.append_assoc]
      refine reportsFollow_concat (induction fun earlier member =>
        quiet earlier (List.mem_append_left _ member)) ?_
      rintro peer reply rfl report
      have silent := quiet (.reply peer reply) (by simp)
      cases reply with
      | authSuccess => cases report
      | authFailure => cases report
      | status _ => cases silent
      | summary _ => cases silent

theorem SumsBounded.of_prefix {front updates : List Json}
    (bounded : SumsBounded updates) (initial : front <+: updates) :
    SumsBounded front :=
  fun earlier request inside =>
    bounded earlier request (inside.trans initial)

/-- A single update starts from zero and cannot overflow. -/
theorem sumsBounded_singleton (request : Json) : SumsBounded [request] := by
  intro front other initial counter amount named
  have short := initial.length_le
  obtain rfl : front = [] := by
    rw [← List.length_eq_zero_iff]
    simpa using short
  rw [List.map_nil, replay_nil, zero_add]
  exact (Json.inInt_of_amount named).2

/-! ## Steps -/

/-- The trace grows, and the ledger is followed as long as its sums are
bounded. -/
structure KeepsLedger (before after : Server) : Prop where
  trace : before.trace <+: after.trace
  follows : FollowsLedger before → SumsBounded (updatesIn after.trace) →
    FollowsLedger after

theorem updatesIn_isPrefix {front trace : List Action}
    (initial : front <+: trace) : updatesIn front <+: updatesIn trace := by
  obtain ⟨back, rfl⟩ := initial
  rw [updatesIn_append]
  exact List.prefix_append _ _

theorem KeepsLedger.trans {before middle after : Server}
    (first : KeepsLedger before middle) (second : KeepsLedger middle after) :
    KeepsLedger before after where
  trace := first.trace.trans second.trace
  follows follows bounded :=
    second.follows (first.follows follows
      (bounded.of_prefix (updatesIn_isPrefix second.trace))) bounded

/-- Nothing happens to the supplies and nothing is said about them. -/
theorem KeepsLedger.of_silent {before after : Server} {actions : List Action}
    (supplies : after.supplies = before.supplies)
    (trace : after.trace = before.trace ++ actions)
    (silent : ∀ action ∈ actions, action.quiet = true) :
    KeepsLedger before after := by
  refine ⟨⟨actions, trace.symm⟩, fun follows _ => ⟨fun counter => ?_, ?_⟩⟩
  · rw [supplies, follows.supplies, trace, ledger, ledger,
      updatesIn_append, updatesIn_of_quiet silent, List.append_nil]
  · rw [trace]
    exact reportsFollow_append_quiet follows.reports silent

theorem KeepsLedger.of_quiet {before after : Server}
    (quiet : Quiet before after) : KeepsLedger before after := by
  obtain ⟨actions, trace, silent⟩ := quiet.trace
  exact .of_silent quiet.supplies trace silent

/-- A reply that reports the current supplies. -/
theorem KeepsLedger.report (server : Server) (peer : Peer) {reply : Reply}
    (reports : ∀ counter,
      reply.reported counter = some (server.supplies.counter counter)) :
    KeepsLedger server (server.act [.reply peer reply]) where
  trace := List.prefix_append _ _
  follows follows _ := by
    refine ⟨fun counter => ?_, reportsFollow_concat follows.reports ?_⟩
    · rw [Server.act, ledger_concat _ _ (by simp)]
      exact follows.supplies counter
    · rintro _ _ same _ counter
      obtain ⟨-, rfl⟩ := Action.reply.inj same
      rw [reports, follows.supplies]

/-- Opening and closing connections. -/
theorem KeepsLedger.act_of_ne {server : Server} {action : Action}
    (update : ∀ request, action ≠ .updateSupplies request)
    (reply : ∀ peer reply, action ≠ .reply peer reply) :
    KeepsLedger server (server.act [action]) where
  trace := List.prefix_append _ _
  follows follows _ := by
    refine ⟨fun counter => ?_, reportsFollow_concat follows.reports ?_⟩
    · rw [Server.act, ledger_concat _ _ update]
      exact follows.supplies counter
    · exact fun peer answer same => (reply peer answer same).elim

/-- The encoder puts every counter at its own place. -/
theorem numberAt_convertSuppliesToJson {access : SegmentAccess}
    {supplies : Supplies} {encoded : Json}
    (converted : convertSuppliesToJson access supplies = some encoded)
    (counter : Counter) :
    encoded.numberAt counter = some (supplies.counter counter) := by
  unfold convertSuppliesToJson at converted
  split at converted
  · split at converted
    · obtain rfl := Option.some.inj converted
      cases counter <;> rfl
    · cases converted
  · cases converted

theorem respected_keepsLedger : Respected KeepsLedger where
  trans := KeepsLedger.trans
  quiet := KeepsLedger.of_quiet
  status peer access := by
    intro server
    rw [exec_sendStatus]
    split
    · exact .of_quiet (.refl server)
    · rename_i encoded converted
      exact .report server peer (numberAt_convertSuppliesToJson converted)
  summary peer context := by
    intro server
    rw [exec_sendSummary]
    split
    · exact .of_quiet (.refl server)
    · rename_i encoded converted
      exact .report server peer (numberAt_convertSuppliesToJson converted)

/-- One update of the segments is one posting to the ledger. -/
theorem keepsLedger_updateSupplies {access : SegmentAccess}
    (granted : access.Granted) (request : Json) :
    Within KeepsLedger (updateSupplies access request) := by
  intro server
  rw [exec_updateSupplies_of_granted granted]
  refine ⟨List.prefix_append _ _, fun follows bounded => ⟨fun counter => ?_, ?_⟩⟩
  · change (server.supplies.update request).counter counter =
      ledger (server.trace ++ [.updateSupplies request]) counter
    rw [Supplies.counter_update, ledger_updateSupplies, follows.supplies]
    cases named : request.amount counter with
    | none => exact (post_of_none named).symm
    | some amount =>
        rw [post_of_some named]
        refine addAmount_of_inInt (inInt_add_of_le (replay_nonneg _ _)
          (Json.inInt_of_amount named) ?_)
        refine bounded (updatesIn server.trace) request ?_ counter amount named
        exact (updatesIn_append server.trace [.updateSupplies request]).symm ▸
          List.prefix_rfl
  · exact reportsFollow_concat follows.reports (by simp)

theorem keepsLedger_acceptTcpConnection (context : RequestContext)
    (family : PeerFamily) (clientFd : Nat) :
    Within KeepsLedger (acceptTcpConnection context family clientFd) := by
  refine respected_keepsLedger.bind
    (fun _ => .act_of_ne (by simp) (by simp)) fun _ => ?_
  refine respected_keepsLedger.quiet_bind (quiet_logEvent _) fun _ => ?_
  refine respected_keepsLedger.bind (fun server => ?_) fun _ => ?_
  · refine .of_silent rfl rfl fun action member => ?_
    split at member
    · rw [List.mem_singleton.mp member]
      rfl
    · cases member
  · exact fun server => .of_silent rfl (List.append_nil _).symm (by simp)

theorem keepsLedger_closeTcpClient (clientFd : Nat) :
    Within KeepsLedger (closeTcpClient clientFd) := by
  refine respected_keepsLedger.bind
    (fun _ => .act_of_ne (by simp) (by simp)) fun _ => ?_
  refine respected_keepsLedger.bind (fun server => ?_) fun _ server => ?_
  · exact .of_silent rfl (List.append_nil _).symm (by simp)
  · refine .of_silent rfl rfl fun action member => ?_
    split at member
    · rw [List.mem_singleton.mp member]
      rfl
    · cases member

theorem keepsLedger_recordUdpClient (client : UDPClientData) :
    Within KeepsLedger (recordUdpClient client) := by
  intro server
  refine .of_silent rfl rfl fun action member => ?_
  split at member
  · rw [List.mem_singleton.mp member]
    rfl
  · cases member

/-! ## Which updates a handler passes -/

/-- The updates that a step adds to the trace. -/
def AddsUpdates (requests : List Json) (before after : Server) : Prop :=
  updatesIn after.trace = updatesIn before.trace ++ requests

theorem AddsUpdates.of_silent {before after : Server} {actions : List Action}
    (trace : after.trace = before.trace ++ actions)
    (silent : updatesIn actions = []) : AddsUpdates [] before after := by
  rw [AddsUpdates, trace, updatesIn_append, silent]

theorem respected_addsNoUpdates : Respected (AddsUpdates []) where
  trans first second := by
    rw [AddsUpdates, second, first, List.append_nil]
  quiet quiet := by
    obtain ⟨actions, trace, silent⟩ := quiet.trace
    exact .of_silent trace (updatesIn_of_quiet silent)
  status peer access := by
    intro server
    rw [exec_sendStatus]
    split
    · exact (List.append_nil _).symm
    · exact .of_silent rfl rfl
  summary peer context := by
    intro server
    rw [exec_sendSummary]
    split
    · exact (List.append_nil _).symm
    · exact .of_silent rfl rfl

theorem addsNoUpdates_acceptTcpConnection (context : RequestContext)
    (family : PeerFamily) (clientFd : Nat) :
    Within (AddsUpdates []) (acceptTcpConnection context family clientFd) := by
  refine respected_addsNoUpdates.bind (fun _ => .of_silent rfl rfl) fun _ => ?_
  refine respected_addsNoUpdates.quiet_bind (quiet_logEvent _) fun _ => ?_
  refine respected_addsNoUpdates.bind (fun _ => .of_silent rfl ?_)
    fun _ _ => .of_silent (List.append_nil _).symm rfl
  split <;> rfl

theorem addsNoUpdates_closeTcpClient (clientFd : Nat) :
    Within (AddsUpdates []) (closeTcpClient clientFd) := by
  refine respected_addsNoUpdates.bind (fun _ => .of_silent rfl rfl) fun _ => ?_
  refine respected_addsNoUpdates.bind
    (fun _ => .of_silent (List.append_nil _).symm rfl)
    fun _ _ => .of_silent rfl ?_
  split <;> rfl

theorem addsNoUpdates_recordUdpClient (client : UDPClientData) :
    Within (AddsUpdates []) (recordUdpClient client) := by
  refine fun server => .of_silent rfl ?_
  split <;> rfl

/-- The TCP handler passes an update request once and keeps the connection. -/
theorem exec_handleTcpJson_update {context : RequestContext} (clientFd : Nat)
    {request : Json} (granted : context.access.Granted)
    (updates : request.Requests (ascii "update")) (server : Server) :
    ∃ state,
      exec (handleTcpJson context clientFd request) server =
          (.ok true, state) ∧
        AddsUpdates [request] server state := by
  obtain ⟨message, found, operand⟩ := Option.bind_eq_some_iff.mp updates
  have other : ascii "update" ≠ ascii "authenticateme" := by decide
  have notStatus : ascii "update" ≠ ascii "status" := by decide
  simp only [handleTcpJson, found, stringOperand_bind, operand, if_neg other,
    answerTcpRequest, if_neg notStatus, if_true]
  rw [recordEmergency, exec_bind_of_ok (exec_modify _ _), logEvent,
    exec_bind_of_ok (exec_modify _ _), if_pos ⟨granted.1, granted.2⟩,
    exec_bind_of_ok (exec_updateSupplies_of_granted granted request _)]
  refine ⟨_, rfl, ?_⟩
  simp [AddsUpdates, Server.act, updatesIn]

/-- The UDP handler passes an update request of the admin once. -/
theorem exec_handleUdpJson_update {context : RequestContext} (sockfd : Nat)
    (datagram : Datagram) {request : Json}
    (granted : context.access.Granted)
    (updates : request.Requests (ascii "update"))
    (admin : request.NamesAdmin) (server : Server) :
    AddsUpdates [request] server
      (exec (handleUdpJson context sockfd datagram request) server).2 := by
  obtain ⟨message, found, operand⟩ := Option.bind_eq_some_iff.mp updates
  obtain ⟨hostname, present, auth⟩ := Option.bind_eq_some_iff.mp admin
  rw [handleUdpJson, recordUdpClient, exec_bind_of_ok (exec_modify _ _)]
  simp only [found, present, answerUdpRequest, stringOperand_bind, operand,
    auth, if_true]
  rw [exec_bind_of_ok (exec_updateSupplies_of_granted granted request _),
    logEvent, exec_bind_of_ok (exec_modify _ _)]
  have recorded := addsNoUpdates_recordUdpClient (datagram.client sockfd) server
  simpa [AddsUpdates, Server.act, updatesIn, recordUdpClient] using recorded

/-! ## Runs -/

section Runs

variable (parse : Bytes → Option Json)

/-- The request that a running server passes to `update_supplies_from_json`
while it handles an event. -/
def Process.passes (process : Process) : Event → List Json
  | .tcpActivity context clientFd true received =>
      if process.fault = none ∧ clientFd ∈ process.server.connected ∧
          context.access.Granted then
        match tcpRequest parse received with
        | .ok (some request) =>
            if request.Requests (ascii "update") then [request] else []
        | _ => []
      else []
  | .udpActivity _ _ datagram =>
      if process.fault = none then
        match udpRequest parse datagram.received with
        | some request =>
            if request.Requests (ascii "update") ∧ request.NamesAdmin then
              [request]
            else []
        | none => []
      else []
  | _ => []

theorem keepsLedger_handleEvent {event : Event}
    (granted : event.context.access.Granted) :
    Within KeepsLedger (handleEvent parse event) :=
  respected_keepsLedger.handleEvent parse
    (fun context family clientFd start _ _ =>
      keepsLedger_acceptTcpConnection context family clientFd start)
    keepsLedger_closeTcpClient
    (fun _ _ _ _ => keepsLedger_recordUdpClient _)
    fun request _ => keepsLedger_updateSupplies granted request

theorem keepsLedger_step {process : Process} {event : Event}
    (granted : event.context.access.Granted) :
    KeepsLedger process.server (process.step parse event).server := by
  unfold Process.step
  split
  · rw [Process.server_after]
    exact keepsLedger_handleEvent parse granted process.server
  · exact .of_quiet (.refl _)

theorem addsNoUpdates_handleEvent {event : Event}
    (other : ∀ request, ¬ event.Updates parse request) :
    Within (AddsUpdates []) (handleEvent parse event) :=
  respected_addsNoUpdates.handleEvent parse
    (fun context family clientFd start _ _ =>
      addsNoUpdates_acceptTcpConnection context family clientFd start)
    addsNoUpdates_closeTcpClient
    (fun _ _ _ _ => addsNoUpdates_recordUdpClient _)
    fun request updates => (other request updates).elim

theorem addsUpdates_tcpActivity {context : RequestContext} {clientFd : Nat}
    {peername : Bool} {received : Received} {server : Server}
    (granted : context.access.Granted)
    (connected : clientFd ∈ server.connected) :
    AddsUpdates
      ((Process.running server).passes parse
        (.tcpActivity context clientFd peername received)) server
      (exec (handleEvent parse
        (.tcpActivity context clientFd peername received)) server).2 := by
  by_cases updates : ∃ request,
      (Event.tcpActivity context clientFd peername received).Updates parse
        request
  · obtain ⟨request, rfl, returned, requests, _⟩ := updates
    obtain ⟨state, executed, adds⟩ :=
      exec_handleTcpJson_update clientFd granted requests server
    have checked : exec (checkTcpClientsMessages parse context clientFd
        received) server = (.ok true, state) := by
      rw [checkTcpClientsMessages, receiveTcpJson_eq, returned, pure_bind]
      exact executed
    rw [handleEvent, exec_bind_of_ok (exec_get server), if_pos connected,
      handleTcpSocketActivity, if_pos rfl, exec_bind_of_ok checked]
    simp only [Process.passes, Process.running, connected, granted, and_self,
      if_true, returned, requests]
    exact adds
  · have other := not_exists.mp updates
    have none : (Process.running server).passes parse
        (.tcpActivity context clientFd peername received) = [] := by
      cases peername with
      | false => rfl
      | true =>
          simp only [Process.passes, Process.running, connected, granted,
            and_self, if_true]
          split
          · rename_i request returned
            rw [if_neg fun requests =>
              other request ⟨rfl, returned, requests, granted⟩]
          · rfl
    rw [none]
    exact addsNoUpdates_handleEvent parse other server

theorem addsUpdates_udpActivity {context : RequestContext} {sockfd : Nat}
    {datagram : Datagram} {server : Server}
    (granted : context.access.Granted) :
    AddsUpdates
      ((Process.running server).passes parse
        (.udpActivity context sockfd datagram)) server
      (exec (handleEvent parse (.udpActivity context sockfd datagram))
        server).2 := by
  by_cases updates : ∃ request,
      (Event.udpActivity context sockfd datagram).Updates parse request
  · obtain ⟨request, returned, requests, admin⟩ := updates
    have adds := exec_handleUdpJson_update sockfd datagram granted requests
      admin server
    have final : (exec (handleEvent parse
        (.udpActivity context sockfd datagram)) server).2 =
          (exec (handleUdpJson context sockfd datagram request) server).2 := by
      rw [handleEvent, handleUdpSocketActivity, checkUdpClientsMessages,
        receiveUdpJson_eq, returned, pure_bind, exec_bind]
      rcases exec (handleUdpJson context sockfd datagram request) server with
        ⟨result, state⟩
      cases result <;> rfl
    rw [final]
    simp only [Process.passes, Process.running, returned, requests, admin,
      and_self, if_true]
    exact adds
  · have other := not_exists.mp updates
    have none : (Process.running server).passes parse
        (.udpActivity context sockfd datagram) = [] := by
      simp only [Process.passes, Process.running, if_true]
      split
      · rename_i request returned
        rw [if_neg fun both => other request ⟨returned, both.1, both.2⟩]
      · rfl
    rw [none]
    exact addsNoUpdates_handleEvent parse other server

/-- One event of a run passes exactly the update it should. -/
theorem addsUpdates_step {process : Process} {event : Event}
    (granted : event.context.access.Granted) :
    AddsUpdates (process.passes parse event) process.server
      (process.step parse event).server := by
  rcases process with ⟨server, fault⟩
  cases fault with
  | some fault =>
      have none : (Process.mk server (some fault)).passes parse event = [] := by
        match event with
        | .tcpActivity _ _ true _ => simp [Process.passes]
        | .tcpActivity _ _ false _ => rfl
        | .udpActivity _ _ _ => simp [Process.passes]
        | .tcpConnection _ _ _ => rfl
        | .unixActivity _ _ _ => rfl
        | .fifoActivity _ _ _ => rfl
      rw [none]
      exact (List.append_nil _).symm
  | none =>
      change AddsUpdates ((Process.running server).passes parse event) server
        (Process.after (exec (handleEvent parse event) server)).server
      rw [Process.server_after]
      cases event with
      | tcpActivity context clientFd peername received =>
          by_cases connected : clientFd ∈ server.connected
          · exact addsUpdates_tcpActivity parse granted connected
          · have none : (Process.running server).passes parse
                (.tcpActivity context clientFd peername received) = [] := by
              cases peername <;>
                simp [Process.passes, Process.running, connected]
            rw [none, handleEvent, exec_bind_of_ok (exec_get server),
              if_neg connected]
            exact (List.append_nil _).symm
      | udpActivity context sockfd datagram =>
          exact addsUpdates_udpActivity parse granted
      | tcpConnection context family accepted =>
          exact addsNoUpdates_handleEvent parse (fun _ => id) server
      | unixActivity context accepted received =>
          exact addsNoUpdates_handleEvent parse (fun _ => id) server
      | fifoActivity context opened received =>
          exact addsNoUpdates_handleEvent parse (fun _ => id) server

/-- The updates that the handlers of a run pass on, in handling order. -/
def updatesPassed (supplies : Supplies) (events : List Event) : List Json :=
  observe (Process.step parse) (Process.passes parse)
    (.running (.initial supplies)) events

theorem updatesIn_serverRun {supplies : Supplies} {events : List Event}
    (granted : ∀ event ∈ events, event.context.access.Granted) :
    updatesIn (serverRun parse supplies events).server.trace =
      updatesPassed parse supplies events := by
  induction events using List.reverseRecOn with
  | nil => rfl
  | append_singleton events event induction =>
      have earlier := induction fun other member =>
        granted other (List.mem_append_left _ member)
      have last := granted event (List.mem_append_right _ (by simp))
      rw [updatesPassed, observe_concat, ← updatesPassed, ← earlier, serverRun,
        run_concat]
      exact addsUpdates_step parse last

theorem followsLedger_initial (access : SegmentAccess)
    (granted : access.Granted) (earlier : Supplies) :
    FollowsLedger
      (.initial (initSharedMemorySupplies access earlier)) := by
  refine ⟨fun counter => ?_, fun before peer reply initial _ => ?_⟩
  · rw [Server.initial, initSharedMemorySupplies_of_granted granted,
      Supplies.counter_zero]
    rfl
  · simp [Server.initial] at initial

/-- The relation of a run's first state to its last. -/
theorem keepsLedger_run {process : Process} {events : List Event}
    (granted : ∀ event ∈ events, event.context.access.Granted) :
    KeepsLedger process.server
      (run (Process.step parse) process events).server := by
  induction events generalizing process with
  | nil => exact .of_quiet (.refl _)
  | cons event events induction =>
      simp only [List.forall_mem_cons] at granted
      exact (keepsLedger_step parse granted.1).trans (induction granted.2)

/-- An event that passes no update to the supplies module changes no
counter. -/
theorem supplies_step_of_not_updates {process : Process} {event : Event}
    (other : ∀ request, ¬ event.Updates parse request) :
    (process.step parse event).server.supplies = process.server.supplies := by
  have respected :
      Respected fun before after => after.supplies = before.supplies :=
    .of_view (fun _ _ => rfl) fun _ _ quiet => quiet.supplies
  unfold Process.step
  split
  · rw [Process.server_after]
    exact respected.handleEvent parse (fun _ _ _ _ _ _ => rfl) (fun _ _ => rfl)
      (fun _ _ _ _ _ => rfl) (fun request updates => (other request updates).elim)
      process.server
  · rfl

end Runs

/-- What the ledger says about one state of a run. -/
structure RefinesLedger (updates : List Json) (server : Server) : Prop where
  updates : updatesIn server.trace = updates
  counters : ∀ counter,
    server.supplies.counter counter = ledger server.trace counter
  nonneg : ∀ counter, 0 ≤ server.supplies.counter counter
  reports : ReportsFollow server.trace

/-- Every state of a run refines the ledger, and events that pass no update
leave every counter alone. -/
theorem serverRun_refinesLedger {parse : Bytes → Option Json}
    {access : SegmentAccess} {earlier : Supplies} {events : List Event}
    (attached : access.Granted)
    (granted : ∀ event ∈ events, event.context.access.Granted)
    (bounded : SumsBounded
      (updatesPassed parse (initSharedMemorySupplies access earlier) events)) :
    (∀ front, front <+: events →
      RefinesLedger
        (updatesPassed parse (initSharedMemorySupplies access earlier) front)
        (serverRun parse (initSharedMemorySupplies access earlier)
          front).server) ∧
    ∀ front event, front ++ [event] <+: events →
      (∀ request, ¬ event.Updates parse request) →
      (serverRun parse (initSharedMemorySupplies access earlier)
          (front ++ [event])).server.supplies =
        (serverRun parse (initSharedMemorySupplies access earlier)
          front).server.supplies := by
  constructor
  · rintro front ⟨back, rfl⟩
    rw [← updatesIn_serverRun parse granted, serverRun, run_append] at bounded
    have later := @keepsLedger_run parse
      (serverRun parse (initSharedMemorySupplies access earlier) front) back
      fun event member => granted event (List.mem_append_right _ member)
    have earlierRun := @keepsLedger_run parse
      (.running (.initial (initSharedMemorySupplies access earlier))) front
      fun event member => granted event (List.mem_append_left _ member)
    have follows := earlierRun.follows
      (followsLedger_initial access attached earlier)
      (bounded.of_prefix (updatesIn_isPrefix later.trace))
    refine ⟨updatesIn_serverRun parse fun event member =>
        granted event (List.mem_append_left _ member),
      follows.supplies, fun counter => ?_, follows.reports⟩
    exact (follows.supplies counter).symm ▸ replay_nonneg _ counter
  · intro front event _ other
    rw [serverRun_concat]
    exact supplies_step_of_not_updates parse other

/-- A parser that knows an update and a status request. -/
def parseUpdateAndStatus : Bytes → Option Json :=
  Json.parseTable
    [(hostRequestText (ascii "update") adminUser,
        hostRequest (ascii "update") adminUser),
      (hostRequestText (ascii "status") adminUser,
        hostRequest (ascii "status") adminUser)]

/-- Two updates, each followed by a status request. -/
def updatesAndStatuses : List Event :=
  let status : Event := .udpActivity .attached 4
    ⟨.bytes (hostRequestText (ascii "status") adminUser), .loopback⟩
  [updateDatagram adminUser, status, updateDatagram adminUser, status]

theorem sumsBounded_two_updates :
    SumsBounded
      (List.replicate 2 (hostRequest (ascii "update") adminUser)) := by
  have second : ∀ counter,
      ∀ amount ∈ (hostRequest (ascii "update") adminUser).amount counter,
        replay ([hostRequest (ascii "update") adminUser].map Json.amount)
          counter + amount ≤ intMax := by
    intro counter
    cases counter <;> decide
  intro front request initial counter amount named
  have same : ∀ other ∈ front ++ [request],
      other = hostRequest (ascii "update") adminUser :=
    fun other member => List.eq_of_mem_replicate (initial.subset member)
  rcases front with _ | ⟨first, _ | ⟨next, front⟩⟩
  · exact sumsBounded_singleton request [] request List.prefix_rfl counter
      amount named
  · obtain rfl := same first (by simp)
    obtain rfl := same request (by simp)
    exact second counter amount named
  · have short := initial.length_le
    simp at short

theorem serverRun_refinesLedger_of_updatesAndStatuses :
    (∀ front, front <+: updatesAndStatuses →
      RefinesLedger
        (updatesPassed parseUpdateAndStatus
          (initSharedMemorySupplies ⟨true, true⟩ .zero) front)
        (serverRun parseUpdateAndStatus
          (initSharedMemorySupplies ⟨true, true⟩ .zero) front).server) ∧
    ∀ front event, front ++ [event] <+: updatesAndStatuses →
      (∀ request, ¬ event.Updates parseUpdateAndStatus request) →
      (serverRun parseUpdateAndStatus
          (initSharedMemorySupplies ⟨true, true⟩ .zero)
          (front ++ [event])).server.supplies =
        (serverRun parseUpdateAndStatus
          (initSharedMemorySupplies ⟨true, true⟩ .zero)
          front).server.supplies := by
  refine serverRun_refinesLedger (by decide) ?_ ?_
  · simp only [updatesAndStatuses, List.forall_mem_cons, List.not_mem_nil,
      false_imp_iff, implies_true, and_true]
    exact ⟨⟨rfl, rfl⟩, ⟨rfl, rfl⟩, ⟨rfl, rfl⟩, ⟨rfl, rfl⟩⟩
  · have updates : updatesPassed parseUpdateAndStatus
        (initSharedMemorySupplies ⟨true, true⟩ .zero) updatesAndStatuses =
          List.replicate 2 (hostRequest (ascii "update") adminUser) := rfl
    rw [updates]
    exact sumsBounded_two_updates

end ShelterServer
