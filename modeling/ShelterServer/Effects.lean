import ShelterServer.Events

/-!
# What the handlers may change

Most of what a handler does is quiet: it leaves the supplies and the client
tables alone and adds to the trace neither an update nor a report of the
supplies.  A transitive relation that contains the quiet steps and the reports
holds between the first and the last state of a handler if it holds for the
updates and the changes of the client tables, which are left as premises.
-/

namespace ShelterServer

open Foundations Faulting

/-- Actions that neither update nor report the supplies, and open or close no
connection. -/
def Action.quiet : Action → Bool
  | .logEvent _ | .sendTcp _ _ | .sendUdp _ _ => true
  | .reply _ .authSuccess | .reply _ .authFailure => true
  | .reply _ (.status _) | .reply _ (.summary _) => false
  | .accepted _ | .closed _ | .updateSupplies _ => false

structure Quiet (before after : Server) : Prop where
  supplies : after.supplies = before.supplies
  tcpClients : after.tcpClients = before.tcpClients
  udpClients : after.udpClients = before.udpClients
  connected : after.connected = before.connected
  trace : ∃ actions, after.trace = before.trace ++ actions ∧
    ∀ action ∈ actions, action.quiet = true

theorem Quiet.refl (server : Server) : Quiet server server where
  supplies := rfl
  tcpClients := rfl
  udpClients := rfl
  connected := rfl
  trace := ⟨[], by simp, by simp⟩

theorem Quiet.trans {before middle after : Server}
    (first : Quiet before middle) (second : Quiet middle after) :
    Quiet before after where
  supplies := second.supplies.trans first.supplies
  tcpClients := second.tcpClients.trans first.tcpClients
  udpClients := second.udpClients.trans first.udpClients
  connected := second.connected.trans first.connected
  trace := by
    obtain ⟨early, firstTrace, firstQuiet⟩ := first.trace
    obtain ⟨late, secondTrace, secondQuiet⟩ := second.trace
    refine ⟨early ++ late, ?_, ?_⟩
    · rw [secondTrace, firstTrace, List.append_assoc]
    · intro action member
      rcases List.mem_append.mp member with inEarly | inLate
      · exact firstQuiet action inEarly
      · exact secondQuiet action inLate

instance : Std.Refl Quiet := ⟨Quiet.refl⟩

instance : IsTrans Server Quiet := ⟨fun _ _ _ => Quiet.trans⟩

theorem Quiet.act {server : Server} {actions : List Action}
    (quiet : ∀ action ∈ actions, action.quiet = true) :
    Quiet server (server.act actions) where
  supplies := rfl
  tcpClients := rfl
  udpClients := rfl
  connected := rfl
  trace := ⟨actions, rfl, quiet⟩

/-! ## Quiet steps -/

theorem quiet_logEvent (message : Bytes) : Within Quiet (logEvent message) :=
  .modify fun _ => .act (by simp [Action.quiet])

theorem quiet_recordEmergency (keepalived event : Bytes) :
    Within Quiet (recordEmergency keepalived event) :=
  .modify fun _ => ⟨rfl, rfl, rfl, rfl, [], by simp, by simp⟩

theorem quiet_sendToAllTcpClients (message : Bytes) :
    Within Quiet (sendToAllTcpClients message) :=
  .modify fun _ => .act (by simp [Action.quiet])

theorem quiet_sendToAllUdpClients (message : Bytes) :
    Within Quiet (sendToAllUdpClients message) :=
  .modify fun _ => .act (by simp [Action.quiet])

theorem quiet_sendJson (peer : Peer) {reply : Reply}
    (quiet : (Action.reply peer reply).quiet = true) :
    Within Quiet (sendJson peer reply) :=
  .modify fun _ => .act (by simpa using quiet)

theorem quiet_stringOperand (item : Json) :
    Within Quiet (stringOperand item) := by
  unfold stringOperand
  split
  · exact .throw _
  · exact .pure _

theorem quiet_countAlert (entry : Entry) : Within Quiet (countAlert entry) :=
  .modify fun _ => ⟨rfl, rfl, rfl, rfl, [], by simp, by simp⟩

theorem quiet_announceAlert (timestamp message : Bytes) :
    Within Quiet (announceAlert timestamp message) := by
  refine .bind (quiet_logEvent _) fun _ => ?_
  refine .bind (quiet_recordEmergency _ _) fun _ => ?_
  refine .bind (quiet_sendToAllTcpClients _) fun _ => ?_
  refine .bind (quiet_sendToAllUdpClients _) fun _ => ?_
  refine .bind (quiet_logEvent _) fun _ => ?_
  split
  · exact .pure _
  · exact quiet_countAlert _

theorem quiet_checkAlerts (context : RequestContext) (opened : Bool)
    (received : Received) :
    Within Quiet (checkAlerts context opened received) := by
  refine .ite (fun _ => ?_) fun _ => .pure _
  split
  · exact .pure _
  · exact .pure _
  · split
    · exact .throw _
    · exact quiet_announceAlert _ _

theorem quiet_handleUnixConnection (context : RequestContext)
    (accepted : Bool) (received : Received) :
    Within Quiet (handleUnixConnection context accepted received) := by
  refine .ite (fun _ => ?_) fun _ => .pure _
  split
  · exact .pure _
  · exact .pure _
  · split
    · exact .throw _
    · exact .bind (quiet_sendToAllTcpClients _) fun _ => quiet_logEvent _

/-! ## The request handlers -/

/-- A reflexive and transitive relation that contains what the UDP handler
does besides recording its client and passing on an update. -/
structure UdpRespected (relation : Server → Server → Prop) : Prop where
  refl : ∀ server, relation server server
  trans : ∀ {before middle after}, relation before middle →
    relation middle after → relation before after
  logEvent : ∀ message, Within relation (logEvent message)
  status : ∀ clientAddr access,
    Within relation (sendStatus (sendJsonToUdpClient clientAddr) access)
  summary : ∀ clientAddr context,
    Within relation (sendSummary (sendJsonToUdpClient clientAddr) context)

namespace UdpRespected

variable {relation : Server → Server → Prop}

theorem answerUdpRequest (respected : UdpRespected relation)
    (context : RequestContext) (clientAddr : SockaddrStorage)
    {message hostname request : Json}
    (update : message.valuestring = some (ascii "update") →
      hostname.valuestring = some adminUser →
      Within relation (updateSupplies context.access request)) :
    Within relation
      (answerUdpRequest context clientAddr message hostname request) := by
  have : Std.Refl relation := ⟨respected.refl⟩
  have : IsTrans Server relation := ⟨fun _ _ _ => respected.trans⟩
  rw [ShelterServer.answerUdpRequest, stringOperand_bind]
  split
  · exact .throw _
  · rename_i value operand
    refine .ite (fun updates => ?_) fun _ => .ite (fun _ => ?_) fun _ =>
      .ite (fun _ => ?_) fun _ => .pure _
    · rw [stringOperand_bind]
      split
      · exact .throw _
      · rename_i auth authOperand
        refine .ite (fun admin => ?_) fun _ => ?_
        · refine .bind (update (operand.trans (congrArg _ updates))
            (authOperand.trans (congrArg _ admin))) fun _ => ?_
          exact .bind (respected.logEvent _) fun _ => .pure _
        · exact .bind (respected.logEvent _) fun _ => .pure _
    · refine .bind (respected.logEvent _) fun _ => ?_
      exact .bind (respected.status _ _) fun _ => .pure _
    · refine .bind (respected.logEvent _) fun _ => ?_
      exact .bind (respected.summary _ _) fun _ => .pure _

theorem handleUdpJson (respected : UdpRespected relation)
    (context : RequestContext) (sockfd : Nat) (datagram : Datagram)
    {request : Json}
    (record : Within relation (recordUdpClient (datagram.client sockfd)))
    (update : request.Requests (ascii "update") → request.NamesAdmin →
      Within relation (updateSupplies context.access request)) :
    Within relation (handleUdpJson context sockfd datagram request) := by
  have : Std.Refl relation := ⟨respected.refl⟩
  have : IsTrans Server relation := ⟨fun _ _ _ => respected.trans⟩
  refine .bind record fun _ => ?_
  split
  · exact .pure _
  · rename_i message messageFound
    split
    · exact .pure _
    · rename_i hostname hostnameFound
      refine respected.answerUdpRequest context _ fun updates admin => ?_
      exact update (Json.requests_of_found messageFound updates)
        (Json.namesAdmin_of_found hostnameFound admin)

variable (parse : Bytes → Option Json)

theorem checkUdpClientsMessages (respected : UdpRespected relation)
    (context : RequestContext) (sockfd : Nat) {datagram : Datagram}
    (record : Within relation (recordUdpClient (datagram.client sockfd)))
    (update : ∀ request, udpRequest parse datagram.received = some request →
      request.Requests (ascii "update") → request.NamesAdmin →
      Within relation (updateSupplies context.access request)) :
    Within relation
      (checkUdpClientsMessages parse context sockfd datagram) := by
  have : Std.Refl relation := ⟨respected.refl⟩
  rw [ShelterServer.checkUdpClientsMessages, receiveUdpJson_eq, pure_bind]
  split
  · exact .pure _
  · rename_i request returned
    exact respected.handleUdpJson context sockfd datagram record
      (update _ returned)

theorem handleUdpSocketActivity (respected : UdpRespected relation)
    (context : RequestContext) (sockfd : Nat) {datagram : Datagram}
    (record : Within relation (recordUdpClient (datagram.client sockfd)))
    (update : ∀ request, udpRequest parse datagram.received = some request →
      request.Requests (ascii "update") → request.NamesAdmin →
      Within relation (updateSupplies context.access request)) :
    Within relation
      (handleUdpSocketActivity parse context sockfd datagram) := by
  have : Std.Refl relation := ⟨respected.refl⟩
  have : IsTrans Server relation := ⟨fun _ _ _ => respected.trans⟩
  exact .bind (respected.checkUdpClientsMessages parse context sockfd record
    update) fun _ => .pure _

end UdpRespected

/-- A relation that contains the quiet steps and the reports of the
supplies. -/
structure Respected (relation : Server → Server → Prop) : Prop where
  trans : ∀ {before middle after}, relation before middle →
    relation middle after → relation before after
  quiet : ∀ {before after}, Quiet before after → relation before after
  status : ∀ peer access, Within relation (sendStatus (sendJson peer) access)
  summary : ∀ peer context,
    Within relation (sendSummary (sendJson peer) context)

namespace Respected

variable {relation : Server → Server → Prop} {α β : Type}

theorem of_quiet (respected : Respected relation) {action : Handler α}
    (quiet : Within Quiet action) : Within relation action :=
  quiet.mono fun _ _ => respected.quiet

theorem pure (respected : Respected relation) (value : α) :
    Within relation (pure value : Handler α) :=
  respected.of_quiet (.pure value)

theorem bind (respected : Respected relation) {action : Handler α}
    {next : α → Handler β} (first : Within relation action)
    (rest : ∀ value, Within relation (next value)) :
    Within relation (action >>= next) :=
  have : IsTrans Server relation := ⟨fun _ _ _ => respected.trans⟩
  .bind first rest

theorem quiet_bind (respected : Respected relation) {action : Handler α}
    {next : α → Handler β} (first : Within Quiet action)
    (rest : ∀ value, Within relation (next value)) :
    Within relation (action >>= next) :=
  respected.bind (respected.of_quiet first) rest

/-- Keeping what a view shows, for a view that neither the trace nor a quiet
step influences. -/
theorem of_view {View : Type} {view : Server → View}
    (act : ∀ server actions, view (server.act actions) = view server)
    (quiet : ∀ before after, Quiet before after → view after = view before) :
    Respected fun before after => view after = view before where
  trans first second := second.trans first
  quiet := quiet _ _
  status peer access := by
    intro start
    rw [exec_sendStatus]
    split
    · rfl
    · exact act start _
  summary peer context := by
    intro start
    rw [exec_sendSummary]
    split
    · rfl
    · exact act start _

theorem authenticateTcpClient (respected : Respected relation)
    (context : RequestContext) (clientFd : Nat) (request : Json) :
    Within relation
      (authenticateTcpClient context clientFd request) := by
  unfold ShelterServer.authenticateTcpClient
  split
  · exact respected.pure _
  · refine respected.quiet_bind (quiet_stringOperand _) fun value => ?_
    refine .ite (fun _ => ?_) fun _ => ?_
    · refine respected.quiet_bind (quiet_logEvent _) fun _ => ?_
      exact respected.quiet_bind (quiet_sendJson _ rfl) fun _ =>
        respected.pure _
    · refine respected.quiet_bind (quiet_logEvent _) fun _ => ?_
      exact respected.quiet_bind (quiet_sendJson _ rfl) fun _ =>
        respected.pure _

theorem answerTcpRequest (respected : Respected relation)
    (context : RequestContext) (clientFd : Nat) {value : Bytes}
    {request : Json}
    (update : value = ascii "update" → context.access.Granted →
      Within relation (updateSupplies context.access request)) :
    Within relation (answerTcpRequest context clientFd value request) := by
  refine .ite (fun _ => ?_) fun _ => .ite (fun updates => ?_) fun _ =>
    .ite (fun _ => ?_) fun _ => ?_
  · refine respected.quiet_bind (quiet_recordEmergency _ _) fun _ => ?_
    refine respected.quiet_bind (quiet_logEvent _) fun _ => ?_
    exact respected.bind (respected.status _ _) fun _ => respected.pure _
  · refine respected.quiet_bind (quiet_recordEmergency _ _) fun _ => ?_
    refine respected.quiet_bind (quiet_logEvent _) fun _ => ?_
    refine .ite (fun granted => ?_) fun _ => respected.pure _
    exact respected.bind (update updates granted) fun _ => respected.pure _
  · refine respected.quiet_bind (quiet_logEvent _) fun _ => ?_
    exact respected.bind (respected.summary _ _) fun _ => respected.pure _
  · exact respected.quiet_bind (quiet_logEvent _) fun _ => respected.pure _

theorem handleTcpJson (respected : Respected relation)
    (context : RequestContext) (clientFd : Nat) {request : Json}
    (update : request.Requests (ascii "update") → context.access.Granted →
      Within relation (updateSupplies context.access request)) :
    Within relation (handleTcpJson context clientFd request) := by
  unfold ShelterServer.handleTcpJson
  split
  · exact respected.pure _
  · rename_i message found
    rw [stringOperand_bind]
    split
    · exact respected.of_quiet (.throw _)
    · rename_i value operand
      refine .ite (fun _ => respected.authenticateTcpClient _ _ _) fun _ => ?_
      refine respected.answerTcpRequest context clientFd fun updates => ?_
      exact update (Json.requests_of_found found
        (operand.trans (congrArg _ updates)))

theorem udp (respected : Respected relation) : UdpRespected relation where
  refl server := respected.quiet (.refl server)
  trans := respected.trans
  logEvent message := respected.of_quiet (quiet_logEvent message)
  status _ := respected.status _
  summary _ := respected.summary _

variable (parse : Bytes → Option Json)

theorem checkTcpClientsMessages (respected : Respected relation)
    (context : RequestContext) (clientFd : Nat) {received : Received}
    (update : ∀ request, tcpRequest parse received = .ok (some request) →
      request.Requests (ascii "update") → context.access.Granted →
      Within relation (updateSupplies context.access request)) :
    Within relation
      (checkTcpClientsMessages parse context clientFd received) := by
  rw [ShelterServer.checkTcpClientsMessages, receiveTcpJson_eq]
  split
  · rename_i request returned
    rw [pure_bind]
    split
    · exact respected.pure _
    · exact respected.handleTcpJson context clientFd (update _ returned)
  · exact respected.of_quiet (.throw _)

theorem handleTcpSocketActivity (respected : Respected relation)
    (context : RequestContext) (clientFd : Nat) {peername : Bool}
    {received : Received} (close : Within relation (closeTcpClient clientFd))
    (update : ∀ request, peername = true →
      tcpRequest parse received = .ok (some request) →
      request.Requests (ascii "update") → context.access.Granted →
      Within relation (updateSupplies context.access request)) :
    Within relation
      (handleTcpSocketActivity parse context clientFd peername received) := by
  refine .ite (fun named => ?_) fun _ => close
  have check := respected.checkTcpClientsMessages parse context clientFd
    fun request => update request named
  refine respected.bind check fun served => ?_
  refine .ite (fun _ => respected.pure _) fun _ => ?_
  exact respected.quiet_bind (quiet_logEvent _) fun _ => close

/-- The rule for one event of the loop. -/
theorem handleEvent (respected : Respected relation) {event : Event}
    (accept : ∀ context family clientFd start,
      event = .tcpConnection context family (some clientFd) →
      clientFd ∉ start.connected → relation start
        (exec (acceptTcpConnection context family clientFd) start).2)
    (close : ∀ clientFd, Within relation (closeTcpClient clientFd))
    (record : ∀ context sockfd datagram,
      event = .udpActivity context sockfd datagram →
        Within relation (recordUdpClient (datagram.client sockfd)))
    (update : ∀ request, event.Updates parse request →
      Within relation (updateSupplies event.context.access request)) :
    Within relation (handleEvent parse event) := by
  cases event with
  | tcpConnection context family accepted =>
      cases accepted with
      | none => exact respected.pure _
      | some clientFd =>
          refine .get_bind fun start => ?_
          split
          · exact respected.pure _ start
          · rename_i fresh
            exact accept context family clientFd start rfl fresh
  | tcpActivity context clientFd peername received =>
      refine .get_bind fun start => ?_
      split
      · refine respected.handleTcpSocketActivity parse context clientFd
          (close clientFd) (fun request named returned updates granted => ?_)
          start
        exact update request ⟨named, returned, updates, granted⟩
      · exact respected.pure _ start
  | udpActivity context sockfd datagram =>
      exact respected.udp.handleUdpSocketActivity parse context sockfd
        (record context sockfd datagram rfl) fun request returned updates admin =>
          update request ⟨returned, updates, admin⟩
  | unixActivity context accepted received =>
      exact respected.of_quiet (quiet_handleUnixConnection _ _ _)
  | fifoActivity context opened received =>
      exact respected.of_quiet (quiet_checkAlerts _ _ _)

end Respected

end ShelterServer
