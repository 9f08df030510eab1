import ShelterServer.Effects
import ShelterServer.SupplyReplies

/-!
# Invariants of the server

The handlers change the state in few ways.  A property that each of them keeps
is kept by every handler, whatever is received, and so by every run.
-/

namespace ShelterServer

open Foundations Faulting

/-- The replies that the server can give in a state. -/
inductive Server.Gives (server : Server) : Reply → Prop
  | authSuccess : server.Gives .authSuccess
  | authFailure : server.Gives .authFailure
  | status : server.Gives (.status server.supplies.report)
  | summary (behindEmergencyInfo : Bytes) :
      server.Gives (.summary
        (server.summaryObject behindEmergencyInfo server.supplies.report))

/-- An update ends with these supplies, through NULL or not. -/
def UpdatesTo (access : SegmentAccess) (before : Supplies) (request : Json)
    (after : Supplies) : Prop :=
  updateSuppliesFromJson access before request = .updated after ∨
    updateSuppliesFromJson access before request = .nullAccess after

/-- A property that every change of the state keeps. -/
structure ServerInvariant (good : Server → Prop) : Prop where
  silent : ∀ {server actions}, good server →
    (∀ action ∈ actions, ∀ peer reply, action ≠ .reply peer reply) →
    good (server.act actions)
  answer : ∀ {server} peer {reply}, good server → server.Gives reply →
    good (server.act [.reply peer reply])
  recorded : ∀ {server} keepalived event, good server →
    good { server with emergencyInfo := updateEmergencyInfo keepalived event }
  counted : ∀ {server} entry, good server →
    good { server with
      entryAlertsCount := increaseEntryCount entry server.entryAlertsCount }
  moved : ∀ {server} tcpClients udpClients connected, good server →
    good { server with tcpClients, udpClients, connected }
  supplied : ∀ {server} access request {supplies}, good server →
    UpdatesTo access server.supplies request supplies →
    good { server with supplies }

/-- The property holds afterwards if it holds before. -/
abbrev Maintained (good : Server → Prop) (before after : Server) : Prop :=
  good before → good after

instance (good : Server → Prop) : Std.Refl (Maintained good) := ⟨fun _ => id⟩

instance (good : Server → Prop) : IsTrans Server (Maintained good) :=
  ⟨fun _ _ _ first second => second ∘ first⟩

namespace ServerInvariant

variable {good : Server → Prop}

theorem logEvent (invariant : ServerInvariant good) (message : Bytes) :
    Within (Maintained good) (logEvent message) :=
  .modify fun _ holds => invariant.silent holds (by simp)

theorem recordEmergency (invariant : ServerInvariant good)
    (keepalived event : Bytes) :
    Within (Maintained good) (recordEmergency keepalived event) :=
  .modify fun _ => invariant.recorded keepalived event

theorem stringOperand (item : Json) :
    Within (Maintained good) (stringOperand item) := by
  unfold ShelterServer.stringOperand
  split
  · exact .throw _
  · exact .pure _

theorem sendStatus (invariant : ServerInvariant good) (peer : Peer)
    (access : SegmentAccess) :
    Within (Maintained good) (sendStatus (sendJson peer) access) := by
  intro server holds
  rw [exec_sendStatus]
  by_cases granted : access.Granted
  · rw [convertSuppliesToJson_eq_report granted]
    exact invariant.answer peer holds .status
  · rw [convertSuppliesToJson_of_not_granted granted]
    exact holds

theorem sendSummary (invariant : ServerInvariant good) (peer : Peer)
    (context : RequestContext) :
    Within (Maintained good) (sendSummary (sendJson peer) context) := by
  intro server holds
  rw [exec_sendSummary]
  by_cases granted : context.summaryAccess.Granted
  · rw [convertSuppliesToJson_eq_report granted]
    exact invariant.answer peer holds (.summary _)
  · rw [convertSuppliesToJson_of_not_granted granted]
    exact holds

theorem updateSupplies (invariant : ServerInvariant good)
    (access : SegmentAccess) (request : Json) :
    Within (Maintained good) (updateSupplies access request) := by
  intro server holds
  have asked : good (server.act [.updateSupplies request]) :=
    invariant.silent holds (by simp)
  rw [ShelterServer.updateSupplies, exec_bind_of_ok (exec_modify _ _),
    exec_bind_of_ok (exec_get _)]
  split
  · rename_i supplies updated
    exact invariant.supplied access request asked (.inl updated)
  · rename_i supplies stopped
    exact invariant.supplied access request asked (.inr stopped)

theorem closeTcpClient (invariant : ServerInvariant good) (clientFd : Nat) :
    Within (Maintained good) (closeTcpClient clientFd) := by
  refine .bind (.modify fun _ holds => invariant.silent holds (by simp))
    fun _ => .bind (.modify fun _ => invariant.moved _ _ _)
    fun _ => .modify fun server holds => ?_
  refine invariant.silent (invariant.moved _ _ _ holds) ?_
  split <;> simp

theorem acceptTcpConnection (invariant : ServerInvariant good)
    (context : RequestContext) (family : PeerFamily) (clientFd : Nat) :
    Within (Maintained good)
      (acceptTcpConnection context family clientFd) := by
  refine .bind (.modify fun _ holds => invariant.silent holds (by simp))
    fun _ => .bind (invariant.logEvent _) fun _ =>
    .bind (.modify fun server holds => ?_) fun _ =>
    .modify fun _ => invariant.moved _ _ _
  refine invariant.silent (invariant.moved _ _ _ holds) ?_
  split <;> simp

theorem authenticateTcpClient (invariant : ServerInvariant good)
    (context : RequestContext) (clientFd : Nat) (request : Json) :
    Within (Maintained good)
      (authenticateTcpClient context clientFd request) := by
  have answers : ∀ {reply}, (∀ server : Server, server.Gives reply) →
      Within (Maintained good) (sendJsonToTcpClient clientFd reply) :=
    fun gives => .modify fun server holds =>
      invariant.answer _ holds (gives server)
  unfold ShelterServer.authenticateTcpClient
  split
  · exact .pure _
  · refine .bind (stringOperand _) fun value => .ite (fun _ => ?_) fun _ => ?_
    · exact .bind (invariant.logEvent _) fun _ =>
        .bind (answers fun _ => .authSuccess) fun _ => .pure _
    · exact .bind (invariant.logEvent _) fun _ =>
        .bind (answers fun _ => .authFailure) fun _ => .pure _

theorem answerTcpRequest (invariant : ServerInvariant good)
    (context : RequestContext) (clientFd : Nat) (value : Bytes)
    (request : Json) :
    Within (Maintained good)
      (answerTcpRequest context clientFd value request) := by
  refine .ite (fun _ => ?_) fun _ => .ite (fun _ => ?_) fun _ =>
    .ite (fun _ => ?_) fun _ => ?_
  · exact .bind (invariant.recordEmergency _ _) fun _ =>
      .bind (invariant.logEvent _) fun _ =>
      .bind (invariant.sendStatus _ _) fun _ => .pure _
  · refine .bind (invariant.recordEmergency _ _) fun _ =>
      .bind (invariant.logEvent _) fun _ => .ite (fun _ => ?_) fun _ => .pure _
    exact .bind (invariant.updateSupplies _ _) fun _ => .pure _
  · exact .bind (invariant.logEvent _) fun _ =>
      .bind (invariant.sendSummary _ _) fun _ => .pure _
  · exact .bind (invariant.logEvent _) fun _ => .pure _

theorem handleTcpJson (invariant : ServerInvariant good)
    (context : RequestContext) (clientFd : Nat) (request : Json) :
    Within (Maintained good) (handleTcpJson context clientFd request) := by
  unfold ShelterServer.handleTcpJson
  split
  · exact .pure _
  · refine .bind (stringOperand _) fun value => .ite (fun _ => ?_) fun _ => ?_
    · exact invariant.authenticateTcpClient context clientFd request
    · exact invariant.answerTcpRequest context clientFd value request

theorem udp (invariant : ServerInvariant good) :
    UdpRespected (Maintained good) where
  refl _ := id
  trans first second := second ∘ first
  logEvent := invariant.logEvent
  status _ := invariant.sendStatus _
  summary _ := invariant.sendSummary _

theorem announceAlert (invariant : ServerInvariant good)
    (timestamp message : Bytes) :
    Within (Maintained good) (announceAlert timestamp message) := by
  refine .bind (invariant.logEvent _) fun _ =>
    .bind (invariant.recordEmergency _ _) fun _ =>
    .bind (.modify fun _ holds => invariant.silent holds (by simp)) fun _ =>
    .bind (.modify fun _ holds => invariant.silent holds (by simp)) fun _ =>
    .bind (invariant.logEvent _) fun _ => ?_
  split
  · exact .pure _
  · exact .modify fun _ => invariant.counted _

variable (parse : Bytes → Option Json)

theorem handleTcpSocketActivity (invariant : ServerInvariant good)
    (context : RequestContext) (clientFd : Nat) (peername : Bool)
    (received : Received) :
    Within (Maintained good)
      (handleTcpSocketActivity parse context clientFd peername received) := by
  refine .ite (fun _ => ?_) fun _ => invariant.closeTcpClient clientFd
  refine .bind ?_ fun served => .ite (fun _ => .pure _) fun _ =>
    .bind (invariant.logEvent _) fun _ => invariant.closeTcpClient clientFd
  rw [checkTcpClientsMessages, receiveTcpJson_eq]
  split
  · rw [pure_bind]
    split
    · exact .pure _
    · exact invariant.handleTcpJson context clientFd _
  · exact .throw _

theorem handleEvent (invariant : ServerInvariant good) (event : Event) :
    Within (Maintained good) (handleEvent parse event) := by
  cases event with
  | tcpConnection context family accepted =>
      cases accepted with
      | none => exact .pure _
      | some clientFd =>
          refine .get_bind fun start => ?_
          split
          · exact id
          · exact invariant.acceptTcpConnection context family clientFd start
  | tcpActivity context clientFd peername received =>
      refine .get_bind fun start => ?_
      split
      · exact invariant.handleTcpSocketActivity parse context clientFd peername
          received start
      · exact id
  | udpActivity context sockfd datagram =>
      refine invariant.udp.handleUdpSocketActivity parse context sockfd ?_
        fun _ _ _ _ => invariant.updateSupplies _ _
      refine .modify fun server holds =>
        invariant.silent (invariant.moved _ _ _ holds) ?_
      split <;> simp
  | unixActivity context accepted received =>
      refine .ite (fun _ => ?_) fun _ => .pure _
      split
      · exact .pure _
      · exact .pure _
      · split
        · exact .throw _
        · exact .bind (.modify fun _ holds =>
            invariant.silent holds (by simp)) fun _ => invariant.logEvent _
  | fifoActivity context opened received =>
      refine .ite (fun _ => ?_) fun _ => .pure _
      split
      · exact .pure _
      · exact .pure _
      · split
        · exact .throw _
        · exact invariant.announceAlert _ _

theorem step (invariant : ServerInvariant good) {process : Process}
    (holds : good process.server) (event : Event) :
    good (process.step parse event).server := by
  unfold Process.step
  split
  · rw [Process.server_after]
    exact invariant.handleEvent parse event process.server holds
  · exact holds

/-- What holds at the start of a run holds throughout. -/
theorem serverRun (invariant : ServerInvariant good) {supplies : Supplies}
    (initial : good (.initial supplies)) (events : List Event) :
    good (serverRun parse supplies events).server := by
  induction events using List.reverseRecOn with
  | nil => exact initial
  | append_singleton events event induction =>
      rw [serverRun_concat]
      exact invariant.step parse induction event

end ServerInvariant

end ShelterServer
