import ShelterServer.Events

/-!
# Two servers side by side

A server shadows another when it has the same supplies and at least the same
connections.  Every handler, executed on both, comes to the same result and
keeps that relation: none of them decides anything on the rest of the state.
-/

namespace ShelterServer

open Foundations Faulting

/-- The right server has the same supplies and at least the connections of the
left. -/
structure Shadows (left right : Server) : Prop where
  supplies : left.supplies = right.supplies
  connected : left.connected ⊆ right.connected

/-- A change that neither side notices in its supplies and connections. -/
theorem coupled_modify {change : Server → Server}
    (supplies : ∀ server, (change server).supplies = server.supplies)
    (connected : ∀ server, (change server).connected = server.connected) :
    Coupled Shadows Eq (modify change : Handler PUnit) (modify change) := by
  refine .modify fun left right initial => ⟨?_, ?_⟩
  · rw [supplies, supplies, initial.supplies]
  · rw [connected, connected]
    exact initial.connected

theorem coupled_logEvent (message : Bytes) :
    Coupled Shadows Eq (logEvent message) (logEvent message) :=
  coupled_modify (fun _ => rfl) fun _ => rfl

theorem coupled_recordEmergency (keepalived event : Bytes) :
    Coupled Shadows Eq (recordEmergency keepalived event)
      (recordEmergency keepalived event) :=
  coupled_modify (fun _ => rfl) fun _ => rfl

theorem coupled_currentSupplies (access : SegmentAccess) :
    Coupled Shadows Eq (currentSupplies access) (currentSupplies access) := by
  refine .bind .get fun left right initial => ?_
  rw [initial.supplies]
  split
  · exact .throw _
  · exact .pure rfl

theorem coupled_sendStatus (peer : Peer) (access : SegmentAccess) :
    Coupled Shadows Eq (sendStatus (sendJson peer) access)
      (sendStatus (sendJson peer) access) :=
  .bind_same (coupled_currentSupplies access) fun _ =>
    coupled_modify (fun _ => rfl) fun _ => rfl

/-- The two summaries may report different alerts and events. -/
theorem coupled_createSummaryJson (context : RequestContext) :
    Coupled Shadows (fun _ _ => True) (createSummaryJson context)
      (createSummaryJson context) :=
  .bind_same (coupled_currentSupplies _) fun _ =>
    .bind .get fun _ _ _ => .pure trivial

theorem coupled_sendSummary (peer : Peer) (context : RequestContext) :
    Coupled Shadows Eq (sendSummary (sendJson peer) context)
      (sendSummary (sendJson peer) context) :=
  .bind (coupled_createSummaryJson context) fun _ _ _ =>
    .modify fun _ _ initial => ⟨initial.supplies, initial.connected⟩

theorem coupled_updateSupplies (access : SegmentAccess) (request : Json) :
    Coupled Shadows Eq (updateSupplies access request)
      (updateSupplies access request) := by
  refine .bind_same (coupled_modify (fun _ => rfl) fun _ => rfl) fun _ => ?_
  refine .bind .get fun left right initial => ?_
  rw [initial.supplies]
  split
  · exact .modify fun _ _ initial => ⟨rfl, initial.connected⟩
  · refine .bind_same (.modify fun _ _ initial => ⟨rfl, initial.connected⟩)
      fun _ => .throw _

theorem coupled_authenticateTcpClient (context : RequestContext)
    (clientFd : Nat) (request : Json) :
    Coupled Shadows Eq (authenticateTcpClient context clientFd request)
      (authenticateTcpClient context clientFd request) := by
  unfold authenticateTcpClient
  split
  · exact .pure rfl
  · rw [stringOperand_bind]
    split
    · exact .throw _
    · refine .ite ?_ ?_
      · exact .bind_same (coupled_logEvent _) fun _ =>
          .bind_same (coupled_modify (fun _ => rfl) fun _ => rfl)
            fun _ => .pure rfl
      · exact .bind_same (coupled_logEvent _) fun _ =>
          .bind_same (coupled_modify (fun _ => rfl) fun _ => rfl)
            fun _ => .pure rfl

theorem coupled_answerTcpRequest (context : RequestContext) (clientFd : Nat)
    (value : Bytes) (request : Json) :
    Coupled Shadows Eq (answerTcpRequest context clientFd value request)
      (answerTcpRequest context clientFd value request) := by
  refine .ite ?_ (.ite ?_ (.ite ?_ ?_))
  · refine .bind_same (coupled_recordEmergency _ _) fun _ => ?_
    refine .bind_same (coupled_logEvent _) fun _ => ?_
    exact .bind_same (coupled_sendStatus _ _) fun _ => .pure rfl
  · refine .bind_same (coupled_recordEmergency _ _) fun _ => ?_
    refine .bind_same (coupled_logEvent _) fun _ => ?_
    exact .ite (.bind_same (coupled_updateSupplies _ _) fun _ => .pure rfl)
      (.pure rfl)
  · refine .bind_same (coupled_logEvent _) fun _ => ?_
    exact .bind_same (coupled_sendSummary _ _) fun _ => .pure rfl
  · exact .bind_same (coupled_logEvent _) fun _ => .pure rfl

theorem coupled_handleTcpJson (context : RequestContext) (clientFd : Nat)
    (request : Json) :
    Coupled Shadows Eq (handleTcpJson context clientFd request)
      (handleTcpJson context clientFd request) := by
  unfold handleTcpJson
  split
  · exact .pure rfl
  · rw [stringOperand_bind]
    split
    · exact .throw _
    · exact .ite (coupled_authenticateTcpClient _ _ _)
        (coupled_answerTcpRequest _ _ _ _)

theorem coupled_answerUdpRequest (context : RequestContext)
    (clientAddr : SockaddrStorage) (message hostname request : Json) :
    Coupled Shadows Eq
      (answerUdpRequest context clientAddr message hostname request)
      (answerUdpRequest context clientAddr message hostname request) := by
  rw [answerUdpRequest, stringOperand_bind]
  split
  · exact .throw _
  · refine .ite ?_ (.ite ?_ (.ite ?_ (.pure rfl)))
    · rw [stringOperand_bind]
      split
      · exact .throw _
      · refine .ite ?_ ?_
        · refine .bind_same (coupled_updateSupplies _ _) fun _ => ?_
          exact .bind_same (coupled_logEvent _) fun _ => .pure rfl
        · exact .bind_same (coupled_logEvent _) fun _ => .pure rfl
    · refine .bind_same (coupled_logEvent _) fun _ => ?_
      exact .bind_same (coupled_sendStatus _ _) fun _ => .pure rfl
    · refine .bind_same (coupled_logEvent _) fun _ => ?_
      exact .bind_same (coupled_sendSummary _ _) fun _ => .pure rfl

theorem coupled_handleUdpJson (context : RequestContext) (sockfd : Nat)
    (datagram : Datagram) (request : Json) :
    Coupled Shadows Eq (handleUdpJson context sockfd datagram request)
      (handleUdpJson context sockfd datagram request) := by
  refine .bind_same (coupled_modify (fun _ => rfl) fun _ => rfl) fun _ => ?_
  split
  · exact .pure rfl
  · split
    · exact .pure rfl
    · exact coupled_answerUdpRequest _ _ _ _ _

theorem coupled_closeTcpClient (clientFd : Nat) :
    Coupled Shadows Eq (closeTcpClient clientFd) (closeTcpClient clientFd) := by
  refine .bind_same (coupled_modify (fun _ => rfl) fun _ => rfl) fun _ => ?_
  refine .bind_same (.modify fun _ _ initial => ?_) fun _ =>
    coupled_modify (fun _ => rfl) fun _ => rfl
  exact ⟨initial.supplies, Finset.erase_subset_erase _ initial.connected⟩

theorem coupled_acceptTcpConnection (context : RequestContext)
    (family : PeerFamily) (clientFd : Nat) :
    Coupled Shadows Eq (acceptTcpConnection context family clientFd)
      (acceptTcpConnection context family clientFd) := by
  refine .bind_same (coupled_modify (fun _ => rfl) fun _ => rfl) fun _ => ?_
  refine .bind_same (coupled_logEvent _) fun _ => ?_
  refine .bind_same (coupled_modify (fun _ => rfl) fun _ => rfl) fun _ => ?_
  refine .modify fun _ _ initial => ?_
  exact ⟨initial.supplies, Finset.insert_subset_insert _ initial.connected⟩

theorem coupled_announceAlert (timestamp message : Bytes) :
    Coupled Shadows Eq (announceAlert timestamp message)
      (announceAlert timestamp message) := by
  refine .bind_same (coupled_logEvent _) fun _ => ?_
  refine .bind_same (coupled_recordEmergency _ _) fun _ => ?_
  refine .bind_same (coupled_modify (fun _ => rfl) fun _ => rfl) fun _ => ?_
  refine .bind_same (coupled_modify (fun _ => rfl) fun _ => rfl) fun _ => ?_
  refine .bind_same (coupled_logEvent _) fun _ => ?_
  split
  · exact .pure rfl
  · exact coupled_modify (fun _ => rfl) fun _ => rfl

section Dispatch

variable (parse : Bytes → Option Json)

theorem coupled_handleTcpSocketActivity (context : RequestContext)
    (clientFd : Nat) (peername : Bool) (received : Received) :
    Coupled Shadows Eq
      (handleTcpSocketActivity parse context clientFd peername received)
      (handleTcpSocketActivity parse context clientFd peername received) := by
  refine .ite (.bind_same ?_ fun served => .ite (.pure rfl) ?_)
    (coupled_closeTcpClient _)
  · rw [checkTcpClientsMessages, receiveTcpJson_eq]
    split
    · rw [pure_bind]
      split
      · exact .pure rfl
      · exact coupled_handleTcpJson _ _ _
    · exact .throw _
  · exact .bind_same (coupled_logEvent _) fun _ => coupled_closeTcpClient _

theorem coupled_handleUdpSocketActivity (context : RequestContext)
    (sockfd : Nat) (datagram : Datagram) :
    Coupled Shadows Eq
      (handleUdpSocketActivity parse context sockfd datagram)
      (handleUdpSocketActivity parse context sockfd datagram) := by
  refine .bind_same ?_ fun _ => .pure rfl
  rw [checkUdpClientsMessages, receiveUdpJson_eq, pure_bind]
  split
  · exact .pure rfl
  · exact coupled_handleUdpJson _ _ _ _

theorem coupled_handleUnixConnection (context : RequestContext)
    (accepted : Bool) (received : Received) :
    Coupled Shadows Eq (handleUnixConnection context accepted received)
      (handleUnixConnection context accepted received) := by
  refine .ite ?_ (.pure rfl)
  split
  · exact .pure rfl
  · exact .pure rfl
  · split
    · exact .throw _
    · exact .bind_same (coupled_modify (fun _ => rfl) fun _ => rfl) fun _ =>
        coupled_logEvent _

theorem coupled_checkAlerts (context : RequestContext) (opened : Bool)
    (received : Received) :
    Coupled Shadows Eq (checkAlerts context opened received)
      (checkAlerts context opened received) := by
  refine .ite ?_ (.pure rfl)
  split
  · exact .pure rfl
  · exact .pure rfl
  · split
    · exact .throw _
    · exact coupled_announceAlert _ _

end Dispatch

end ShelterServer
