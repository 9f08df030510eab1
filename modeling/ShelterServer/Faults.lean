import ShelterServer.Events

/-!
# Faults of the request handlers

Which faults each handler can stop with.  The supplies are accessed through
NULL only where a segment is not attached, and a string function meets NULL
exactly where a compared member is not a string.
-/

namespace ShelterServer

open Foundations Faulting

section Supplies

variable {allowed : Fault → Prop} {access : SegmentAccess}

theorem faultsOnly_currentSupplies
    (null : ¬ access.Granted → allowed .nullSupplies) :
    FaultsOnly allowed (currentSupplies access) := by
  refine .bind .get fun server => ?_
  by_cases granted : access.Granted
  · rw [convertSuppliesToJson, if_pos granted.1, if_pos granted.2]
    exact .pure _
  · split
    · exact .throw (null granted)
    · exact .pure _

theorem faultsOnly_sendJson (peer : Peer) (reply : Reply) :
    FaultsOnly allowed (sendJson peer reply) :=
  .modify _

theorem faultsOnly_sendStatus (peer : Peer)
    (null : ¬ access.Granted → allowed .nullSupplies) :
    FaultsOnly allowed (sendStatus (sendJson peer) access) :=
  .bind (faultsOnly_currentSupplies null) fun _ => faultsOnly_sendJson _ _

theorem faultsOnly_sendSummary (peer : Peer) {context : RequestContext}
    (null : ¬ context.summaryAccess.Granted → allowed .nullSupplies) :
    FaultsOnly allowed (sendSummary (sendJson peer) context) := by
  refine .bind (.bind (faultsOnly_currentSupplies null) fun _ => ?_)
    fun _ => faultsOnly_sendJson _ _
  exact .bind .get fun _ => .pure _

theorem faultsOnly_updateSupplies (request : Json)
    (null : ¬ access.Granted → allowed .nullSupplies) :
    FaultsOnly allowed (updateSupplies access request) := by
  refine .bind (.modify _) fun _ => .bind .get fun server => ?_
  by_cases granted : access.Granted
  · rw [updateSuppliesFromJson_of_granted granted]
    exact .modify _
  · split
    · exact .modify _
    · exact .bind (.modify _) fun _ => .throw (null granted)

end Supplies

/-! ## What a request must provide -/

/-- The members that the TCP handler compares are strings: `message` if it is
present, and `hostname` if it is present in an authentication request. -/
def Json.TcpStrings (request : Json) : Prop :=
  ∀ message, request.getObjectItem (ascii "message") = some message →
    message.valuestring ≠ none ∧
      (message.valuestring = some (ascii "authenticateme") → ∀ hostname,
        request.getObjectItem (ascii "hostname") = some hostname →
          hostname.valuestring ≠ none)

/-- The members that the UDP handler compares are strings: if both are
present, `message` is, and so is `hostname` in an update request. -/
def Json.UdpStrings (request : Json) : Prop :=
  ∀ message, request.getObjectItem (ascii "message") = some message →
    ∀ hostname, request.getObjectItem (ascii "hostname") = some hostname →
      message.valuestring ≠ none ∧
        (message.valuestring = some (ascii "update") →
          hostname.valuestring ≠ none)

/-- The segments that the answer to a TCP request reads are attached. -/
def RequestContext.TcpSegments (context : RequestContext) (request : Json) :
    Prop :=
  (request.Requests (ascii "status") → context.access.Granted) ∧
    (request.Requests (ascii "summary") → context.summaryAccess.Granted)

/-- The segments that the answer to a UDP request reads or writes are
attached. -/
def RequestContext.UdpSegments (context : RequestContext) (request : Json) :
    Prop :=
  ∀ hostname, request.getObjectItem (ascii "hostname") = some hostname →
    (request.Requests (ascii "update") →
      hostname.valuestring = some adminUser → context.access.Granted) ∧
    (request.Requests (ascii "status") → context.access.Granted) ∧
    (request.Requests (ascii "summary") → context.summaryAccess.Granted)

/-! ## The handlers -/

section Handlers

variable {allowed : Fault → Prop}

theorem faultsOnly_authenticateTcpClient (context : RequestContext)
    (clientFd : Nat) {request : Json}
    (null : ∀ hostname,
      request.getObjectItem (ascii "hostname") = some hostname →
        hostname.valuestring = none → allowed .nullString) :
    FaultsOnly allowed (authenticateTcpClient context clientFd request) := by
  unfold authenticateTcpClient
  split
  · exact .pure _
  · rename_i hostname found
    rw [stringOperand_bind]
    split
    · rename_i operand
      exact .throw (null hostname found operand)
    · refine .ite (fun _ => ?_) fun _ => ?_
      · exact .bind (.modify _) fun _ => .bind (.modify _) fun _ => .pure _
      · exact .bind (.modify _) fun _ => .bind (.modify _) fun _ => .pure _

theorem faultsOnly_answerTcpRequest {context : RequestContext} (clientFd : Nat)
    {value : Bytes} (request : Json)
    (status : value = ascii "status" → ¬ context.access.Granted →
      allowed .nullSupplies)
    (summary : value = ascii "summary" → ¬ context.summaryAccess.Granted →
      allowed .nullSupplies) :
    FaultsOnly allowed (answerTcpRequest context clientFd value request) := by
  refine .ite (fun isStatus => ?_) fun _ => .ite (fun _ => ?_) fun _ =>
    .ite (fun isSummary => ?_) fun _ => ?_
  · refine .bind (.modify _) fun _ => .bind (.modify _) fun _ => ?_
    exact .bind (faultsOnly_sendStatus _ (status isStatus)) fun _ => .pure _
  · refine .bind (.modify _) fun _ => .bind (.modify _) fun _ => ?_
    refine .ite (fun granted => ?_) fun _ => .pure _
    exact .bind (faultsOnly_updateSupplies _ fun refused =>
      (refused granted).elim) fun _ => .pure _
  · refine .bind (.modify _) fun _ => ?_
    exact .bind (faultsOnly_sendSummary _ (summary isSummary)) fun _ => .pure _
  · exact .bind (.modify _) fun _ => .pure _

theorem faultsOnly_handleTcpJson {context : RequestContext} (clientFd : Nat)
    {request : Json} (null : ¬ request.TcpStrings → allowed .nullString)
    (supplies : ¬ context.TcpSegments request → allowed .nullSupplies) :
    FaultsOnly allowed (handleTcpJson context clientFd request) := by
  unfold handleTcpJson
  split
  · exact .pure _
  · rename_i message found
    rw [stringOperand_bind]
    split
    · rename_i operand
      exact .throw (null fun strings => (strings message found).1 operand)
    · rename_i value operand
      refine .ite (fun authenticates => ?_) fun _ => ?_
      · refine faultsOnly_authenticateTcpClient _ _ fun hostname present none => ?_
        refine null fun strings => ?_
        exact (strings message found).2 (operand.trans (congrArg _ authenticates))
          hostname present none
      · refine faultsOnly_answerTcpRequest _ _ (fun isStatus refused => ?_)
          fun isSummary refused => ?_
        · refine supplies fun segments => refused (segments.1 ?_)
          exact Json.requests_of_found found
            (operand.trans (congrArg _ isStatus))
        · refine supplies fun segments => refused (segments.2 ?_)
          exact Json.requests_of_found found
            (operand.trans (congrArg _ isSummary))

theorem faultsOnly_answerUdpRequest {context : RequestContext}
    (clientAddr : SockaddrStorage) {message hostname : Json} (request : Json)
    (null : (message.valuestring = none ∨
      message.valuestring = some (ascii "update") ∧
        hostname.valuestring = none) → allowed .nullString)
    (update : message.valuestring = some (ascii "update") →
      hostname.valuestring = some adminUser → ¬ context.access.Granted →
      allowed .nullSupplies)
    (status : message.valuestring = some (ascii "status") →
      ¬ context.access.Granted → allowed .nullSupplies)
    (summary : message.valuestring = some (ascii "summary") →
      ¬ context.summaryAccess.Granted → allowed .nullSupplies) :
    FaultsOnly allowed
      (answerUdpRequest context clientAddr message hostname request) := by
  rw [answerUdpRequest, stringOperand_bind]
  split
  · rename_i operand
    exact .throw (null (.inl operand))
  · rename_i value operand
    refine .ite (fun isUpdate => ?_) fun _ => .ite (fun isStatus => ?_) fun _ =>
      .ite (fun isSummary => ?_) fun _ => .pure _
    · have updates := operand.trans (congrArg _ isUpdate)
      rw [stringOperand_bind]
      split
      · rename_i authOperand
        exact .throw (null (.inr ⟨updates, authOperand⟩))
      · rename_i auth authOperand
        refine .ite (fun admin => ?_) fun _ => .bind (.modify _) fun _ => .pure _
        refine .bind (faultsOnly_updateSupplies _ ?_) fun _ =>
          .bind (.modify _) fun _ => .pure _
        exact update updates (authOperand.trans (congrArg _ admin))
    · refine .bind (.modify _) fun _ => .bind ?_ fun _ => .pure _
      exact faultsOnly_sendStatus _
        (status (operand.trans (congrArg _ isStatus)))
    · refine .bind (.modify _) fun _ => .bind ?_ fun _ => .pure _
      exact faultsOnly_sendSummary _
        (summary (operand.trans (congrArg _ isSummary)))

theorem faultsOnly_handleUdpJson {context : RequestContext} (sockfd : Nat)
    (datagram : Datagram) {request : Json}
    (null : ¬ request.UdpStrings → allowed .nullString)
    (supplies : ¬ context.UdpSegments request → allowed .nullSupplies) :
    FaultsOnly allowed (handleUdpJson context sockfd datagram request) := by
  refine .bind (.modify _) fun _ => ?_
  split
  · exact .pure _
  · rename_i message messageFound
    split
    · exact .pure _
    · rename_i hostname hostnameFound
      refine faultsOnly_answerUdpRequest _ _ (fun absent => ?_)
        (fun updates admin refused => ?_) (fun isStatus refused => ?_)
        fun isSummary refused => ?_
      · refine null fun strings => ?_
        obtain ⟨present, compared⟩ :=
          strings message messageFound hostname hostnameFound
        rcases absent with none | ⟨updates, none⟩
        · exact present none
        · exact compared updates none
      · refine supplies fun segments => refused ?_
        exact (segments hostname hostnameFound).1
          (Json.requests_of_found messageFound updates) admin
      · refine supplies fun segments => refused ?_
        exact (segments hostname hostnameFound).2.1
          (Json.requests_of_found messageFound isStatus)
      · refine supplies fun segments => refused ?_
        exact (segments hostname hostnameFound).2.2
          (Json.requests_of_found messageFound isSummary)

variable (parse : Bytes → Option Json)

theorem faultsOnly_checkTcpClientsMessages {context : RequestContext}
    (clientFd : Nat) {received : Received}
    (full : ∀ fault, tcpRequest parse received = .error fault → allowed fault)
    (null : ∀ request, tcpRequest parse received = .ok (some request) →
      ¬ request.TcpStrings → allowed .nullString)
    (supplies : ∀ request, tcpRequest parse received = .ok (some request) →
      ¬ context.TcpSegments request → allowed .nullSupplies) :
    FaultsOnly allowed
      (checkTcpClientsMessages parse context clientFd received) := by
  rw [checkTcpClientsMessages, receiveTcpJson_eq]
  split
  · rename_i request returned
    rw [pure_bind]
    split
    · exact .pure _
    · exact faultsOnly_handleTcpJson _ (null _ returned) (supplies _ returned)
  · rename_i fault stopped
    exact .throw (full fault stopped)

theorem faultsOnly_checkUdpClientsMessages {context : RequestContext}
    (sockfd : Nat) {datagram : Datagram}
    (null : ∀ request, udpRequest parse datagram.received = some request →
      ¬ request.UdpStrings → allowed .nullString)
    (supplies : ∀ request, udpRequest parse datagram.received = some request →
      ¬ context.UdpSegments request → allowed .nullSupplies) :
    FaultsOnly allowed
      (checkUdpClientsMessages parse context sockfd datagram) := by
  rw [checkUdpClientsMessages, receiveUdpJson_eq, pure_bind]
  split
  · exact .pure _
  · rename_i request returned
    exact faultsOnly_handleUdpJson _ _ (null _ returned) (supplies _ returned)

/-! ## The loop's dispatch -/

theorem faultsOnly_closeTcpClient (clientFd : Nat) :
    FaultsOnly allowed (closeTcpClient clientFd) :=
  .bind (.modify _) fun _ => .bind (.modify _) fun _ => .modify _

theorem faultsOnly_keepOrClose (context : RequestContext) (clientFd : Nat)
    (served : Bool) :
    FaultsOnly allowed (keepOrClose context clientFd served) :=
  .ite (fun _ => .pure _) fun _ =>
    .bind (.modify _) fun _ => faultsOnly_closeTcpClient _

theorem faultsOnly_acceptTcpConnection (context : RequestContext)
    (family : PeerFamily) (clientFd : Nat) :
    FaultsOnly allowed (acceptTcpConnection context family clientFd) :=
  .bind (.modify _) fun _ => .bind (.modify _) fun _ =>
    .bind (.modify _) fun _ => .modify _

theorem faultsOnly_handleTcpSocketActivity {context : RequestContext}
    {clientFd : Nat} {peername : Bool} {received : Received}
    (check : peername = true → FaultsOnly allowed
      (checkTcpClientsMessages parse context clientFd received)) :
    FaultsOnly allowed
      (handleTcpSocketActivity parse context clientFd peername received) := by
  refine .ite (fun named => ?_) fun _ => faultsOnly_closeTcpClient _
  exact .bind (check named) fun served => faultsOnly_keepOrClose _ _ served

theorem faultsOnly_handleUnixConnection (context : RequestContext)
    (accepted : Bool) {received : Received}
    (full : ∀ data, received = .bytes data → bufferSize ≤ data.length →
      allowed .outOfBounds) :
    FaultsOnly allowed (handleUnixConnection context accepted received) := by
  refine .ite (fun _ => ?_) fun _ => .pure _
  split
  · exact .pure _
  · exact .pure _
  · rename_i data _
    split
    · rename_i refused
      by_cases room : data.length < bufferSize
      · obtain ⟨buffer, stored, _, _⟩ :=
          receiveAndTerminate_of_lt le_rfl room.le room context.stack
        rw [handleUnixConnectionBuffer, stored] at refused
        cases refused
      · exact .throw (full data rfl (Nat.le_of_not_lt room))
    · exact .bind (.modify _) fun _ => .modify _

theorem faultsOnly_checkAlerts (context : RequestContext) (opened : Bool)
    (received : Received) :
    FaultsOnly allowed (checkAlerts context opened received) := by
  refine .ite (fun _ => ?_) fun _ => .pure _
  split
  · exact .pure _
  · exact .pure _
  · refine .bind (.modify _) fun _ => .bind (.modify _) fun _ => ?_
    refine .bind (.modify _) fun _ => .bind (.modify _) fun _ => ?_
    refine .bind (.modify _) fun _ => ?_
    split
    · exact .pure _
    · exact .modify _

end Handlers

end ShelterServer
