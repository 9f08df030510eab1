import ShelterServer.EmergencyRecord
import ShelterServer.Noninterference

/-!
# The two transports

The same requests are answered by `check_tcp_clients_messages` and by
`check_udp_clients_messages`.  A request of the admin user is handled alike by
both up to the record of its event, which only the TCP handler writes, and up
to segments that are not attached, which only the TCP handler checks.
-/

namespace ShelterServer

open Foundations Faulting

/-- Equal texts, or texts that differ in one transport name. -/
def SameButTransport (tcp udp : Bytes) : Prop :=
  tcp = udp ∨ ∃ front back, tcp = front ++ ascii "TCP" ++ back ∧
    udp = front ++ ascii "UDP" ++ back

/-- The JSON values that were sent in reply. -/
def replies (trace : List Action) : List Json :=
  trace.filterMap fun action =>
    match action with
    | .reply _ reply => some reply.json
    | _ => none

/-- Two executions of a handler end alike, up to the transport. -/
structure TransportsAgree (tcp udp : Except Fault Bool × Server) : Prop where
  result : tcp.1 = udp.1
  supplies : tcp.2.supplies = udp.2.supplies
  entryAlertsCount : tcp.2.entryAlertsCount = udp.2.entryAlertsCount
  lastKeepalived : tcp.2.emergencyInfo.lastKeepalived.bytes =
    udp.2.emergencyInfo.lastKeepalived.bytes
  lastEvent : SameButTransport tcp.2.emergencyInfo.lastEvent.bytes
    udp.2.emergencyInfo.lastEvent.bytes
  replies : replies tcp.2.trace = replies udp.2.trace

/-- The record holds what the TCP handler would write for a request, up to
the transport. -/
def EmergencyInfo.HoldsEvent (info : EmergencyInfo) (context : RequestContext)
    (request : Json) : Prop :=
  ∀ event, request.recordedEvent context = some event →
    (updateEmergencyInfo context.timestamp event).lastKeepalived.bytes =
        info.lastKeepalived.bytes ∧
      SameButTransport
        (updateEmergencyInfo context.timestamp event).lastEvent.bytes
        info.lastEvent.bytes

/-- The segments that can be attached and the memory behind the record are
the same for two requests, and so is the clock. -/
structure RequestContext.SameCircumstances (tcp udp : RequestContext) :
    Prop where
  timestamp : tcp.timestamp = udp.timestamp
  access : tcp.access = udp.access
  summaryAccess : tcp.summaryAccess = udp.summaryAccess
  behindEmergencyInfo : tcp.behindEmergencyInfo = udp.behindEmergencyInfo

theorem RequestContext.SameCircumstances.refl (context : RequestContext) :
    context.SameCircumstances context :=
  ⟨rfl, rfl, rfl, rfl⟩

/-! ## The answers -/

/-- What an execution leaves apart from the record. -/
def answered (outcome : Except Fault Bool × Server) :
    Except Fault Bool × Supplies × EntryAlertsCount × List Json :=
  (outcome.1, outcome.2.supplies, outcome.2.entryAlertsCount,
    replies outcome.2.trace)

theorem transportsAgree_iff {tcp udp : Except Fault Bool × Server} :
    TransportsAgree tcp udp ↔
      answered tcp = answered udp ∧
        tcp.2.emergencyInfo.lastKeepalived.bytes =
          udp.2.emergencyInfo.lastKeepalived.bytes ∧
        SameButTransport tcp.2.emergencyInfo.lastEvent.bytes
          udp.2.emergencyInfo.lastEvent.bytes := by
  simp only [answered, Prod.mk.injEq]
  constructor
  · intro agree
    exact ⟨⟨agree.result, agree.supplies, agree.entryAlertsCount,
      agree.replies⟩, agree.lastKeepalived, agree.lastEvent⟩
  · rintro ⟨⟨result, supplies, counts, replies⟩, keepalived, event⟩
    exact ⟨result, supplies, counts, keepalived, event, replies⟩

theorem handleTcpJson_of_requests {request : Json} {value : Bytes}
    (requests : request.Requests value)
    (other : value ≠ ascii "authenticateme") (context : RequestContext)
    (clientFd : Nat) :
    handleTcpJson context clientFd request =
      answerTcpRequest context clientFd value request := by
  obtain ⟨message, found, operand⟩ := Option.bind_eq_some_iff.mp requests
  simp only [handleTcpJson, found, stringOperand_bind, operand, if_neg other]

theorem handleUdpJson_of_found {request message hostname : Json}
    (found : request.getObjectItem (ascii "message") = some message)
    (present : request.getObjectItem (ascii "hostname") = some hostname)
    (context : RequestContext) (sockfd : Nat) (datagram : Datagram) :
    handleUdpJson context sockfd datagram request =
      (do
        recordUdpClient (datagram.client sockfd)
        answerUdpRequest context datagram.source.storage message hostname
          request) := by
  simp only [handleUdpJson, found, present]

/-- A request of the admin user, once its source is recorded. -/
theorem handleUdpJson_of_requests {request : Json} {value : Bytes}
    (requests : request.Requests value) (admin : request.NamesAdmin)
    (context : RequestContext) (sockfd : Nat) (datagram : Datagram) :
    ∃ message hostname, message.valuestring = some value ∧
      hostname.valuestring = some adminUser ∧
      handleUdpJson context sockfd datagram request =
        (do
          recordUdpClient (datagram.client sockfd)
          answerUdpRequest context datagram.source.storage message hostname
            request) := by
  obtain ⟨message, found, operand⟩ := Option.bind_eq_some_iff.mp requests
  obtain ⟨hostname, present, auth⟩ := Option.bind_eq_some_iff.mp admin
  exact ⟨message, hostname, operand, auth,
    handleUdpJson_of_found found present context sockfd datagram⟩

theorem replies_append (front back : List Action) :
    replies (front ++ back) = replies front ++ replies back :=
  List.filterMap_append

theorem replies_logEvent (server : Server) (message : Bytes) :
    replies (server.act [.logEvent message]).trace = replies server.trace := by
  rw [Server.act, replies_append]
  exact List.append_nil _

/-- Recording the source of a datagram sends nothing. -/
theorem replies_withUdpClient (server : Server) (client : UDPClientData) :
    replies (server.withUdpClient client).trace = replies server.trace := by
  change replies (server.trace ++ _) = _
  rw [replies_append]
  split <;> exact List.append_nil _

theorem answered_sendStatus {left right : Server}
    (answers : replies left.trace = replies right.trace)
    (supplies : left.supplies = right.supplies)
    (counts : left.entryAlertsCount = right.entryAlertsCount)
    (leftPeer rightPeer : Peer) (access : SegmentAccess) :
    answered (exec (do
        sendStatus (sendJson leftPeer) access
        pure true) left) =
      answered (exec (do
        sendStatus (sendJson rightPeer) access
        pure true) right) := by
  rw [exec_bind, exec_bind, exec_sendStatus, exec_sendStatus, supplies]
  cases convertSuppliesToJson access right.supplies with
  | none => simp [answered, supplies, counts, answers]
  | some json =>
      change (_, _, _, replies (left.trace ++ _)) =
        (_, _, _, replies (right.trace ++ _))
      rw [replies_append, replies_append, answers]
      exact Prod.ext rfl (Prod.ext supplies (Prod.ext counts rfl))

theorem answered_sendSummary {left right : Server}
    (answers : replies left.trace = replies right.trace)
    (supplies : left.supplies = right.supplies)
    (counts : left.entryAlertsCount = right.entryAlertsCount)
    (info : left.emergencyInfo = right.emergencyInfo)
    (leftPeer rightPeer : Peer) {tcp udp : RequestContext}
    (same : tcp.SameCircumstances udp) :
    answered (exec (do
        sendSummary (sendJson leftPeer) tcp
        pure true) left) =
      answered (exec (do
        sendSummary (sendJson rightPeer) udp
        pure true) right) := by
  have reports : ∀ behind json,
      left.summaryObject behind json = right.summaryObject behind json := by
    intro behind json
    rw [Server.summaryObject, Server.summaryObject, counts, info]
  rw [exec_bind, exec_bind, exec_sendSummary, exec_sendSummary, supplies,
    same.summaryAccess, same.behindEmergencyInfo]
  cases convertSuppliesToJson udp.summaryAccess right.supplies with
  | none => simp [answered, supplies, counts, answers]
  | some json =>
      change (_, _, _, replies (left.trace ++ _)) =
        (_, _, _, replies (right.trace ++ _))
      rw [replies_append, replies_append, answers, reports]
      exact Prod.ext rfl (Prod.ext supplies (Prod.ext counts rfl))

/-- What a TCP handler has done before it replies. -/
def Server.afterTcpRequest (server : Server) (info : EmergencyInfo)
    (message : Bytes) : Server :=
  { server with emergencyInfo := info }.act [.logEvent message]

/-- What a UDP handler has done before it replies. -/
def Server.afterUdpRequest (server : Server) (client : UDPClientData)
    (message : Bytes) : Server :=
  (server.withUdpClient client).act [.logEvent message]

theorem afterTcpRequest_self (server : Server) (message : Bytes) :
    server.afterTcpRequest server.emergencyInfo message =
      server.act [.logEvent message] :=
  rfl

theorem supplies_afterRequest (server : Server) (info : EmergencyInfo)
    (client : UDPClientData) (tcpMessage udpMessage : Bytes) :
    (server.afterTcpRequest info tcpMessage).supplies =
      (server.afterUdpRequest client udpMessage).supplies :=
  rfl

theorem entryAlertsCount_afterRequest (server : Server) (info : EmergencyInfo)
    (client : UDPClientData) (tcpMessage udpMessage : Bytes) :
    (server.afterTcpRequest info tcpMessage).entryAlertsCount =
      (server.afterUdpRequest client udpMessage).entryAlertsCount :=
  rfl

theorem emergencyInfo_afterRequest (server : Server)
    (client : UDPClientData) (tcpMessage udpMessage : Bytes) :
    (server.afterTcpRequest server.emergencyInfo tcpMessage).emergencyInfo =
      (server.afterUdpRequest client udpMessage).emergencyInfo :=
  rfl

theorem replies_afterRequest (server : Server) (info : EmergencyInfo)
    (client : UDPClientData) (tcpMessage udpMessage : Bytes) :
    replies (server.afterTcpRequest info tcpMessage).trace =
      replies (server.afterUdpRequest client udpMessage).trace := by
  rw [Server.afterTcpRequest, Server.afterUdpRequest, replies_logEvent,
    replies_logEvent, replies_withUdpClient]

theorem answered_status (request : Json) (clientAddr : SockaddrStorage)
    (hostname : Json) {message : Json}
    (operand : message.valuestring = some (ascii "status"))
    {context udpContext : RequestContext}
    (same : context.SameCircumstances udpContext) (clientFd : Nat)
    (client : UDPClientData) (server : Server) :
    answered (exec (answerTcpRequest context clientFd (ascii "status") request)
        server) =
      answered (exec (do
        recordUdpClient client
        answerUdpRequest udpContext clientAddr message hostname request)
        server) := by
  have answers := answered_sendStatus
    (replies_afterRequest server
      (updateEmergencyInfo context.timestamp (snprintf256
        (ascii "Status request from TCP client " ++ context.clientIp))) client
      (snprintf256 (ascii "Status request from TCP client " ++
        context.clientIp))
      (snprintf256 (ascii "Status request from UDP client " ++
        udpContext.clientIp)))
    (supplies_afterRequest _ _ _ _ _) (entryAlertsCount_afterRequest _ _ _ _ _)
    (.tcp clientFd) (.udp clientAddr) context.access
  have udp : answerUdpRequest udpContext clientAddr message hostname request =
      (do
        logEvent (snprintf256
          (ascii "Status request from UDP client " ++ udpContext.clientIp))
        sendStatus (sendJsonToUdpClient clientAddr) udpContext.access
        pure true) := by
    simp only [answerUdpRequest, stringOperand_bind, operand, if_true,
      if_neg (show ascii "status" ≠ ascii "update" by decide)]
  rw [udp, ← same.access, exec_bind_of_ok (exec_recordUdpClient _ _),
    exec_bind_of_ok (exec_logEvent _ _), answerTcpRequest, if_pos rfl,
    exec_bind_of_ok (exec_recordEmergency _ _ _),
    exec_bind_of_ok (exec_logEvent _ _), sendJsonToTcpClient,
    sendJsonToUdpClient]
  exact answers

theorem answered_summary (request : Json) (clientAddr : SockaddrStorage)
    (hostname : Json) {message : Json}
    (operand : message.valuestring = some (ascii "summary"))
    {context udpContext : RequestContext}
    (same : context.SameCircumstances udpContext) (clientFd : Nat)
    (client : UDPClientData) (server : Server) :
    answered (exec
        (answerTcpRequest context clientFd (ascii "summary") request)
        server) =
      answered (exec (do
        recordUdpClient client
        answerUdpRequest udpContext clientAddr message hostname request)
        server) := by
  have answers := answered_sendSummary
    (replies_afterRequest server server.emergencyInfo client
      (snprintf256 (ascii "Summary request from TCP client " ++
        context.clientIp))
      (snprintf256 (ascii "Summary request from UDP client " ++
        udpContext.clientIp)))
    (supplies_afterRequest _ _ _ _ _) (entryAlertsCount_afterRequest _ _ _ _ _)
    (emergencyInfo_afterRequest _ _ _ _) (.tcp clientFd) (.udp clientAddr) same
  have udp : answerUdpRequest udpContext clientAddr message hostname request =
      (do
        logEvent (snprintf256
          (ascii "Summary request from UDP client " ++ udpContext.clientIp))
        sendSummary (sendJsonToUdpClient clientAddr) udpContext
        pure true) := by
    simp only [answerUdpRequest, stringOperand_bind, operand, if_true,
      if_neg (show ascii "summary" ≠ ascii "update" by decide),
      if_neg (show ascii "summary" ≠ ascii "status" by decide)]
  rw [udp, exec_bind_of_ok (exec_recordUdpClient _ _),
    exec_bind_of_ok (exec_logEvent _ _), answerTcpRequest,
    if_neg (by decide), if_neg (by decide), if_pos rfl,
    exec_bind_of_ok (exec_logEvent _ _), sendJsonToTcpClient,
    sendJsonToUdpClient]
  rw [afterTcpRequest_self] at answers
  exact answers

/-- An update whose segments are unchecked: the answer is that of
`update_supplies_from_json`. -/
theorem answered_updateSupplies {server : Server} {next : PUnit → Handler Bool}
    (rest : ∀ state, answered (exec (next ⟨⟩) state) =
      (.ok true, state.supplies, state.entryAlertsCount, replies state.trace))
    (access : SegmentAccess) (request : Json) :
    answered (exec (updateSupplies access request >>= next) server) =
      match updateSuppliesFromJson access server.supplies request with
      | .updated supplies =>
          (.ok true, supplies, server.entryAlertsCount, replies server.trace)
      | .nullAccess supplies =>
          (.error .nullSupplies, supplies, server.entryAlertsCount,
            replies server.trace) := by
  have silent : replies (server.act [.updateSupplies request]).trace =
      replies server.trace := by
    rw [Server.act, replies_append]
    exact List.append_nil _
  rw [updateSupplies, bind_assoc, exec_bind_of_ok (exec_modify _ _),
    bind_assoc, exec_bind_of_ok (exec_get _)]
  change answered (exec (_ >>= next) _) =
    match updateSuppliesFromJson access
      (server.act [.updateSupplies request]).supplies request with
    | .updated supplies => _
    | .nullAccess supplies => _
  cases updateSuppliesFromJson access
      (server.act [.updateSupplies request]).supplies request with
  | updated supplies =>
      simp only
      rw [exec_bind_of_ok (exec_modify _ _), rest, ← silent]
      rfl
  | nullAccess supplies =>
      simp only
      rw [bind_assoc, exec_bind_of_ok (exec_modify _ _), ← silent]
      rfl

/-- The UDP handler passes an update of the admin user on without a check of
the segments. -/
theorem answered_udpUpdate (request : Json) (clientAddr : SockaddrStorage)
    {message hostname : Json}
    (operand : message.valuestring = some (ascii "update"))
    (admin : hostname.valuestring = some adminUser)
    (context : RequestContext) (client : UDPClientData) (server : Server) :
    answered (exec (do
        recordUdpClient client
        answerUdpRequest context clientAddr message hostname request)
        server) =
      match updateSuppliesFromJson context.access server.supplies request with
      | .updated supplies =>
          (.ok true, supplies, server.entryAlertsCount, replies server.trace)
      | .nullAccess supplies =>
          (.error .nullSupplies, supplies, server.entryAlertsCount,
            replies server.trace) := by
  simp only [answerUdpRequest, stringOperand_bind, operand, admin, if_true]
  rw [exec_bind_of_ok (exec_recordUdpClient _ _), answered_updateSupplies
    fun state => ?_, replies_withUdpClient]
  · rfl
  · rw [exec_bind_of_ok (exec_logEvent _ _), ← replies_logEvent state]
    rfl

/-- An update of the admin user is answered alike if and only if both segments
are attached or the request does not affect the counters. -/
theorem answered_update_iff {request : Json} {clientAddr : SockaddrStorage}
    {message hostname : Json}
    (operand : message.valuestring = some (ascii "update"))
    (admin : hostname.valuestring = some adminUser)
    {context udpContext : RequestContext}
    (same : context.SameCircumstances udpContext) (clientFd : Nat)
    (client : UDPClientData) (server : Server) :
    answered (exec (answerTcpRequest context clientFd (ascii "update") request)
          server) =
        answered (exec (do
          recordUdpClient client
          answerUdpRequest udpContext clientAddr message hostname request)
          server) ↔
      context.access.Granted ∨
        server.supplies.Unaffected context.access request := by
  rw [answered_udpUpdate request clientAddr operand admin, ← same.access,
    answerTcpRequest,
    if_neg (by decide), if_pos rfl,
    exec_bind_of_ok (exec_recordEmergency _ _ _),
    exec_bind_of_ok (exec_logEvent _ _)]
  generalize snprintf256 (ascii "Update request from TCP client " ++
    context.clientIp) = logMessage
  by_cases granted : context.access.Granted
  · refine iff_of_true ?_ (.inl granted)
    rw [if_pos (show _ ∧ _ from granted),
      answered_updateSupplies fun state => rfl, replies_logEvent]
    rfl
  · rw [if_neg (show ¬ (_ ∧ _) from granted),
      ← updateSuppliesFromJson_eq_self_iff]
    change (_, server.supplies, server.entryAlertsCount,
      replies (Server.act _ _).trace) = _ ↔ _
    rw [replies_logEvent]
    cases updateSuppliesFromJson context.access server.supplies request with
    | updated supplies => simp [granted, eq_comm]
    | nullAccess supplies => simp [granted]

/-! ## Both handlers -/

section Check

variable (parse : Bytes → Option Json)

theorem checkTcpClientsMessages_of_parsed {data : Bytes} {request : Json}
    (nonempty : data ≠ []) (room : data.length < bufferSize)
    (parsed : parse (untilNul data) = some request) (context : RequestContext)
    (clientFd : Nat) :
    checkTcpClientsMessages parse context clientFd (.bytes data) =
      handleTcpJson context clientFd request := by
  have returned : tcpRequest parse (.bytes data) = .ok (some request) := by
    rw [tcpRequest_bytes parse nonempty, if_pos room, parsed]
  rw [checkTcpClientsMessages, receiveTcpJson_eq, returned, pure_bind]

theorem checkUdpClientsMessages_of_parsed {data : Bytes} {request : Json}
    (room : data.length < bufferSize)
    (parsed : parse (untilNul data) = some request) (context : RequestContext)
    (sockfd : Nat) (source : SockaddrIn6) :
    checkUdpClientsMessages parse context sockfd ⟨.bytes data, source⟩ =
      handleUdpJson context sockfd ⟨.bytes data, source⟩ request := by
  have whole : data.take (bufferSize - 1) = data :=
    List.take_of_length_le (Nat.le_sub_one_of_lt room)
  rw [checkUdpClientsMessages, receiveUdpJson_eq, udpRequest, whole, parsed,
    pure_bind]

/-- The answers to a request of the admin user. -/
theorem answered_handleJson_iff {request : Json} (admin : request.NamesAdmin)
    (requests : request.Requests (ascii "status") ∨
      request.Requests (ascii "update") ∨
      request.Requests (ascii "summary"))
    {context udpContext : RequestContext}
    (same : context.SameCircumstances udpContext) (clientFd sockfd : Nat)
    (datagram : Datagram) (server : Server) :
    answered (exec (handleTcpJson context clientFd request) server) =
        answered (exec (handleUdpJson udpContext sockfd datagram request)
          server) ↔
      (request.Requests (ascii "update") → context.access.Granted ∨
        server.supplies.Unaffected context.access request) := by
  have unlike : ∀ {value}, request.Requests value →
      value ≠ ascii "update" → ¬ request.Requests (ascii "update") :=
    fun one differs other =>
      differs (Option.some.inj ((show _ = _ from one).symm.trans other))
  rcases requests with status | update | summary
  · obtain ⟨message, hostname, operand, _, udp⟩ :=
      handleUdpJson_of_requests status admin udpContext sockfd datagram
    rw [handleTcpJson_of_requests status (by decide), udp]
    exact iff_of_true
      (answered_status _ _ hostname operand same clientFd _ server)
      fun update => (unlike status (by decide) update).elim
  · obtain ⟨message, hostname, operand, auth, udp⟩ :=
      handleUdpJson_of_requests update admin udpContext sockfd datagram
    rw [handleTcpJson_of_requests update (by decide), udp,
      answered_update_iff operand auth same clientFd _ server]
    simp [update]
  · obtain ⟨message, hostname, operand, _, udp⟩ :=
      handleUdpJson_of_requests summary admin udpContext sockfd datagram
    rw [handleTcpJson_of_requests summary (by decide), udp]
    exact iff_of_true
      (answered_summary _ _ hostname operand same clientFd _ server)
      fun update => (unlike summary (by decide) update).elim

/-- The record after both handlers is the same, up to the transport, if and
only if it held the event of the request before. -/
theorem sameEvent_handleJson_iff (request : Json)
    (context udpContext : RequestContext) (clientFd sockfd : Nat)
    (datagram : Datagram) (server : Server) :
    ((exec (handleTcpJson context clientFd request)
            server).2.emergencyInfo.lastKeepalived.bytes =
          (exec (handleUdpJson udpContext sockfd datagram request)
            server).2.emergencyInfo.lastKeepalived.bytes ∧
        SameButTransport
          (exec (handleTcpJson context clientFd request)
            server).2.emergencyInfo.lastEvent.bytes
          (exec (handleUdpJson udpContext sockfd datagram request)
            server).2.emergencyInfo.lastEvent.bytes) ↔
      server.emergencyInfo.HoldsEvent context request := by
  have udp : (exec (handleUdpJson udpContext sockfd datagram request)
      server).2.emergencyInfo = server.emergencyInfo :=
    keepsEmergency_handleUdpJson _ _ _ _ server
  rw [emergencyInfo_handleTcpJson, udp, EmergencyInfo.HoldsEvent]
  cases request.recordedEvent context with
  | none => exact iff_of_true ⟨rfl, .inl rfl⟩ fun _ absent => nomatch absent
  | some event => simp [EmergencyInfo.recording]

/-- A request of the admin user is handled alike by the two transports if and
only if it is shorter than the receive buffer, the record already held its
event, and an update has both segments attached or does not affect the
counters. -/
theorem checkClientsMessages_agree_iff {data : Bytes} {request : Json}
    (nonempty : data ≠ []) (parsed : parse (untilNul data) = some request)
    (admin : request.NamesAdmin)
    (requests : request.Requests (ascii "status") ∨
      request.Requests (ascii "update") ∨
      request.Requests (ascii "summary"))
    {context udpContext : RequestContext}
    (same : context.SameCircumstances udpContext) (clientFd sockfd : Nat)
    (source : SockaddrIn6) (server : Server) :
    TransportsAgree
        (exec (checkTcpClientsMessages parse context clientFd (.bytes data))
          server)
        (exec (checkUdpClientsMessages parse udpContext sockfd
          ⟨.bytes data, source⟩) server) ↔
      data.length < bufferSize ∧
        server.emergencyInfo.HoldsEvent context request ∧
        (request.Requests (ascii "update") → context.access.Granted ∨
          server.supplies.Unaffected context.access request) := by
  by_cases room : data.length < bufferSize
  · rw [checkTcpClientsMessages_of_parsed parse nonempty room parsed,
      checkUdpClientsMessages_of_parsed parse room parsed,
      transportsAgree_iff, sameEvent_handleJson_iff,
      answered_handleJson_iff admin requests same]
    simp only [room, true_and]
    exact and_comm
  · refine iff_of_false (fun agree => ?_) fun holds => room holds.1
    have stopped : (exec (checkTcpClientsMessages parse context clientFd
        (.bytes data)) server).1 = .error .outOfBounds := by
      rw [checkTcpClientsMessages, receiveTcpJson_eq,
        tcpRequest_bytes parse nonempty, if_neg room]
      rfl
    have other : FaultsOnly (· ≠ .outOfBounds)
        (checkUdpClientsMessages parse udpContext sockfd
          ⟨.bytes data, source⟩) :=
      faultsOnly_checkUdpClientsMessages parse sockfd (by simp) (by simp)
    exact other server _ (agree.result.symm.trans stopped) rfl

end Check

theorem checkClientsMessages_agree_of_update :
    TransportsAgree
        (exec (checkTcpClientsMessages
          (fun _ => some (hostRequest (ascii "update") adminUser)) .attached 8
          (.bytes (hostRequestText (ascii "update") adminUser)))
          (.initial .zero))
        (exec (checkUdpClientsMessages
          (fun _ => some (hostRequest (ascii "update") adminUser)) .attached 4
          ⟨.bytes (hostRequestText (ascii "update") adminUser), .loopback⟩)
          (.initial .zero)) ↔
      (hostRequestText (ascii "update") adminUser).length < bufferSize ∧
        (Server.initial .zero).emergencyInfo.HoldsEvent .attached
          (hostRequest (ascii "update") adminUser) ∧
        ((hostRequest (ascii "update") adminUser).Requests (ascii "update") →
          RequestContext.attached.access.Granted ∨
            (Server.initial .zero).supplies.Unaffected
              RequestContext.attached.access
              (hostRequest (ascii "update") adminUser)) := by
  have admin : (hostRequest (ascii "update") adminUser).NamesAdmin := rfl
  have update : (hostRequest (ascii "update") adminUser).Requests
      (ascii "update") := rfl
  exact checkClientsMessages_agree_iff _ (by decide) rfl admin
    (.inr (.inl update)) ⟨rfl, rfl, rfl, rfl⟩ 8 4 _ _

/-- A server with an authenticated TCP client and a registered UDP client. -/
def servedClients : Server :=
  { Server.initial .zero with
    tcpClients := addTcpClient 8 (Server.initial .zero).tcpClients
    udpClients := addUdpClient (Server.initial .zero).udpClients
      ⟨4, SockaddrIn6.loopback.storage, sockaddrIn6Size⟩
    connected := {8}
    trace := [.accepted 8, .reply (.tcp 8) .authSuccess] }

/-- A status request leaves its event in the record over TCP and not over
UDP. -/
theorem not_checkClientsMessages_agree :
    ¬ ∀ (parse : Bytes → Option Json) (data : Bytes) (request : Json),
      data ≠ [] → parse (untilNul data) = some request → request.NamesAdmin →
      (request.Requests (ascii "status") ∨
        request.Requests (ascii "update") ∨
        request.Requests (ascii "summary")) →
      ∀ (context : RequestContext) (clientFd sockfd : Nat)
        (source : SockaddrIn6) (server : Server),
      clientFd ∈ server.connected →
      authenticated server.trace clientFd = true →
      (∃ existing ∈ server.udpClients.live, sameUdpClient existing
        (Datagram.client ⟨.bytes data, source⟩ sockfd) = true) →
      TransportsAgree
        (exec (checkTcpClientsMessages parse context clientFd (.bytes data))
          server)
        (exec (checkUdpClientsMessages parse context sockfd
          ⟨.bytes data, source⟩) server) := by
  intro agree
  let request := hostRequest (ascii "status") adminUser
  let data := hostRequestText (ascii "status") adminUser
  have status : request.Requests (ascii "status") := rfl
  have event := (agree (fun _ => some request) data request (by decide) rfl rfl
    (.inl status) .attached 8 4 .loopback servedClients (by decide)
    (by decide) ⟨_, List.mem_singleton.mpr rfl, by decide⟩).lastEvent
  rw [checkTcpClientsMessages_of_parsed _ (by decide) (by decide) rfl,
    checkUdpClientsMessages_of_parsed _ (by decide) rfl,
    emergencyInfo_handleTcpJson, Json.recordedEvent, if_pos status,
    show (exec (handleUdpJson .attached 4 ⟨.bytes data, .loopback⟩ request)
      servedClients).2.emergencyInfo = servedClients.emergencyInfo from
      keepsEmergency_handleUdpJson _ _ _ _ _] at event
  rcases event with same | ⟨front, back, _, udp⟩
  · revert same
    decide
  · have member : (85 : UInt8) ∈ servedClients.emergencyInfo.lastEvent.bytes := by
      rw [udp]
      simp [ascii]
    revert member
    decide +kernel

end ShelterServer
