import ShelterServer.Server

/-!
# Request handlers

`check_tcp_clients_messages` and `check_udp_clients_messages`: one received
block is parsed as JSON and answered.  The parser is a parameter; it maps the
received string to the JSON value it returns, or to `none` for NULL.
-/

namespace ShelterServer

open Foundations

/-- The request's `message` is the given string. -/
def Json.Requests (request : Json) (value : Bytes) : Prop :=
  (request.getObjectItem (ascii "message")).bind Json.valuestring = some value

/-- The request's `hostname` is the admin user. -/
def Json.NamesAdmin (request : Json) : Prop :=
  (request.getObjectItem (ascii "hostname")).bind Json.valuestring =
    some adminUser

instance (request : Json) (value : Bytes) :
    Decidable (request.Requests value) :=
  inferInstanceAs (Decidable (_ = _))

instance (request : Json) : Decidable request.NamesAdmin :=
  inferInstanceAs (Decidable (_ = _))

theorem Json.requests_of_found {request message : Json} {value : Bytes}
    (found : request.getObjectItem (ascii "message") = some message)
    (operand : message.valuestring = some value) : request.Requests value := by
  rw [Json.Requests, found]
  exact operand

theorem Json.namesAdmin_of_found {request hostname : Json}
    (found : request.getObjectItem (ascii "hostname") = some hostname)
    (operand : hostname.valuestring = some adminUser) :
    request.NamesAdmin := by
  rw [Json.NamesAdmin, found]
  exact operand

variable (parse : Bytes → Option Json)

/-! ## TCP -/

def receiveTcpJson (context : RequestContext) :
    Received → Handler (Option Json)
  | .failed => pure none
  | .bytes [] => pure none
  | .bytes data =>
      match receiveTcpJsonBuffer context.stack data with
      | none => throw .outOfBounds
      | some buffer => pure (parse (buffer.text context.behindStack))

/-- The JSON value in a received block, or the write behind the buffer that
terminates a block of the full size. -/
def tcpRequest : Received → Except Fault (Option Json)
  | .failed => .ok none
  | .bytes [] => .ok none
  | .bytes data =>
      if data.length < bufferSize then .ok (parse (untilNul data))
      else .error .outOfBounds

theorem tcpRequest_bytes {data : Bytes} (nonempty : data ≠ []) :
    tcpRequest parse (.bytes data) =
      if data.length < bufferSize then .ok (parse (untilNul data))
      else .error .outOfBounds := by
  obtain ⟨byte, rest, rfl⟩ := List.exists_cons_of_ne_nil nonempty
  rfl

theorem eq_outOfBounds_of_tcpRequest {received : Received} {fault : Fault}
    (stopped : tcpRequest parse received = .error fault) :
    fault = .outOfBounds := by
  unfold tcpRequest at stopped
  split at stopped
  · cases stopped
  · cases stopped
  · split at stopped
    · cases stopped
    · cases stopped
      rfl

/-- What is received leaves room for a terminator. -/
def Received.FitsBuffer : Received → Prop
  | .failed => True
  | .bytes data => data.length < bufferSize

/-- The JSON value in a received block of whatever size. -/
def carriedRequest : Received → Option Json
  | .failed => none
  | .bytes [] => none
  | .bytes data => parse (untilNul data)

theorem tcpRequest_eq_request_iff {received : Received} {request : Json} :
    tcpRequest parse received = .ok (some request) ↔
      received.FitsBuffer ∧ carriedRequest parse received = some request := by
  match received with
  | .failed => simp [tcpRequest, carriedRequest]
  | .bytes [] => simp [tcpRequest, carriedRequest]
  | .bytes (byte :: data) =>
      simp only [tcpRequest, carriedRequest, Received.FitsBuffer]
      split
      · rename_i room
        simp only [Except.ok.injEq, room, true_and]
      · rename_i full
        simp only [reduceCtorEq, full, false_and]

/-- What is received does not depend on the memory around the buffer. -/
theorem receiveTcpJson_eq (context : RequestContext) (received : Received) :
    receiveTcpJson parse context received =
      match tcpRequest parse received with
      | .ok request => pure request
      | .error fault => throw fault := by
  match received with
  | .failed => rfl
  | .bytes [] => rfl
  | .bytes (byte :: data) =>
      by_cases room : (byte :: data).length < bufferSize
      · obtain ⟨buffer, stored, _, text⟩ :=
          receiveAndTerminate_of_lt le_rfl room.le room context.stack
        simp only [receiveTcpJson, receiveTcpJsonBuffer, tcpRequest,
          if_pos room, stored, text]
      · have refused : receiveAndTerminate bufferSize le_rfl context.stack
            (byte :: data) = none :=
          receiveAndTerminate_eq_none (Nat.le_of_not_lt room)
        simp only [receiveTcpJson, receiveTcpJsonBuffer, tcpRequest,
          if_neg room, refused]

/-- The `"authenticateme"` branch. -/
def authenticateTcpClient (context : RequestContext) (clientFd : Nat)
    (receivedJson : Json) : Handler Bool :=
  match receivedJson.getObjectItem (ascii "hostname") with
  | none => pure true
  | some hostname => do
      let hostnameValue ← stringOperand hostname
      if hostnameValue = adminUser then
        logEvent (snprintf256
          (ascii "Update request from authenticated TCP client " ++
            context.clientIp))
        sendJsonToTcpClient clientFd .authSuccess
        pure true
      else
        logEvent (snprintf256
          (ascii "Update request from not authenticated TCP client " ++
            context.clientIp))
        sendJsonToTcpClient clientFd .authFailure
        pure false

/-- The branch of all other messages. -/
def answerTcpRequest (context : RequestContext) (clientFd : Nat)
    (messageValue : Bytes) (receivedJson : Json) : Handler Bool := do
  if messageValue = ascii "status" then
    let logMessage := snprintf256
      (ascii "Status request from TCP client " ++ context.clientIp)
    recordEmergency context.timestamp logMessage
    logEvent logMessage
    sendStatus (sendJsonToTcpClient clientFd) context.access
    pure true
  else if messageValue = ascii "update" then
    let logMessage := snprintf256
      (ascii "Update request from TCP client " ++ context.clientIp)
    recordEmergency context.timestamp logMessage
    logEvent logMessage
    if context.access.food = true ∧ context.access.medicine = true then
      updateSupplies context.access receivedJson
      pure true
    else pure true
  else if messageValue = ascii "summary" then
    logEvent (snprintf256
      (ascii "Summary request from TCP client " ++ context.clientIp))
    sendSummary (sendJsonToTcpClient clientFd) context
    pure true
  else
    logEvent (snprintf256
      (ascii "Invalid request received from TCP client " ++ context.clientIp))
    pure true

/-- What `check_tcp_clients_messages` does with the JSON it received. -/
def handleTcpJson (context : RequestContext) (clientFd : Nat)
    (receivedJson : Json) : Handler Bool :=
  match receivedJson.getObjectItem (ascii "message") with
  | none => pure true
  | some message => do
      let messageValue ← stringOperand message
      if messageValue = ascii "authenticateme" then
        authenticateTcpClient context clientFd receivedJson
      else answerTcpRequest context clientFd messageValue receivedJson

/-- The result tells whether the connection is kept. -/
def checkTcpClientsMessages (context : RequestContext) (clientFd : Nat)
    (received : Received) : Handler Bool := do
  match ← receiveTcpJson parse context received with
  | none => pure false
  | some receivedJson => handleTcpJson context clientFd receivedJson

/-! ## UDP -/

/-- What `recvfrom` returns, with the source it fills in. -/
structure Datagram where
  received : Received
  source : SockaddrIn6

/-- The entry that the server makes for the source of a datagram. -/
def Datagram.client (datagram : Datagram) (sockfd : Nat) : UDPClientData :=
  ⟨sockfd, datagram.source.storage, sockaddrIn6Size⟩

def receiveUdpJson (context : RequestContext) :
    Received → Handler (Option Json)
  | .failed => pure none
  | .bytes data =>
      match receiveUdpJsonBuffer context.stack data with
      | none => throw .outOfBounds
      | some buffer => pure (parse (buffer.text context.behindStack))

/-- The JSON value in a received datagram. -/
def udpRequest : Received → Option Json
  | .failed => none
  | .bytes data => parse (untilNul (data.take (bufferSize - 1)))

theorem receiveUdpJson_eq (context : RequestContext) (received : Received) :
    receiveUdpJson parse context received =
      pure (udpRequest parse received) := by
  cases received with
  | failed => rfl
  | bytes data =>
      have limit : (data.take (bufferSize - 1)).length ≤ bufferSize - 1 := by
        rw [List.length_take]
        exact Nat.min_le_left _ _
      have room : (data.take (bufferSize - 1)).length < bufferSize :=
        Nat.lt_of_le_of_lt limit (by decide)
      obtain ⟨buffer, stored, _, text⟩ :=
        receiveAndTerminate_of_lt (by decide) limit room context.stack
      rw [receiveAndTerminate_take] at stored
      simp only [receiveUdpJson, receiveUdpJsonBuffer, udpRequest, stored, text]

/-- The three requests, once both members were found. -/
def answerUdpRequest (context : RequestContext) (clientAddr : SockaddrStorage)
    (message hostname receivedJson : Json) : Handler Bool := do
  let value ← stringOperand message
  if value = ascii "update" then
    let auth ← stringOperand hostname
    if auth = adminUser then
      updateSupplies context.access receivedJson
      logEvent (snprintf256
        (ascii "Update request from authenticated UDP client " ++
          context.clientIp))
      pure true
    else
      logEvent (snprintf256
        (ascii "Update request from not authenticated UDP client " ++
          context.clientIp))
      pure true
  else if value = ascii "status" then
    logEvent (snprintf256
      (ascii "Status request from UDP client " ++ context.clientIp))
    sendStatus (sendJsonToUdpClient clientAddr) context.access
    pure true
  else if value = ascii "summary" then
    logEvent (snprintf256
      (ascii "Summary request from UDP client " ++ context.clientIp))
    sendSummary (sendJsonToUdpClient clientAddr) context
    pure true
  else pure true

/-- What `check_udp_clients_messages` does with the JSON it received. -/
def handleUdpJson (context : RequestContext) (sockfd : Nat)
    (datagram : Datagram) (receivedJson : Json) : Handler Bool := do
  recordUdpClient (datagram.client sockfd)
  match receivedJson.getObjectItem (ascii "message") with
  | none => pure false
  | some message =>
      match receivedJson.getObjectItem (ascii "hostname") with
      | none => pure false
      | some hostname =>
          answerUdpRequest context datagram.source.storage message hostname
            receivedJson

def checkUdpClientsMessages (context : RequestContext) (sockfd : Nat)
    (datagram : Datagram) : Handler Bool := do
  match ← receiveUdpJson parse context datagram.received with
  | none => pure false
  | some receivedJson => handleUdpJson context sockfd datagram receivedJson

end ShelterServer
