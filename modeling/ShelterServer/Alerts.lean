import ShelterServer.Server

/-!
# Alerts and emergency messages

The sensors' side of the alerts FIFO, `check_alerts`, which reads it, and the
handler of the Unix socket on which an electricity failure is announced.
-/

namespace ShelterServer

open Foundations

/-! ## The sensors -/

/-- The name that `initiateAlertModule` gives to the sensor of an entry. -/
def sensorName (entry : Entry) : Bytes :=
  entry.word ++ ascii " ENTRY"

/-- What `%.1f` prints for a `float`: no letter it uses is a capital one, and
the longest text is that of the smallest value. -/
structure TemperatureText where
  bytes : Bytes
  plain : ∀ byte ∈ bytes, byte ≠ 0 ∧ ¬ (65 ≤ byte ∧ byte ≤ 90)
  length_le : bytes.length ≤ 42

structure Alert where
  entry : Entry
  temperature : TemperatureText

/-- The text that `send_alert` writes to the FIFO. -/
def alertMessage (alert : Alert) : Bytes :=
  sensorName alert.entry ++ ascii ", ALERT, " ++ alert.temperature.bytes ++
    [0xC2, 0xB0] ++ ascii "C "

/-! ## Reading the FIFO -/

def detectEntry (alertMessage : Bytes) : Option Entry :=
  if occursIn (ascii "NORTH") alertMessage then some .north
  else if occursIn (ascii "SOUTH") alertMessage then some .south
  else if occursIn (ascii "EAST") alertMessage then some .east
  else if occursIn (ascii "WEST") alertMessage then some .west
  else none

/-- The increments at the end of `check_alerts`. -/
def increaseEntryCount (entry : Entry) (counts : EntryAlertsCount) :
    EntryAlertsCount :=
  match entry with
  | .north => { counts with north := wrapInt (counts.north + 1) }
  | .south => { counts with south := wrapInt (counts.south + 1) }
  | .east => { counts with east := wrapInt (counts.east + 1) }
  | .west => { counts with west := wrapInt (counts.west + 1) }

def countAlert (entry : Entry) : Handler PUnit :=
  modify fun server =>
    { server with
      entryAlertsCount := increaseEntryCount entry server.entryAlertsCount }

/-- What `check_alerts` does with the string it read. -/
def announceAlert (timestamp alertMessage : Bytes) : Handler PUnit := do
  logEvent alertMessage
  recordEmergency timestamp alertMessage
  sendToAllTcpClients alertMessage
  sendToAllUdpClients alertMessage
  logEvent (ascii "Sent alert notification to all connected clients")
  match detectEntry alertMessage with
  | none => pure ⟨⟩
  | some entry => countAlert entry

/-- `opened` tells whether the FIFO could be opened. -/
def checkAlerts (context : RequestContext) (opened : Bool)
    (received : Received) : Handler PUnit :=
  if opened then
    match received with
    | .failed => pure ⟨⟩
    | .bytes [] => pure ⟨⟩
    | .bytes data =>
        match checkAlertsBuffer data with
        | none => throw .outOfBounds
        | some buffer =>
            announceAlert context.timestamp (buffer.text context.behindStack)
  else pure ⟨⟩

/-- A block that leaves room in the buffer is announced as a string. -/
theorem checkAlerts_of_lt {data : Bytes} (nonempty : data ≠ [])
    (room : data.length < bufferSize) (context : RequestContext) :
    checkAlerts context true (.bytes data) =
      announceAlert context.timestamp (untilNul data) := by
  obtain ⟨byte, rest, rfl⟩ := List.exists_cons_of_ne_nil nonempty
  obtain ⟨buffer, stored, _, text⟩ :=
    (receiveIntoZeroed_delivers_iff le_rfl room.le).mpr (.inl room)
  simp only [checkAlerts, if_true, checkAlertsBuffer, stored, text]

theorem entryAlertsCount_announceAlert (timestamp alertMessage : Bytes)
    (server : Server) :
    (Faulting.exec (announceAlert timestamp alertMessage)
        server).2.entryAlertsCount =
      match detectEntry alertMessage with
      | none => server.entryAlertsCount
      | some entry => increaseEntryCount entry server.entryAlertsCount := by
  simp only [announceAlert, logEvent, recordEmergency, sendToAllTcpClients,
    sendToAllUdpClients, Faulting.exec_bind, Faulting.exec_modify]
  split <;> rfl

/-! ## The Unix socket -/

/-- What `cJSON_Print` makes of the notice to the clients. -/
def disconnectMessage : Bytes :=
  ascii "\x7b\n\t\"message\":\t\"disconnect\"\n\x7d"

/-- The connection-oriented mode; `accepted` tells whether the connection
could be accepted. -/
def handleUnixConnection (context : RequestContext) (accepted : Bool)
    (received : Received) : Handler PUnit :=
  if accepted then
    match received with
    | .failed => pure ⟨⟩
    | .bytes [] => pure ⟨⟩
    | .bytes data =>
        match handleUnixConnectionBuffer context.stack data with
        | none => throw .outOfBounds
        | some buffer => do
            sendToAllTcpClients disconnectMessage
            logEvent (buffer.text context.behindStack)
  else pure ⟨⟩

end ShelterServer
