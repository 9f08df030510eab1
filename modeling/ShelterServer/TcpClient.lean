import ShelterServer.Foundations.Faulting
import ShelterServer.Foundations.Runs
import ShelterServer.Requests

/-!
# The TCP client

The client asks the server for its identity to be accepted and then forks: the
parent reads the user's menu choices and sends requests, the child receives
what the server sends.  Each process has its own copy of `authenticated`; all
they share afterwards is the socket and the signals they send each other.
-/

namespace ShelterServer

open Foundations Faulting

/-! ## Authentication -/

/-- A `char` promoted to `int`. -/
def promoteChar (signedChar : Bool) (byte : UInt8) : BitVec 32 :=
  if signedChar then byte.toBitVec.signExtend 32
  else byte.toBitVec.zeroExtend 32

/-- The conversion `(char)` of an `int`. -/
def toChar (value : BitVec 32) : UInt8 :=
  ⟨value.setWidth 8⟩

/-- What one byte of its input adds to the result of `encode_utf8`. -/
def encodeUtf8Byte (signedChar : Bool) (byte : UInt8) : Bytes :=
  let value := promoteChar signedChar byte
  if value &&& 0x80 = 0 then [byte]
  else if value &&& 0xE0 = 0xC0 then
    [toChar (0xC0 ||| (value.sshiftRight 6 &&& 0x1F)),
      toChar (0x80 ||| (value &&& 0x3F))]
  else if value &&& 0xF0 = 0xE0 then
    [toChar (0xE0 ||| (value.sshiftRight 12 &&& 0x0F)),
      toChar (0x80 ||| (value &&& 0x3F)), toChar (0x80 ||| (value &&& 0x3F))]
  else []

def encodeUtf8 (signedChar : Bool) (input : Bytes) : Bytes :=
  (untilNul input).flatMap (encodeUtf8Byte signedChar)

/-- The message of `authenticate`. -/
def authenticationRequest (signedChar : Bool) (osId : Bytes) : Json :=
  .object [(ascii "message", .string (ascii "authenticateme")),
    (ascii "hostname", .string (encodeUtf8 signedChar osId))]

theorem authenticationRequest_requests (signedChar : Bool) (osId : Bytes) :
    (authenticationRequest signedChar osId).Requests
      (ascii "authenticateme") :=
  rfl

/-! ## The menu -/

inductive Resource where
  | food
  | medicine
deriving DecidableEq

/-- The member of an update request that holds its resources. -/
def Resource.key : Resource → Bytes
  | .food => ascii "food"
  | .medicine => ascii "medicine"

/-- The resource that a line chooses. -/
def Resource.item : Resource → Bytes → Option Bytes
  | .food, line =>
      if line = ascii "1\n" then some (ascii "meat")
      else if line = ascii "2\n" then some (ascii "vegetables")
      else if line = ascii "3\n" then some (ascii "fruits")
      else if line = ascii "4\n" then some (ascii "water")
      else none
  | .medicine, line =>
      if line = ascii "1\n" then some (ascii "antibiotics")
      else if line = ascii "2\n" then some (ascii "analgesics")
      else if line = ascii "3\n" then some (ascii "bandages")
      else none

def statusRequest : Json :=
  .object [(ascii "message", .string (ascii "status"))]

def summaryRequest : Json :=
  .object [(ascii "message", .string (ascii "summary"))]

def updateRequest (resource : Resource) (item : Bytes) (value : Int) : Json :=
  .object [(ascii "message", .string (ascii "update")),
    (resource.key, .object [(item, .number value)])]

/-- Where the parent process stands: before `authenticate`, before `fork`, at
one of the inputs of `handle_user_input`, or at its end. -/
inductive MenuPoint where
  | connected
  | authenticated
  | option
  | resource
  | item (resource : Resource)
  | amount (resource : Resource) (line : Bytes)
  | stopped
deriving DecidableEq

structure Menu where
  point : MenuPoint
  authenticated : Bool

/-- What the user enters: a line for `fgets`, where `none` is NULL, or a
number for `scanf`, where `none` is a failed conversion. -/
inductive MenuInput where
  | line (line : Option Bytes)
  | number (value : Option Int)

inductive MenuAction where
  | sendJson (request : Json)
  | interruptChild

def MenuAction.request? : MenuAction → Option Json
  | .sendJson request => some request
  | .interruptChild => none

/-- The inputs of option 2, behind its choice. -/
def MenuPoint.Updating : MenuPoint → Prop
  | .resource | .item _ | .amount _ _ => True
  | .connected | .authenticated | .option | .stopped => False

namespace Menu

def moveTo (menu : Menu) (point : MenuPoint) : Menu :=
  { menu with point }

/-- The choice from the main menu. -/
def chooseOption (menu : Menu) (line : Bytes) : Menu × List MenuAction :=
  if line = ascii "1\n" then (menu, [.sendJson statusRequest])
  else if line = ascii "2\n" then
    if menu.authenticated then (menu.moveTo .resource, [])
    else (menu, [])
  else if line = ascii "3\n" then (menu, [.sendJson summaryRequest])
  else if line = ascii "4\n" then (menu.moveTo .stopped, [.interruptChild])
  else (menu, [])

def chooseResource (menu : Menu) (line : Bytes) : Menu :=
  if line = ascii "1\n" then menu.moveTo (.item .food)
  else if line = ascii "2\n" then menu.moveTo (.item .medicine)
  else menu.moveTo .option

/-- What follows the amount. -/
def update (menu : Menu) (resource : Resource) (line : Bytes) (value : Int) :
    Menu × List MenuAction :=
  (menu.moveTo .option,
    match resource.item line with
    | some item => [.sendJson (updateRequest resource item value)]
    | none => [])

/-- `handle_user_input` from one input to the next.  An input of a kind that
the process does not wait for changes nothing. -/
def handleUserInput (menu : Menu) (input : MenuInput) :
    Menu × List MenuAction :=
  match menu.point, input with
  | .option, .line none => (menu.moveTo .stopped, [])
  | .option, .line (some line) => menu.chooseOption line
  | .resource, .line none => (menu.moveTo .stopped, [])
  | .resource, .line (some line) => (menu.chooseResource line, [])
  | .item _, .line none => (menu.moveTo .stopped, [])
  | .item resource, .line (some line) =>
      (menu.moveTo (.amount resource line), [])
  | .amount _ _, .number none => (menu.moveTo .stopped, [])
  | .amount resource line, .number (some value) =>
      menu.update resource line value
  | _, _ => (menu, [])

/-- The requests that an input makes the process send. -/
def requests (menu : Menu) (input : MenuInput) : List Json :=
  (menu.handleUserInput input).2.filterMap MenuAction.request?

/-- A process that does not read the menu ignores its input. -/
theorem handleUserInput_of_idle {menu : Menu}
    (idle : menu.point = .connected ∨ menu.point = .authenticated ∨
      menu.point = .stopped) (input : MenuInput) :
    menu.handleUserInput input = (menu, []) := by
  unfold handleUserInput
  rcases idle with point | point | point
  · rw [point]
  · rw [point]
  · rw [point]

/-- The menu is not left but for its end, and option 2 is entered by its
choice alone. -/
theorem point_handleUserInput (menu : Menu) (input : MenuInput) :
    (menu.handleUserInput input).1 = menu ∨
      (menu.handleUserInput input).1.point = .option ∨
      (menu.handleUserInput input).1.point = .stopped ∨
      (menu.handleUserInput input).1.point.Updating ∧
        (menu.point.Updating ∨ menu.point = .option ∧
          menu.authenticated = true ∧
            input = .line (some (ascii "2\n"))) := by
  unfold handleUserInput
  split
  · exact .inr (.inr (.inl rfl))
  · rename_i line option
    unfold chooseOption
    split
    · exact .inl rfl
    · split
      · rename_i chosen
        split
        · rename_i authenticated
          exact .inr (.inr (.inr ⟨trivial, .inr
            ⟨option, authenticated, by rw [chosen]⟩⟩))
        · exact .inl rfl
      · split
        · exact .inl rfl
        · split
          · exact .inr (.inr (.inl rfl))
          · exact .inl rfl
  · exact .inr (.inr (.inl rfl))
  · rename_i line resource
    have updating : menu.point.Updating := by
      rw [resource]
      trivial
    unfold chooseResource
    split
    · exact .inr (.inr (.inr ⟨trivial, .inl updating⟩))
    · split
      · exact .inr (.inr (.inr ⟨trivial, .inl updating⟩))
      · exact .inr (.inl rfl)
  · exact .inr (.inr (.inl rfl))
  · rename_i line item
    have updating : menu.point.Updating := by
      rw [item]
      trivial
    exact .inr (.inr (.inr ⟨trivial, .inl updating⟩))
  · exact .inr (.inr (.inl rfl))
  · exact .inr (.inl rfl)
  · exact .inl rfl

/-- An update is sent at the end of option 2 alone. -/
theorem updating_of_requests {menu : Menu} {input : MenuInput} {request : Json}
    (sent : request ∈ menu.requests input)
    (updates : request.Requests (ascii "update")) : menu.point.Updating := by
  unfold requests handleUserInput at sent
  split at sent
  · cases sent
  · unfold chooseOption at sent
    split at sent
    · obtain rfl := List.mem_singleton.mp sent
      exact absurd updates (by decide)
    · split at sent
      · split at sent
        · cases sent
        · cases sent
      · split at sent
        · obtain rfl := List.mem_singleton.mp sent
          exact absurd updates (by decide)
        · split at sent
          · cases sent
          · cases sent
  · cases sent
  · cases sent
  · cases sent
  · cases sent
  · cases sent
  · rename_i amount
    rw [amount]
    trivial
  · cases sent

end Menu

/-! ## The receiving process -/

inductive ClientOutput where
  | text (message : Bytes)
  | json (value : Json)
  | authenticationSuccessful
  | authenticationFailed
  | serverClosed

/-- The child's variables, and what it does to the outside. -/
structure Child where
  authenticated : Bool
  output : List ClientOutput
  /-- `kill(pid_parent, SIGINT)` was called. -/
  parentInterrupted : Bool

/-- What ends the child: its own `exit`, SIGINT, a string function on NULL, or
a write outside an array. -/
inductive ChildStop where
  | exited
  | interrupted
  | nullString
  | outOfBounds
deriving DecidableEq

abbrev ChildHandler := Faulting ChildStop Child

def Child.print (child : Child) (output : ClientOutput) : Child :=
  { child with output := child.output ++ [output] }

def printOutput (output : ClientOutput) : ChildHandler PUnit :=
  modify fun child => child.print output

/-- `disconnect`, whose `close` and `exit` end this process alone. -/
def disconnect : ChildHandler PUnit :=
  throw .exited

/-- The notice that the server sends on an electricity failure. -/
def disconnectNotice : Json :=
  .object [(ascii "message", .string (ascii "disconnect"))]

/-- What `receive_json` does with the JSON it received. -/
def handleReceivedJson (json : Json) : ChildHandler PUnit := do
  printOutput (.json json)
  match json.getObjectItem (ascii "message") with
  | none => pure ⟨⟩
  | some message =>
      match message.valuestring with
      | none => throw .nullString
      | some messageValue =>
          if messageValue = ascii "auth_success" then do
            printOutput .authenticationSuccessful
            modify fun child => { child with authenticated := true }
          else if messageValue = ascii "auth_failure" then
            printOutput .authenticationFailed
          else if messageValue = ascii "disconnect" then do
            printOutput .serverClosed
            modify fun child => { child with parentInterrupted := true }
            throw .exited
          else printOutput (.json json)

section Receiving

variable (parse : Bytes → Option Json)

/-- What `receive_json` does with the string it received. -/
def handleReceivedText (text : Bytes) : ChildHandler PUnit :=
  match parse text with
  | none => printOutput (.text text)
  | some json => handleReceivedJson json

/-- `behindStack` is the memory behind the buffer. -/
def receiveJson (behindStack : Bytes) : Received → ChildHandler PUnit
  | .failed => pure ⟨⟩
  | .bytes [] => do
      printOutput .serverClosed
      disconnect
  | .bytes data =>
      match receiveJsonBuffer data with
      | none => throw .outOfBounds
      | some buffer => handleReceivedText parse (buffer.text behindStack)

/-- The child process, running or stopped. -/
structure ChildProcess where
  child : Child
  stopped : Option ChildStop

/-- The process after a call has been executed. -/
def ChildProcess.after : Except ChildStop PUnit × Child → ChildProcess
  | (.ok _, child) => ⟨child, none⟩
  | (.error stop, child) => ⟨child, some stop⟩

/-- One round of the loop of `handle_server_messages`. -/
def ChildProcess.step (behindStack : Bytes) (process : ChildProcess)
    (received : Received) : ChildProcess :=
  match process.stopped with
  | none => .after (exec (receiveJson parse behindStack received) process.child)
  | some _ => process

/-- A block that leaves room in the buffer is handled as a string. -/
theorem receiveJson_of_lt {data : Bytes} (nonempty : data ≠ [])
    (room : data.length < bufferSize) (behindStack : Bytes) :
    receiveJson parse behindStack (.bytes data) =
      handleReceivedText parse (untilNul data) := by
  obtain ⟨byte, rest, rfl⟩ := List.exists_cons_of_ne_nil nonempty
  obtain ⟨buffer, stored, _, text⟩ :=
    (receiveIntoZeroed_delivers_iff le_rfl room.le).mpr (.inl room)
  simp only [receiveJson, receiveJsonBuffer, stored, text]

end Receiving

/-- A JSON value ends the child by its `message`: one that is no string, or a
disconnect notice, which is passed on to the parent first. -/
theorem exec_handleReceivedJson_stopped {json : Json} {child : Child}
    {stop : ChildStop}
    (stopped : (exec (handleReceivedJson json) child).1 = .error stop) :
    (stop = .nullString ∧
        ∃ message, json.getObjectItem (ascii "message") = some message ∧
          message.valuestring = none) ∨
      (stop = .exited ∧
        (exec (handleReceivedJson json) child).2.parentInterrupted = true) := by
  rw [handleReceivedJson, printOutput, exec_bind_of_ok (exec_modify _ _)]
    at stopped ⊢
  split at stopped
  · cases stopped
  · rename_i message found
    split at stopped
    · rename_i unreadable
      cases stopped
      exact .inl ⟨rfl, message, found, unreadable⟩
    · split at stopped
      · cases stopped
      · split at stopped
        · cases stopped
        · split at stopped
          · rename_i success failure disconnects
            rw [if_neg success, if_neg failure, if_pos disconnects]
            cases stopped
            exact .inr ⟨rfl, rfl⟩
          · cases stopped

/-- A JSON value is printed before it is acted on. -/
theorem output_handleReceivedJson (json : Json) (child : Child) :
    ∃ rest, (exec (handleReceivedJson json) child).2.output =
      child.output ++ .json json :: rest := by
  have printed : ∀ outputs : List ClientOutput,
      child.output ++ [.json json] ++ outputs =
        child.output ++ .json json :: outputs := by simp
  rw [handleReceivedJson, printOutput, exec_bind_of_ok (exec_modify _ _)]
  split
  · exact ⟨[], rfl⟩
  · split
    · exact ⟨[], rfl⟩
    · split
      · exact ⟨_, printed _⟩
      · split
        · exact ⟨_, printed _⟩
        · split
          · exact ⟨_, printed _⟩
          · exact ⟨_, printed _⟩

end ShelterServer
