import ShelterServer.TcpClient

/-!
# The UDP client

The menu process of the UDP client.  Every request carries the hostname, so
the process needs no authentication before it sends an update, and each request
is one datagram.
-/

namespace ShelterServer

open Foundations

/-- The menu process: where it stands, as for the TCP client, and its
`utf8_os_id`. -/
structure UdpMenu where
  point : MenuPoint
  hostname : Bytes

namespace UdpMenu

/-- The process at its first prompt. -/
def initial (signedChar : Bool) (osId : Bytes) : UdpMenu :=
  ⟨.option, encodeUtf8 signedChar osId⟩

def moveTo (menu : UdpMenu) (point : MenuPoint) : UdpMenu :=
  { menu with point }

/-- A request, with the members that follow its `message`. -/
def request (menu : UdpMenu) (message : Bytes)
    (resources : List (Bytes × Json)) : Json :=
  .object ((ascii "hostname", .string menu.hostname) ::
    (ascii "message", .string message) :: resources)

def statusRequest (menu : UdpMenu) : Json :=
  menu.request (ascii "status") []

def summaryRequest (menu : UdpMenu) : Json :=
  menu.request (ascii "summary") []

def updateRequest (menu : UdpMenu) (resource : Resource) (item : Bytes)
    (value : Int) : Json :=
  menu.request (ascii "update")
    [(resource.key, .object [(item, .number value)])]

/-- The choice from the main menu. -/
def chooseOption (menu : UdpMenu) (line : Bytes) : UdpMenu × List MenuAction :=
  if line = ascii "1\n" then (menu, [.sendJson menu.statusRequest])
  else if line = ascii "2\n" then (menu.moveTo .resource, [])
  else if line = ascii "3\n" then (menu, [.sendJson menu.summaryRequest])
  else if line = ascii "4\n" then (menu.moveTo .stopped, [.interruptChild])
  else (menu, [])

def chooseResource (menu : UdpMenu) (line : Bytes) : UdpMenu :=
  if line = ascii "1\n" then menu.moveTo (.item .food)
  else if line = ascii "2\n" then menu.moveTo (.item .medicine)
  else menu.moveTo .option

/-- What follows the amount. -/
def update (menu : UdpMenu) (resource : Resource) (line : Bytes)
    (value : Int) : UdpMenu × List MenuAction :=
  (menu.moveTo .option,
    match resource.item line with
    | some item => [.sendJson (menu.updateRequest resource item value)]
    | none => [])

/-- `handle_user_input` from one input to the next. -/
def handleUserInput (menu : UdpMenu) (input : MenuInput) :
    UdpMenu × List MenuAction :=
  match menu.point, input with
  | .option, .line none => (menu.moveTo .stopped, [])
  | .option, .line (some line) => menu.chooseOption line
  | .resource, .line none => (menu.moveTo .stopped, [])
  | .resource, .line (some line) => (menu.chooseResource line, [])
  | .item _, .line none => (menu.moveTo .stopped, [])
  | .item resource, .line (some line) =>
      (menu.moveTo (.amount resource line), [])
  | .amount _ _, .number none => (menu.moveTo .stopped, [])
  | .amount resource line, .number (some value) =>
      menu.update resource line value
  | _, _ => (menu, [])

/-- The datagram of a request: `send_to_server_v4` and `send_to_server_v6`
refuse a text that does not fit their buffer. -/
def datagram (print : Json → Bytes) (request : Json) : Option Bytes :=
  if (print request).length < bufferSize then some (print request) else none

/-- A datagram that was sent is received whole. -/
theorem udpRequest_of_datagram {parse : Bytes → Option Json}
    {print : Json → Bytes} {request : Json} {message : Bytes}
    (sent : datagram print request = some message) :
    udpRequest parse (.bytes message) = parse (untilNul message) := by
  unfold datagram at sent
  split at sent
  · rename_i short
    obtain rfl := Option.some.inj sent
    rw [udpRequest, List.take_of_length_le (Nat.le_sub_one_of_lt short)]
  · cases sent

theorem hostname_handleUserInput (menu : UdpMenu) (input : MenuInput) :
    (menu.handleUserInput input).1.hostname = menu.hostname := by
  unfold handleUserInput
  split
  · rfl
  · unfold chooseOption
    split
    · rfl
    · split
      · rfl
      · split
        · rfl
        · split
          · rfl
          · rfl
  · rfl
  · unfold chooseResource
    split
    · rfl
    · split
      · rfl
      · rfl
  · rfl
  · rfl
  · rfl
  · rfl
  · rfl

end UdpMenu

end ShelterServer
