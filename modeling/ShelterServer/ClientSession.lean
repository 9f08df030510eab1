import ShelterServer.Events
import ShelterServer.RequestFraming

/-!
# Sessions of a TCP client with the server

The server, the two processes of one client and the two directions of their
connection.  Any other traffic of the server, the user's input, the receive
calls of either side and the deliveries of signals may be interleaved; a
receive call returns any nonempty front of what is under way.  A SIGINT that
one process of the client sent to the other is taken before the other's next
step.
-/

namespace ShelterServer

open Foundations

/-- The machine the client runs on, and the JSON library of both programs. -/
structure Host where
  parse : Bytes → Option Json
  print : Json → Bytes
  signedChar : Bool
  /-- The value of `ID` in the os-release file. -/
  osId : Bytes

def Host.authentication (host : Host) : Json :=
  authenticationRequest host.signedChar host.osId

/-- The server's end of the client's connection: not yet accepted, accepted on
a descriptor, or closed. -/
inductive Link where
  | waiting
  | accepted (clientFd : Nat)
  | closed
deriving DecidableEq

structure Session where
  server : Process
  serverExited : Bool
  link : Link
  /-- The bytes under way in either direction. -/
  toServer : Bytes
  toClient : Bytes
  menu : Menu
  /-- The menu process has a pending SIGINT. -/
  menuInterrupted : Bool
  /-- The child, once the client has forked. -/
  child : Option ChildProcess
  childInterrupted : Bool
  /-- The blocks that the server received from this client. -/
  received : List Bytes
  /-- The server's replies to this client. -/
  answered : List Reply
  /-- The client's requests. -/
  sent : List Json
  /-- How many requests had been sent when the child saw the session end. -/
  endSeen : Option Nat

inductive SessionEvent where
  /-- An event of the server that is not about this client. -/
  | server (event : Event)
  | serverExits
  | accepts (context : RequestContext) (family : PeerFamily) (clientFd : Nat)
  /-- The server finds that the client has no peer name. -/
  | serverDrops (context : RequestContext)
  | serverReceives (context : RequestContext) (received : Received)
  | authenticates
  | forks (succeeded : Bool)
  | input (input : MenuInput)
  /-- A signal from outside ends the menu process or the child. -/
  | menuKilled
  | childKilled
  | childReceives (behindStack : Bytes) (received : Received)

namespace Session

/-- The client has connected; the server may have run before. -/
def initial (supplies : Supplies) : Session where
  server := .running (.initial supplies)
  serverExited := false
  link := .waiting
  toServer := []
  toClient := []
  menu := ⟨.connected, false⟩
  menuInterrupted := false
  child := none
  childInterrupted := false
  received := []
  answered := []
  sent := []
  endSeen := none

/-- The descriptor on which the server can receive from this client. -/
def clientFd? (session : Session) : Option Nat :=
  match session.link with
  | .accepted clientFd =>
      if session.serverExited = false ∧ session.server.fault = none ∧
          clientFd ∈ session.server.server.connected
      then some clientFd else none
  | .waiting => none
  | .closed => none

/-- The server's end of the connection is closed, by the server or by its
exit. -/
def ServerEnded (session : Session) : Prop :=
  session.link = .closed ∨ session.serverExited = true ∨
    session.server.fault ≠ none

/-- Both processes of the client are gone, and their sockets with them. -/
def ClientEnded (session : Session) : Prop :=
  session.menu.point = .stopped ∧
    ∀ process ∈ session.child, process.stopped ≠ none

instance (session : Session) : Decidable session.ServerEnded :=
  inferInstanceAs (Decidable (_ ∨ _ ∨ _))

instance (session : Session) : Decidable session.ClientEnded :=
  inferInstanceAs (Decidable (_ ∧ _))

/-- A receive call may return this: an error, the end of a stream that has
ended, or a front of what is under way. -/
def Arrives (stream : Bytes) (ended : Prop) : Received → Prop
  | .failed => True
  | .bytes [] => stream = [] ∧ ended
  | .bytes block => block <+: stream ∧ block.length ≤ bufferSize

instance (stream : Bytes) (ended : Prop) [Decidable ended]
    (received : Received) : Decidable (Arrives stream ended received) :=
  match received with
  | .failed => inferInstanceAs (Decidable True)
  | .bytes [] => inferInstanceAs (Decidable (_ ∧ _))
  | .bytes (_ :: _) => inferInstanceAs (Decidable (_ ∧ _))

end Session

/-- SIGINT ends a running child. -/
def ChildProcess.interrupt (process : ChildProcess) : ChildProcess :=
  match process.stopped with
  | none => ⟨process.child, some .interrupted⟩
  | some _ => process

/-- The bytes that a receive call takes. -/
def Received.block : Received → Bytes
  | .failed => []
  | .bytes block => block

namespace Session

variable (host : Host)

/-! ## The server's side -/

/-- What an action of the server does to the client's connection. -/
def deliver (session : Session) (action : Action) : Session :=
  match session.link, action with
  | .accepted clientFd, .sendTcp other message =>
      if other = clientFd then
        { session with toClient := session.toClient ++ message }
      else session
  | .accepted clientFd, .reply (.tcp other) reply =>
      if other = clientFd then
        { session with
          toClient := session.toClient ++ host.print reply.json
          answered := session.answered ++ [reply] }
      else session
  | .accepted clientFd, .closed other =>
      if other = clientFd then { session with link := .closed } else session
  | _, _ => session

/-- The server handles an event. -/
def serve (session : Session) (event : Event) : Session :=
  (session.server.actions host.parse event).foldl (deliver host)
    { session with server := session.server.step host.parse event }

/-- Activity on a client's descriptor is about this client. -/
def Concerns (session : Session) : Event → Prop
  | .tcpActivity _ clientFd _ _ => session.link = .accepted clientFd
  | _ => False

instance (session : Session) (event : Event) :
    Decidable (session.Concerns event) := by
  cases event <;> unfold Concerns <;> infer_instance

/-- The server takes a block from the connection. -/
def take (session : Session) : Received → Session
  | .failed => session
  | .bytes [] => session
  | .bytes block =>
      { session with
        toServer := session.toServer.drop block.length
        received := session.received ++ [block] }

/-! ## The client's side -/

/-- `send_json`. -/
def send (session : Session) (request : Json) : Session :=
  { session with
    toServer := session.toServer ++ host.print request
    sent := session.sent ++ [request] }

def stopMenu (session : Session) : Session :=
  { session with menu := session.menu.moveTo .stopped }

def perform (session : Session) : MenuAction → Session
  | .sendJson request => session.send host request
  | .interruptChild => { session with childInterrupted := true }

def enter (session : Session) (input : MenuInput) : Session :=
  let (menu, actions) := session.menu.handleUserInput input
  actions.foldl (perform host) { session with menu }

/-- `authenticate` and the assignment that follows it. -/
def authenticate (session : Session) : Session :=
  { session.send host host.authentication with menu := ⟨.authenticated, true⟩ }

/-- The child starts with a copy of the parent's variables. -/
def fork (session : Session) : Session :=
  { session with
    menu := session.menu.moveTo .option
    child := some
      ⟨⟨session.menu.authenticated, [], false⟩, none⟩ }

/-- The child has taken what it received from the connection. -/
def childAfter (session : Session) (received : Received)
    (process : ChildProcess) : Session :=
  { session with
    toClient := session.toClient.drop received.block.length
    child := some process
    menuInterrupted :=
      session.menuInterrupted || process.child.parentInterrupted
    endSeen :=
      if process.stopped = some .exited then some session.sent.length
      else session.endSeen }

/-- One round of the child. -/
def childReceives (session : Session) (process : ChildProcess)
    (behindStack : Bytes) (received : Received) : Session :=
  if process.stopped ≠ none then session
  else if session.childInterrupted then
    { session with child := some process.interrupt }
  else if Arrives session.toClient session.ServerEnded received then
    session.childAfter received (process.step host.parse behindStack received)
  else session

/-! ## Steps -/

/-- Where an event says what cannot happen, nothing happens. -/
def step (session : Session) : SessionEvent → Session
  | .server event =>
      if session.serverExited = true ∨ session.Concerns event then session
      else session.serve host event
  | .serverExits => { session with serverExited := true }
  | .accepts context family clientFd =>
      if session.serverExited = false ∧ session.server.fault = none ∧
          session.link = .waiting ∧
          clientFd ∉ session.server.server.connected then
        { session.serve host (.tcpConnection context family (some clientFd))
          with link := .accepted clientFd }
      else session
  | .serverDrops context =>
      match session.clientFd? with
      | none => session
      | some clientFd =>
          session.serve host (.tcpActivity context clientFd false .failed)
  | .serverReceives context received =>
      match session.clientFd? with
      | none => session
      | some clientFd =>
          if Arrives session.toServer session.ClientEnded received then
            (session.take received).serve host
              (.tcpActivity context clientFd true received)
          else session
  | .authenticates =>
      if session.menuInterrupted then session.stopMenu
      else if session.menu.point = .connected then session.authenticate host
      else session
  | .forks succeeded =>
      if session.menuInterrupted then session.stopMenu
      else if session.menu.point = .authenticated then
        if succeeded then session.fork else session.stopMenu
      else session
  | .input input =>
      if session.menuInterrupted then session.stopMenu
      else session.enter host input
  | .menuKilled => session.stopMenu
  | .childKilled =>
      { session with child := session.child.map ChildProcess.interrupt }
  | .childReceives behindStack received =>
      match session.child with
      | none => session
      | some process =>
          session.childReceives host process behindStack received

end Session

/-- A run of the server and one client of it. -/
def sessionRun (host : Host) (supplies : Supplies)
    (events : List SessionEvent) : Session :=
  run (Session.step host) (.initial supplies) events

theorem sessionRun_concat (host : Host) (supplies : Supplies)
    (events : List SessionEvent) (event : SessionEvent) :
    sessionRun host supplies (events ++ [event]) =
      (sessionRun host supplies events).step host event :=
  run_concat _ _ _ _

/-! ## What a step can do -/

namespace Session

/-- The steps of a session, each with what it finds. -/
inductive Steps (host : Host) (session : Session) :
    SessionEvent → Session → Prop
  | idle (event : SessionEvent) : Steps host session event session
  | server {event : Event} (present : session.serverExited = false)
      (other : ¬ session.Concerns event) :
      Steps host session (.server event) (session.serve host event)
  | serverExits :
      Steps host session .serverExits { session with serverExited := true }
  | accepts {context : RequestContext} {family : PeerFamily} {clientFd : Nat}
      (waiting : session.link = .waiting) :
      Steps host session (.accepts context family clientFd)
        { session.serve host (.tcpConnection context family (some clientFd))
          with link := .accepted clientFd }
  | serverDrops {context : RequestContext} {clientFd : Nat}
      (found : session.clientFd? = some clientFd) :
      Steps host session (.serverDrops context)
        (session.serve host (.tcpActivity context clientFd false .failed))
  | serverReceives {context : RequestContext} {received : Received}
      {clientFd : Nat} (found : session.clientFd? = some clientFd)
      (arrives : Arrives session.toServer session.ClientEnded received) :
      Steps host session (.serverReceives context received)
        ((session.take received).serve host
          (.tcpActivity context clientFd true received))
  | stops (event : SessionEvent) :
      Steps host session event session.stopMenu
  | authenticates (untold : session.menuInterrupted = false)
      (connected : session.menu.point = .connected) :
      Steps host session .authenticates (session.authenticate host)
  | forks (untold : session.menuInterrupted = false)
      (authenticated : session.menu.point = .authenticated) :
      Steps host session (.forks true) session.fork
  | enters {input : MenuInput} (untold : session.menuInterrupted = false) :
      Steps host session (.input input) (session.enter host input)
  | childStops (event : SessionEvent) :
      Steps host session event
        { session with child := session.child.map ChildProcess.interrupt }
  | childReceives {behindStack : Bytes} {received : Received} {child : Child}
      (forked : session.child = some ⟨child, none⟩)
      (running : session.childInterrupted = false)
      (arrives : Arrives session.toClient session.ServerEnded received) :
      Steps host session (.childReceives behindStack received)
        (session.childAfter received (ChildProcess.step host.parse behindStack
          ⟨child, none⟩ received))

theorem step_cases (host : Host) (session : Session) (event : SessionEvent) :
    Steps host session event (session.step host event) := by
  cases event with
  | server event =>
      rw [step]
      split
      · exact .idle _
      · rename_i other
        rw [not_or, Bool.not_eq_true] at other
        exact .server other.1 other.2
  | serverExits => exact .serverExits
  | accepts context family clientFd =>
      rw [step]
      split
      · rename_i arrives
        exact .accepts arrives.2.2.1
      · exact .idle _
  | serverDrops context =>
      rw [step]
      split
      · exact .idle _
      · rename_i clientFd found
        exact .serverDrops found
  | serverReceives context received =>
      rw [step]
      split
      · exact .idle _
      · rename_i clientFd found
        split
        · rename_i arrives
          exact .serverReceives found arrives
        · exact .idle _
  | authenticates =>
      rw [step]
      split
      · exact .stops _
      · rename_i untold
        split
        · rename_i connected
          exact .authenticates (by simpa using untold) connected
        · exact .idle _
  | forks succeeded =>
      rw [step]
      split
      · exact .stops _
      · rename_i untold
        split
        · rename_i authenticated
          cases succeeded with
          | true => exact .forks (by simpa using untold) authenticated
          | false => exact .stops _
        · exact .idle _
  | input input =>
      rw [step]
      split
      · exact .stops _
      · rename_i untold
        exact .enters (by simpa using untold)
  | menuKilled => exact .stops _
  | childKilled => exact .childStops _
  | childReceives behindStack received =>
      rw [step]
      split
      · exact .idle _
      · rename_i process forked
        rcases process with ⟨child, stopped⟩
        cases stopped with
        | some stop => exact .idle _
        | none =>
            unfold childReceives
            split
            · exact .idle _
            · split
              · have stopping : some (ChildProcess.interrupt ⟨child, none⟩) =
                    session.child.map ChildProcess.interrupt := by
                  rw [forked, Option.map_some]
                rw [stopping]
                exact .childStops _
              · rename_i running
                split
                · rename_i arrives
                  exact .childReceives forked (by simpa using running) arrives
                · exact .idle _

end Session

/-! ## What either side changes -/

namespace Session

variable (host : Host)

theorem foldl_deliver_eq (actions : List Action) (session : Session) :
    ∃ link toClient answered, actions.foldl (deliver host) session =
      { session with link, toClient, answered } := by
  induction actions generalizing session with
  | nil => exact ⟨session.link, session.toClient, session.answered, rfl⟩
  | cons action actions induction =>
      have first : ∃ link toClient answered, session.deliver host action =
          { session with link, toClient, answered } := by
        unfold deliver
        split
        · split <;> exact ⟨_, _, _, rfl⟩
        · split <;> exact ⟨_, _, _, rfl⟩
        · split <;> exact ⟨_, _, _, rfl⟩
        · exact ⟨_, _, _, rfl⟩
      obtain ⟨link, toClient, answered, delivered⟩ := first
      rw [List.foldl_cons, delivered]
      exact induction _

/-- The server's handling of an event changes nothing on the client's side. -/
theorem serve_eq (session : Session) (event : Event) :
    ∃ link toClient answered, session.serve host event =
      { session with
        server := session.server.step host.parse event
        link, toClient, answered } :=
  foldl_deliver_eq host _ _

theorem enter_of_idle {session : Session}
    (idle : session.menu.point = .connected ∨
      session.menu.point = .authenticated ∨ session.menu.point = .stopped)
    (input : MenuInput) : session.enter host input = session := by
  unfold enter
  rw [Menu.handleUserInput_of_idle idle input]
  rfl

/-- An input changes nothing on the server's side. -/
theorem enter_eq (session : Session) (input : MenuInput) :
    ∃ childInterrupted, session.enter host input =
      { session with
        toServer := session.toServer ++
          sendJsonStream host.print (session.menu.requests input)
        menu := (session.menu.handleUserInput input).1
        childInterrupted
        sent := session.sent ++ session.menu.requests input } := by
  have performed : ∀ (actions : List MenuAction) (start : Session),
      ∃ childInterrupted, actions.foldl (perform host) start =
        { start with
          toServer := start.toServer ++ sendJsonStream host.print
            (actions.filterMap MenuAction.request?)
          childInterrupted
          sent := start.sent ++ actions.filterMap MenuAction.request? } := by
    intro actions
    induction actions with
    | nil =>
        intro start
        exact ⟨start.childInterrupted, by simp [sendJsonStream]⟩
    | cons action actions induction =>
        intro start
        obtain ⟨childInterrupted, rest⟩ := induction (start.perform host action)
        refine ⟨childInterrupted, ?_⟩
        rw [List.foldl_cons, rest]
        cases action with
        | sendJson request =>
            simp [perform, send, MenuAction.request?, sendJsonStream]
        | interruptChild => rfl
  obtain ⟨childInterrupted, entered⟩ := performed
    (session.menu.handleUserInput input).2
    { session with menu := (session.menu.handleUserInput input).1 }
  exact ⟨childInterrupted, entered⟩

end Session

end ShelterServer
