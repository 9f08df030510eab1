import ShelterServer.SupplyTable
import ShelterServer.Transports
import ShelterServer.UdpClient

/-!
# From the menu to the counters

A user who goes through option 2 of either client names a counter and an
amount.  The request that the client then sends makes the server change that
counter by that amount and no other one; every other way through the option
sends nothing.
-/

namespace ShelterServer

open Foundations Faulting

/-! ## What the user chooses -/

/-- The counters in the order in which a resource's menu lists them. -/
def Resource.counter : Resource → Bytes → Option Counter
  | .food, line =>
      if line = ascii "1\n" then some .meat
      else if line = ascii "2\n" then some .vegetables
      else if line = ascii "3\n" then some .fruits
      else if line = ascii "4\n" then some .water
      else none
  | .medicine, line =>
      if line = ascii "1\n" then some .antibiotics
      else if line = ascii "2\n" then some .analgesics
      else if line = ascii "3\n" then some .bandages
      else none

/-- The counter that two lines choose. -/
def chosenCounter (resource item : Bytes) : Option Counter :=
  if resource = ascii "1\n" then Resource.food.counter item
  else if resource = ascii "2\n" then Resource.medicine.counter item
  else none

/-- The inputs of option 2 name a counter and an amount. -/
def ChoosesUpdate (inputs : List MenuInput) (counter : Counter) (value : Int) :
    Prop :=
  ∃ resource item, chosenCounter resource item = some counter ∧
    inputs = [.line (some resource), .line (some item), .number (some value)]

theorem Resource.item_eq (resource : Resource) (line : Bytes) :
    resource.item line = (resource.counter line).map Counter.key := by
  cases resource with
  | food =>
      simp only [Resource.item, Resource.counter,
        apply_ite (Option.map Counter.key)]
      rfl
  | medicine =>
      simp only [Resource.item, Resource.counter,
        apply_ite (Option.map Counter.key)]
      rfl

theorem Resource.key_eq {resource : Resource} {line : Bytes}
    {counter : Counter} (named : resource.counter line = some counter) :
    resource.key = counter.sectionKey := by
  cases resource with
  | food =>
      simp only [Resource.counter] at named
      split_ifs at named
      all_goals
        obtain rfl := Option.some.inj named
        rfl
  | medicine =>
      simp only [Resource.counter] at named
      split_ifs at named
      all_goals
        obtain rfl := Option.some.inj named
        rfl

/-- The update that one counter asks for, with the members in front of its
section. -/
def counterRequest (front : List (Bytes × Json)) (counter : Counter)
    (value : Int) : Json :=
  .object (front ++
    [(counter.sectionKey, .object [(counter.key, .number value)])])

/-! ## The way through option 2 -/

/-- The process is in option 2 and gets an input of the kind it waits for. -/
def MenuPoint.Reads : MenuPoint → MenuInput → Prop
  | .resource, .line _ => True
  | .item _, .line _ => True
  | .amount _ _, .number _ => True
  | _, _ => False

/-- Where the choice of a resource leads. -/
def resourcePoint : Option Bytes → MenuPoint
  | none => .stopped
  | some line =>
      if line = ascii "1\n" then .item .food
      else if line = ascii "2\n" then .item .medicine
      else .option

/-- Where the choice of an item leads. -/
def itemPoint (resource : Resource) : Option Bytes → MenuPoint
  | none => .stopped
  | some line => .amount resource line

/-- What is sent behind the amount. -/
def updateActions (front : List (Bytes × Json)) (resource : Resource)
    (line : Bytes) (value : Int) : List MenuAction :=
  match resource.item line with
  | some item => [.sendJson (.object (front ++
      [(resource.key, .object [(item, .number value)])]))]
  | none => []

theorem updateActions_eq (front : List (Bytes × Json)) (resource : Resource)
    (line : Bytes) (value : Int) :
    updateActions front resource line value =
      ((resource.counter line).map fun counter =>
        MenuAction.sendJson (counterRequest front counter value)).toList := by
  unfold updateActions
  rw [Resource.item_eq]
  cases named : resource.counter line with
  | none => rfl
  | some counter =>
      simp only [Option.map_some, Option.toList_some, counterRequest,
        Resource.key_eq named]

section Paths

variable {State : Type} (point : State → MenuPoint)
  (step : State → MenuInput → State × List MenuAction)

/-- A menu process whose option 2 asks for a resource, an item and an amount,
and then sends an update with the given members in front. -/
structure AsksForUpdate (front : State → List (Bytes × Json)) : Prop where
  enters : ∀ state, point state = .option →
    (step state (.line (some (ascii "2\n")))).2 = [] ∧
      (point (step state (.line (some (ascii "2\n")))).1 = .resource ∨
        point (step state (.line (some (ascii "2\n")))).1 = .option)
  resource : ∀ state line, point state = .resource →
    (step state (.line line)).2 = [] ∧
      point (step state (.line line)).1 = resourcePoint line
  item : ∀ state resource line, point state = .item resource →
    (step state (.line line)).2 = [] ∧
      point (step state (.line line)).1 = itemPoint resource line
  amount : ∀ state resource line value, point state = .amount resource line →
    (step state (.number (some value))).2 =
        updateActions (front state) resource line value ∧
      point (step state (.number (some value))).1 = .option
  noAmount : ∀ state resource line, point state = .amount resource line →
    (step state (.number none)).2 = [] ∧
      point (step state (.number none)).1 = .stopped
  front : ∀ state input, front (step state input).1 = front state

/-- The requests that a process sends while it reads some inputs. -/
def sentDuring (state : State) (inputs : List MenuInput) : List Json :=
  observe (fun state input => (step state input).1)
    (fun state input => (step state input).2.filterMap MenuAction.request?)
    state inputs

/-- Every input is read inside option 2. -/
def InsideOptionTwo (state : State) (inputs : List MenuInput) : Prop :=
  GuardedRun (fun state input => (step state input).1)
    (fun state input => (point state).Reads input) state inputs

/-- Option 2, chosen at the main menu and followed to any point, sends what it
should: the chosen update, or nothing. -/
def SendsChosenUpdate (handled : Json → Counter → Int → Prop)
    (state : State) : Prop :=
  ∀ inputs, InsideOptionTwo point step
      (step state (.line (some (ascii "2\n")))).1 inputs →
    (∀ counter value, ChoosesUpdate inputs counter value →
      ∃ request, sentDuring step state
          (.line (some (ascii "2\n")) :: inputs) = [request] ∧
        handled request counter value) ∧
    ((∀ counter value, ¬ ChoosesUpdate inputs counter value) →
      sentDuring step state (.line (some (ascii "2\n")) :: inputs) = [])

/-- What the inputs name from a point inside option 2 on. -/
def MenuPoint.chosen : MenuPoint → List MenuInput → Option (Counter × Int)
  | .resource, .line line :: inputs => (resourcePoint line).chosen inputs
  | .item kind, .line line :: inputs => (itemPoint kind line).chosen inputs
  | .amount kind line, [.number (some value)] =>
      (kind.counter line).map fun counter => (counter, value)
  | _, _ => none

theorem chosen_of_outside {point : MenuPoint}
    (outside : point = .option ∨ point = .stopped)
    (inputs : List MenuInput) : point.chosen inputs = none := by
  rcases outside with rfl | rfl
  · unfold MenuPoint.chosen
    rfl
  · unfold MenuPoint.chosen
    rfl

theorem chosen_amount_iff {kind : Resource} {line : Bytes}
    {inputs : List MenuInput} {counter : Counter} {value : Int} :
    (MenuPoint.amount kind line).chosen inputs = some (counter, value) ↔
      kind.counter line = some counter ∧ inputs = [.number (some value)] := by
  constructor
  · intro named
    unfold MenuPoint.chosen at named
    split at named
    · cases ‹MenuPoint.amount kind line = _›
    · cases ‹MenuPoint.amount kind line = _›
    · cases ‹MenuPoint.amount kind line = _›
      obtain ⟨other, found, same⟩ := Option.map_eq_some_iff.mp named
      cases same
      exact ⟨found, rfl⟩
    · cases named
  · rintro ⟨named, rfl⟩
    change Option.map _ _ = _
    rw [named]
    rfl

theorem chosen_item_iff {kind : Resource} {inputs : List MenuInput}
    {counter : Counter} {value : Int} :
    (MenuPoint.item kind).chosen inputs = some (counter, value) ↔
      ∃ line, kind.counter line = some counter ∧
        inputs = [.line (some line), .number (some value)] := by
  rcases inputs with _ | ⟨line | number, inputs⟩
  · exact iff_of_false (by simp [MenuPoint.chosen]) (by simp)
  · change (itemPoint kind line).chosen inputs = _ ↔ _
    cases line with
    | none =>
        rw [itemPoint, chosen_of_outside (.inr rfl)]
        simp
    | some line =>
        rw [itemPoint, chosen_amount_iff]
        simp
  · exact iff_of_false (by simp [MenuPoint.chosen]) (by simp)

theorem chosen_resource_iff {inputs : List MenuInput} {counter : Counter}
    {value : Int} :
    MenuPoint.resource.chosen inputs = some (counter, value) ↔
      ChoosesUpdate inputs counter value := by
  unfold ChoosesUpdate
  rcases inputs with _ | ⟨line | number, inputs⟩
  · exact iff_of_false (by simp [MenuPoint.chosen]) (by simp)
  · change (resourcePoint line).chosen inputs = _ ↔ _
    cases line with
    | none =>
        rw [resourcePoint, chosen_of_outside (.inr rfl)]
        simp
    | some line =>
        simp only [resourcePoint, chosenCounter]
        by_cases food : line = ascii "1\n"
        · subst food
          rw [if_pos rfl, chosen_item_iff]
          simp
        · by_cases medicine : line = ascii "2\n"
          · subst medicine
            rw [if_neg food, if_pos rfl, chosen_item_iff]
            simp [show ascii "2\n" ≠ ascii "1\n" by decide]
          · rw [if_neg food, if_neg medicine, chosen_of_outside (.inl rfl)]
            refine iff_of_false (by simp) ?_
            rintro ⟨_, item, named, inputsEq⟩
            obtain rfl : line = _ := by simpa using (List.cons.inj inputsEq).1
            rw [if_neg food, if_neg medicine] at named
            cases named
  · exact iff_of_false (by simp [MenuPoint.chosen]) (by simp)

variable {point : State → MenuPoint}
  {step : State → MenuInput → State × List MenuAction}
  {front : State → List (Bytes × Json)}

theorem sentDuring_cons (state : State) (input : MenuInput)
    (inputs : List MenuInput) :
    sentDuring step state (input :: inputs) =
      (step state input).2.filterMap MenuAction.request? ++
        sentDuring step (step state input).1 inputs :=
  rfl

/-- A line names a resource or an item, a number is an amount. -/
theorem MenuPoint.Reads.cases {point : MenuPoint} {input : MenuInput}
    (reads : point.Reads input) :
    (∃ line, input = .line line ∧ point = .resource) ∨
      (∃ line resource, input = .line line ∧ point = .item resource) ∨
      ∃ value resource line, input = .number value ∧
        point = .amount resource line := by
  unfold MenuPoint.Reads at reads
  split at reads
  · exact Or.inl ⟨_, rfl, rfl⟩
  · exact Or.inr (Or.inl ⟨_, _, rfl, rfl⟩)
  · exact Or.inr (Or.inr ⟨_, _, _, rfl, rfl⟩)
  · exact reads.elim

/-- No input is read behind the end of option 2. -/
theorem eq_nil_of_outside {state : State} {inputs : List MenuInput}
    (inside : InsideOptionTwo point step state inputs)
    (outside : point state = .option ∨ point state = .stopped) :
    inputs = [] := by
  cases inputs with
  | nil => rfl
  | cons input inputs =>
      have reads : (point state).Reads input := inside.1
      rcases outside with left | ended
      · rw [left] at reads
        exact reads.elim
      · rw [ended] at reads
        exact reads.elim

/-- From any point inside option 2, what is named is sent. -/
theorem AsksForUpdate.sent (asks : AsksForUpdate point step front)
    {state : State} {inputs : List MenuInput}
    (inside : InsideOptionTwo point step state inputs) :
    sentDuring step state inputs =
      (((point state).chosen inputs).map fun chosen =>
        counterRequest (front state) chosen.1 chosen.2).toList := by
  induction inputs generalizing state with
  | nil =>
      have nothing : (point state).chosen [] = none := by
        cases point state <;> rfl
      rw [nothing]
      rfl
  | cons input inputs induction =>
      obtain ⟨reads, rest⟩ := inside
      have later := induction rest
      rw [asks.front state input] at later
      rw [sentDuring_cons, later]
      clear later
      change (point state).Reads input at reads
      change InsideOptionTwo point step (step state input).1 inputs at rest
      obtain ⟨line, rfl, position⟩ | ⟨line, resource, rfl, position⟩ |
        ⟨value, resource, line, rfl, position⟩ := reads.cases
      · obtain ⟨silent, moved⟩ := asks.resource state line position
        rw [position, silent, moved]
        rfl
      · obtain ⟨silent, moved⟩ := asks.item state resource line position
        rw [position, silent, moved]
        rfl
      · cases value with
        | none =>
            obtain ⟨silent, moved⟩ :=
              asks.noAmount state resource line position
            obtain rfl := eq_nil_of_outside rest (.inr moved)
            rw [position, silent, moved]
            rfl
        | some value =>
            obtain ⟨actions, moved⟩ :=
              asks.amount state resource line value position
            obtain rfl := eq_nil_of_outside rest (.inl moved)
            rw [position, actions, moved, updateActions_eq]
            change _ = Option.toList (Option.map _ (Option.map _ _))
            cases resource.counter line <;> rfl

/-- Option 2 sends what was chosen, and what it sends is handled as it
should. -/
theorem AsksForUpdate.sendsChosenUpdate
    (asks : AsksForUpdate point step front) {state : State}
    (prompted : point state = .option) {handled : Json → Counter → Int → Prop}
    (effect : ∀ counter value,
      handled (counterRequest (front state) counter value) counter value) :
    SendsChosenUpdate point step handled state := by
  intro inputs inside
  obtain ⟨silent, entered⟩ := asks.enters state prompted
  have sent := asks.sent inside
  rw [asks.front] at sent
  have whole : sentDuring step state (.line (some (ascii "2\n")) :: inputs) =
      sentDuring step (step state (.line (some (ascii "2\n")))).1 inputs := by
    rw [sentDuring_cons, silent]
    rfl
  rw [whole, sent]
  rcases entered with asked | refused
  · rw [asked]
    constructor
    · intro counter value chooses
      rw [chosen_resource_iff.mpr chooses]
      exact ⟨_, rfl, effect counter value⟩
    · intro nothing
      have unnamed : MenuPoint.resource.chosen inputs = none := by
        refine Option.eq_none_iff_forall_ne_some.mpr ?_
        rintro ⟨counter, value⟩ named
        exact nothing counter value (chosen_resource_iff.mp named)
      rw [unnamed]
      rfl
  · obtain rfl := eq_nil_of_outside inside (.inl refused)
    rw [refused, chosen_of_outside (.inl rfl)]
    refine ⟨?_, fun _ => rfl⟩
    rintro counter value ⟨_, _, _, impossible⟩
    cases impossible

end Paths

/-! ## The two clients -/

theorem asksForUpdate_menu :
    AsksForUpdate Menu.point Menu.handleUserInput fun _ =>
      [(ascii "message", .string (ascii "update"))] where
  enters menu prompted := by
    rcases menu with ⟨point, authenticated⟩
    obtain rfl : point = .option := prompted
    cases authenticated with
    | false => exact ⟨rfl, .inr rfl⟩
    | true => exact ⟨rfl, .inl rfl⟩
  resource menu line asked := by
    rcases menu with ⟨point, authenticated⟩
    obtain rfl : point = .resource := asked
    cases line with
    | none => exact ⟨rfl, rfl⟩
    | some line =>
        refine ⟨rfl, ?_⟩
        simp only [Menu.handleUserInput, Menu.chooseResource, resourcePoint]
        split_ifs
        all_goals rfl
  item menu resource line asked := by
    rcases menu with ⟨point, authenticated⟩
    obtain rfl : point = .item resource := asked
    cases line <;> exact ⟨rfl, rfl⟩
  amount menu resource line value asked := by
    rcases menu with ⟨point, authenticated⟩
    obtain rfl : point = .amount resource line := asked
    exact ⟨rfl, rfl⟩
  noAmount menu resource line asked := by
    rcases menu with ⟨point, authenticated⟩
    obtain rfl : point = .amount resource line := asked
    exact ⟨rfl, rfl⟩
  front _ _ := rfl

theorem asksForUpdate_udpMenu :
    AsksForUpdate UdpMenu.point UdpMenu.handleUserInput fun menu =>
      [(ascii "hostname", .string menu.hostname),
        (ascii "message", .string (ascii "update"))] where
  enters menu prompted := by
    rcases menu with ⟨point, hostname⟩
    obtain rfl : point = .option := prompted
    exact ⟨rfl, .inl rfl⟩
  resource menu line asked := by
    rcases menu with ⟨point, hostname⟩
    obtain rfl : point = .resource := asked
    cases line with
    | none => exact ⟨rfl, rfl⟩
    | some line =>
        refine ⟨rfl, ?_⟩
        simp only [UdpMenu.handleUserInput, UdpMenu.chooseResource,
          resourcePoint]
        split_ifs
        all_goals rfl
  item menu resource line asked := by
    rcases menu with ⟨point, hostname⟩
    obtain rfl : point = .item resource := asked
    cases line <;> exact ⟨rfl, rfl⟩
  amount menu resource line value asked := by
    rcases menu with ⟨point, hostname⟩
    obtain rfl : point = .amount resource line := asked
    exact ⟨rfl, rfl⟩
  noAmount menu resource line asked := by
    rcases menu with ⟨point, hostname⟩
    obtain rfl : point = .amount resource line := asked
    exact ⟨rfl, rfl⟩
  front menu input := by rw [UdpMenu.hostname_handleUserInput]

/-! ## The server -/

/-- One counter received an amount and was clamped at zero; the others kept
their values. -/
def Supplies.ChangedOnly (before : Supplies) (counter : Counter) (value : Int)
    (after : Supplies) : Prop :=
  ∀ other, after.counter other =
    if other = counter then max 0 (before.counter counter + value)
    else before.counter other

/-- No member is taken for a section. -/
def NamesNoSection (members : List (Bytes × Json)) : Prop :=
  ∀ member ∈ members, ∀ counter : Counter,
    sameIgnoringCase counter.sectionKey member.1 = false

theorem amount_append {front : List (Bytes × Json)}
    (unrelated : NamesNoSection front) (rest : List (Bytes × Json))
    (counter : Counter) :
    (Json.object (front ++ rest)).amount counter =
      (Json.object rest).amount counter := by
  have missed : front.find?
      (fun member => sameIgnoringCase counter.sectionKey member.1) = none := by
    simpa using fun key item member => unrelated (key, item) member counter
  have found : (Json.object (front ++ rest)).getObjectItem counter.sectionKey =
      (Json.object rest).getObjectItem counter.sectionKey := by
    simp only [Json.getObjectItem, List.find?_append, missed, Option.none_or]
  rw [Json.amount, found, Json.amount]

theorem amount_counterRequest {front : List (Bytes × Json)}
    (unrelated : NamesNoSection front) (counter other : Counter)
    (value : Int) :
    (counterRequest front counter value).amount other =
      if other = counter then some (saturateInt value) else none := by
  rw [counterRequest, amount_append unrelated]
  cases counter <;> cases other <;> rfl

theorem changedOnly_update {front : List (Bytes × Json)}
    (unrelated : NamesNoSection front) {counter : Counter} {value : Int}
    (amount : InInt value)
    {supplies : Supplies} (sum : InInt (supplies.counter counter + value)) :
    supplies.ChangedOnly counter value
      (supplies.update (counterRequest front counter value)) := by
  intro other
  rw [Supplies.counter_update, amount_counterRequest unrelated,
    saturateInt_of_inInt amount]
  split
  · rename_i same
    rw [same, addAmount_of_inInt sum]
    rfl
  · rfl

/-- The server handles the request on a TCP connection, as the value it found
in a received block, with both segments attached. -/
def AppliedOverTcp (request : Json) (counter : Counter) (value : Int) : Prop :=
  ∀ (parse : Bytes → Option Json) (context : RequestContext) (clientFd : Nat)
    (received : Received) (server : Server),
    tcpRequest parse received = .ok (some request) →
    context.access.Granted → InInt value →
    InInt (server.supplies.counter counter + value) →
    ∃ after, exec (checkTcpClientsMessages parse context clientFd received)
        server = (.ok true, after) ∧
      server.supplies.ChangedOnly counter value after.supplies

/-- The server handles the request as the datagram that the client sent, with
both segments attached. -/
def AppliedOverUdp (request : Json) (counter : Counter) (value : Int) : Prop :=
  ∀ (parse : Bytes → Option Json) (print : Json → Bytes) (message : Bytes)
    (context : RequestContext) (sockfd : Nat) (source : SockaddrIn6)
    (server : Server),
    UdpMenu.datagram print request = some message →
    parse (untilNul message) = some request →
    context.access.Granted → InInt value →
    InInt (server.supplies.counter counter + value) →
    ∃ after, exec (checkUdpClientsMessages parse context sockfd
        ⟨.bytes message, source⟩) server = (.ok true, after) ∧
      server.supplies.ChangedOnly counter value after.supplies

theorem checkTcpClientsMessages_of_update {parse : Bytes → Option Json}
    {context : RequestContext} {received : Received} {request : Json}
    (parsed : tcpRequest parse received = .ok (some request))
    (updates : request.Requests (ascii "update"))
    (granted : context.access.Granted) (clientFd : Nat) (server : Server) :
    ∃ after, exec (checkTcpClientsMessages parse context clientFd received)
        server = (.ok true, after) ∧
      after.supplies = server.supplies.update request := by
  rw [checkTcpClientsMessages, receiveTcpJson_eq, parsed]
  simp only [pure_bind]
  rw [handleTcpJson_of_requests updates (by decide), answerTcpRequest,
    if_neg (by decide), if_pos rfl, exec_bind_of_ok (exec_recordEmergency _ _ _),
    exec_bind_of_ok (exec_logEvent _ _), if_pos (show _ ∧ _ from granted),
    exec_bind_of_ok (exec_updateSupplies_of_granted granted _ _)]
  exact ⟨_, rfl, rfl⟩

theorem checkUdpClientsMessages_of_update {parse : Bytes → Option Json}
    {context : RequestContext} {datagram : Datagram} {request : Json}
    (parsed : udpRequest parse datagram.received = some request)
    (updates : request.Requests (ascii "update"))
    (admin : request.NamesAdmin) (granted : context.access.Granted)
    (sockfd : Nat) (server : Server) :
    ∃ after, exec (checkUdpClientsMessages parse context sockfd datagram)
        server = (.ok true, after) ∧
      after.supplies = server.supplies.update request := by
  obtain ⟨message, hostname, operand, auth, handled⟩ :=
    handleUdpJson_of_requests updates admin context sockfd datagram
  rw [checkUdpClientsMessages, receiveUdpJson_eq, parsed]
  simp only [pure_bind]
  rw [handled, exec_bind_of_ok (exec_recordUdpClient _ _)]
  simp only [answerUdpRequest, stringOperand_bind, operand, auth, if_true]
  rw [exec_bind_of_ok (exec_updateSupplies_of_granted granted _ _),
    exec_bind_of_ok (exec_logEvent _ _)]
  exact ⟨_, rfl, rfl⟩

theorem appliedOverTcp_counterRequest (counter : Counter) (value : Int) :
    AppliedOverTcp
      (counterRequest [(ascii "message", .string (ascii "update"))] counter
        value) counter value := by
  intro parse context clientFd received server parsed granted amount sum
  have unrelated : NamesNoSection
      [(ascii "message", .string (ascii "update"))] := by
    intro member listed other
    rw [List.mem_singleton.mp listed]
    cases other <;> rfl
  obtain ⟨after, returned, supplies⟩ :=
    checkTcpClientsMessages_of_update parsed rfl granted clientFd server
  refine ⟨after, returned, ?_⟩
  rw [supplies]
  exact changedOnly_update unrelated amount sum

theorem appliedOverUdp_counterRequest (counter : Counter) (value : Int) :
    AppliedOverUdp
      (counterRequest [(ascii "hostname", .string adminUser),
        (ascii "message", .string (ascii "update"))] counter value)
      counter value := by
  intro parse print message context sockfd source server sent parsed granted
    amount sum
  have unrelated : NamesNoSection [(ascii "hostname", .string adminUser),
      (ascii "message", .string (ascii "update"))] := by
    intro member listed other
    rw [List.mem_pair] at listed
    rcases listed with rfl | rfl
    · cases other <;> rfl
    · cases other <;> rfl
  have received : udpRequest parse (Received.bytes message) = some _ :=
    (UdpMenu.udpRequest_of_datagram sent).trans parsed
  obtain ⟨after, returned, supplies⟩ :=
    @checkUdpClientsMessages_of_update parse context ⟨.bytes message, source⟩
      _ received rfl rfl granted sockfd server
  refine ⟨after, returned, ?_⟩
  rw [supplies]
  exact changedOnly_update unrelated amount sum

/-! ## From the menu to the counters -/

/-- Option 2 of either client sends the chosen update and nothing else, and
the server changes the chosen counter by the chosen amount and no other
counter; over UDP, for the admin user. -/
theorem clients_sendChosenUpdate :
    (∀ menu : Menu, menu.point = .option →
      SendsChosenUpdate Menu.point Menu.handleUserInput AppliedOverTcp menu) ∧
    ∀ menu : UdpMenu, menu.point = .option →
      SendsChosenUpdate UdpMenu.point UdpMenu.handleUserInput
        (fun request counter value => menu.hostname = adminUser →
          AppliedOverUdp request counter value) menu := by
  constructor
  · intro menu prompted
    exact asksForUpdate_menu.sendsChosenUpdate prompted
      appliedOverTcp_counterRequest
  · intro menu prompted
    refine asksForUpdate_udpMenu.sendsChosenUpdate prompted
      fun counter value admin => ?_
    rw [admin]
    exact appliedOverUdp_counterRequest counter value

/-- Food, meat and five, from an authenticated client, and medicine, bandages
and two taken away, in a datagram of the admin user. -/
theorem clients_sendChosenUpdate_of_meat_and_bandages :
    (∃ request, sentDuring Menu.handleUserInput ⟨.option, true⟩
        [.line (some (ascii "2\n")), .line (some (ascii "1\n")),
          .line (some (ascii "1\n")), .number (some 5)] = [request] ∧
      AppliedOverTcp request .meat 5) ∧
    ∃ request, sentDuring UdpMenu.handleUserInput ⟨.option, adminUser⟩
        [.line (some (ascii "2\n")), .line (some (ascii "2\n")),
          .line (some (ascii "3\n")), .number (some (-2))] = [request] ∧
      (adminUser = adminUser → AppliedOverUdp request .bandages (-2)) :=
  ⟨(clients_sendChosenUpdate.1 ⟨.option, true⟩ rfl
      [.line (some (ascii "1\n")), .line (some (ascii "1\n")),
        .number (some 5)] ⟨trivial, trivial, trivial, trivial⟩).1 .meat 5
      ⟨ascii "1\n", ascii "1\n", by decide, rfl⟩,
    (clients_sendChosenUpdate.2 ⟨.option, adminUser⟩ rfl
      [.line (some (ascii "2\n")), .line (some (ascii "3\n")),
        .number (some (-2))] ⟨trivial, trivial, trivial, trivial⟩).1
      .bandages (-2) ⟨ascii "2\n", ascii "3\n", by decide, rfl⟩⟩

end ShelterServer
