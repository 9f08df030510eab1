import ShelterServer.HostnameMemory
import ShelterServer.JsonPieces
import ShelterServer.NoticeFraming
import ShelterServer.SessionRequests
import ShelterServer.SupplyReplies
import ShelterServer.UdpClient

/-!
# What the programs send each other

The objects that clients and server print for each other, and what cJSON makes
of them on the other side.  Requests are nested twice at most, replies three
times.
-/

namespace ShelterServer

open Foundations

/-! ## Objects that survive -/

/-- An object that comes back from its text, at so many levels of nesting. -/
structure Json.Transmittable (levels : Nat) (json : Json) : Prop where
  object : json.isObject = true
  printable : json.Printable
  nests : json.nesting ≤ levels

theorem Json.Transmittable.mono {levels more : Nat} {json : Json}
    (transmittable : json.Transmittable levels) (le : levels ≤ more) :
    json.Transmittable more :=
  ⟨transmittable.object, transmittable.printable, transmittable.nests.trans le⟩

/-- cJSON prints and parses objects as is assumed of it: behind an object may
be any bytes, a front of one is refused, and no piece of one stands for it. -/
theorem printsAndParses_cJSON {nestingLimit : Nat} {requests : List Json}
    (each : ∀ request ∈ requests, request.Transmittable nestingLimit) :
    PrintsAndParses (Json.parse nestingLimit) Json.print requests where
  object request sent := (each request sent).object
  noNul request _ := request.zero_notMem_print
  first request sent rest := by
    have stop : request.isNumber = true → NoNumberByte rest := by
      rw [Json.not_isNumber_of_isObject (each request sent).object]
      exact fun number => nomatch number
    rw [(each request sent).printable.parse_print_append nestingLimit stop,
      if_pos (each request sent).nests]
  cutOff request sent _ initial proper :=
    (each request sent).printable.parse_of_cutOff (each request sent).object
      initial proper nestingLimit
  part request sent _ inside parsed :=
    (each request sent).printable.eq_print_of_parse (each request sent).object
      inside parsed

/-- A text that begins with another byte is no value. -/
theorem Json.parse_eq_none_of_head {byte : UInt8} {text : Bytes}
    (noBlank : isBlank byte = false) (other : isValueByte byte = false)
    (noMark : byte ≠ 0xEF) (nonzero : byte ≠ 0) (nestingLimit : Nat) :
    Json.parse nestingLimit (byte :: text) = none := by
  refine Option.eq_none_iff_forall_ne_some.mpr fun json parsed => ?_
  obtain ⟨behind, whole, blank, value, delimited⟩ :=
    Json.parse_eq_some_iff.mp parsed
  rename_i space piece
  obtain ⟨first, rest, rfl, begins⟩ := value.begins
  rw [untilNul_cons_of_ne nonzero, withoutBom, if_neg] at whole
  · cases space with
    | nil =>
        obtain ⟨rfl, _⟩ := List.cons.inj whole
        rw [begins] at other
        cases other
    | cons blankByte space =>
        obtain ⟨rfl, _⟩ := List.cons.inj whole
        rw [blank byte List.mem_cons_self] at noBlank
        cases noBlank
  · rintro ⟨_, tail, same⟩
    exact noMark (List.cons.inj same).1.symm

/-- The text of an alert is no JSON. -/
theorem Json.parse_alertMessage (nestingLimit : Nat) (alert : Alert) :
    Json.parse nestingLimit (alertMessage alert) = none := by
  rcases alert with ⟨entry, temperature⟩
  cases entry <;>
    exact Json.parse_eq_none_of_head (by decide) (by decide) (by decide)
      (by decide) nestingLimit

/-- What the server sends to a client, alerts and objects, is taken for what
it is. -/
theorem printsAndParsesMessages_cJSON {nestingLimit : Nat}
    {messages : List ServerMessage}
    (alerts : ∀ text, .alert text ∈ messages →
      ∃ alert, text = alertMessage alert)
    (each : ∀ value, .json value ∈ messages →
      value.Transmittable nestingLimit) :
    PrintsAndParsesMessages (Json.parse nestingLimit) Json.print messages where
  json := by
    apply printsAndParses_cJSON
    intro value sent
    obtain ⟨message, member, found⟩ := List.mem_filterMap.mp sent
    cases message with
    | alert text => cases found
    | json other =>
        obtain rfl := Option.some.inj found
        exact each other member
  noNul text sent := by
    obtain ⟨alert, rfl⟩ := alerts text sent
    exact zero_notMem_alertMessage alert
  rejected text sent := by
    obtain ⟨alert, rfl⟩ := alerts text sent
    exact Json.parse_alertMessage nestingLimit alert

theorem printsAndParsesMessages_cJSON_alertAndStatus :
    PrintsAndParsesMessages (Json.parse 1) Json.print
      [.alert (alertMessage (feverAlert .north)), .json statusRequest] := by
  apply printsAndParsesMessages_cJSON
  · intro text sent
    exact ⟨feverAlert .north, by simpa using sent⟩
  · intro value sent
    obtain rfl : value = statusRequest := by simpa using sent
    refine ⟨rfl, .object ?_ ?_, by decide⟩
    · rw [List.forall_mem_singleton]
      decide
    · rw [List.forall_mem_singleton]
      exact .string (by decide)

/-! ## Building objects -/

theorem Json.printable_number {value : Int} (representable : InInt value) :
    (Json.number value).Printable := by
  unfold InInt intMin intMax at representable
  exact .number (by omega)

/-- Members that may stand in a transmittable object. -/
def Enclosable (levels : Nat) (member : Bytes × Json) : Prop :=
  0 ∉ member.1 ∧ member.2.Printable ∧ member.2.nesting ≤ levels

theorem transmittable_object {levels : Nat} {members : List (Bytes × Json)}
    (each : ∀ member ∈ members, Enclosable levels member) :
    (Json.object members).Transmittable (levels + 1) where
  object := rfl
  printable := .object (fun member inside => (each member inside).1)
    fun member inside => (each member inside).2.1
  nests := Nat.succ_le_succ (membersNesting_le_iff.mpr fun member inside =>
    (each member inside).2.2)

theorem enclosable_string {levels : Nat} {name value : Bytes}
    (named : 0 ∉ name) (noNul : 0 ∉ value) :
    Enclosable levels (name, .string value) :=
  ⟨named, .string noNul, Nat.zero_le _⟩

theorem enclosable_number {levels : Nat} {name : Bytes} {value : Int}
    (named : 0 ∉ name) (representable : InInt value) :
    Enclosable levels (name, .number value) :=
  ⟨named, Json.printable_number representable, Nat.zero_le _⟩

theorem Json.Transmittable.enclosable {levels : Nat} {name : Bytes}
    {json : Json} (transmittable : json.Transmittable levels)
    (named : 0 ∉ name) : Enclosable levels (name, json) :=
  ⟨named, transmittable.printable, transmittable.nests⟩

/-! ## Requests -/

theorem zero_notMem_key (resource : Resource) : 0 ∉ resource.key := by
  cases resource <;> decide

theorem zero_notMem_item {resource : Resource} {line item : Bytes}
    (chosen : resource.item line = some item) : 0 ∉ item := by
  cases resource <;>
    simp only [Resource.item] at chosen <;>
    split_ifs at chosen <;>
    obtain rfl := Option.some.inj chosen <;>
    decide

/-- The section of an update. -/
theorem transmittable_section {resource : Resource} {line item : Bytes}
    {value : Int} (chosen : resource.item line = some item)
    (representable : InInt value) :
    (Json.object [(item, .number value)]).Transmittable 1 := by
  refine transmittable_object ?_
  rw [List.forall_mem_singleton]
  exact enclosable_number (zero_notMem_item chosen) representable

theorem enclosable_section {resource : Resource} {line item : Bytes}
    {value : Int} (chosen : resource.item line = some item)
    (representable : InInt value) :
    Enclosable 1 (resource.key, .object [(item, .number value)]) :=
  (transmittable_section chosen representable).enclosable
    (zero_notMem_key resource)

/-- What `scanf` reads for an amount is an `int`. -/
def MenuInput.ReadsInt : MenuInput → Prop
  | .number (some value) => InInt value
  | .number none | .line _ => True

/-- The requests that a TCP client can send. -/
inductive ClientRequest : Json → Prop
  | authentication (signedChar : Bool) (osId : Bytes) :
      ClientRequest (authenticationRequest signedChar osId)
  | status : ClientRequest statusRequest
  | summary : ClientRequest summaryRequest
  | update {resource : Resource} {line item : Bytes} {value : Int}
      (chosen : resource.item line = some item)
      (representable : InInt value) :
      ClientRequest (updateRequest resource item value)

theorem ClientRequest.transmittable {json : Json}
    (request : ClientRequest json) : json.Transmittable 2 := by
  have message : ∀ {word}, 0 ∉ word →
      Enclosable 1 (ascii "message", .string word) :=
    enclosable_string (by decide)
  cases request with
  | authentication signedChar osId =>
      refine transmittable_object (List.forall_mem_cons.mpr
        ⟨message (by decide), List.forall_mem_singleton.mpr ?_⟩)
      exact enclosable_string (by decide)
        (zero_notMem_encodeUtf8 signedChar osId)
  | status =>
      exact transmittable_object
        (List.forall_mem_singleton.mpr (message (by decide)))
  | summary =>
      exact transmittable_object
        (List.forall_mem_singleton.mpr (message (by decide)))
  | update chosen representable =>
      refine transmittable_object (List.forall_mem_cons.mpr
        ⟨message (by decide), List.forall_mem_singleton.mpr ?_⟩)
      exact enclosable_section chosen representable

theorem Menu.clientRequest {menu : Menu} {input : MenuInput}
    (reads : input.ReadsInt) {request : Json}
    (sent : request ∈ menu.requests input) : ClientRequest request := by
  unfold requests handleUserInput at sent
  split at sent
  case h_2 =>
    unfold chooseOption at sent
    split at sent
    · obtain rfl := List.mem_singleton.mp sent
      exact .status
    · split at sent
      · split at sent <;> cases sent
      · split at sent
        · obtain rfl := List.mem_singleton.mp sent
          exact .summary
        · split at sent <;> cases sent
  case h_8 =>
    unfold update at sent
    dsimp only at sent
    split at sent
    · rename_i item chosen
      obtain rfl := List.mem_singleton.mp sent
      exact .update chosen reads
    · cases sent
  all_goals cases sent

theorem UdpMenu.transmittable_request {menu : UdpMenu} {message : Bytes}
    {resources : List (Bytes × Json)} (hostname : 0 ∉ menu.hostname)
    (noNul : 0 ∉ message)
    (each : ∀ member ∈ resources, Enclosable 1 member) :
    (menu.request message resources).Transmittable 2 :=
  transmittable_object (List.forall_mem_cons.mpr
    ⟨enclosable_string (by decide) hostname, List.forall_mem_cons.mpr
      ⟨enclosable_string (by decide) noNul, each⟩⟩)

theorem UdpMenu.transmittable_requests {menu : UdpMenu} {input : MenuInput}
    (hostname : 0 ∉ menu.hostname) (reads : input.ReadsInt) {request : Json}
    (sent : request ∈
      (menu.handleUserInput input).2.filterMap MenuAction.request?) :
    request.Transmittable 2 := by
  have none : ∀ member ∈ ([] : List (Bytes × Json)), Enclosable 1 member :=
    fun _ member => nomatch member
  unfold handleUserInput at sent
  split at sent
  case h_2 =>
    unfold chooseOption at sent
    split at sent
    · obtain rfl := List.mem_singleton.mp sent
      exact transmittable_request hostname (by decide) none
    · split at sent
      · cases sent
      · split at sent
        · obtain rfl := List.mem_singleton.mp sent
          exact transmittable_request hostname (by decide) none
        · split at sent <;> cases sent
  case h_8 =>
    unfold update at sent
    dsimp only at sent
    split at sent
    · rename_i item chosen
      obtain rfl := List.mem_singleton.mp sent
      refine transmittable_request hostname (by decide)
        (List.forall_mem_singleton.mpr ?_)
      exact enclosable_section chosen reads
    · cases sent
  all_goals cases sent

/-! ## Sessions -/

def SessionEvent.ReadsInt : SessionEvent → Prop
  | .input entered => entered.ReadsInt
  | _ => True

theorem Session.clientRequest_step {host : Host} {session : Session}
    (each : ∀ request ∈ session.sent, ClientRequest request)
    {event : SessionEvent} (reads : event.ReadsInt) :
    ∀ request ∈ (session.step host event).sent, ClientRequest request := by
  have served : ∀ (session : Session) event,
      (session.serve host event).sent = session.sent := by
    intro session event
    obtain ⟨_, _, _, same⟩ := serve_eq host session event
    rw [same]
  have taken : ∀ received, (session.take received).sent = session.sent := by
    intro received
    unfold take
    split <;> rfl
  have steps := step_cases host session event
  generalize session.step host event = after at steps ⊢
  cases steps with
  | server => rwa [served]
  | accepts => rwa [served]
  | serverDrops => rwa [served]
  | serverReceives => rwa [served, taken]
  | authenticates =>
      intro request sent
      obtain early | last := List.mem_append.mp sent
      · exact each request early
      · obtain rfl := List.mem_singleton.mp last
        exact .authentication host.signedChar host.osId
  | enters =>
      rename_i input _
      obtain ⟨_, entered⟩ := enter_eq host session input
      rw [entered]
      intro request sent
      obtain early | late := List.mem_append.mp sent
      · exact each request early
      · exact Menu.clientRequest reads late
  | _ => exact each

theorem clientRequest_sessionRun (host : Host) (supplies : Supplies)
    {events : List SessionEvent} (reads : ∀ event ∈ events, event.ReadsInt) :
    ∀ request ∈ (sessionRun host supplies events).sent,
      ClientRequest request := by
  induction events using List.reverseRecOn with
  | nil => exact fun _ member => nomatch member
  | append_singleton events event induction =>
      rw [List.forall_mem_append] at reads
      rw [sessionRun_concat]
      exact Session.clientRequest_step (induction reads.1)
        (reads.2 event List.mem_cons_self)

/-- A host whose programs are built with cJSON. -/
def Host.cJSON (nestingLimit : Nat) (signedChar : Bool) (osId : Bytes) :
    Host where
  parse := Json.parse nestingLimit
  print := Json.print
  signedChar := signedChar
  osId := osId

end ShelterServer
