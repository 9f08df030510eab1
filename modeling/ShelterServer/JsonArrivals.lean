import ShelterServer.AlertDelivery
import ShelterServer.JsonTransport
import ShelterServer.PrinterRefinement
import ShelterServer.ServerInvariants

/-!
# What arrives

In every run from counters of type `int`, whatever the server answers comes
back from its text, and so does whatever a client sends, in a session or in
datagrams.
-/

namespace ShelterServer

open Foundations

/-- What `cJSON_Print` returns is a C string in an array of its size.  Whatever
lies behind it, `cJSON_Parse` makes the tree of it again, unless it is nested
too deeply. -/
theorem parse_of_cJSONPrint {json : Json} (printable : json.Printable)
    {granted : Nat → Nat → Bool} {buffer : List (Option UInt8)}
    (printed : cJSONPrint granted json = .ok buffer) (behind : Bytes)
    (nestingLimit : Nat) :
    ∃ text : Bytes, 0 ∉ text ∧ buffer = (text ++ [0]).map some ∧
      Json.parse nestingLimit (text ++ 0 :: behind) =
        if json.nesting ≤ nestingLimit then some json else none := by
  obtain ⟨returned, _⟩ | ⟨refused, _⟩ := cJSONPrint_cases granted printable
  · refine ⟨json.print, json.zero_notMem_print,
      Except.ok.inj (printed.symm.trans returned), ?_⟩
    refine printable.parse_print_append nestingLimit fun _ byte head => ?_
    obtain rfl := Option.some.inj head
    decide
  · cases printed.symm.trans refused

theorem parse_of_cJSONPrint_authSuccess :
    ∃ buffer, cJSONPrint (fun _ _ => true) Reply.authSuccess.json = .ok buffer ∧
      ∃ text : Bytes, 0 ∉ text ∧ buffer = (text ++ [0]).map some ∧
        Json.parse 1 (text ++ [0, 7]) =
          if Reply.authSuccess.json.nesting ≤ 1 then
            some Reply.authSuccess.json
          else none := by
  have printable : Reply.authSuccess.json.Printable := by
    refine .object (List.forall_mem_singleton.mpr ?_)
      (List.forall_mem_singleton.mpr (.string ?_)) <;> decide
  obtain ⟨returned, _⟩ | ⟨_, excused⟩ :=
    cJSONPrint_cases (fun _ _ => true) printable
  · exact ⟨_, returned, parse_of_cJSONPrint printable returned [7] 1⟩
  · have short : (Reply.authSuccess.json.print.length : Int) + 2 ≤ intMax := by
      decide
    exact (not_le.mpr (excused fun _ _ => rfl) short).elim

/-- Counters that fit into an `int`. -/
def Supplies.Representable (supplies : Supplies) : Prop :=
  ∀ counter, InInt (supplies.counter counter)

def EntryAlertsCount.Representable (counts : EntryAlertsCount) : Prop :=
  ∀ entry, InInt (counts.count entry)

/-! ## Counters -/

theorem inInt_addItem {counter : Int} (representable : InInt counter)
    (item : Option Json) : InInt (addItem item counter) := by
  cases item with
  | none => exact representable
  | some item =>
      simp only [addItem]
      split_ifs
      · decide
      · exact inInt_wrapInt _
      · exact representable

theorem Supplies.Representable.withFood {supplies : Supplies}
    (representable : supplies.Representable) (foodObject : Json) :
    Supplies.Representable
      { supplies with food := updateFood foodObject supplies.food } := by
  intro counter
  cases counter with
  | meat => exact inInt_addItem (representable .meat) _
  | vegetables => exact inInt_addItem (representable .vegetables) _
  | fruits => exact inInt_addItem (representable .fruits) _
  | water => exact inInt_addItem (representable .water) _
  | antibiotics => exact representable .antibiotics
  | analgesics => exact representable .analgesics
  | bandages => exact representable .bandages

theorem Supplies.Representable.withMedicine {supplies : Supplies}
    (representable : supplies.Representable) (medicineObject : Json) :
    Supplies.Representable
      { supplies with
        medicine := updateMedicine medicineObject supplies.medicine } := by
  intro counter
  cases counter with
  | antibiotics => exact inInt_addItem (representable .antibiotics) _
  | analgesics => exact inInt_addItem (representable .analgesics) _
  | bandages => exact inInt_addItem (representable .bandages) _
  | meat => exact representable .meat
  | vegetables => exact representable .vegetables
  | fruits => exact representable .fruits
  | water => exact representable .water

theorem representable_updateFoodSection {supplies : Supplies}
    (representable : supplies.Representable) (attached : Bool) (json : Json) :
    (updateFoodSection attached supplies json).supplies.Representable := by
  unfold updateFoodSection
  split
  · exact representable
  · split_ifs
    · exact representable.withFood _
    all_goals exact representable

theorem representable_updateMedicineSection {supplies : Supplies}
    (representable : supplies.Representable) (attached : Bool) (json : Json) :
    (updateMedicineSection attached supplies json).supplies.Representable := by
  unfold updateMedicineSection
  split
  · exact representable
  · split_ifs
    · exact representable.withMedicine _
    all_goals exact representable

theorem representable_updateSuppliesFromJson {supplies : Supplies}
    (representable : supplies.Representable) (access : SegmentAccess)
    (json : Json) :
    (updateSuppliesFromJson access supplies json).supplies.Representable := by
  have food :=
    representable_updateFoodSection representable access.food json
  unfold updateSuppliesFromJson
  split <;> rename_i middle reached <;> rw [reached] at food
  · exact food
  · exact representable_updateMedicineSection food access.medicine json

theorem UpdatesTo.representable {access : SegmentAccess}
    {before after : Supplies} {request : Json}
    (updates : UpdatesTo access before request after)
    (representable : before.Representable) : after.Representable := by
  have kept :=
    representable_updateSuppliesFromJson representable access request
  rcases updates with updated | stopped
  · rwa [updated] at kept
  · rwa [stopped] at kept

theorem EntryAlertsCount.Representable.increase {counts : EntryAlertsCount}
    (representable : counts.Representable) (entry : Entry) :
    (increaseEntryCount entry counts).Representable := by
  intro other
  have counted : (increaseEntryCount entry counts).count other =
      if other = entry then wrapInt (counts.count other + 1)
      else counts.count other := by
    cases entry <;> cases other <;> rfl
  rw [counted]
  split_ifs
  · exact inInt_wrapInt _
  · exact representable other

/-! ## Replies -/

theorem enclosable_counters {α : Type} {counters : List α}
    {name : α → Bytes} {value : α → Int} (named : ∀ counter, 0 ∉ name counter)
    (representable : ∀ counter, InInt (value counter)) :
    ∀ member ∈ counters.map fun counter =>
        (name counter, Json.number (value counter)),
      Enclosable 0 member := by
  rw [List.forall_mem_map]
  exact fun counter _ =>
    enclosable_number (named counter) (representable counter)

theorem Counter.zero_notMem_key (counter : Counter) : 0 ∉ counter.key := by
  cases counter <;> decide

theorem Supplies.Representable.transmittable_report {supplies : Supplies}
    (representable : supplies.Representable) :
    supplies.report.Transmittable 2 := by
  have members : ∀ counters : List Counter,
      ∀ member ∈ counters.map fun counter =>
        (counter.key, Json.number (supplies.counter counter)),
      Enclosable 0 member := fun _ =>
    enclosable_counters Counter.zero_notMem_key representable
  refine transmittable_object (List.forall_mem_cons.mpr
    ⟨?_, List.forall_mem_singleton.mpr ?_⟩)
  · exact (transmittable_object
      (members [.meat, .vegetables, .fruits, .water])).enclosable (by decide)
  · exact (transmittable_object
      (members [.antibiotics, .analgesics, .bandages])).enclosable (by decide)

/-- Both segments and every count are of type `int`, and so far every reply
came back from its text. -/
structure Server.Speaks (server : Server) : Prop where
  stocks : server.supplies.Representable
  alerts : server.entryAlertsCount.Representable
  replies : ∀ peer reply, .reply peer reply ∈ server.trace →
    reply.json.Transmittable 3

namespace Server.Speaks

variable {server : Server}

theorem transmittable_summary (speaks : server.Speaks)
    (behindEmergencyInfo : Bytes) :
    (server.summaryObject behindEmergencyInfo
      server.supplies.report).Transmittable 3 := by
  have alerts (name) (entry) (named : 0 ∉ name) : Enclosable 1
      (name, .number (server.entryAlertsCount.count entry)) :=
    enclosable_number named (speaks.alerts entry)
  have emergency (name text) (named : 0 ∉ name) : Enclosable 1
      (name, .string (untilNul text)) :=
    enclosable_string named (zero_notMem_untilNul text)
  refine transmittable_object (List.forall_mem_cons.mpr ⟨?_,
    List.forall_mem_cons.mpr ⟨?_, List.forall_mem_singleton.mpr ?_⟩⟩)
  · refine (transmittable_object ?_).enclosable (by decide)
    simp only [List.forall_mem_cons, List.not_mem_nil, false_imp_iff,
      implies_true, and_true]
    exact ⟨alerts _ .north (by decide), alerts _ .east (by decide),
      alerts _ .west (by decide), alerts _ .south (by decide)⟩
  · exact speaks.stocks.transmittable_report.enclosable (by decide)
  · refine (transmittable_object ?_).enclosable (by decide)
    simp only [List.forall_mem_cons, List.not_mem_nil, false_imp_iff,
      implies_true, and_true]
    exact ⟨emergency _ _ (by decide), emergency _ _ (by decide)⟩

theorem transmittable_of_gives (speaks : server.Speaks) {reply : Reply}
    (gives : server.Gives reply) : reply.json.Transmittable 3 := by
  have authentication : ∀ {word}, 0 ∉ word →
      (Json.object [(ascii "message", .string word)]).Transmittable 3 :=
    fun noNul => transmittable_object (List.forall_mem_singleton.mpr
      (enclosable_string (by decide) noNul))
  cases gives with
  | authSuccess => exact authentication (by decide)
  | authFailure => exact authentication (by decide)
  | status => exact speaks.stocks.transmittable_report.mono (by decide)
  | summary behind => exact speaks.transmittable_summary behind

theorem act (speaks : server.Speaks) {actions : List Action}
    (each : ∀ peer reply, .reply peer reply ∈ actions →
      reply.json.Transmittable 3) :
    (server.act actions).Speaks where
  stocks := speaks.stocks
  alerts := speaks.alerts
  replies peer reply acted :=
    (List.mem_append.mp acted).elim (speaks.replies peer reply)
      (each peer reply)

end Server.Speaks

theorem serverInvariant_speaks : ServerInvariant Server.Speaks where
  silent speaks quiet := speaks.act fun peer reply acted =>
    (quiet _ acted peer reply rfl).elim
  answer peer _ speaks gives := speaks.act fun _ _ acted => by
    obtain ⟨_, rfl⟩ := Action.reply.inj (List.mem_singleton.mp acted)
    exact speaks.transmittable_of_gives gives
  recorded _ _ speaks := ⟨speaks.stocks, speaks.alerts, speaks.replies⟩
  counted entry speaks :=
    ⟨speaks.stocks, speaks.alerts.increase entry, speaks.replies⟩
  moved _ _ _ speaks := ⟨speaks.stocks, speaks.alerts, speaks.replies⟩
  supplied _ _ _ speaks updates :=
    ⟨updates.representable speaks.stocks, speaks.alerts, speaks.replies⟩

theorem speaks_initial {supplies : Supplies}
    (representable : supplies.Representable) :
    (Server.initial supplies).Speaks where
  stocks := representable
  alerts := by
    intro entry
    change InInt (initializeEntryAlertsCount.count entry)
    cases entry <;> decide
  replies _ _ acted := nomatch acted

/-- Whatever a run answers, `cJSON_Print` writes its text or returns NULL, and
a reader of the text gets the answer back, whatever follows it. -/
theorem serverRun_repliesReturn (parse : Bytes → Option Json)
    {supplies : Supplies} (representable : supplies.Representable)
    (events : List Event) {nestingLimit : Nat} (deep : 3 ≤ nestingLimit)
    {peer : Peer} {reply : Reply}
    (answered : .reply peer reply ∈
      (serverRun parse supplies events).server.trace) :
    (∀ granted,
      cJSONPrint granted reply.json =
          .ok ((reply.json.print ++ [0]).map some) ∨
        cJSONPrint granted reply.json = .error .refused) ∧
      ∀ rest, Json.parse nestingLimit (reply.json.print ++ rest) =
        some reply.json := by
  have speaks := serverInvariant_speaks.serverRun parse
    (speaks_initial representable) events
  have transmittable := speaks.replies peer reply answered
  constructor
  · intro granted
    exact (cJSONPrint_cases granted transmittable.printable).imp And.left
      And.left
  · intro rest
    rw [transmittable.printable.parse_print_append nestingLimit fun number =>
      nomatch (Json.not_isNumber_of_isObject transmittable.object).symm.trans
        number]
    exact if_pos (transmittable.nests.trans deep)

/-- A parser that takes every text for a status request. -/
def parseStatus : Bytes → Option Json := fun _ =>
  some (hostRequest (ascii "status") (ascii "guest"))

def Action.isReply : Action → Bool
  | .reply _ _ => true
  | _ => false

theorem serverRun_repliesReturn_of_status :
    ∃ peer reply,
      .reply peer reply ∈ (serverRun parseStatus .zero
        [updateDatagram (ascii "guest")]).server.trace ∧
      (∀ granted,
        cJSONPrint granted reply.json =
            .ok ((reply.json.print ++ [0]).map some) ∨
          cJSONPrint granted reply.json = .error .refused) ∧
        ∀ rest, Json.parse 3 (reply.json.print ++ rest) = some reply.json := by
  have zero : Supplies.zero.Representable := by
    intro counter
    rw [Supplies.counter_zero]
    decide
  have answers : (serverRun parseStatus .zero
      [updateDatagram (ascii "guest")]).server.trace.any Action.isReply := by
    decide +kernel
  obtain ⟨action, answered, isReply⟩ := List.any_eq_true.mp answers
  cases action with
  | reply peer reply =>
      exact ⟨peer, reply, answered,
        serverRun_repliesReturn parseStatus zero _ le_rfl answered⟩
  | _ => cases isReply

/-! ## Requests in sessions -/

/-- Whatever a client sends in a session, cJSON prints and parses as the
framing of requests assumes. -/
theorem sessionRun_requestsReturn (host : Host) (supplies : Supplies)
    {events : List SessionEvent} (reads : ∀ event ∈ events, event.ReadsInt)
    {nestingLimit : Nat} (deep : 2 ≤ nestingLimit) :
    PrintsAndParses (Json.parse nestingLimit) Json.print
      (sessionRun host supplies events).sent :=
  printsAndParses_cJSON fun request sent =>
    (clientRequest_sessionRun host supplies reads request
      sent).transmittable.mono deep

theorem sessionRun_requestsReturn_of_authentication :
    PrintsAndParses (Json.parse 2) Json.print
      (sessionRun (.cJSON 2 true adminUser) .zero [.authenticates]).sent := by
  have reads : ∀ event ∈ [SessionEvent.authenticates], event.ReadsInt := by
    rw [List.forall_mem_singleton]
    trivial
  exact sessionRun_requestsReturn _ .zero reads le_rfl

/-! ## Requests in datagrams -/

/-- The UDP client's menu process after a sequence of inputs. -/
def udpMenuRun (signedChar : Bool) (osId : Bytes) (inputs : List MenuInput) :
    UdpMenu :=
  run (fun menu input => (menu.handleUserInput input).1)
    (.initial signedChar osId) inputs

theorem hostname_udpMenuRun (signedChar : Bool) (osId : Bytes)
    (inputs : List MenuInput) :
    (udpMenuRun signedChar osId inputs).hostname =
      encodeUtf8 signedChar osId := by
  induction inputs using List.reverseRecOn with
  | nil => rfl
  | append_singleton inputs input induction =>
      rw [udpMenuRun, run_concat, UdpMenu.hostname_handleUserInput]
      exact induction

/-- At every point of the UDP client's run, a datagram that it sends is taken
by the server for the request that was entered. -/
theorem udpMenuRun_datagramsArrive (signedChar : Bool) (osId : Bytes)
    (inputs : List MenuInput) {input : MenuInput} (reads : input.ReadsInt)
    {nestingLimit : Nat} (deep : 2 ≤ nestingLimit) {request : Json}
    {message : Bytes}
    (entered : request ∈ ((udpMenuRun signedChar osId inputs).handleUserInput
      input).2.filterMap MenuAction.request?)
    (sent : UdpMenu.datagram Json.print request = some message) :
    udpRequest (Json.parse nestingLimit) (.bytes message) = some request := by
  have hostname : 0 ∉ (udpMenuRun signedChar osId inputs).hostname := by
    rw [hostname_udpMenuRun]
    exact zero_notMem_encodeUtf8 signedChar osId
  have transmittable := UdpMenu.transmittable_requests hostname reads entered
  rw [UdpMenu.udpRequest_of_datagram sent]
  unfold UdpMenu.datagram at sent
  split at sent
  · obtain rfl := Option.some.inj sent
    have parsed : Json.parse nestingLimit (request.print ++ []) = _ :=
      transmittable.printable.parse_print_append nestingLimit fun _ => nofun
    rw [List.append_nil, if_pos (transmittable.nests.trans deep)] at parsed
    rwa [untilNul_of_notMem request.zero_notMem_print]
  · cases sent

theorem udpMenuRun_datagramsArrive_of_status :
    ∃ request message,
      UdpMenu.datagram Json.print request = some message ∧
      udpRequest (Json.parse 2) (.bytes message) = some request := by
  let input : MenuInput := .line (some (ascii "1\n"))
  let request := (udpMenuRun true adminUser []).statusRequest
  have reads : input.ReadsInt := trivial
  have entered : request ∈ ((udpMenuRun true adminUser []).handleUserInput
      input).2.filterMap MenuAction.request? := List.mem_cons_self
  have sent : UdpMenu.datagram Json.print request =
      some request.print := by decide
  exact ⟨request, request.print, sent,
    udpMenuRun_datagramsArrive true adminUser [] reads le_rfl entered sent⟩

end ShelterServer
