import Mathlib.Data.List.Forall2
import ShelterServer.Foundations.Framing
import ShelterServer.TcpClient

/-!
# Framing of TCP requests

A client prints every request and sends it without a separator, while
`receive_tcp_json` takes whatever one `recv` returns for one request.  TCP may
cut the stream anywhere, so the requests arrive as they were sent exactly when
every block happens to be one request.
-/

namespace ShelterServer

open Foundations Faulting

/-- The bytes that the `send_json` calls of a client put on its connection. -/
def sendJsonStream (print : Json → Bytes) (requests : List Json) : Bytes :=
  (requests.map print).flatten

theorem sendJsonStream_append (print : Json → Bytes)
    (front back : List Json) :
    sendJsonStream print (front ++ back) =
      sendJsonStream print front ++ sendJsonStream print back := by
  simp [sendJsonStream]

/-- How the library prints and parses certain requests, which are objects.  A
printed request is a C string; the parser takes the first complete value and
ignores what follows, rejects an object that is cut off, and finds in a part
of an object never the object itself. -/
structure PrintsAndParses (parse : Bytes → Option Json) (print : Json → Bytes)
    (requests : List Json) : Prop where
  object : ∀ request ∈ requests, request.isObject = true
  noNul : ∀ request ∈ requests, 0 ∉ print request
  first : ∀ request ∈ requests, ∀ rest,
    parse (print request ++ rest) = some request
  cutOff : ∀ request ∈ requests, ∀ front, front <+: print request →
    front ≠ print request → parse front = none
  part : ∀ request ∈ requests, ∀ piece, piece <:+: print request →
    parse piece = some request → piece = print request

/-- The calls for the blocks receive the values, and each returns and does what
handling its value does. -/
structure ReceivesValues (parse : Bytes → Option Json) (values : List Json)
    (blocks : List Bytes) : Prop where
  received : ∀ context,
    blocks.map (fun block => receiveTcpJson parse context (.bytes block)) =
      values.map fun value => pure (some value)
  answered : ∀ context clientFd,
    blocks.map (fun block =>
        checkTcpClientsMessages parse context clientFd (.bytes block)) =
      values.map (handleTcpJson context clientFd)

/-- The calls for the blocks process the requests, each once and in order, and
no call stops or reports a disconnection that the handling of a received value
does not.  Values that are no objects are no requests. -/
def ProcessesRequests (parse : Bytes → Option Json) (requests : List Json)
    (blocks : List Bytes) : Prop :=
  ∃ values, values.filter Json.isObject = requests ∧
    ReceivesValues parse values blocks

instance : Nonempty Server := ⟨.initial .zero⟩

section Blocks

variable {parse : Bytes → Option Json} {context : RequestContext}

theorem receiveTcpJson_eq_request_iff {block : Bytes} (nonempty : block ≠ [])
    {request : Json} :
    receiveTcpJson parse context (.bytes block) = pure (some request) ↔
      block.length < bufferSize ∧ parse (untilNul block) = some request := by
  obtain ⟨byte, bytes, rfl⟩ := List.exists_cons_of_ne_nil nonempty
  simp only [receiveTcpJson_eq, tcpRequest]
  split_ifs with room
  · exact pure_inj.trans (and_iff_right room).symm
  · exact iff_of_false (throw_ne_pure _ _) fun both => room both.1

theorem checkTcpClientsMessages_of_received {received : Received}
    {request : Json}
    (parsed : receiveTcpJson parse context received = pure (some request))
    (clientFd : Nat) :
    checkTcpClientsMessages parse context clientFd received =
      handleTcpJson context clientFd request := by
  rw [checkTcpClientsMessages, parsed]
  rfl

end Blocks

section Framing

variable {parse : Bytes → Option Json} {print : Json → Bytes}
  {requests : List Json}

/-- What follows the first request in a block is lost. -/
theorem PrintsAndParses.receiveTcpJson_of_merged
    (library : PrintsAndParses parse print requests) {request : Json}
    (sent : request ∈ requests) {rest : Bytes}
    (nonempty : print request ++ rest ≠ [])
    (room : (print request ++ rest).length < bufferSize)
    (context : RequestContext) :
    receiveTcpJson parse context (.bytes (print request ++ rest)) =
      pure (some request) := by
  refine (receiveTcpJson_eq_request_iff nonempty).mpr ⟨room, ?_⟩
  rw [untilNul_append_of_notMem (library.noNul request sent)]
  exact library.first request sent _

/-- A request that is cut off is taken for a disconnection. -/
theorem PrintsAndParses.checkTcpClientsMessages_of_cutOff
    (library : PrintsAndParses parse print requests) {request : Json}
    (sent : request ∈ requests) {front : Bytes}
    (initial : front <+: print request) (proper : front ≠ print request)
    (room : front.length < bufferSize) (context : RequestContext)
    (clientFd : Nat) :
    checkTcpClientsMessages parse context clientFd (.bytes front) =
      pure false := by
  have noNul : 0 ∉ front := fun member =>
    library.noNul request sent (initial.subset member)
  rw [checkTcpClientsMessages, receiveTcpJson_eq]
  cases front with
  | nil => rfl
  | cons byte bytes =>
      simp only [tcpRequest, if_pos room, untilNul_of_notMem noNul,
        library.cutOff request sent _ initial proper]
      rfl

theorem receivesValues_iff {values : List Json} {blocks : List Bytes} :
    ReceivesValues parse values blocks ↔
      ∀ context, List.Forall₂
        (fun block value =>
          receiveTcpJson parse context (.bytes block) = pure (some value))
        blocks values := by
  have equal : ∀ {β : Type _} (left : Bytes → β) (right : Json → β),
      blocks.map left = values.map right ↔
        List.Forall₂ (fun block value => left block = right value)
          blocks values := by
    intro β left right
    rw [← List.forall₂_eq_eq_eq, List.forall₂_map_left_iff,
      List.forall₂_map_right_iff]
  constructor
  · exact fun receives context => (equal _ _).mp (receives.received context)
  · intro received
    refine ⟨fun context => (equal _ _).mpr (received context),
      fun context clientFd => (equal _ _).mpr ?_⟩
    exact (received context).imp fun _ _ parsed =>
      checkTcpClientsMessages_of_received parsed clientFd

theorem ReceivesValues.length_lt {values : List Json} {blocks : List Bytes}
    (receives : ReceivesValues parse values blocks)
    (nonempty : ∀ block ∈ blocks, block ≠ []) {block : Bytes}
    (arrived : block ∈ blocks) : block.length < bufferSize := by
  have result := List.mem_map_of_mem
    (f := fun block =>
      receiveTcpJson parse .attached (.bytes block)) arrived
  rw [receives.received .attached] at result
  obtain ⟨value, _, parsed⟩ := List.mem_map.mp result
  exact ((receiveTcpJson_eq_request_iff (nonempty block arrived)).mp
    parsed.symm).1

/-- A block in which its own request was found, inside the printed request, is
all of it. -/
theorem PrintsAndParses.whole
    (library : PrintsAndParses parse print requests) {request : Json}
    (sent : request ∈ requests) {block : Bytes}
    (parsed : parse (untilNul block) = some request) :
    Whole block (print request) := by
  intro inside
  have noNul : 0 ∉ block := fun member =>
    library.noNul request sent (inside.subset member)
  rw [untilNul_of_notMem noNul] at parsed
  exact library.part request sent block inside parsed

/-- The blocks in which objects were received stand for the printed
requests. -/
theorem PrintsAndParses.standFor
    (library : PrintsAndParses parse print requests) {values : List Json}
    {blocks : List Bytes} {context : RequestContext}
    (nonempty : ∀ block ∈ blocks, block ≠ [])
    (sent : values.filter Json.isObject ⊆ requests)
    (received : List.Forall₂
      (fun block value =>
        receiveTcpJson parse context (.bytes block) = pure (some value))
      blocks values) :
    StandFor blocks ((values.filter Json.isObject).map print) := by
  induction received with
  | nil => exact .nil
  | @cons block value blocks values parsed _ induction =>
      have first := nonempty block List.mem_cons_self
      have later := induction fun block member =>
        nonempty block (List.mem_cons_of_mem _ member)
      cases isObject : value.isObject with
      | true =>
          rw [List.filter_cons_of_pos isObject] at sent ⊢
          rw [List.cons_subset] at sent
          have found := (receiveTcpJson_eq_request_iff first).mp parsed
          exact .take (library.whole sent.1 found.2) (later sent.2)
      | false =>
          rw [List.filter_cons_of_neg (by simp [isObject])] at sent ⊢
          exact .skip first (later sent)

/-- The server processes exactly the requests that were sent if and only if
every block is one printed request, shorter than the receive buffer. -/
theorem processesRequests_iff
    (library : PrintsAndParses parse print requests) {blocks : List Bytes}
    (cut : CutInto bufferSize (sendJsonStream print requests) blocks) :
    ProcessesRequests parse requests blocks ↔
      blocks = requests.map print ∧
        ∀ request ∈ requests, (print request).length < bufferSize := by
  have objects : requests.filter Json.isObject = requests :=
    List.filter_eq_self.mpr library.object
  constructor
  · rintro ⟨values, rfl, receives⟩
    have received := receivesValues_iff.mp receives .attached
    have same := (library.standFor cut.nonempty (List.Subset.refl _)
      received).eq cut.flatten
    refine ⟨same, fun request sent => ?_⟩
    have arrived : print request ∈ blocks := by
      rw [same]
      exact List.mem_map_of_mem sent
    exact receives.length_lt cut.nonempty arrived
  · rintro ⟨rfl, short⟩
    refine ⟨requests, objects, receivesValues_iff.mpr fun context => ?_⟩
    rw [List.forall₂_map_left_iff, List.forall₂_same]
    intro request sent
    have nonempty : print request ≠ [] :=
      cut.nonempty _ (List.mem_map_of_mem sent)
    have whole : print request ++ [] = print request := List.append_nil _
    rw [← whole] at nonempty ⊢
    refine library.receiveTcpJson_of_merged sent nonempty ?_ context
    rw [whole]
    exact short request sent

end Framing

/-! ## Concrete streams -/

/-- The text that `cJSON_Print` makes of a status request. -/
def statusRequestText : Bytes :=
  ascii "\x7b\n\t\"message\":\t\"status\"\n\x7d"

theorem printsAndParses_parseFirst (text : Bytes) (request : Json)
    (count : Nat) (object : request.isObject = true) (noNul : 0 ∉ text) :
    PrintsAndParses (Json.parseFirst text request) (fun _ => text)
      (List.replicate count request) where
  object sent member := by
    rw [List.eq_of_mem_replicate member]
    exact object
  noNul _ _ := noNul
  first sent member rest := by
    rw [List.eq_of_mem_replicate member, Json.parseFirst,
      if_pos (List.prefix_append text rest)]
  cutOff _ _ front initial proper := by
    refine if_neg fun whole => proper ?_
    exact initial.eq_of_length_le whole.length_le
  part sent member piece inside parsed := by
    rw [Json.parseFirst] at parsed
    split_ifs at parsed with whole
    exact inside.eq_of_length_le whole.length_le

theorem processesRequests_of_two_statuses :
    ProcessesRequests (Json.parseFirst statusRequestText statusRequest)
        [statusRequest, statusRequest]
        [statusRequestText, statusRequestText] ∧
      ¬ ProcessesRequests (Json.parseFirst statusRequestText statusRequest)
        [statusRequest, statusRequest]
        [statusRequestText ++ statusRequestText] := by
  have library := printsAndParses_parseFirst statusRequestText statusRequest 2
    rfl (by decide)
  constructor
  · exact (processesRequests_iff library
      ⟨by decide, by decide, by decide⟩).mpr ⟨rfl, by decide⟩
  · intro processes
    have whole := (processesRequests_iff library
      ⟨by decide, by decide, by decide⟩).mp processes
    exact absurd (congrArg List.length whole.1) (by decide)

/-- Of two status requests that arrive in one block, one is lost. -/
theorem not_processesRequests_of_merged_status :
    ¬ ∀ (parse : Bytes → Option Json) (print : Json → Bytes)
      (requests : List Json) (blocks : List Bytes),
      PrintsAndParses parse print requests →
      CutInto bufferSize (sendJsonStream print requests) blocks →
      ProcessesRequests parse requests blocks := by
  intro processes
  obtain ⟨values, objects, receives⟩ := processes _ _ _
    [statusRequestText ++ statusRequestText]
    (printsAndParses_parseFirst statusRequestText statusRequest 2 rfl
      (by decide))
    ⟨by decide, by decide, by decide⟩
  have calls := congrArg List.length (receives.received .attached)
  have found := List.length_filter_le Json.isObject values
  rw [objects, List.length_replicate] at found
  simp only [List.length_map, List.length_singleton] at calls
  omega

end ShelterServer
