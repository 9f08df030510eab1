import ShelterServer.JsonTransport
import ShelterServer.LedgerRefinement
import ShelterServer.SessionRequests

/-!
# Requests that nobody sent

However a client's stream is cut into blocks, the server takes no block for a
request that the client did not send, and no request twice or out of turn.
-/

namespace ShelterServer

open Foundations

/-! ## Where a request can begin -/

/-- The text begins with an object that has a `message`. -/
structure HoldsRequest (text : Bytes) (json : Json) (behind : Bytes) :
    Prop where
  value : ∃ levels piece, text = piece ++ behind ∧ ValueText levels piece json
  named : json.getObjectItem (ascii "message") ≠ none

/-- A request can begin at no brace of the text, with this behind it. -/
def OpensNone (text rest : Bytes) : Prop :=
  ∀ front back, text = front ++ 123 :: back →
    ∀ json behind, ¬ HoldsRequest (123 :: back ++ rest) json behind

theorem OpensNone.of_notMem {text : Bytes} (noBrace : 123 ∉ text)
    (rest : Bytes) : OpensNone text rest := by
  rintro front back rfl
  simp at noBrace

theorem OpensNone.append {text more rest : Bytes}
    (first : OpensNone text (more ++ rest)) (second : OpensNone more rest) :
    OpensNone (text ++ more) rest := by
  intro front back whole json behind
  obtain ⟨inner, rfl, same⟩ | ⟨inner, rfl, same⟩ :=
    List.append_eq_append_iff.mp whole
  · exact second inner back same json behind
  · cases inner with
    | nil => exact second [] back same.symm json behind
    | cons byte inner =>
        obtain ⟨rfl, rfl⟩ := List.cons.inj same
        have opens := first front inner rfl json behind
        rwa [← List.append_assoc] at opens

theorem OpensNone.cons {text rest : Bytes}
    (head : ∀ json behind, ¬ HoldsRequest (123 :: text ++ rest) json behind)
    (tail : OpensNone text rest) : OpensNone (123 :: text) rest := by
  intro front back whole
  cases front with
  | nil =>
      obtain ⟨_, rfl⟩ := List.cons.inj whole
      exact head
  | cons byte front =>
      obtain ⟨_, rfl⟩ := List.cons.inj whole
      exact tail front back rfl

/-- Only the printed object itself begins where an object is printed. -/
theorem HoldsRequest.eq_of_printed {json other : Json} {rest behind : Bytes}
    {depth : Nat} (printable : json.Printable) (object : json.isObject = true)
    (noNul : 0 ∉ rest)
    (holds : HoldsRequest (json.textAt depth ++ rest) other behind) :
    other = json ∧ behind = rest := by
  obtain ⟨levels, piece, whole, value⟩ := holds.value
  have stop : ∀ {json : Json} {rest}, json.isObject = true →
      json.isNumber = true → NoNumberByte rest := by
    intro json rest object number
    rw [Json.not_isNumber_of_isObject object] at number
    cases number
  have otherObject : other.isObject = true := by
    by_contra scalar
    exact holds.named (Json.getObjectItem_of_not_isObject
      (Bool.eq_false_iff.mpr scalar) _)
  have printed := printable.valueText (le_refl json.nesting) depth
  have text : 0 ∉ json.textAt depth ++ rest := by
    rw [List.mem_append, not_or]
    exact ⟨json.zero_notMem_textAt depth, noNul⟩
  obtain ⟨same, rfl⟩ := ValueText.unique text value
    (value.delimited_of_stop (stop otherObject)) whole printed
    (printed.delimited_of_stop (stop object)) rfl
  rw [same] at whole
  exact ⟨rfl, (List.append_cancel_left whole).symm⟩

/-! ## Inside of a string -/

theorem append_of_notMem {α : Type} {block tail front back : List α} {item : α}
    (absent : item ∉ block) (whole : block ++ tail = front ++ item :: back) :
    ∃ inner, front = block ++ inner ∧ tail = inner ++ item :: back := by
  obtain ⟨inner, rfl, same⟩ | ⟨inner, rfl, same⟩ :=
    List.append_eq_append_iff.mp whole
  · exact ⟨inner, rfl, same⟩
  · cases inner with
    | nil => exact ⟨[], by simp, same.symm⟩
    | cons byte inner =>
        obtain ⟨rfl, _⟩ := List.cons.inj same
        simp at absent

theorem brace_notMem_escaped {byte : UInt8} (other : byte ≠ 123) :
    123 ∉ escaped byte := by
  obtain ⟨_, _, _, same⟩ | ⟨letter, _⟩ | ⟨_, _, _, _, same⟩ :=
    escaped_cases byte
  · rw [same, List.mem_singleton]
    exact Ne.symm other
  · obtain rfl | rfl | rfl | rfl | rfl | rfl | rfl := letter <;> decide
  · have digit : ∀ {value}, value < 16 → 123 ≠ printedHexDigit value := by
      intro value small equal
      have bounds := printedHexDigit_bounds small
      rw [← equal] at bounds
      simp at bounds
    rw [same]
    simp only [unicodeEscape, List.mem_cons, List.not_mem_nil, or_false, not_or]
    exact ⟨by decide, by decide, by decide, by decide,
      digit (toNat_div_lt byte), digit (toNat_mod_lt byte)⟩

/-- A brace in an escaped string is one of the string. -/
theorem exists_flatMap_of_brace {input front back : Bytes}
    (whole : input.flatMap escaped = front ++ 123 :: back) :
    ∃ rest : Bytes, back = rest.flatMap escaped := by
  induction input generalizing front with
  | nil => simp at whole
  | cons byte input induction =>
      rw [List.flatMap_cons] at whole
      by_cases brace : byte = 123
      · subst brace
        cases front with
        | nil => exact ⟨input, (List.cons.inj whole).2.symm⟩
        | cons first front => exact induction (List.cons.inj whole).2
      · obtain ⟨inner, _, rest⟩ :=
          append_of_notMem (brace_notMem_escaped brace) whole
        exact induction rest

/-- A literal ends at the first quote behind plain bytes. -/
theorem Literal.eq_of_closed {units : Nat} {literal front rest other : Bytes}
    (closes : Literal units literal)
    (plain : ∀ byte ∈ front, byte ≠ 34 ∧ byte ≠ 92)
    (whole : literal ++ 34 :: rest = front ++ 34 :: other) :
    literal = front ∧ rest = other := by
  induction closes generalizing front with
  | nil =>
      cases front with
      | nil => exact ⟨rfl, (List.cons.inj whole).2⟩
      | cons byte front =>
          obtain ⟨rfl, _⟩ := List.cons.inj whole
          exact ((plain _ List.mem_cons_self).1 rfl).elim
  | plain noQuote _ _ induction =>
      cases front with
      | nil => exact (noQuote (List.cons.inj whole).1).elim
      | cons byte front =>
          obtain ⟨rfl, same⟩ := List.cons.inj whole
          obtain ⟨rfl, rests⟩ :=
            induction (fun byte member => plain byte (.tail _ member)) same
          exact ⟨rfl, rests⟩
  | escape letter _ _ =>
      cases front with
      | nil => cases (List.cons.inj whole).1
      | cons byte front =>
          obtain ⟨rfl, _⟩ := List.cons.inj whole
          exact ((plain _ List.mem_cons_self).2 rfl).elim

theorem MemberText.exists_name {form : Bytes → Json → Prop} {piece : Bytes}
    {member : Bytes × Json} (found : MemberText form piece member) :
    ∃ units literal before more, Literal units literal ∧ Blank before ∧
      piece = 34 :: (literal ++ 34 :: (before ++ 58 :: more)) := by
  cases found with
  | @member name before after piece output json quoted blank =>
      cases quoted with
      | quoted closes decodes =>
          exact ⟨_, _, before, after ++ piece, closes, blank, by simp⟩

theorem Separated.exists_name {form : Bytes → Json → Prop} {text : Bytes}
    {members : List (Bytes × Json)}
    (separated : Separated (MemberText form) text members) :
    ∃ space units literal before more, Blank space ∧ Literal units literal ∧
      Blank before ∧
      text = space ++ 34 :: (literal ++ 34 :: (before ++ 58 :: more)) := by
  cases separated with
  | @last space piece after value blank found =>
      obtain ⟨units, literal, before, more, closes, blanks, rfl⟩ :=
        found.exists_name
      exact ⟨space, units, literal, before, more ++ after, blank, closes,
        blanks, by simp⟩
  | @more space piece after text value values blank found =>
      obtain ⟨units, literal, before, more, closes, blanks, rfl⟩ :=
        found.exists_name
      exact ⟨space, units, literal, before, more ++ (after ++ 44 :: text),
        blank, closes, blanks, by simp⟩

/-- An object with a member begins with the member's name. -/
theorem HoldsRequest.exists_name {text behind : Bytes} {json : Json}
    (holds : HoldsRequest (123 :: text) json behind) :
    ∃ space units literal before more, Blank space ∧ Literal units literal ∧
      Blank before ∧
      text = space ++ 34 :: (literal ++ 34 :: (before ++ 58 :: more)) := by
  obtain ⟨levels, piece, whole, value⟩ := holds.value
  cases json with
  | object members =>
      have nested : ∃ form, Enclosed 123 125 (MemberText form) piece members := by
        cases levels with
        | zero =>
            obtain scalar | none := value
            · cases scalar
            · exact none.elim
        | succ levels =>
            obtain scalar | nested := value
            · cases scalar
            · cases nested with
              | object enclosed => exact ⟨_, enclosed⟩
      obtain ⟨form, enclosed⟩ := nested
      cases enclosed with
      | empty blank => exact (holds.named rfl).elim
      | filled separated =>
          obtain ⟨space, units, literal, before, more, blank, closes, blanks,
            rfl⟩ := separated.exists_name
          refine ⟨space, units, literal, before, more ++ [125] ++ behind, blank,
            closes, blanks, ?_⟩
          rw [(List.cons.inj whole).2]
          simp
  | _ => exact (holds.named (Json.getObjectItem_of_not_isObject rfl _)).elim

/-- What follows a request: nothing, or the next one. -/
def Follows (rest : Bytes) : Prop :=
  rest = [] ∨ ∃ more, rest = 123 :: 10 :: 9 :: 34 :: 109 :: more

theorem not_named_of_follows {rest literal before more : Bytes} {units : Nat}
    (follows : Follows rest) (closes : Literal units literal)
    (blank : Blank before) :
    10 :: 125 :: rest ≠ literal ++ 34 :: (before ++ 58 :: more) := by
  intro whole
  obtain rfl | ⟨next, rfl⟩ := follows
  · have quote : (34 : UInt8) ∈ [10, 125] := whole ▸ by simp
    simp at quote
  · have plain : Unquoted [10, 125, 123, 10, 9] := .of_all (by decide)
    obtain ⟨_, same⟩ := closes.eq_of_closed plain whole.symm
    cases before with
    | nil => cases (List.cons.inj same).1
    | cons byte before =>
        obtain ⟨rfl, _⟩ := List.cons.inj same
        cases blank _ List.mem_cons_self

/-- No request begins inside of the last string of a request. -/
theorem not_holdsRequest_in_string {input rest : Bytes} (follows : Follows rest)
    (json : Json) (behind : Bytes) :
    ¬ HoldsRequest (123 :: (input.flatMap escaped ++ 34 :: 10 :: 125 :: rest))
      json behind := by
  intro holds
  obtain ⟨space, units, literal, before, more, blank, closes, blanks, whole⟩ :=
    holds.exists_name
  clear holds
  induction input generalizing space with
  | nil =>
      cases space with
      | nil =>
          exact not_named_of_follows follows closes blanks
            (List.cons.inj whole).2
      | cons byte space =>
          obtain ⟨rfl, _⟩ := List.cons.inj whole
          cases blank _ List.mem_cons_self
  | cons byte input induction =>
      have backslash : ∀ rest,
          92 :: rest ≠
            space ++ 34 :: (literal ++ 34 :: (before ++ 58 :: more)) := by
        intro rest whole
        cases space with
        | nil => cases (List.cons.inj whole).1
        | cons byte space =>
            obtain ⟨rfl, _⟩ := List.cons.inj whole
            cases blank _ List.mem_cons_self
      rw [List.flatMap_cons] at whole
      obtain ⟨_, _, plain, same⟩ | ⟨_, _, letter, _, same⟩ |
        ⟨_, _, _, _, same⟩ := escaped_cases byte
      · rw [same] at whole
        cases space with
        | nil => exact (isPlain_ne plain).1 (List.cons.inj whole).1
        | cons first space =>
            exact induction space
              (fun byte member => blank byte (.tail _ member))
              (List.cons.inj whole).2
      · rw [same] at whole
        exact backslash _ whole
      · rw [same] at whole
        exact backslash _ whole

theorem opensNone_string (input : Bytes) {rest : Bytes}
    (follows : Follows rest) :
    OpensNone (input.flatMap escaped ++ [34, 10, 125]) rest := by
  intro front back whole json behind
  obtain ⟨inner, rfl, same⟩ | ⟨inner, string, same⟩ :=
    List.append_eq_append_iff.mp whole
  · have brace : (123 : UInt8) ∈ [34, 10, 125] := same ▸ by simp
    simp at brace
  · cases inner with
    | nil =>
        cases (List.cons.inj same).1
    | cons byte inner =>
        obtain ⟨rfl, rfl⟩ := List.cons.inj same
        obtain ⟨input, rfl⟩ := exists_flatMap_of_brace string
        have none : ¬ HoldsRequest (123 ::
            (input.flatMap escaped ++ 34 :: 10 :: 125 :: rest)) json behind :=
          not_holdsRequest_in_string follows json behind
        simpa using none

/-! ## The texts of requests -/

theorem brace_notMem_toString (value : Int) :
    123 ∉ ascii (toString value) := by
  intro member
  obtain sign | digit := mem_toString member
  · cases sign
  · cases digit

/-- No request begins in the section of an update. -/
theorem opensNone_section {resource : Resource} {line item : Bytes}
    {value : Int} (chosen : resource.item line = some item)
    (representable : InInt value) {rest : Bytes} (noNul : 0 ∉ rest) :
    OpensNone ((Json.object [(item, .number value)]).textAt 1) rest := by
  have printable := (transmittable_section chosen representable).printable
  have unnamed : (Json.object [(item, .number value)]).getObjectItem
      (ascii "message") = none ∧ 123 ∉ stringText item := by
    cases resource <;>
      simp only [Resource.item] at chosen <;>
      split_ifs at chosen <;>
      obtain rfl := Option.some.inj chosen <;>
      exact ⟨rfl, by decide⟩
  have head : ∀ json behind, ¬ HoldsRequest
      ((Json.object [(item, .number value)]).textAt 1 ++ rest) json behind := by
    intro json behind holds
    obtain ⟨rfl, _⟩ := holds.eq_of_printed printable rfl noNul
    exact holds.named unnamed.1
  refine OpensNone.cons head (.of_notMem ?_ rest)
  simpa [Json.textAt, membersText, tabs, unnamed.2] using
    brace_notMem_toString value

/-- No request begins inside of another. -/
theorem ClientRequest.opensNone {json : Json} (request : ClientRequest json) :
    ∃ text, json.print = 123 :: 10 :: 9 :: 34 :: 109 :: text ∧
      ∀ rest, 0 ∉ rest → Follows rest →
        OpensNone (10 :: 9 :: 34 :: 109 :: text) rest := by
  cases request with
  | status => exact ⟨_, rfl, fun rest _ _ => .of_notMem (by decide) rest⟩
  | summary => exact ⟨_, rfl, fun rest _ _ => .of_notMem (by decide) rest⟩
  | authentication signedChar osId =>
      let front := ascii "essage\":\t\"authenticateme\",\n\t\"hostname\":\t\""
      let string := (untilNul (encodeUtf8 signedChar osId)).flatMap escaped
      refine ⟨front ++ (string ++ [34, 10, 125]), ?_, fun rest _ follows => ?_⟩
      · simp [authenticationRequest, Json.print, Json.textAt, membersText,
          stringText, tabs, string]
        rfl
      · have noBrace : OpensNone (10 :: 9 :: 34 :: 109 :: front)
            (string ++ [34, 10, 125] ++ rest) := .of_notMem (by decide) _
        exact noBrace.append (opensNone_string _ follows)
  | @update resource line item value chosen representable =>
      let front := ascii "essage\":\t\"update\",\n\t" ++
        stringText resource.key ++ [58, 9]
      let inner := Json.object [(item, .number value)]
      refine ⟨front ++ (inner.textAt 1 ++ [10, 125]), ?_,
        fun rest noNul _ => ?_⟩
      · simp [updateRequest, Json.print, Json.textAt, membersText, stringText,
          tabs, inner, front]
        rfl
      · have plain : 123 ∉ stringText resource.key := by
          cases resource <;> decide
        have noBrace : 123 ∉ 10 :: 9 :: 34 :: 109 :: front := by
          simp only [front, List.mem_cons, List.mem_append, plain]
          decide
        refine OpensNone.append (.of_notMem noBrace _)
          (OpensNone.append (opensNone_section chosen representable ?_)
            (.of_notMem (by decide) rest))
        simpa using noNul

theorem ClientRequest.follows {json : Json} (request : ClientRequest json)
    (rest : Bytes) : Follows (json.print ++ rest) := by
  obtain ⟨text, shape, _⟩ := request.opensNone
  rw [shape]
  exact .inr ⟨text ++ rest, rfl⟩

/-! ## Streams of requests -/

section Stream

variable {requests : List Json} {json : Json} {behind : Bytes}

theorem zero_notMem_sendJsonStream (requests : List Json) :
    0 ∉ sendJsonStream Json.print requests := by
  simp only [sendJsonStream, List.mem_flatten, List.mem_map, not_exists,
    not_and, and_imp, forall_exists_index]
  rintro text request _ rfl
  exact request.zero_notMem_print

theorem follows_sendJsonStream
    (each : ∀ request ∈ requests, ClientRequest request) :
    Follows (sendJsonStream Json.print requests) := by
  cases requests with
  | nil => exact .inl rfl
  | cons request requests =>
      exact (each request List.mem_cons_self).follows _

/-- A request begins in the stream only where it was sent. -/
theorem HoldsRequest.exists_request
    (each : ∀ request ∈ requests, ClientRequest request) {front text : Bytes}
    (stream : sendJsonStream Json.print requests = front ++ 123 :: text)
    (holds : HoldsRequest (123 :: text) json behind) :
    ∃ before after, requests = before ++ json :: after ∧
      behind = sendJsonStream Json.print after := by
  induction requests generalizing front with
  | nil => simp [sendJsonStream] at stream
  | cons request requests induction =>
      rw [List.forall_mem_cons] at each
      have later : ∀ {front},
          sendJsonStream Json.print requests = front ++ 123 :: text →
          ∃ before after, request :: requests = before ++ json :: after ∧
            behind = sendJsonStream Json.print after := by
        intro front stream
        obtain ⟨before, after, rfl, same⟩ := induction each.2 stream
        exact ⟨request :: before, after, rfl, same⟩
      have noNul := zero_notMem_sendJsonStream requests
      obtain ⟨inner, shape, opens⟩ := each.1.opensNone
      have none := opens _ noNul (follows_sendJsonStream each.2)
      change request.print ++ sendJsonStream Json.print requests = _ at stream
      cases front with
      | nil =>
          have printed := each.1.transmittable
          rw [← List.nil_append (123 :: text), ← stream] at holds
          change HoldsRequest (request.textAt 0 ++ _) json behind at holds
          obtain ⟨rfl, same⟩ :=
            holds.eq_of_printed printed.printable printed.object noNul
          exact ⟨[], requests, rfl, same⟩
      | cons byte front =>
          rw [shape] at stream
          obtain ⟨_, rests⟩ := List.cons.inj stream
          obtain ⟨more, _, same⟩ | ⟨more, whole, same⟩ :=
            List.append_eq_append_iff.mp rests
          · exact later same
          · cases more with
            | nil => exact later (same.symm.trans (List.nil_append _).symm)
            | cons first more =>
                obtain ⟨rfl, rfl⟩ := List.cons.inj same
                exact (none front more whole json behind holds).elim

theorem HoldsRequest.append {text : Bytes}
    (holds : HoldsRequest text json behind) (more : Bytes) :
    HoldsRequest (text ++ more) json (behind ++ more) := by
  obtain ⟨levels, piece, whole, value⟩ := holds.value
  exact ⟨⟨levels, piece, by rw [whole, List.append_assoc], value⟩, holds.named⟩

/-- What is parsed with a `message` begins at a brace. -/
theorem exists_holdsRequest_of_parse {nestingLimit : Nat} {block : Bytes}
    (noNul : 0 ∉ block) (parsed : Json.parse nestingLimit block = some json)
    (named : json.getObjectItem (ascii "message") ≠ none) :
    ∃ front text behind, block = front ++ 123 :: text ∧
      HoldsRequest (123 :: text) json behind := by
  obtain ⟨behind, found⟩ := Json.parse_eq_some_iff.mp parsed
  rw [untilNul_of_notMem noNul] at found
  obtain ⟨whole, blank, value, delimited⟩ := found
  rename_i space piece
  have object : json.isObject = true := by
    by_contra scalar
    exact named (Json.getObjectItem_of_not_isObject
      (Bool.eq_false_iff.mpr scalar) _)
  obtain ⟨text, rfl⟩ := value.exists_brace object
  have marked : ∃ mark, block = mark ++ withoutBom block := by
    unfold withoutBom
    split
    · exact ⟨block.take 3, (List.take_append_drop 3 block).symm⟩
    · exact ⟨[], rfl⟩
  obtain ⟨mark, same⟩ := marked
  refine ⟨mark ++ space, text ++ behind, behind, ?_,
    ⟨_, _, rfl, value⟩, named⟩
  rw [same, whole]
  simp

/-- The request in a received block: what is parsed with a `message`. -/
def requestIn (parse : Bytes → Option Json) (block : Bytes) : Option Json :=
  (parse (untilNul block)).filter fun json =>
    (json.getObjectItem (ascii "message")).isSome

/-- However the stream is cut into blocks, the requests that are found in them
are requests of the stream, in their order. -/
theorem sublist_requestIn (nestingLimit : Nat) {blocks : List Bytes}
    {front pending : Bytes}
    (each : ∀ request ∈ requests, ClientRequest request)
    (stream : sendJsonStream Json.print requests =
      front ++ (blocks.flatten ++ pending)) :
    (blocks.filterMap (requestIn (Json.parse nestingLimit))).Sublist
      requests := by
  induction blocks generalizing requests front with
  | nil => exact List.nil_sublist _
  | cons block blocks induction =>
      rw [List.flatten_cons, List.append_assoc] at stream
      rw [List.filterMap_cons]
      split
      · exact induction each (by rw [stream, List.append_assoc])
      · rename_i json found
        obtain ⟨parsed, named⟩ := Option.filter_eq_some_iff.mp found
        have noNul : 0 ∉ block := fun nul =>
          zero_notMem_sendJsonStream requests (stream ▸ by simp [nul])
        rw [untilNul_of_notMem noNul] at parsed
        obtain ⟨before, text, behind, rfl, holds⟩ :=
          exists_holdsRequest_of_parse noNul parsed
            (Option.isSome_iff_ne_none.mp named)
        have later := holds.append (blocks.flatten ++ pending)
        have placed : sendJsonStream Json.print requests = front ++ before ++
            123 :: (text ++ (blocks.flatten ++ pending)) := by
          rw [stream]
          simp
        obtain ⟨sentBefore, sentAfter, rfl, same⟩ :=
          later.exists_request each placed
        rw [List.forall_mem_append, List.forall_mem_cons] at each
        exact ((induction each.2.2 same.symm).cons_cons json).trans
          (List.sublist_append_right _ _)

end Stream

/-! ## Sessions -/

theorem updatesIn_step_of_not_updates (parse : Bytes → Option Json)
    (process : Process) {event : Event}
    (none : ∀ request, ¬ event.Updates parse request) :
    updatesIn (process.step parse event).server.trace =
      updatesIn process.server.trace := by
  unfold Process.step
  split
  · rw [Process.server_after]
    exact (addsNoUpdates_handleEvent parse none process.server).trans
      (List.append_nil _)
  · rfl

/-- The block that a receive call takes, if any. -/
def Received.blocks : Received → List Bytes
  | .failed => []
  | .bytes [] => []
  | .bytes block => [block]

/-- Handling a received block passes on the request in it, or nothing. -/
theorem updatesIn_step_tcpActivity (parse : Bytes → Option Json)
    (process : Process) (context : RequestContext) (clientFd : Nat)
    (received : Received) :
    ∃ added, updatesIn (process.step parse
        (.tcpActivity context clientFd true received)).server.trace =
      updatesIn process.server.trace ++ added ∧
      added.Sublist (received.blocks.filterMap (requestIn parse)) := by
  by_cases updates : ∃ request,
      (Event.tcpActivity context clientFd true received).Updates parse request
  · obtain ⟨request, _, returned, requests, granted⟩ := updates
    refine ⟨_, addsUpdates_step parse granted, ?_⟩
    have found : received.blocks.filterMap (requestIn parse) = [request] := by
      match received, returned with
      | .bytes (byte :: data), returned =>
          rw [tcpRequest_bytes parse (List.cons_ne_nil _ _)] at returned
          split at returned
          · obtain ⟨message, named, _⟩ := Option.bind_eq_some_iff.mp requests
            have inside : requestIn parse (byte :: data) = some request :=
              Option.filter_eq_some_iff.mpr
                ⟨Except.ok.inj returned, by rw [named]; rfl⟩
            simp [Received.blocks, inside]
          · cases returned
    rw [found]
    simp only [Process.passes, returned, requests, if_true]
    split
    · exact List.Sublist.refl _
    · exact List.nil_sublist _
  · refine ⟨[], ?_, List.nil_sublist _⟩
    rw [updatesIn_step_of_not_updates parse process (not_exists.mp updates),
      List.append_nil]

namespace Session

/-- The server has applied updates that it received on this connection, in
their order. -/
def AppliesReceived (host : Host) (session : Session) : Prop :=
  (updatesIn session.server.server.trace).Sublist
    (session.received.filterMap (requestIn host.parse))

variable {host : Host} {session : Session}

theorem AppliesReceived.serve (applies : session.AppliesReceived host)
    {event : Event} (none : ∀ request, ¬ event.Updates host.parse request) :
    (session.serve host event).AppliesReceived host := by
  obtain ⟨_, _, _, served⟩ := serve_eq host session event
  rw [AppliesReceived, served]
  dsimp only
  rw [updatesIn_step_of_not_updates host.parse session.server none]
  exact applies

theorem received_take (received : Received) :
    (session.take received).received =
      session.received ++ received.blocks := by
  match received with
  | .failed => exact (List.append_nil _).symm
  | .bytes [] => exact (List.append_nil _).symm
  | .bytes (_ :: _) => rfl

theorem AppliesReceived.receives (applies : session.AppliesReceived host)
    (context : RequestContext) (clientFd : Nat) (received : Received) :
    ((session.take received).serve host
      (.tcpActivity context clientFd true received)).AppliesReceived host := by
  obtain ⟨_, _, _, served⟩ := serve_eq host (session.take received)
    (.tcpActivity context clientFd true received)
  obtain ⟨added, adds, inside⟩ := updatesIn_step_tcpActivity host.parse
    session.server context clientFd received
  have taken : (session.take received).server = session.server := by
    unfold take
    split <;> rfl
  rw [AppliesReceived, served]
  dsimp only
  rw [taken, adds, received_take, List.filterMap_append]
  exact applies.append inside

theorem appliesReceived_step (applies : session.AppliesReceived host)
    {event : SessionEvent}
    (none : ∀ other, event = .server other →
      ∀ request, ¬ other.Updates host.parse request) :
    (session.step host event).AppliesReceived host := by
  have steps := step_cases host session event
  generalize session.step host event = after at steps ⊢
  cases steps with
  | server => exact applies.serve (none _ rfl)
  | accepts => exact applies.serve fun _ => id
  | serverDrops => exact applies.serve fun _ updates => nomatch updates.1
  | serverReceives => exact applies.receives _ _ _
  | enters =>
      rename_i input _
      obtain ⟨_, entered⟩ := enter_eq host session input
      rw [entered]
      exact applies
  | _ => exact applies

end Session

theorem appliesReceived_sessionRun (host : Host) (supplies : Supplies)
    {events : List SessionEvent}
    (none : ∀ event, .server event ∈ events →
      ∀ request, ¬ event.Updates host.parse request) :
    (sessionRun host supplies events).AppliesReceived host := by
  induction events using List.reverseRecOn with
  | nil => exact List.Sublist.refl _
  | append_singleton events event induction =>
      rw [sessionRun_concat]
      refine Session.appliesReceived_step
        (induction fun other member => none other (by simp [member])) ?_
      rintro other rfl
      exact none other (by simp)

/-- However the connection delivers a client's bytes, the server finds only
requests in them that the client sent, each at most once and in their order,
and if no one else sends updates, it applies only such. -/
theorem sessionRun_requestsSent (nestingLimit : Nat) (signedChar : Bool)
    (osId : Bytes) (supplies : Supplies) {events : List SessionEvent}
    (reads : ∀ event ∈ events, event.ReadsInt) :
    ((sessionRun (.cJSON nestingLimit signedChar osId) supplies
      events).received.filterMap
        (requestIn (Json.parse nestingLimit))).Sublist
      (sessionRun (.cJSON nestingLimit signedChar osId) supplies events).sent ∧
    ((∀ event, .server event ∈ events →
        ∀ request, ¬ event.Updates (Json.parse nestingLimit) request) →
      (updatesIn (sessionRun (.cJSON nestingLimit signedChar osId) supplies
        events).server.server.trace).Sublist
        (sessionRun (.cJSON nestingLimit signedChar osId) supplies
          events).sent) := by
  have sends := sends_sessionRun (.cJSON nestingLimit signedChar osId) supplies
    events
  have requests := sublist_requestIn nestingLimit
    (clientRequest_sessionRun _ supplies reads)
    (sends.stream.trans (List.nil_append _).symm)
  exact ⟨requests, fun none =>
    (appliesReceived_sessionRun _ supplies none).trans requests⟩

/-- An update that is sent before the server has accepted the connection, and
of which it reads a front only, behind the whole authentication request. -/
def earlyUpdate : List SessionEvent :=
  [.authenticates, .forks true, .input (.line (some (ascii "2\n"))),
    .input (.line (some (ascii "1\n"))), .input (.line (some (ascii "1\n"))),
    .input (.number (some 5)), .accepts .attached .ipv6 8,
    .serverReceives .attached
      (.bytes (authenticationRequest true adminUser).print),
    .serverReceives .attached (.bytes (ascii "\x7b\n\t\"message\":\t\"up"))]

theorem sessionRun_requestsSent_of_earlyUpdate :
    ((sessionRun (.cJSON 2 true adminUser) .zero
      earlyUpdate).received.filterMap
        (requestIn (Json.parse 2))).length = 1 ∧
    ((sessionRun (.cJSON 2 true adminUser) .zero
      earlyUpdate).received.filterMap (requestIn (Json.parse 2))).Sublist
      (sessionRun (.cJSON 2 true adminUser) .zero earlyUpdate).sent ∧
    (updatesIn (sessionRun (.cJSON 2 true adminUser) .zero
      earlyUpdate).server.server.trace).Sublist
      (sessionRun (.cJSON 2 true adminUser) .zero earlyUpdate).sent := by
  have reads : ∀ event ∈ earlyUpdate, event.ReadsInt := by
    simp only [earlyUpdate, List.forall_mem_cons, SessionEvent.ReadsInt,
      MenuInput.ReadsInt, List.not_mem_nil, false_imp_iff, implies_true,
      true_and, and_true]
    decide
  have both := sessionRun_requestsSent 2 true adminUser .zero reads
  exact ⟨by decide +kernel, both.1, both.2 (by simp [earlyUpdate])⟩

end ShelterServer
