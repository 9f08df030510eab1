import ShelterServer.AlertDelivery
import ShelterServer.RequestFraming

/-!
# Framing of the server's messages

The server writes the texts of alerts and JSON objects to a connection without
a separator, while `receive_json` takes whatever one `recv` returns for one
message.  The client acts on what was sent exactly when every block happens to
be one message.
-/

namespace ShelterServer

open Foundations Faulting

/-- The text of an alert, or a reply or notice in JSON. -/
inductive ServerMessage where
  | alert (text : Bytes)
  | json (value : Json)

namespace ServerMessage

/-- The bytes that are sent. -/
def bytes (print : Json → Bytes) : ServerMessage → Bytes
  | .alert text => text
  | .json value => print value

def json? : ServerMessage → Option Json
  | .alert _ => none
  | .json value => some value

/-- What the client does with the message. -/
def act : ServerMessage → ChildHandler PUnit
  | .alert text => printOutput (.text text)
  | .json value => handleReceivedJson value

end ServerMessage

/-- The bytes that the server puts on a connection. -/
def serverStream (print : Json → Bytes) (messages : List ServerMessage) :
    Bytes :=
  (messages.map (ServerMessage.bytes print)).flatten

/-- How the library prints and parses certain messages: the JSON among them
like requests, and the text of an alert, which is a C string, not at all. -/
structure PrintsAndParsesMessages (parse : Bytes → Option Json)
    (print : Json → Bytes) (messages : List ServerMessage) : Prop where
  json : PrintsAndParses parse print (messages.filterMap ServerMessage.json?)
  noNul : ∀ text, .alert text ∈ messages → 0 ∉ text
  rejected : ∀ text, .alert text ∈ messages → parse text = none

/-- The `message` of a JSON value, if there is one, is a string. -/
def Json.ReadableMessage (value : Json) : Prop :=
  ∀ message, value.getObjectItem (ascii "message") = some message →
    message.valuestring.isSome = true

/-- The child after its calls for the blocks. -/
def receiveBlocks (parse : Bytes → Option Json) (behindStack : Bytes)
    (child : Child) (blocks : List Bytes) : ChildProcess :=
  run (ChildProcess.step parse behindStack) ⟨child, none⟩
    (blocks.map .bytes)

/-- The calls for the blocks act on the messages, each once and in order, and
a disconnect notice among them ends both processes of the client. -/
structure ActsOnMessages (parse : Bytes → Option Json)
    (messages : List ServerMessage) (blocks : List Bytes) : Prop where
  acted : ∀ behindStack,
    blocks.map (fun block => receiveJson parse behindStack (.bytes block)) =
      messages.map ServerMessage.act
  disconnected : ∀ behindStack child, .json disconnectNotice ∈ messages →
    (∀ value, .json value ∈ messages → value.ReadableMessage) →
      (receiveBlocks parse behindStack child blocks).stopped = some .exited ∧
        (receiveBlocks parse behindStack child blocks).child.parentInterrupted =
          true

instance : Nonempty Child := ⟨⟨false, [], false⟩⟩

/-! ## One call -/

section Calls

variable {parse : Bytes → Option Json}

theorem printOutput_text_inj {left right : Bytes} :
    printOutput (.text left) = printOutput (.text right) ↔ left = right := by
  constructor
  · intro same
    have ⟨child⟩ := (inferInstance : Nonempty Child)
    have outputs := congrArg (fun action => (exec action child).2.output) same
    simpa [printOutput, Child.print] using outputs
  · exact congrArg fun text => printOutput (.text text)

theorem handleReceivedJson_ne_printOutput (json : Json) (text : Bytes) :
    handleReceivedJson json ≠ printOutput (.text text) := by
  intro same
  have ⟨child⟩ := (inferInstance : Nonempty Child)
  have outputs := congrArg (fun action => (exec action child).2.output) same
  obtain ⟨rest, printed⟩ := output_handleReceivedJson json child
  simp [printed, printOutput, Child.print] at outputs

theorem handleReceivedJson_inj {left right : Json} :
    handleReceivedJson left = handleReceivedJson right ↔ left = right := by
  constructor
  · intro same
    have ⟨child⟩ := (inferInstance : Nonempty Child)
    have outputs := congrArg (fun action => (exec action child).2.output) same
    obtain ⟨_, leftPrinted⟩ := output_handleReceivedJson left child
    obtain ⟨_, rightPrinted⟩ := output_handleReceivedJson right child
    simp only [leftPrinted, rightPrinted, List.append_cancel_left_eq,
      List.cons.injEq, ClientOutput.json.injEq] at outputs
    exact outputs.1
  · exact congrArg handleReceivedJson

theorem handleReceivedText_eq_act_alert_iff {text alert : Bytes} :
    handleReceivedText parse text = (ServerMessage.alert alert).act ↔
      parse text = none ∧ text = alert := by
  rw [handleReceivedText, ServerMessage.act]
  split
  · rename_i rejected
    rw [printOutput_text_inj]
    exact (and_iff_right rejected).symm
  · rename_i json parsed
    apply iff_of_false (handleReceivedJson_ne_printOutput json alert)
    simp [parsed]

theorem handleReceivedText_eq_act_json_iff {text : Bytes} {value : Json} :
    handleReceivedText parse text = (ServerMessage.json value).act ↔
      parse text = some value := by
  rw [handleReceivedText, ServerMessage.act]
  split
  · rename_i rejected
    apply iff_of_false (handleReceivedJson_ne_printOutput value text).symm
    simp [rejected]
  · rename_i json parsed
    rw [handleReceivedJson_inj, parsed, Option.some_inj]

/-- A readable value stops the child only by a disconnect notice, which has
been passed on to the parent. -/
theorem exec_handleReceivedJson_of_readable {value : Json}
    (readable : value.ReadableMessage) {child : Child} {stop : ChildStop}
    (stopped : (exec (handleReceivedJson value) child).1 = .error stop) :
    stop = .exited ∧
      (exec (handleReceivedJson value) child).2.parentInterrupted = true := by
  rcases exec_handleReceivedJson_stopped stopped with
    ⟨_, message, found, unreadable⟩ | exited
  · have text := readable message found
    rw [unreadable] at text
    cases text
  · exact exited

theorem exec_disconnectNotice (child : Child) :
    (exec (handleReceivedJson disconnectNotice) child).1 = .error .exited :=
  rfl

end Calls

/-! ## Runs of calls -/

section Framing

variable {parse : Bytes → Option Json} {print : Json → Bytes}
  {messages : List ServerMessage} {blocks : List Bytes}

theorem acted_iff_forall₂ {behindStack : Bytes} :
    blocks.map (fun block => receiveJson parse behindStack (.bytes block)) =
        messages.map ServerMessage.act ↔
      List.Forall₂
        (fun block message =>
          receiveJson parse behindStack (.bytes block) = message.act)
        blocks messages := by
  rw [← List.forall₂_eq_eq_eq, List.forall₂_map_left_iff,
    List.forall₂_map_right_iff]

theorem run_of_stopped (behindStack : Bytes) (child : Child)
    (stop : ChildStop) (received : List Received) :
    run (ChildProcess.step parse behindStack) ⟨child, some stop⟩ received =
      ⟨child, some stop⟩ := by
  induction received with
  | nil => rfl
  | cons first received induction => exact induction

/-- Calls that act on readable messages end both processes if one of the
messages is a disconnect notice. -/
theorem disconnected_of_acted {behindStack : Bytes}
    (acted : List.Forall₂
      (fun block message =>
        receiveJson parse behindStack (.bytes block) = message.act)
      blocks messages)
    (notified : .json disconnectNotice ∈ messages)
    (readable : ∀ value, .json value ∈ messages → value.ReadableMessage)
    (child : Child) :
    (receiveBlocks parse behindStack child blocks).stopped = some .exited ∧
      (receiveBlocks parse behindStack child blocks).child.parentInterrupted =
        true := by
  induction acted generalizing child with
  | nil => simp at notified
  | @cons block message blocks messages called _ induction =>
      have first : ChildProcess.step parse behindStack ⟨child, none⟩
          (.bytes block) = .after (exec message.act child) :=
        congrArg (fun action => ChildProcess.after (exec action child)) called
      rw [receiveBlocks, List.map_cons, run_cons, first]
      rcases executed : exec message.act child with ⟨result, after⟩
      cases result with
      | ok value =>
          have later : .json disconnectNotice ∈ messages := by
            rcases List.mem_cons.mp notified with same | later
            · subst same
              have exits := exec_disconnectNotice child
              rw [ServerMessage.act] at executed
              rw [executed] at exits
              cases exits
            · exact later
          exact induction later
            (fun value member => readable value (List.mem_cons_of_mem _ member))
            after
      | error stop =>
          rw [ChildProcess.after, run_of_stopped]
          cases message with
          | alert text => cases executed
          | json value =>
              have result : (exec (handleReceivedJson value) child).1 =
                  .error stop := congrArg Prod.fst executed
              have ended := exec_handleReceivedJson_of_readable
                (readable value List.mem_cons_self) result
              rw [← ServerMessage.act, executed] at ended
              exact ⟨congrArg some ended.1, ended.2⟩

/-- A block on which the client acts as on a message, inside the bytes of that
message, is all of them. -/
theorem PrintsAndParsesMessages.whole
    (library : PrintsAndParsesMessages parse print messages)
    {message : ServerMessage} (sent : message ∈ messages) {block : Bytes}
    (acted : handleReceivedText parse (untilNul block) = message.act) :
    Whole block (message.bytes print) := by
  intro inside
  cases message with
  | alert text =>
      have noNul : 0 ∉ block := fun member =>
        library.noNul text sent (inside.subset member)
      rw [untilNul_of_notMem noNul,
        handleReceivedText_eq_act_alert_iff] at acted
      exact acted.2
  | json value =>
      have member : value ∈ messages.filterMap ServerMessage.json? :=
        List.mem_filterMap.mpr ⟨_, sent, rfl⟩
      exact library.json.whole member
        (handleReceivedText_eq_act_json_iff.mp acted) inside

/-- A block that is one message is acted on as that message. -/
theorem PrintsAndParsesMessages.handleReceivedText_bytes
    (library : PrintsAndParsesMessages parse print messages)
    {message : ServerMessage} (sent : message ∈ messages) :
    handleReceivedText parse (untilNul (message.bytes print)) =
      message.act := by
  cases message with
  | alert text =>
      rw [ServerMessage.bytes, untilNul_of_notMem (library.noNul text sent),
        handleReceivedText_eq_act_alert_iff]
      exact ⟨library.rejected text sent, rfl⟩
  | json value =>
      have member : value ∈ messages.filterMap ServerMessage.json? :=
        List.mem_filterMap.mpr ⟨_, sent, rfl⟩
      have parsed := library.json.first value member []
      rw [List.append_nil] at parsed
      rw [ServerMessage.bytes,
        untilNul_of_notMem (library.json.noNul value member),
        handleReceivedText_eq_act_json_iff]
      exact parsed

/-- The client acts on exactly the messages that were sent if and only if
every block is one message. -/
theorem actsOnMessages_iff
    (library : PrintsAndParsesMessages parse print messages)
    (cut : CutInto (bufferSize - 1) (serverStream print messages) blocks) :
    ActsOnMessages parse messages blocks ↔
      blocks = messages.map (ServerMessage.bytes print) := by
  have received : ∀ block ∈ blocks, ∀ behindStack,
      receiveJson parse behindStack (.bytes block) =
        handleReceivedText parse (untilNul block) := by
    intro block arrived behindStack
    have limited := cut.limited block arrived
    have room : block.length < bufferSize :=
      Nat.lt_of_le_of_lt limited (by decide)
    exact receiveJson_of_lt parse (cut.nonempty block arrived) room behindStack
  constructor
  · intro acts
    have acted := acted_iff_forall₂.mp (acts.acted [])
    have wholes : List.Forall₂ Whole blocks
        (messages.map (ServerMessage.bytes print)) := by
      rw [List.forall₂_map_right_iff]
      rw [List.forall₂_iff_get] at acted ⊢
      refine ⟨acted.1, fun index inBlocks inMessages => ?_⟩
      have called := acted.2 index inBlocks inMessages
      rw [received _ (List.get_mem _ _)] at called
      exact library.whole (List.get_mem _ _) called
    exact (StandFor.of_forall₂_whole wholes).eq cut.flatten
  · rintro rfl
    have acted : ∀ behindStack, List.Forall₂
        (fun block message =>
          receiveJson parse behindStack (.bytes block) = message.act)
        (messages.map (ServerMessage.bytes print)) messages := by
      intro behindStack
      rw [List.forall₂_map_left_iff, List.forall₂_same]
      intro message sent
      rw [received _ (List.mem_map_of_mem sent)]
      exact library.handleReceivedText_bytes sent
    exact ⟨fun behindStack => acted_iff_forall₂.mpr (acted behindStack),
      fun behindStack child notified readable =>
        disconnected_of_acted (acted behindStack) notified readable child⟩

end Framing

/-! ## Concrete streams -/

/-- What arrives when a sensor and the power outage module speak at once. -/
def alertAndNotice : List ServerMessage :=
  [.alert (alertMessage (feverAlert .north)), .json disconnectNotice]

theorem printsAndParsesMessages_parseFirst :
    PrintsAndParsesMessages (Json.parseFirst disconnectMessage disconnectNotice)
      (fun _ => disconnectMessage) alertAndNotice where
  json := printsAndParses_parseFirst disconnectMessage disconnectNotice 1 rfl
    (by decide)
  noNul text sent := by
    obtain rfl : text = alertMessage (feverAlert .north) := by
      simpa [alertAndNotice] using sent
    exact zero_notMem_alertMessage _
  rejected text sent := by
    obtain rfl : text = alertMessage (feverAlert .north) := by
      simpa [alertAndNotice] using sent
    decide +kernel

theorem actsOnMessages_of_alert_and_notice :
    ActsOnMessages (Json.parseFirst disconnectMessage disconnectNotice)
      alertAndNotice
      [alertMessage (feverAlert .north), disconnectMessage] :=
  (actsOnMessages_iff printsAndParsesMessages_parseFirst
    ⟨by decide, by decide, by decide⟩).mpr rfl

/-- A disconnect notice that arrives in one block with an alert is lost. -/
theorem not_actsOnMessages_of_merged_notice :
    ¬ ∀ (parse : Bytes → Option Json) (print : Json → Bytes)
      (messages : List ServerMessage) (blocks : List Bytes),
      PrintsAndParsesMessages parse print messages →
      CutInto (bufferSize - 1) (serverStream print messages) blocks →
      ActsOnMessages parse messages blocks := by
  intro acts
  have acted := (acts _ _ _ [alertMessage (feverAlert .north) ++
    disconnectMessage] printsAndParsesMessages_parseFirst
    ⟨by decide, by decide, by decide⟩).acted []
  have calls := congrArg List.length acted
  simp [alertAndNotice] at calls

end ShelterServer
