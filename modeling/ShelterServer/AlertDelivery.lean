import ShelterServer.Alerts
import ShelterServer.Foundations.Runs

/-!
# Alerts through the FIFO

The sensors append whole messages to a byte queue, and `check_alerts` takes
whatever is there, up to the size of its buffer, for one alert.  No alert is
lost or miscounted in a run whose checks find at most one message.
-/

namespace ShelterServer

open Foundations Faulting

/-! ## Messages -/

/-- Capital letters, of which the names of the entries are made. -/
def IsCapital (byte : UInt8) : Prop :=
  65 ≤ byte ∧ byte ≤ 90

instance (byte : UInt8) : Decidable (IsCapital byte) :=
  inferInstanceAs (Decidable (_ ∧ _))

theorem Entry.capital_of_mem_word (entry : Entry) :
    ∀ byte ∈ entry.word, IsCapital byte := by
  cases entry <;> decide +kernel

theorem Entry.word_ne_nil (entry : Entry) : entry.word ≠ [] := by
  cases entry <;> decide

theorem alertMessage_eq (alert : Alert) :
    alertMessage alert =
      alert.entry.word ++ 32 :: (ascii "ENTRY" ++ 44 :: ([] ++ 32 ::
        (ascii "ALERT" ++ 44 :: ([] ++ 32 :: (alert.temperature.bytes ++
          0xC2 :: ([] ++ 0xB0 :: (ascii "C" ++ 32 :: []))))))) := by
  have name : ascii " ENTRY" = 32 :: ascii "ENTRY" := by decide
  have alarm : ascii ", ALERT, " = 44 :: 32 :: (ascii "ALERT" ++ [44, 32]) := by
    decide
  have unit : ascii "C " = ascii "C" ++ [32] := by decide
  simp [alertMessage, sensorName, name, alarm, unit]

/-- The name of an entry occurs in a message only as that of its sensor. -/
theorem word_isInfix_alertMessage_iff (entry : Entry) (alert : Alert) :
    entry.word <:+: alertMessage alert ↔ entry = alert.entry := by
  have split : ∀ {front rest : Bytes} {separator : UInt8},
      ¬ IsCapital separator →
        (entry.word <:+: front ++ separator :: rest ↔
          entry.word <:+: front ∨ entry.word <:+: rest) :=
    isInfix_append_cons_iff entry.capital_of_mem_word
  have temperature : ¬ entry.word <:+: alert.temperature.bytes :=
    not_isInfix_of_forall_not entry.word_ne_nil entry.capital_of_mem_word
      fun byte member => (alert.temperature.plain byte member).2
  have others : ¬ entry.word <:+: ascii "ENTRY" ∧
      ¬ entry.word <:+: ascii "ALERT" ∧ ¬ entry.word <:+: ascii "C" ∧
        ¬ entry.word <:+: [] := by
    cases entry <;> decide
  have names : entry.word <:+: alert.entry.word ↔ entry = alert.entry := by
    cases entry <;> cases alert.entry <;> decide
  rw [alertMessage_eq, split (by decide), split (by decide), split (by decide),
    split (by decide), split (by decide), split (by decide), split (by decide),
    split (by decide), names]
  simp [others, temperature]

theorem detectEntry_alertMessage (alert : Alert) :
    detectEntry (alertMessage alert) = some alert.entry := by
  have found : ∀ entry : Entry,
      occursIn entry.word (alertMessage alert) = decide (entry = alert.entry) :=
    fun entry => decide_eq_decide.mpr (word_isInfix_alertMessage_iff entry alert)
  have north := found .north
  have south := found .south
  have east := found .east
  have west := found .west
  simp only [Entry.word] at north south east west
  rw [detectEntry, north, south, east, west]
  cases alert.entry <;> rfl

theorem zero_notMem_alertMessage (alert : Alert) : 0 ∉ alertMessage alert := by
  have name : 0 ∉ alert.entry.word := by cases alert.entry <;> decide
  have temperature : 0 ∉ alert.temperature.bytes := fun member =>
    (alert.temperature.plain 0 member).1 rfl
  have entry : 0 ∉ ascii " ENTRY" := by decide
  have alarm : 0 ∉ ascii ", ALERT, " := by decide
  have unit : 0 ∉ ascii "C " := by decide
  simp [alertMessage, sensorName, name, temperature, entry, alarm, unit]

theorem length_alertMessage_lt (alert : Alert) :
    (alertMessage alert).length < bufferSize := by
  have name : alert.entry.word.length ≤ 5 := by cases alert.entry <;> decide
  have temperature := alert.temperature.length_le
  have entry : (ascii " ENTRY").length = 6 := by decide
  have alarm : (ascii ", ALERT, ").length = 9 := by decide
  have unit : (ascii "C ").length = 2 := by decide
  simp only [alertMessage, sensorName, List.length_append, entry, alarm, unit,
    List.length_cons, List.length_nil, bufferSize]
  omega

/-- Every message contains one `C`, so messages can be told apart from
sequences of messages. -/
theorem count_alertMessage (alert : Alert) :
    (alertMessage alert).count 67 = 1 := by
  have name : alert.entry.word.count 67 = 0 := by cases alert.entry <;> decide
  have temperature : alert.temperature.bytes.count 67 = 0 := by
    rw [List.count_eq_zero]
    intro member
    exact (alert.temperature.plain 67 member).2 (by decide)
  have entry : (ascii " ENTRY").count 67 = 0 := by decide
  have alarm : (ascii ", ALERT, ").count 67 = 0 := by decide
  have unit : (ascii "C ").count 67 = 1 := by decide
  have degree : ([0xC2, 0xB0] : Bytes).count 67 = 0 := by decide
  simp only [alertMessage, sensorName, List.count_append, name, temperature,
    entry, alarm, unit, degree]

theorem count_flatMap_alertMessage (alerts : List Alert) :
    (alerts.flatMap alertMessage).count 67 = alerts.length := by
  induction alerts with
  | nil => rfl
  | cons alert alerts induction =>
      rw [List.flatMap_cons, List.count_append, count_alertMessage, induction,
        List.length_cons]
      omega

theorem alertMessage_ne_nil (alert : Alert) : alertMessage alert ≠ [] := by
  intro empty
  have counted := count_alertMessage alert
  rw [empty] at counted
  cases counted

/-- What a check does with a whole message. -/
theorem checkAlerts_alertMessage (context : RequestContext) (alert : Alert)
    (server : Server) :
    (exec (checkAlerts context true (.bytes (alertMessage alert)))
        server).2.entryAlertsCount =
      increaseEntryCount alert.entry server.entryAlertsCount := by
  rw [checkAlerts_of_lt (alertMessage_ne_nil alert)
      (length_alertMessage_lt alert), entryAlertsCount_announceAlert,
    untilNul_of_notMem (zero_notMem_alertMessage alert),
    detectEntry_alertMessage]

/-! ## The plant -/

/-- The FIFO between the sensors and the server. -/
structure Plant where
  fifo : Bytes
  server : Server

inductive PlantEvent where
  | sendAlert (alert : Alert)
  | checkAlerts (context : RequestContext)

/-- `send_alert` writes its message at once; `check_alerts` reads at most
`BUFFER_SIZE` bytes. -/
def Plant.step (plant : Plant) : PlantEvent → Plant
  | .sendAlert alert =>
      { plant with fifo := plant.fifo ++ alertMessage alert }
  | .checkAlerts context =>
      { fifo := plant.fifo.drop bufferSize
        server := (exec (checkAlerts context true
          (.bytes (plant.fifo.take bufferSize))) plant.server).2 }

/-- An empty FIFO before a freshly started server. -/
def Plant.initial (supplies : Supplies) : Plant := ⟨[], .initial supplies⟩

def EntryAlertsCount.count (counts : EntryAlertsCount) : Entry → Int
  | .north => counts.north
  | .south => counts.south
  | .east => counts.east
  | .west => counts.west

/-- The alerts that a run sends for an entry. -/
def alertsSent (events : List PlantEvent) (entry : Entry) : Nat :=
  events.countP fun event =>
    match event with
    | .sendAlert alert => alert.entry == entry
    | .checkAlerts _ => false

/-- A check finds at most one message, and the counter of its entry below
`INT_MAX`. -/
def Plant.ChecksOne (plant : Plant) : PlantEvent → Prop
  | .sendAlert _ => True
  | .checkAlerts _ =>
      plant.fifo = [] ∨
        ∃ alert, plant.fifo = alertMessage alert ∧
          plant.server.entryAlertsCount.count alert.entry < intMax

/-- Alerts are in the FIFO or counted, each once. -/
structure Accounted (events : List PlantEvent) (plant : Plant)
    (unread : List Alert) : Prop where
  fifo : plant.fifo = unread.flatMap alertMessage
  counts : ∀ entry,
    plant.server.entryAlertsCount.count entry +
        (unread.countP fun alert => alert.entry == entry) =
      alertsSent events entry
  nonneg : ∀ entry, 0 ≤ plant.server.entryAlertsCount.count entry

theorem count_increaseEntryCount {counts : EntryAlertsCount} {entry : Entry}
    (nonneg : 0 ≤ counts.count entry) (room : counts.count entry < intMax)
    (other : Entry) :
    (increaseEntryCount entry counts).count other =
      counts.count other + if entry = other then 1 else 0 := by
  have representable : InInt (counts.count entry + 1) := by
    unfold InInt intMin
    omega
  have same := wrapInt_of_inInt representable
  cases entry <;> cases other <;>
    simp_all [increaseEntryCount, EntryAlertsCount.count]

/-- A FIFO that holds one message holds one unread alert. -/
theorem unread_eq_singleton {unread : List Alert} {alert : Alert}
    (fifo : alertMessage alert = unread.flatMap alertMessage) :
    ∃ last, unread = [last] ∧ last.entry = alert.entry := by
  have length : unread.length = 1 := by
    rw [← count_flatMap_alertMessage, ← fifo, count_alertMessage]
  obtain ⟨last, rfl⟩ := List.length_eq_one_iff.mp length
  refine ⟨last, rfl, ?_⟩
  have detected := detectEntry_alertMessage alert
  rw [fifo, List.flatMap_singleton, detectEntry_alertMessage] at detected
  exact Option.some.inj detected

theorem unread_eq_nil {unread : List Alert}
    (fifo : [] = unread.flatMap alertMessage) : unread = [] := by
  rw [← List.length_eq_zero_iff, ← count_flatMap_alertMessage, ← fifo]
  rfl

theorem alertsSent_concat (events : List PlantEvent) (event : PlantEvent)
    (entry : Entry) :
    alertsSent (events ++ [event]) entry =
      alertsSent events entry + alertsSent [event] entry :=
  List.countP_append

theorem Accounted.sendAlert {events : List PlantEvent} {plant : Plant}
    {unread : List Alert} (accounted : Accounted events plant unread)
    (alert : Alert) :
    Accounted (events ++ [.sendAlert alert]) (plant.step (.sendAlert alert))
      (unread ++ [alert]) where
  fifo := by
    rw [List.flatMap_append, List.flatMap_singleton, ← accounted.fifo]
    rfl
  counts entry := by
    have counts := accounted.counts entry
    rw [alertsSent_concat, List.countP_append]
    simp only [Plant.step, alertsSent, List.countP_singleton] at counts ⊢
    push_cast
    omega
  nonneg := accounted.nonneg

/-- A check that finds nothing. -/
theorem Accounted.checkNothing {events : List PlantEvent} {plant : Plant}
    {unread : List Alert} (accounted : Accounted events plant unread)
    (context : RequestContext) (empty : plant.fifo = []) :
    Accounted (events ++ [.checkAlerts context])
      (plant.step (.checkAlerts context)) [] := by
  obtain rfl := unread_eq_nil (empty.symm.trans accounted.fifo)
  have idle : (plant.step (.checkAlerts context)).server = plant.server := by
    rw [Plant.step, empty]
    rfl
  refine ⟨?_, fun entry => ?_, ?_⟩
  · rw [Plant.step, empty]
    rfl
  · rw [idle, alertsSent_concat]
    exact accounted.counts entry
  · rw [idle]
    exact accounted.nonneg

/-- A check that finds one message. -/
theorem Accounted.checkMessage {events : List PlantEvent} {plant : Plant}
    {unread : List Alert} (accounted : Accounted events plant unread)
    (context : RequestContext) {alert : Alert}
    (message : plant.fifo = alertMessage alert)
    (room : plant.server.entryAlertsCount.count alert.entry < intMax) :
    Accounted (events ++ [.checkAlerts context])
      (plant.step (.checkAlerts context)) [] := by
  obtain ⟨last, rfl, sameEntry⟩ :=
    unread_eq_singleton (message.symm.trans accounted.fifo)
  have short := (length_alertMessage_lt alert).le
  have counted : (plant.step (.checkAlerts context)).server.entryAlertsCount =
      increaseEntryCount alert.entry plant.server.entryAlertsCount := by
    rw [Plant.step, message, List.take_of_length_le short]
    exact checkAlerts_alertMessage context alert plant.server
  have increase :=
    count_increaseEntryCount (accounted.nonneg alert.entry) room
  refine ⟨?_, fun entry => ?_, fun entry => ?_⟩
  · rw [Plant.step, message]
    exact List.drop_of_length_le short
  · have counts := accounted.counts entry
    rw [List.countP_singleton, sameEntry] at counts
    rw [counted, increase, alertsSent_concat]
    simp only [beq_iff_eq] at counts
    simp only [alertsSent, List.countP_nil, List.countP_singleton] at counts ⊢
    split at counts
    · simp_all
    · simp_all
  · rw [counted, increase]
    have nonneg := accounted.nonneg entry
    split <;> omega

/-- One event keeps the account. -/
theorem Accounted.step {events : List PlantEvent} {plant : Plant}
    {unread : List Alert} (accounted : Accounted events plant unread)
    {event : PlantEvent} (checksOne : plant.ChecksOne event) :
    ∃ later, Accounted (events ++ [event]) (plant.step event) later := by
  cases event with
  | sendAlert alert => exact ⟨_, accounted.sendAlert alert⟩
  | checkAlerts context =>
      rcases checksOne with empty | ⟨alert, message, room⟩
      · exact ⟨_, accounted.checkNothing context empty⟩
      · exact ⟨_, accounted.checkMessage context message room⟩

theorem accounted_initial (supplies : Supplies) :
    Accounted [] (.initial supplies) [] where
  fifo := rfl
  counts entry := by cases entry <;> rfl
  nonneg entry := by cases entry <;> exact le_rfl

/-- The account of a run whose checks find at most one message. -/
theorem accounted_run {supplies : Supplies} {events : List PlantEvent}
    (checksOne : GuardedRun Plant.step Plant.ChecksOne (.initial supplies)
      events) :
    ∃ unread, Accounted events (run Plant.step (.initial supplies) events)
      unread := by
  induction events using List.reverseRecOn with
  | nil => exact ⟨[], accounted_initial supplies⟩
  | append_singleton events event induction =>
      obtain ⟨earlier, last⟩ := guardedRun_concat.mp checksOne
      obtain ⟨unread, accounted⟩ := induction earlier
      rw [run_concat]
      exact accounted.step last

/-- In a run whose checks find at most one message, whenever the FIFO is empty
every counter equals the number of alerts sent for its entry. -/
theorem entryAlertsCount_eq_alertsSent {supplies : Supplies}
    {events : List PlantEvent}
    (checksOne : GuardedRun Plant.step Plant.ChecksOne (.initial supplies)
      events) :
    ∀ front, front <+: events →
      (run Plant.step (.initial supplies) front).fifo = [] →
      ∀ entry,
        (run Plant.step (.initial supplies)
            front).server.entryAlertsCount.count entry =
          alertsSent front entry := by
  intro front initial empty entry
  obtain ⟨unread, accounted⟩ := accounted_run (checksOne.of_prefix initial)
  obtain rfl := unread_eq_nil (empty.symm.trans accounted.fifo)
  simpa using accounted.counts entry

/-- An alert of 38.5 degrees. -/
def feverAlert (entry : Entry) : Alert :=
  ⟨entry, ascii "38.5", by decide +kernel, by decide⟩

/-- Two alerts, each of which is read before the next one is sent, and a check
that finds nothing. -/
def alertsInTurn : List PlantEvent :=
  [.sendAlert (feverAlert .north), .checkAlerts .attached,
    .sendAlert (feverAlert .south), .checkAlerts .attached,
    .checkAlerts .attached]

theorem entryAlertsCount_eq_alertsSent_of_alertsInTurn :
    (run Plant.step (.initial .zero)
        alertsInTurn).server.entryAlertsCount.count .north =
      alertsSent alertsInTurn .north ∧
    (run Plant.step (.initial .zero)
        alertsInTurn).server.entryAlertsCount.count .south =
      alertsSent alertsInTurn .south := by
  have checksOne : GuardedRun Plant.step Plant.ChecksOne (.initial .zero)
      alertsInTurn :=
    ⟨trivial, .inr ⟨feverAlert .north, rfl, by decide⟩, trivial,
      .inr ⟨feverAlert .south, rfl, by decide +kernel⟩, .inl rfl, trivial⟩
  have empty : (run Plant.step (.initial .zero) alertsInTurn).fifo = [] := by
    decide +kernel
  exact ⟨entryAlertsCount_eq_alertsSent checksOne _ List.prefix_rfl empty .north,
    entryAlertsCount_eq_alertsSent checksOne _ List.prefix_rfl empty .south⟩

/-- Of two alerts that one check finds, the second is lost. -/
theorem not_entryAlertsCount_eq_alertsSent :
    ¬ ∀ (supplies : Supplies) (events : List PlantEvent),
      (run Plant.step (.initial supplies) events).fifo = [] →
      ∀ entry,
        (run Plant.step (.initial supplies)
            events).server.entryAlertsCount.count entry =
          alertsSent events entry := by
  intro counted
  have south := counted .zero [.sendAlert (feverAlert .north),
    .sendAlert (feverAlert .south), .checkAlerts .attached] (by decide +kernel)
    .south
  revert south
  decide +kernel

end ShelterServer
