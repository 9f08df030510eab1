import ShelterServer.Foundations.ByteString
import ShelterServer.Foundations.Runs

/-!
# Shutdown by SIGINT

The main process from the return of its two forks to its end, with SIGINT
delivered at any point.  The handler clears the flag of the loop and signals
the children whose process identifiers it finds in the globals; the second
fork stores its result in a local variable of the same name.
-/

namespace ShelterServer

open Foundations

/-- Where the main process is: before the loop, at the test of the loop, about
to call `select`, blocked in it, in the scan of the descriptors, behind the
loop, or stopped by `exit(EXIT_FAILURE)`. -/
inductive Point where
  | starting
  | testing
  | entering
  | blocked
  | handling
  | turnedOff
  | failed
deriving DecidableEq

structure MainProcess where
  serverRunning : Bool
  /-- The globals `alerts_pid` and `power_outage_pid`. -/
  alertsPid : Int
  powerOutagePid : Int
  /-- The processes it forked. -/
  children : List Int
  /-- The processes it sent SIGINT to. -/
  signalled : List Int
  log : List Bytes
  point : Point

namespace MainProcess

/-- The globals at the start of the program. -/
def loaded : MainProcess where
  serverRunning := true
  alertsPid := 0
  powerOutagePid := 0
  children := []
  signalled := []
  log := []
  point := .starting

/-- `create_infection_alerts_process`, whose `fork` returns `pid`. -/
def createInfectionAlertsProcess (main : MainProcess) (pid : Int) :
    MainProcess :=
  if pid < 0 then { main with alertsPid := pid, point := .failed }
  else { main with alertsPid := pid, children := main.children ++ [pid] }

/-- `create_power_outage_alert_process`: the result of `fork` goes to a local
variable. -/
def createPowerOutageAlertProcess (main : MainProcess) (pid : Int) :
    MainProcess :=
  if pid = -1 then { main with point := .failed }
  else { main with children := main.children ++ [pid] }

/-- `kill(pid, SIGINT)` behind its test. -/
def signal (main : MainProcess) (pid : Int) : MainProcess :=
  if 0 < pid then { main with signalled := main.signalled ++ [pid] } else main

def sigintHandler (main : MainProcess) : MainProcess :=
  let main := { main with serverRunning := false }
  let main := main.signal main.alertsPid
  main.signal main.powerOutagePid

def logEvent (main : MainProcess) (message : Bytes) : MainProcess :=
  { main with log := main.log ++ [message] }

end MainProcess

/-- The process goes on by itself, `select` or its scan finds activity, or
SIGINT is delivered. -/
inductive MainEvent where
  | proceed
  | activity
  | sigint
deriving DecidableEq

/-- One step of `start_server`.  A signal that interrupts `select` makes it
return -1, and the error is taken for a failure. -/
def MainProcess.step (main : MainProcess) : MainEvent → MainProcess
  | .sigint =>
      match main.point with
      | .turnedOff | .failed => main
      | .blocked => { main.sigintHandler with point := .failed }
      | _ => main.sigintHandler
  | .proceed =>
      match main.point with
      | .starting => { main with point := .testing }
      | .testing =>
          if main.serverRunning then { main with point := .entering }
          else { main.logEvent (ascii "Server turned off") with
            point := .turnedOff }
      | .entering => { main with point := .blocked }
      | .handling => { main with point := .testing }
      | .blocked | .turnedOff | .failed => main
  | .activity =>
      match main.point with
      | .entering | .blocked => { main with point := .handling }
      | _ => main

/-- The main process when both children have been created and `start_server`
has logged its first event. -/
def MainProcess.forked (alerts outage : Int) : MainProcess :=
  ((MainProcess.loaded.createInfectionAlertsProcess
      alerts).createPowerOutageAlertProcess outage).logEvent
    (ascii "Server started")

theorem MainProcess.forked_eq {alerts outage : Int} (alertsForked : 0 < alerts)
    (outageForked : 0 < outage) :
    MainProcess.forked alerts outage =
      ⟨true, alerts, 0, [alerts, outage], [], [ascii "Server started"],
        .starting⟩ := by
  have first : ¬ alerts < 0 := by omega
  have second : outage ≠ -1 := by omega
  simp [MainProcess.forked, MainProcess.createInfectionAlertsProcess,
    MainProcess.createPowerOutageAlertProcess, first, second,
    MainProcess.logEvent, MainProcess.loaded]

def mainRun (alerts outage : Int) (events : List MainEvent) : MainProcess :=
  run MainProcess.step (.forked alerts outage) events

/-- All children have been told, and a process that has ended left its loop
through the test and logged that. -/
structure MainProcess.ShutDownOrderly (main : MainProcess) : Prop where
  children : ∀ child ∈ main.children, child ∈ main.signalled
  loop : main.point ≠ .failed
  logged : main.point = .turnedOff →
    main.log.getLast? = some (ascii "Server turned off")

/-! ## What a step does -/

/-- A step without the signal moves the point of control and may log that the
loop was left. -/
structure MainProcess.Moves (main next : MainProcess) : Prop where
  alertsPid : next.alertsPid = main.alertsPid
  powerOutagePid : next.powerOutagePid = main.powerOutagePid
  children : next.children = main.children
  signalled : next.signalled = main.signalled
  serverRunning : next.serverRunning = main.serverRunning
  failed : next.point = .failed ↔ main.point = .failed
  logged : next.point = .turnedOff →
    (main.point = .turnedOff ∧ next.log = main.log) ∨
      (main.serverRunning = false ∧
        next.log.getLast? = some (ascii "Server turned off"))

theorem MainProcess.Moves.to {main : MainProcess} {point : Point}
    (unended : main.point ≠ .failed) (unfailed : point ≠ .failed)
    (inside : point ≠ .turnedOff) : main.Moves { main with point := point } :=
  ⟨rfl, rfl, rfl, rfl, rfl, iff_of_false unfailed unended,
    fun left => (inside left).elim⟩

theorem MainProcess.Moves.refl (main : MainProcess) : main.Moves main :=
  ⟨rfl, rfl, rfl, rfl, rfl, .rfl, fun left => .inl ⟨left, rfl⟩⟩

/-- A step moves, or delivers the signal to a process that has not ended; then
a blocked `select` fails. -/
theorem MainProcess.step_cases (main : MainProcess) (event : MainEvent) :
    main.Moves (main.step event) ∨
      (event = .sigint ∧ main.point ≠ .turnedOff ∧ main.point ≠ .failed ∧
        main.step event =
          { main.sigintHandler with
            point := if main.point = .blocked then .failed else main.point }) := by
  cases event with
  | proceed =>
      left
      simp only [MainProcess.step]
      split
      · exact .to (by simp [*]) (by decide) (by decide)
      · split
        · exact .to (by simp [*]) (by decide) (by decide)
        · rename_i stopped
          exact ⟨rfl, rfl, rfl, rfl, rfl, by simp [*],
            fun _ => .inr ⟨Bool.eq_false_iff.mpr stopped,
              by simp [MainProcess.logEvent]⟩⟩
      · exact .to (by simp [*]) (by decide) (by decide)
      · exact .to (by simp [*]) (by decide) (by decide)
      · exact .refl main
      · exact .refl main
      · exact .refl main
  | activity =>
      left
      simp only [MainProcess.step]
      split
      · exact .to (by simp [*]) (by decide) (by decide)
      · exact .to (by simp [*]) (by decide) (by decide)
      · exact .refl main
  | sigint =>
      simp only [MainProcess.step]
      split
      · exact .inl (.refl main)
      · exact .inl (.refl main)
      · exact .inr ⟨trivial, by simp [*], by simp [*], by simp [*]⟩
      · rename_i running unfailed unblocked
        refine .inr ⟨trivial, running, unfailed, ?_⟩
        rw [if_neg unblocked]
        simp only [MainProcess.sigintHandler, MainProcess.signal]
        split <;> split <;> rfl

/-- The signal handler tells the child of the first global alone, as long as
the second is zero. -/
theorem MainProcess.signalled_sigintHandler {main : MainProcess}
    (alerts : 0 < main.alertsPid) (outage : main.powerOutagePid = 0) :
    main.sigintHandler.signalled = main.signalled ++ [main.alertsPid] := by
  simp [MainProcess.sigintHandler, MainProcess.signal, alerts, outage]

theorem MainProcess.frame_sigintHandler (main : MainProcess) :
    main.sigintHandler.alertsPid = main.alertsPid ∧
      main.sigintHandler.powerOutagePid = main.powerOutagePid ∧
      main.sigintHandler.children = main.children ∧
      main.sigintHandler.log = main.log := by
  simp only [MainProcess.sigintHandler, MainProcess.signal]
  split <;> split <;> exact ⟨rfl, rfl, rfl, rfl⟩

/-! ## Runs -/

/-- The main process does not know its second child. -/
structure MainProcess.Forgets (main : MainProcess) (alerts outage : Int) :
    Prop where
  alertsPid : main.alertsPid = alerts
  powerOutagePid : main.powerOutagePid = 0
  child : outage ∈ main.children
  signalled : ∀ pid ∈ main.signalled, pid = alerts

theorem MainProcess.Forgets.step {main : MainProcess} {alerts outage : Int}
    (forgets : main.Forgets alerts outage) (alertsForked : 0 < alerts)
    (event : MainEvent) : (main.step event).Forgets alerts outage := by
  rcases main.step_cases event with moves | ⟨_, _, _, handled⟩
  · exact ⟨moves.alertsPid.trans forgets.alertsPid,
      moves.powerOutagePid.trans forgets.powerOutagePid,
      moves.children ▸ forgets.child, moves.signalled ▸ forgets.signalled⟩
  · obtain ⟨alertsPid, powerOutagePid, children, _⟩ :=
      main.frame_sigintHandler
    rw [handled]
    refine ⟨alertsPid.trans forgets.alertsPid,
      powerOutagePid.trans forgets.powerOutagePid, children ▸ forgets.child, ?_⟩
    intro pid told
    rw [MainProcess.signalled_sigintHandler
      (forgets.alertsPid ▸ alertsForked) forgets.powerOutagePid] at told
    rcases List.mem_append.mp told with before | now
    · exact forgets.signalled pid before
    · exact (List.mem_singleton.mp now).trans forgets.alertsPid

theorem forgets_mainRun {alerts outage : Int} (alertsForked : 0 < alerts)
    (outageForked : 0 < outage) (events : List MainEvent) :
    (mainRun alerts outage events).Forgets alerts outage := by
  induction events using List.reverseRecOn with
  | nil =>
      rw [mainRun, run_nil, MainProcess.forked_eq alertsForked outageForked]
      exact ⟨rfl, rfl, by simp, by simp⟩
  | append_singleton events event induction =>
      rw [mainRun, run_concat]
      exact induction.step alertsForked event

/-- A run fails exactly if the signal finds the process blocked in
`select`. -/
theorem mainRun_failed_iff {alerts outage : Int} (alertsForked : 0 < alerts)
    (outageForked : 0 < outage) (events : List MainEvent) :
    (mainRun alerts outage events).point = .failed ↔
      ∃ front, front ++ [.sigint] <+: events ∧
        (mainRun alerts outage front).point = .blocked := by
  induction events using List.reverseRecOn with
  | nil =>
      simp [mainRun, MainProcess.forked_eq alertsForked outageForked]
  | append_singleton events event induction =>
      have split : (∃ front, front ++ [.sigint] <+: events ++ [event] ∧
            (mainRun alerts outage front).point = .blocked) ↔
          (∃ front, front ++ [.sigint] <+: events ∧
            (mainRun alerts outage front).point = .blocked) ∨
          (event = .sigint ∧
            (mainRun alerts outage events).point = .blocked) := by
        constructor
        · rintro ⟨front, initial, blocked⟩
          rcases List.prefix_concat_iff.mp initial with whole | earlier
          · obtain ⟨rfl, same⟩ := List.append_inj' whole rfl
            exact .inr ⟨(List.singleton_inj.mp same).symm, blocked⟩
          · exact .inl ⟨front, earlier, blocked⟩
        · rintro (⟨front, initial, blocked⟩ | ⟨rfl, blocked⟩)
          · exact ⟨front, initial.trans (List.prefix_append _ _), blocked⟩
          · exact ⟨events, List.prefix_rfl, blocked⟩
      rw [split, ← induction, mainRun, run_concat]
      change ((mainRun alerts outage events).step event).point = .failed ↔
        (mainRun alerts outage events).point = .failed ∨
          event = .sigint ∧ (mainRun alerts outage events).point = .blocked
      generalize mainRun alerts outage events = main
      rcases main.step_cases event with moves | ⟨rfl, _, unfailed, handled⟩
      · rw [moves.failed]
        refine (or_iff_left_of_imp ?_).symm
        rintro ⟨rfl, blocked⟩
        have stopped : (main.step .sigint).point = .failed := by
          simp only [MainProcess.step, blocked]
        exact moves.failed.mp stopped
      · rw [handled]
        by_cases blocked : main.point = .blocked
        · simp [blocked]
        · simp [blocked, unfailed]

/-- Without a signal the loop is never left. -/
theorem mainRun_undisturbed {alerts outage : Int} (alertsForked : 0 < alerts)
    (outageForked : 0 < outage) {events : List MainEvent}
    (undisturbed : .sigint ∉ events) :
    (mainRun alerts outage events).serverRunning = true ∧
      (mainRun alerts outage events).point ≠ .turnedOff := by
  induction events using List.reverseRecOn with
  | nil =>
      simp [mainRun, MainProcess.forked_eq alertsForked outageForked]
  | append_singleton events event induction =>
      simp only [List.mem_append, List.mem_singleton, not_or] at undisturbed
      obtain ⟨running, inside⟩ := induction undisturbed.1
      rw [mainRun, run_concat]
      rcases MainProcess.step_cases _ event with moves | ⟨signal, _⟩
      · refine ⟨moves.serverRunning.trans running, fun left => ?_⟩
        rcases moves.logged left with ⟨before, _⟩ | ⟨stopped, _⟩
        · exact inside before
        · exact Bool.false_ne_true (stopped.symm.trans running)
      · exact (undisturbed.2 signal.symm).elim

/-- A process that has left its loop logged that. -/
theorem mainRun_logged {alerts outage : Int} (events : List MainEvent)
    (left : (mainRun alerts outage events).point = .turnedOff) :
    (mainRun alerts outage events).log.getLast? =
      some (ascii "Server turned off") := by
  induction events using List.reverseRecOn with
  | nil =>
      revert left
      simp only [mainRun, run_nil, MainProcess.forked, MainProcess.logEvent,
        MainProcess.createPowerOutageAlertProcess,
        MainProcess.createInfectionAlertsProcess, MainProcess.loaded]
      split <;> split <;> simp
  | append_singleton events event induction =>
      rw [mainRun, run_concat] at left ⊢
      rcases MainProcess.step_cases _ event with
        moves | ⟨_, inside, _, handled⟩
      · rcases moves.logged left with ⟨before, same⟩ | ⟨_, logged⟩
        · rw [same]
          exact induction before
        · exact logged
      · rw [handled] at left
        split at left
        · cases left
        · exact (inside left).elim

/-- No run in which SIGINT is delivered shuts down in order: the child of the
power outages is never told. -/
theorem mainRun_not_shutDownOrderly {alerts outage : Int}
    (alertsForked : 0 < alerts) (outageForked : 0 < outage)
    (different : alerts ≠ outage) :
    ∀ events : List MainEvent, .sigint ∈ events →
      ¬ (mainRun alerts outage events).ShutDownOrderly := by
  intro events _ orderly
  have forgets := forgets_mainRun alertsForked outageForked events
  have told := orderly.children outage forgets.child
  exact different (forgets.signalled outage told).symm

theorem mainRun_not_shutDownOrderly_in_handler :
    ¬ (mainRun 100 101 [.proceed, .proceed, .activity, .sigint, .proceed,
      .proceed]).ShutDownOrderly :=
  mainRun_not_shutDownOrderly (by decide) (by decide) (by decide) _ (by decide)

/-- A signal in a blocked `select`. -/
theorem not_mainRun_shutDownOrderly :
    ¬ ∀ (alerts outage : Int) (events : List MainEvent), 0 < alerts →
      0 < outage → alerts ≠ outage → events.count .sigint = 1 →
      (mainRun alerts outage events).ShutDownOrderly := by
  intro orderly
  have loop := (orderly 100 101 [.proceed, .proceed, .proceed, .sigint]
    (by decide) (by decide) (by decide) (by decide)).loop
  revert loop
  decide

end ShelterServer
