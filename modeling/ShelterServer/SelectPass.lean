import ShelterServer.DescriptorBookkeeping

/-!
# Passes of the select loop

A pass calls for every reported descriptor once the handler of the file that
it was reported for.  New descriptors are always free ones, so a descriptor
that was reported and not yet reached by the scan still refers to the same
file, whatever has been closed and accepted in the meantime.
-/

namespace ShelterServer

open Foundations DescriptorTable

/-- The calls of one pass: every reported descriptor once, each with the file
that it was reported for, and the handler that serves this file. -/
structure DispatchesEach (loop : SelectLoop) (ready : Finset Nat)
    (log : List Dispatch) : Prop where
  once : ∀ fd, (log.map Dispatch.fd).count fd = if fd ∈ ready then 1 else 0
  own : ∀ entry ∈ log, ∃ file, loop.files entry.fd = some file ∧
    entry.file = some file ∧ file.route = some entry.route

/-- Beside its own descriptor, a handler leaves every descriptor in use as it
was. -/
structure Keeps (fd : Nat) (before after : SelectLoop) : Prop where
  files : ∀ other, other ≠ fd → (before.files other).isSome →
    after.files other = before.files other
  maxFd : before.maxFd ≤ after.maxFd

theorem Keeps.refl (fd : Nat) (loop : SelectLoop) : Keeps fd loop loop :=
  ⟨fun _ _ _ => rfl, le_rfl⟩

theorem keeps_acceptTcpConnection (loop : SelectLoop) (answers : Answers)
    (fd : Nat) : Keeps fd loop (loop.acceptTcpConnection answers) := by
  unfold SelectLoop.acceptTcpConnection
  split
  · split
    · exact .refl fd loop
    · have opened := opened_of_openLowest ‹_›
      exact ⟨fun _ _ used => opened.keeps used, le_max_left _ _⟩
  · exact .refl fd loop

theorem keeps_handleTcpSocketActivity (loop : SelectLoop) (answers : Answers)
    (fd : Nat) : Keeps fd loop (loop.handleTcpSocketActivity answers fd) := by
  have closes : Keeps fd loop (loop.closeTcpClient fd) :=
    ⟨fun _ different _ => close_of_ne _ different, le_rfl⟩
  unfold SelectLoop.handleTcpSocketActivity
  split
  · split
    · exact .refl fd loop
    · exact closes
  · exact closes

theorem keeps_handle (loop : SelectLoop) (answers : Answers) (fd : Nat)
    (route : Route) : Keeps fd loop (loop.handle answers fd route) := by
  cases route with
  | acceptTcpConnection => exact keeps_acceptTcpConnection loop answers fd
  | handleUdpSocketActivity => exact .refl fd loop
  | handleUnixSocketActivity =>
      rw [SelectLoop.handle, handleUnixSocketActivity_eq]
      exact .refl fd loop
  | checkAlerts =>
      rw [SelectLoop.handle, checkAlerts_eq]
      exact .refl fd loop
  | handleTcpSocketActivity =>
      exact keeps_handleTcpSocketActivity loop answers fd

/-- A pass that has reached a descriptor: the descriptors from there on refer
to what they were reported for, and those before it have been dispatched. -/
structure Scanning (fds : ServerFds) (before : SelectLoop)
    (ready : Finset Nat) (fd : Nat) (loop : SelectLoop)
    (log : List Dispatch) : Prop where
  sound : Sound fds loop
  grown : before.maxFd ≤ loop.maxFd
  ahead : ∀ other ∈ before.masterFds, fd ≤ other →
    loop.files other = before.files other
  counted : ∀ other, (log.map Dispatch.fd).count other =
    if other ∈ ready ∧ other < fd then 1 else 0
  own : ∀ entry ∈ log, ∃ file, before.files entry.fd = some file ∧
    entry.file = some file ∧ file.route = some entry.route

namespace Scanning

variable {fds : ServerFds} {before loop : SelectLoop} {ready : Finset Nat}
  {fd : Nat} {log : List Dispatch}

theorem start (sound : Sound fds before) (reported : ready ⊆ before.masterFds) :
    Scanning fds before ready fds.tcpSocketFd before [] where
  sound := sound
  grown := le_rfl
  ahead _ _ _ := rfl
  counted other := by
    refine (if_neg ?_).symm
    rintro ⟨member, below⟩
    have bounds := sound.bookkeeping.bounds other (reported member)
    exact Nat.not_lt.mpr bounds.1 below
  own := by simp

theorem skip (scanning : Scanning fds before ready fd loop log)
    (idle : fd ∉ ready) : Scanning fds before ready (fd + 1) loop log where
  sound := scanning.sound
  grown := scanning.grown
  ahead other member above :=
    scanning.ahead other member (Nat.le_of_succ_le above)
  counted other := by
    have apart : other ∈ ready → other ≠ fd := fun member same =>
      idle (same ▸ member)
    have same : other ∈ ready ∧ other < fd + 1 ↔ other ∈ ready ∧ other < fd := by
      refine and_congr_right fun member => ?_
      have different := apart member
      omega
    rw [scanning.counted, if_congr same rfl rfl]
  own := scanning.own

theorem dispatch (scanning : Scanning fds before ready fd loop log)
    (sound : Sound fds before) (reported : ready ⊆ before.masterFds)
    (active : fd ∈ ready) (answers : Answers) :
    Scanning fds before ready (fd + 1)
      (loop.handle answers fd (fds.route fd))
      (log ++ [⟨fd, loop.files fd, fds.route fd⟩]) := by
  have same : loop.files fd = before.files fd :=
    scanning.ahead fd (reported active) le_rfl
  have member : fd ∈ loop.masterFds := by
    have member := (sound.exact fd).mp (reported active)
    rw [scanning.sound.exact, SelectLoop.IsClient, same]
    exact member
  have keeps := keeps_handle loop answers fd (fds.route fd)
  exact {
    sound := scanning.sound.handle member answers
    grown := scanning.grown.trans keeps.maxFd
    ahead := by
      intro other watched above
      have unchanged := scanning.ahead other watched (Nat.le_of_succ_le above)
      rw [keeps.files other (by omega), unchanged]
      rw [unchanged]
      exact sound.bookkeeping.opened other watched
    counted := by
      intro other
      rw [List.map_append, List.count_append, scanning.counted]
      by_cases here : other = fd
      · subst here
        simp [active]
      · have same : other < fd + 1 ↔ other < fd := by omega
        simp [same, Ne.symm here]
    own := by
      intro entry member
      rcases List.mem_append.mp member with old | new
      · exact scanning.own entry old
      · obtain rfl := List.mem_singleton.mp new
        obtain ⟨file, found, route⟩ := sound.route_eq (reported active)
        exact ⟨file, found, same.trans found, route⟩ }

/-- With enough fuel the scan comes to its end. -/
theorem scan_eq_some (scanning : Scanning fds before ready fd loop log)
    (sound : Sound fds before) (reported : ready ⊆ before.masterFds)
    (answers : Answers) {fuel : Nat} (within : fd ≤ fdSetSize)
    (enough : fdSetSize < fd + fuel) :
    ∃ after calls last,
      loop.scan fds answers ready fuel fd log = some (after, calls) ∧
        Scanning fds before ready last after calls ∧ after.maxFd < last := by
  induction fuel generalizing fd loop log with
  | zero => exact (Nat.not_lt.mpr within enough).elim
  | succ fuel induction =>
      rw [SelectLoop.scan]
      split
      · next reached =>
          have within : fd + 1 ≤ fdSetSize :=
            Nat.lt_of_le_of_lt reached scanning.sound.limited
          split
          · next active =>
              exact induction
                (scanning.dispatch sound reported active answers) within
                (by omega)
          · next idle =>
              exact induction (scanning.skip idle) within (by omega)
      · next passed =>
          exact ⟨loop, log, fd, rfl, scanning, Nat.lt_of_not_le passed⟩

/-- Behind the last descriptor, all that were reported have been dispatched. -/
theorem dispatchesEach (scanning : Scanning fds before ready fd loop log)
    (sound : Sound fds before) (reported : ready ⊆ before.masterFds)
    (ended : loop.maxFd < fd) : DispatchesEach before ready log where
  once other := by
    have reached : other ∈ ready → other < fd := fun member =>
      ((sound.bounded other (reported member)).trans
        scanning.grown).trans_lt ended
    rw [scanning.counted, if_congr (and_iff_left_of_imp reached) rfl rfl]
  own := scanning.own

end Scanning

/-- A pass from a sound state ends in one, having dispatched what was
reported. -/
theorem Sound.pass {fds : ServerFds} {loop : SelectLoop}
    (sound : Sound fds loop) {ready : Finset Nat}
    (reported : ready ⊆ loop.masterFds) (answers : Answers) :
    ∃ after log, loop.pass fds answers ready = some (after, log) ∧
      Sound fds after ∧ DispatchesEach loop ready log := by
  have within : fds.tcpSocketFd ≤ fdSetSize := by
    have member : fds.tcpSocketFd ∈ loop.masterFds :=
      (sound.exact _).mpr (.inl (ServerFds.mem_all.mpr (.inl rfl)))
    exact (sound.bounded _ member).trans sound.limited.le
  have enough : fdSetSize < fds.tcpSocketFd + (fdSetSize + 1) :=
    Nat.lt_add_left _ (Nat.lt_succ_self _)
  obtain ⟨after, log, last, scanned, scanning, ended⟩ :=
    (Scanning.start sound reported).scan_eq_some sound reported answers within
      enough
  refine ⟨after, log, ?_, scanning.sound,
    scanning.dispatchesEach sound reported ended⟩
  rw [SelectLoop.pass, if_pos sound.bookkeeping.opened, scanned]

/-! ## Runs -/

namespace SelectLoop.Reachable

variable {used : Nat → Bool} {fds : ServerFds} {loop : SelectLoop}

theorem sound (reachable : SelectLoop.Reachable used fds loop) :
    Sound fds loop := by
  induction reachable with
  | start starts => exact sound_startServer starts
  | pass _ reported passes induction =>
      obtain ⟨after, log, passed, sound, _⟩ := induction.pass reported _
      rw [passes] at passed
      cases passed
      exact sound

/-- At every call of `select` the bookkeeping is sound, and the pass that
follows dispatches every reported descriptor once, to the handler of the file
it was reported for. -/
theorem bookkeeping_and_dispatchesEach
    (reachable : SelectLoop.Reachable used fds loop) :
    Bookkeeping fds loop ∧
      ∀ (answers : Answers) (ready : Finset Nat), ready ⊆ loop.masterFds →
        ∃ after log, loop.pass fds answers ready = some (after, log) ∧
          DispatchesEach loop ready log := by
  refine ⟨reachable.sound.bookkeeping, fun answers ready reported => ?_⟩
  obtain ⟨after, log, passed, _, each⟩ :=
    reachable.sound.pass reported answers
  exact ⟨after, log, passed, each⟩

end SelectLoop.Reachable

/-- A process that has only its standard streams open. -/
def standardStreams (fd : Nat) : Bool := fd < 3

/-- The loop of such a process when it is entered. -/
def startedLoop : ServerFds × SelectLoop :=
  (startServer standardStreams).get (by decide +kernel)

theorem startServer_standardStreams :
    startServer standardStreams = some (startedLoop.1, startedLoop.2) := by
  rw [Prod.mk.eta, startedLoop, Option.some_get]

/-- The loop after one more pass. -/
def SelectLoop.passed (answers : Answers) (ready : Finset Nat)
    (loop : SelectLoop) : SelectLoop :=
  ((loop.pass startedLoop.1 answers ready).map Prod.fst).getD loop

theorem reachable_passed {loop : SelectLoop} {ready : Finset Nat}
    (before : SelectLoop.Reachable standardStreams startedLoop.1 loop)
    (reported : ready ⊆ loop.masterFds) (answers : Answers) :
    SelectLoop.Reachable standardStreams startedLoop.1
      (loop.passed answers ready) := by
  obtain ⟨after, log, passes, _⟩ := before.sound.pass reported answers
  have passed : loop.passed answers ready = after := by
    rw [SelectLoop.passed, passes]
    rfl
  rw [passed]
  exact .pass before reported passes

/-- `accept` succeeds, and the clients of these descriptors stay. -/
def acceptsAndServes (served : Nat → Bool) : Answers where
  accepts := true
  unixAccepts := false
  fifoOpens := false
  peername _ := true
  served

/-- Two clients are accepted, the second while the first is served, which then
leaves. -/
def servedLoop : SelectLoop :=
  ((startedLoop.2.passed (acceptsAndServes fun _ => true) {3}).passed
    (acceptsAndServes fun _ => true) {3, 7}).passed
      (acceptsAndServes fun fd => fd ≠ 7) {7}

theorem reachable_servedLoop :
    SelectLoop.Reachable standardStreams startedLoop.1 servedLoop := by
  refine reachable_passed (reachable_passed (reachable_passed
    (.start startServer_standardStreams) ?_ _) ?_ _) ?_ _ <;> decide +kernel

theorem bookkeeping_and_dispatchesEach_of_served :
    servedLoop.tcpClients.live = [8] ∧ 7 ∉ servedLoop.masterFds ∧
      Bookkeeping startedLoop.1 servedLoop ∧
      ∀ (answers : Answers) (ready : Finset Nat),
        ready ⊆ servedLoop.masterFds →
        ∃ after log,
          servedLoop.pass startedLoop.1 answers ready = some (after, log) ∧
            DispatchesEach servedLoop ready log :=
  ⟨by decide +kernel, by decide +kernel,
    SelectLoop.Reachable.bookkeeping_and_dispatchesEach reachable_servedLoop⟩

end ShelterServer
