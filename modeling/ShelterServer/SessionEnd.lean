import ShelterServer.ClientSession

/-!
# The end of a session

Only the child receives, so only it sees the session end.  A disconnect notice
is passed on to the menu process, the end of the stream is not: a run stops the
menu in time exactly when every child that reads the end of the stream finds
the menu told already.
-/

namespace ShelterServer

open Foundations Faulting

namespace Session

/-- The menu process has stopped or takes a SIGINT before its next step. -/
def MenuTold (session : Session) : Prop :=
  session.menu.point = .stopped ∨ session.menuInterrupted = true

instance (session : Session) : Decidable session.MenuTold :=
  inferInstanceAs (Decidable (_ ∨ _))

/-- If the child has seen the session end, the menu process has been told, and
no request has been sent since. -/
def StopsWithSession (session : Session) : Prop :=
  ∀ count, session.endSeen = some count →
    session.MenuTold ∧ session.sent.length = count

/-- A running child that receives the end of the stream finds the menu process
told. -/
def FindsMenuTold (session : Session) : SessionEvent → Prop
  | .childReceives _ (.bytes []) =>
      ∀ process, session.child = some process → process.stopped = none →
        session.childInterrupted = false → session.toClient = [] →
          session.ServerEnded → session.MenuTold
  | _ => True

/-- What the child passed on to its parent has arrived there. -/
def SignalSent (session : Session) : Prop :=
  ∀ process, session.child = some process →
    process.child.parentInterrupted = true → session.menuInterrupted = true

end Session

/-! ## One round of the child -/

/-- A child that exits on anything but the end of the stream has interrupted
its parent. -/
theorem parentInterrupted_of_exited {parse : Bytes → Option Json}
    {behindStack : Bytes} {child : Child} {received : Received}
    (more : received ≠ .bytes [])
    (exited : (ChildProcess.step parse behindStack ⟨child, none⟩
      received).stopped = some .exited) :
    (ChildProcess.step parse behindStack ⟨child, none⟩
      received).child.parentInterrupted = true := by
  match received, more with
  | .failed, _ => cases exited
  | .bytes [], more => exact (more rfl).elim
  | .bytes (byte :: data), _ =>
      have handled : ∀ buffer, receiveJsonBuffer (byte :: data) = some buffer →
          ChildProcess.step parse behindStack ⟨child, none⟩
              (.bytes (byte :: data)) =
            .after (exec (handleReceivedText parse
              (buffer.text behindStack)) child) := by
        intro buffer stored
        simp only [ChildProcess.step, receiveJson, stored]
      rw [handled _ rfl, handleReceivedText] at exited ⊢
      split at exited
      · cases exited
      · rename_i json parsed
        rcases executed : exec (handleReceivedJson json) child with
          ⟨result, after⟩
        rw [executed] at exited
        cases result with
        | ok value => cases exited
        | error stop =>
            obtain rfl := Option.some.inj exited
            rcases exec_handleReceivedJson_stopped
                (congrArg Prod.fst executed) with ⟨null, _⟩ | ⟨_, signalled⟩
            · cases null
            · rw [executed] at signalled
              exact signalled

/-- The end of the stream ends the child and nothing else. -/
theorem step_endOfStream (parse : Bytes → Option Json) (behindStack : Bytes)
    (child : Child) :
    ChildProcess.step parse behindStack ⟨child, none⟩ (.bytes []) =
      ⟨child.print .serverClosed, some .exited⟩ :=
  rfl

theorem parentInterrupted_interrupt (process : ChildProcess) :
    process.interrupt.child.parentInterrupted =
      process.child.parentInterrupted := by
  unfold ChildProcess.interrupt
  split <;> rfl

namespace Session

variable {host : Host} {session : Session}

/-! ## Steps of the menu process -/

/-- A step that leaves what the child saw alone, and that sends nothing and
keeps the menu process told once it has been told. -/
structure Keeps (before after : Session) : Prop where
  endSeen : after.endSeen = before.endSeen
  told : before.MenuTold → after.MenuTold
  sent : before.MenuTold → after.sent = before.sent

theorem StopsWithSession.of_keeps {before after : Session}
    (stops : before.StopsWithSession) (keeps : Keeps before after) :
    after.StopsWithSession := by
  intro count seen
  obtain ⟨told, length⟩ := stops count (keeps.endSeen.symm.trans seen)
  exact ⟨keeps.told told, (congrArg _ (keeps.sent told)).trans length⟩

theorem keeps_serve (host : Host) (session : Session) (event : Event) :
    Keeps session (session.serve host event) := by
  obtain ⟨link, toClient, answered, served⟩ := serve_eq host session event
  rw [served]
  exact ⟨rfl, id, fun _ => rfl⟩

theorem keeps_stopMenu (session : Session) : Keeps session session.stopMenu :=
  ⟨rfl, fun _ => .inl rfl, fun _ => rfl⟩

/-- What the menu process does unless it has been told to stop. -/
theorem keeps_of_untold {after : Session}
    (endSeen : after.endSeen = session.endSeen)
    (unchanged : session.menu.point = .stopped → after = session)
    (running : session.menuInterrupted = false) : Keeps session after := by
  have stopped : session.MenuTold → session.menu.point = .stopped := by
    rintro (stopped | interrupted)
    · exact stopped
    · rw [running] at interrupted
      cases interrupted
  refine ⟨endSeen, fun told => ?_, fun told => ?_⟩
  · rw [unchanged (stopped told)]
    exact told
  · rw [unchanged (stopped told)]

theorem endSeen_enter (session : Session) (input : MenuInput) :
    (session.enter host input).endSeen = session.endSeen := by
  obtain ⟨_, entered⟩ := enter_eq host session input
  rw [entered]

/-! ## Signals -/

theorem SignalSent.serve {session : Session} (sent : session.SignalSent)
    (event : Event) : (session.serve host event).SignalSent := by
  obtain ⟨link, toClient, answered, served⟩ := serve_eq host session event
  rw [served]
  exact sent

theorem signalSent_step (sent : session.SignalSent) (event : SessionEvent) :
    (session.step host event).SignalSent := by
  have steps := step_cases host session event
  generalize session.step host event = after at steps ⊢
  cases steps with
  | idle => exact sent
  | server present other => exact sent.serve _
  | serverExits => exact sent
  | accepts waiting =>
      rename_i context family clientFd
      have served : (session.serve host _).SignalSent :=
        sent.serve (.tcpConnection context family (some clientFd))
      exact served
  | serverDrops found => exact sent.serve _
  | serverReceives found arrives =>
      apply SignalSent.serve
      unfold take
      split <;> exact sent
  | stops => exact sent
  | authenticates untold connected => exact sent
  | forks untold authenticated => rintro process ⟨⟩ ⟨⟩
  | enters untold =>
      obtain ⟨_, entered⟩ := enter_eq host session _
      rw [entered]
      exact sent
  | childStops =>
      intro process killed interrupted
      obtain ⟨running, forked, rfl⟩ := Option.map_eq_some_iff.mp killed
      rw [parentInterrupted_interrupt] at interrupted
      exact sent running forked interrupted
  | childReceives forked running arrives =>
      rintro _ ⟨⟩ interrupted
      exact (Bool.or_eq_true _ _).mpr (.inr interrupted)

/-! ## Steps of the child -/

/-- What a round of a running child that has not been interrupted does. -/
theorem childReceives_of_running {child : Child}
    (running : session.childInterrupted = false) (behindStack : Bytes)
    {received : Received}
    (arrives : Arrives session.toClient session.ServerEnded received) :
    session.childReceives host ⟨child, none⟩ behindStack received =
      session.childAfter received (ChildProcess.step host.parse behindStack
        ⟨child, none⟩ received) := by
  rw [childReceives, if_neg (by simp), if_neg (by simp [running]),
    if_pos arrives]

theorem stopsWithSession_childAfter (stops : session.StopsWithSession)
    {child : Child} (forked : session.child = some ⟨child, none⟩)
    (running : session.childInterrupted = false) {behindStack : Bytes}
    {received : Received}
    (arrives : Arrives session.toClient session.ServerEnded received)
    (finds : session.FindsMenuTold (.childReceives behindStack received)) :
    (session.childAfter received (ChildProcess.step host.parse behindStack
      ⟨child, none⟩ received)).StopsWithSession := by
  intro count seen
  have told : session.MenuTold → (session.childAfter received
      (ChildProcess.step host.parse behindStack ⟨child, none⟩
        received)).MenuTold :=
    Or.imp_right fun interrupted =>
      (Bool.or_eq_true _ _).mpr (.inl interrupted)
  change (if _ then _ else _) = _ at seen
  split at seen
  · rename_i exited
    obtain rfl := Option.some.inj seen
    refine ⟨?_, rfl⟩
    by_cases more : received = .bytes []
    · subst more
      exact told (finds _ forked rfl running arrives.1 arrives.2)
    · right
      exact (Bool.or_eq_true _ _).mpr
        (.inr (parentInterrupted_of_exited more exited))
  · obtain ⟨before, length⟩ := stops count seen
    exact ⟨told before, length⟩

theorem stopsWithSession_step (stops : session.StopsWithSession)
    {event : SessionEvent} (finds : session.FindsMenuTold event) :
    (session.step host event).StopsWithSession := by
  have steps := step_cases host session event
  generalize session.step host event = after at steps ⊢
  cases steps with
  | idle => exact stops
  | server present other => exact stops.of_keeps (keeps_serve host session _)
  | serverExits => exact stops
  | accepts waiting =>
      rename_i context family clientFd
      have served := stops.of_keeps (keeps_serve host session
        (.tcpConnection context family (some clientFd)))
      exact served
  | serverDrops found => exact stops.of_keeps (keeps_serve host session _)
  | serverReceives found arrives =>
      rename_i received _
      have taken : (session.take received).StopsWithSession := by
        unfold take
        split <;> exact stops
      exact taken.of_keeps (keeps_serve host _ _)
  | stops => exact stops.of_keeps (keeps_stopMenu session)
  | authenticates untold connected =>
      apply stops.of_keeps
      exact keeps_of_untold rfl (by simp [connected]) untold
  | forks untold authenticated =>
      apply stops.of_keeps
      exact keeps_of_untold rfl (by simp [authenticated]) untold
  | enters untold =>
      apply stops.of_keeps
      exact keeps_of_untold (endSeen_enter session _)
        (fun stopped => enter_of_idle host (.inr (.inr stopped)) _) untold
  | childStops => exact stops
  | childReceives forked running arrives =>
      exact stopsWithSession_childAfter stops forked running arrives finds

/-- The end of the stream is not passed on to a menu process that has not been
told. -/
theorem findsMenuTold_of_stopsWithSession (signals : session.SignalSent)
    {event : SessionEvent}
    (stops : (session.step host event).StopsWithSession) :
    session.FindsMenuTold event := by
  match event with
  | .childReceives behindStack (.bytes []) =>
      rintro ⟨child, _⟩ forked rfl running empty ended
      rw [step, forked] at stops
      change (session.childReceives host ⟨child, none⟩ behindStack
        (.bytes [])).StopsWithSession at stops
      have arrives : Arrives session.toClient session.ServerEnded
          (.bytes []) := ⟨empty, ended⟩
      rw [childReceives_of_running running behindStack arrives,
        step_endOfStream] at stops
      have told := (stops session.sent.length (by simp [childAfter])).1
      rcases told with stopped | interrupted
      · exact .inl stopped
      · right
        rcases (Bool.or_eq_true _ _).mp interrupted with pending | passed
        · exact pending
        · exact signals _ forked passed
  | .childReceives _ .failed => trivial
  | .childReceives _ (.bytes (_ :: _)) => trivial
  | .server _ | .serverExits | .accepts _ _ _ | .serverDrops _
  | .serverReceives _ _ | .authenticates | .forks _ | .input _ | .menuKilled
  | .childKilled => trivial

end Session

/-! ## Runs -/

section Runs

variable (host : Host) (supplies : Supplies)

theorem signalSent_sessionRun (events : List SessionEvent) :
    (sessionRun host supplies events).SignalSent := by
  induction events using List.reverseRecOn with
  | nil => exact fun _ forked => nomatch forked
  | append_singleton events event induction =>
      rw [sessionRun_concat]
      exact Session.signalSent_step induction event

/-- In every state of a run the menu process has been told of an end that the
child has seen, and no request has followed it, if and only if every child
that received the end of the stream found the menu process told. -/
theorem sessionRun_stopsWithSession_iff (events : List SessionEvent) :
    (∀ front, front <+: events →
        (sessionRun host supplies front).StopsWithSession) ↔
      GuardedRun (Session.step host) Session.FindsMenuTold
        (.initial supplies) events := by
  constructor
  · intro stops
    rw [guardedRun_iff]
    intro front event initial
    have after := stops _ initial
    rw [sessionRun_concat] at after
    exact Session.findsMenuTold_of_stopsWithSession
      (signalSent_sessionRun host supplies front) after
  · intro guarded front initial
    exact (guarded.of_prefix initial).invariant
      (fun _ _ stops finds => Session.stopsWithSession_step stops finds)
      (fun _ seen => nomatch seen)

end Runs

/-- The server is shut down while the menu waits for a choice. -/
theorem not_sessionRun_stopsWithSession :
    ¬ ∀ (host : Host) (supplies : Supplies) (events : List SessionEvent),
      (sessionRun host supplies events).StopsWithSession := by
  intro stops
  have run := stops ⟨fun _ => none, fun _ => [], true, adminUser⟩ .zero
    [.authenticates, .forks true, .serverExits, .childReceives [] (.bytes []),
      .input (.line (some (ascii "1\n")))] 1 rfl
  exact absurd run.2 (by decide)

end ShelterServer
