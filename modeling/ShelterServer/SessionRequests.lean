import ShelterServer.ClientSession

/-!
# What the client sends in a session

Whatever the server does, the client's stream begins with its authentication
request.  So the first block that the server receives is that request, with
more behind it or not, or a front of it.
-/

namespace ShelterServer

open Foundations

namespace Session

/-- The client's stream begins with its authentication, which it sends before
it reads the menu. -/
structure Sends (host : Host) (session : Session) : Prop where
  stream : sendJsonStream host.print session.sent =
    session.received.flatten ++ session.toServer
  first : ∀ request ∈ session.sent.head?, request = host.authentication
  unsent : session.menu.point = .connected → session.sent = []
  begun : session.menu.point ≠ .connected → session.menu.point ≠ .stopped →
    session.sent ≠ []

section Sends

variable {host : Host} {session : Session}

theorem Sends.serve (sends : session.Sends host) (event : Event) :
    (session.serve host event).Sends host := by
  obtain ⟨link, toClient, answered, served⟩ := serve_eq host session event
  rw [served]
  exact ⟨sends.stream, sends.first, sends.unsent, sends.begun⟩

theorem Sends.stopMenu (sends : session.Sends host) :
    session.stopMenu.Sends host :=
  ⟨sends.stream, sends.first, by simp [Session.stopMenu, Menu.moveTo],
    fun _ running => (running rfl).elim⟩

theorem Sends.take (sends : session.Sends host) {received : Received}
    (arrives : Arrives session.toServer session.ClientEnded received) :
    (session.take received).Sends host := by
  match received, arrives with
  | .failed, _ => exact sends
  | .bytes [], _ => exact sends
  | .bytes (byte :: data), arrives =>
      obtain ⟨rest, stream⟩ := arrives.1
      refine ⟨?_, sends.first, sends.unsent, sends.begun⟩
      have remaining : session.toServer.drop (byte :: data).length = rest := by
        rw [← stream, List.drop_left]
      change sendJsonStream host.print session.sent =
        (session.received ++ [byte :: data]).flatten ++
          session.toServer.drop (byte :: data).length
      rw [sends.stream, remaining, ← stream]
      simp

theorem Sends.enter (sends : session.Sends host) (input : MenuInput) :
    (session.enter host input).Sends host := by
  by_cases idle : session.menu.point = .connected ∨
      session.menu.point = .authenticated ∨ session.menu.point = .stopped
  · rw [enter_of_idle host idle]
    exact sends
  · simp only [not_or] at idle
    have begun := sends.begun idle.1 idle.2.2
    obtain ⟨childInterrupted, entered⟩ := enter_eq host session input
    rw [entered]
    refine ⟨?_, ?_, fun connected => ?_, fun _ _ => by simp [begun]⟩
    · simp only [sendJsonStream_append, sends.stream, List.append_assoc]
    · simp only [List.head?_append_of_ne_nil _ begun]
      exact sends.first
    · rcases session.menu.point_handleUserInput input with
        same | option | stopped | ⟨updating, _⟩
      · rw [same] at connected
        exact (idle.1 connected).elim
      · cases option.symm.trans connected
      · cases stopped.symm.trans connected
      · rw [connected] at updating
        exact updating.elim

theorem sends_step (sends : session.Sends host) (event : SessionEvent) :
    (session.step host event).Sends host := by
  have steps := step_cases host session event
  generalize session.step host event = after at steps ⊢
  cases steps with
  | idle => exact sends
  | server present other => exact sends.serve _
  | serverExits => exact ⟨sends.stream, sends.first, sends.unsent, sends.begun⟩
  | accepts waiting =>
      rename_i context family clientFd
      have served := sends.serve
        (.tcpConnection context family (some clientFd))
      exact ⟨served.stream, served.first, served.unsent, served.begun⟩
  | serverDrops found => exact sends.serve _
  | serverReceives found arrives => exact (sends.take arrives).serve _
  | stops => exact sends.stopMenu
  | authenticates untold connected =>
      have unsent := sends.unsent connected
      refine ⟨?_, ?_, by simp [Session.authenticate], ?_⟩
      · simp only [Session.authenticate, Session.send, sendJsonStream_append,
          sends.stream]
        simp [sendJsonStream]
      · simp [Session.authenticate, Session.send, unsent]
      · simp [Session.authenticate, Session.send]
  | forks untold authenticated =>
      have begun := sends.begun (by simp [authenticated])
        (by simp [authenticated])
      exact ⟨sends.stream, sends.first, by simp [Session.fork, Menu.moveTo],
        fun _ _ => begun⟩
  | enters untold => exact sends.enter _
  | childStops => exact ⟨sends.stream, sends.first, sends.unsent, sends.begun⟩
  | childReceives forked running arrives =>
      exact ⟨sends.stream, sends.first, sends.unsent, sends.begun⟩

/-- The first block that the server can receive is a front of the
authentication request, or the request and more. -/
theorem Sends.first_block (sends : session.Sends host)
    (unread : session.received = []) {block : Bytes} (nonempty : block ≠ [])
    (arrives : block <+: session.toServer) :
    host.print host.authentication <+: block ∨
      block <+: host.print host.authentication := by
  have stream := sends.stream
  rw [unread, List.flatten_nil, List.nil_append] at stream
  cases requests : session.sent with
  | nil =>
      rw [requests] at stream
      rw [← stream] at arrives
      exact (nonempty (List.prefix_nil.mp arrives)).elim
  | cons request rest =>
      have same : request = host.authentication :=
        sends.first request (by simp [requests])
      have leading : host.print host.authentication <+: session.toServer := by
        rw [← stream, requests, same]
        exact List.prefix_append _ _
      exact List.prefix_or_prefix_of_prefix leading arrives

/-- What the library makes of the first block. -/
theorem Sends.parse_first_block (sends : session.Sends host)
    (library : PrintsAndParses host.parse host.print [host.authentication])
    (unread : session.received = []) {block : Bytes} (nonempty : block ≠ [])
    (arrives : block <+: session.toServer) :
    (host.print host.authentication <+: block ∧
        host.parse (untilNul block) = some host.authentication) ∨
      (¬ host.print host.authentication <+: block ∧
        host.parse (untilNul block) = none) := by
  have sent : host.authentication ∈ [host.authentication] :=
    List.mem_singleton_self _
  have noNul := library.noNul _ sent
  by_cases whole : host.print host.authentication <+: block
  · left
    obtain ⟨rest, rfl⟩ := whole
    refine ⟨List.prefix_append _ _, ?_⟩
    rw [untilNul_append_of_notMem noNul]
    exact library.first _ sent _
  · right
    have front : block <+: host.print host.authentication :=
      (sends.first_block unread nonempty arrives).resolve_left whole
    have proper : block ≠ host.print host.authentication := by
      rintro rfl
      exact whole (List.prefix_refl _)
    refine ⟨whole, ?_⟩
    rw [untilNul_of_notMem fun member => noNul (front.subset member)]
    exact library.cutOff _ sent block front proper

end Sends

end Session

theorem sends_sessionRun (host : Host) (supplies : Supplies)
    (events : List SessionEvent) :
    (sessionRun host supplies events).Sends host := by
  induction events using List.reverseRecOn with
  | nil =>
      refine ⟨rfl, fun request member => ?_, fun _ => rfl,
        fun running => (running rfl).elim⟩
      cases member
  | append_singleton events event induction =>
      rw [sessionRun_concat]
      exact Session.sends_step induction event

end ShelterServer
