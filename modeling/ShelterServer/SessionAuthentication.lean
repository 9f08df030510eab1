import ShelterServer.SessionAnswers
import ShelterServer.SessionRequests

/-!
# Authentication of a session

The menu process counts as authenticated from the moment its request has been
sent, whatever the server answers and whenever.  So client and server agree
exactly when nobody chooses to update before the server has received the whole
request, nor on a host of another name.
-/

namespace ShelterServer

open Foundations Faulting

namespace Session

/-- The server has received the whole request of an admin user in the first
block of the connection. -/
def AdminRequested (host : Host) (session : Session) : Prop :=
  encodeUtf8 host.signedChar host.osId = adminUser ∧
    ∃ block rest, session.received = block :: rest ∧
      host.print host.authentication <+: block ∧ block.length < bufferSize

/-- The user chooses option 2 while the menu process counts as
authenticated. -/
def ChoosesUpdate (session : Session) (event : SessionEvent) : Prop :=
  event = .input (.line (some (ascii "2\n"))) ∧
    session.menu.point = .option ∧ session.menu.authenticated = true ∧
    session.menuInterrupted = false

/-- An update is chosen only when the server has received an admin user's
request. -/
def ChoosesAfterRequest (host : Host) (session : Session)
    (event : SessionEvent) : Prop :=
  session.ChoosesUpdate event → session.AdminRequested host

/-! ## The server's side -/

/-- The client has been answered as an admin user exactly if the server has
received its request; the connection of any other client that was heard has
ended. -/
structure Answers (host : Host) (session : Session) : Prop where
  verdict : .authSuccess ∈ session.answered ↔ session.AdminRequested host
  ended : session.received ≠ [] → ¬ session.AdminRequested host →
    session.ServerEnded
  waiting : session.link = .waiting → session.received = []

section Answers

variable {host : Host} {session : Session}

theorem adminRequested_congr {before after : Session}
    (received : after.received = before.received) :
    after.AdminRequested host ↔ before.AdminRequested host := by
  rw [AdminRequested, AdminRequested, received]

/-- Later blocks change nothing about the first one. -/
theorem adminRequested_concat {before after : Session} {block : Bytes}
    (heard : before.received ≠ [])
    (received : after.received = before.received ++ [block]) :
    after.AdminRequested host ↔ before.AdminRequested host := by
  obtain ⟨first, rest, begun⟩ := List.exists_cons_of_ne_nil heard
  simp only [AdminRequested, received, begun, List.cons_append,
    List.cons.injEq]
  constructor
  · rintro ⟨admin, _, _, ⟨rfl, _⟩, whole⟩
    exact ⟨admin, _, _, ⟨rfl, rfl⟩, whole⟩
  · rintro ⟨admin, _, _, ⟨rfl, _⟩, whole⟩
    exact ⟨admin, _, _, ⟨rfl, rfl⟩, whole⟩

theorem received_serve (host : Host) (session : Session) (event : Event) :
    (session.serve host event).received = session.received := by
  obtain ⟨_, _, _, served⟩ := serve_eq host session event
  rw [served]

theorem fault_step {process : Process} (stopped : process.fault ≠ none)
    (event : Event) :
    (process.step host.parse event).fault ≠ none := by
  unfold Process.step
  split
  · rename_i running
    exact (stopped running).elim
  · exact stopped

theorem ServerEnded.serve (ended : session.ServerEnded) (event : Event) :
    (session.serve host event).ServerEnded := by
  have link := link_foldl_deliver host
    (session.server.actions host.parse event)
    { session with server := session.server.step host.parse event }
  obtain ⟨_, _, _, served⟩ := serve_eq host session event
  rcases ended with closed | exited | stopped
  · left
    rcases link with same | ended
    · exact same.trans closed
    · exact ended
  · right
    left
    rw [served]
    exact exited
  · right
    right
    rw [served]
    exact fault_step stopped event

theorem link_serve (host : Host) (session : Session) (event : Event) :
    (session.serve host event).link = session.link ∨
      (session.serve host event).link = .closed :=
  link_foldl_deliver host _ _

/-- The client is answered what the server replies to its descriptor. -/
theorem answered_serve (host : Host) (session : Session) (event : Event) :
    ∃ replies, (session.serve host event).answered =
        session.answered ++ replies ∧
      ∀ reply ∈ replies, ∃ clientFd, session.link = .accepted clientFd ∧
        .reply (.tcp clientFd) reply ∈
          session.server.actions host.parse event :=
  answered_foldl_deliver host _ _

/-- An event of the server that does not answer this client. -/
theorem Answers.serve (answers : session.Answers host) {event : Event}
    (silent : ∀ clientFd reply, session.link = .accepted clientFd →
      .reply (.tcp clientFd) reply ∉ session.server.actions host.parse event) :
    (session.serve host event).Answers host := by
  have received := received_serve host session event
  obtain ⟨replies, answered, replied⟩ :=
    answered_serve host session event
  have none : replies = [] := by
    rw [List.eq_nil_iff_forall_not_mem]
    intro reply member
    obtain ⟨clientFd, accepted, sent⟩ := replied reply member
    exact silent clientFd reply accepted sent
  rw [none, List.append_nil] at answered
  refine ⟨?_, fun heard other => ?_, fun waiting => ?_⟩
  · rw [answered, adminRequested_congr received]
    exact answers.verdict
  · rw [received] at heard
    rw [adminRequested_congr received] at other
    exact (answers.ended heard other).serve event
  · rw [received]
    rcases link_serve host session event with same | closed
    · exact answers.waiting (same.symm.trans waiting)
    · cases closed.symm.trans waiting

theorem not_adminRequested_of_unread (unread : session.received = []) :
    ¬ session.AdminRequested host := by
  rintro ⟨_, block, rest, heard, _⟩
  rw [unread] at heard
  cases heard

/-- The first block holds an admin user's request: the client is answered. -/
theorem Answers.of_admin {clientFd : Nat} {block : Bytes}
    (link : session.link = .accepted clientFd)
    (running : session.server.fault = none)
    (connected : clientFd ∈ session.server.server.connected)
    (received : session.received = [block]) (nonempty : block ≠ [])
    (parsed : host.parse (untilNul block) = some host.authentication)
    (admin : session.AdminRequested host) (context : RequestContext) :
    (session.serve host
      (.tcpActivity context clientFd true (.bytes block))).Answers host := by
  have heard := received_serve host session
    (.tcpActivity context clientFd true (.bytes block))
  have room : block.length < bufferSize := by
    obtain ⟨_, first, rest, same, _, room⟩ := admin
    rw [received] at same
    rwa [(List.cons.inj same).1]
  have requested := (adminRequested_congr heard).mpr admin
  refine ⟨iff_of_true ?_ requested, fun _ other => (other requested).elim,
    fun waiting => ?_⟩
  · obtain ⟨server, fault⟩ : ∃ server, session.server = ⟨server, none⟩ :=
      ⟨session.server.server, by rw [← running]⟩
    rw [fault] at connected
    rw [Session.serve, fault,
      actions_of_admin context connected nonempty room parsed admin.1]
    simp [deliver, link]
  · rcases link_serve host session
      (.tcpActivity context clientFd true (.bytes block)) with same | closed
    · cases (same.trans link).symm.trans waiting
    · cases closed.symm.trans waiting

/-- The first block holds no admin user's request: the client is not answered
as one, and its connection ends. -/
theorem Answers.of_not_admin {clientFd : Nat} {block : Bytes}
    (link : session.link = .accepted clientFd)
    (running : session.server.fault = none)
    (connected : clientFd ∈ session.server.server.connected)
    (unanswered : .authSuccess ∉ session.answered)
    (other : ¬ session.AdminRequested host) (nonempty : block ≠ [])
    (refused : block.length < bufferSize →
      host.parse (untilNul block) = none ∨
        host.parse (untilNul block) = some host.authentication ∧
          encodeUtf8 host.signedChar host.osId ≠ adminUser)
    (context : RequestContext) :
    (session.serve host
      (.tcpActivity context clientFd true (.bytes block))).Answers host := by
  have heard := received_serve host session
    (.tcpActivity context clientFd true (.bytes block))
  obtain ⟨server, fault⟩ : ∃ server, session.server = ⟨server, none⟩ :=
    ⟨session.server.server, by rw [← running]⟩
  rw [fault] at connected
  obtain ⟨silent, ends⟩ := actions_of_not_admin context connected
    nonempty refused
  rw [← fault] at silent ends
  obtain ⟨replies, answered, replied⟩ := answered_serve host session
    (.tcpActivity context clientFd true (.bytes block))
  have requested := (adminRequested_congr heard).not.mpr other
  refine ⟨iff_of_false ?_ requested, fun _ _ => ?_, fun waiting => ?_⟩
  · rw [answered, List.mem_append, not_or]
    refine ⟨unanswered, fun member => ?_⟩
    obtain ⟨sender, accepted, sent⟩ := replied _ member
    obtain rfl := Link.accepted.inj (link.symm.trans accepted)
    exact silent sent
  · rcases ends with closes | stopped
    · exact .inl (link_foldl_deliver_of_closed host link closes)
    · right
      right
      obtain ⟨_, _, _, served⟩ := serve_eq host session
        (.tcpActivity context clientFd true (.bytes block))
      rw [served]
      exact stopped
  · rcases link_serve host session
      (.tcpActivity context clientFd true (.bytes block)) with same | closed
    · cases (same.trans link).symm.trans waiting
    · cases closed.symm.trans waiting

/-- An admin user that has been answered stays answered. -/
theorem Answers.of_heard (answers : session.Answers host)
    {taken : Session} {block : Bytes} (heard : session.received ≠ [])
    (received : taken.received = session.received ++ [block])
    (answered : taken.answered = session.answered)
    (accepted : taken.link ≠ .waiting)
    (admin : session.AdminRequested host) (event : Event) :
    (taken.serve host event).Answers host := by
  have same := received_serve host taken event
  have requested : (taken.serve host event).AdminRequested host :=
    (adminRequested_congr same).mpr
      ((adminRequested_concat heard received).mpr admin)
  obtain ⟨replies, grown, _⟩ := answered_serve host taken event
  refine ⟨iff_of_true ?_ requested, fun _ other => (other requested).elim,
    fun waiting => ?_⟩
  · rw [grown, answered]
    exact List.mem_append_left _ (answers.verdict.mpr admin)
  · rcases link_serve host taken event with unchanged | closed
    · exact (accepted (unchanged.symm.trans waiting)).elim
    · cases closed.symm.trans waiting

/-- The first block decides: it holds the whole request, or the client is
turned away. -/
theorem Answers.receives_first (answers : session.Answers host)
    (sends : session.Sends host)
    (library : PrintsAndParses host.parse host.print [host.authentication])
    {clientFd : Nat} (link : session.link = .accepted clientFd)
    (running : session.server.fault = none)
    (connected : clientFd ∈ session.server.server.connected)
    (unread : session.received = []) {byte : UInt8} {data : Bytes}
    (initial : byte :: data <+: session.toServer) (context : RequestContext) :
    ((session.take (.bytes (byte :: data))).serve host
      (.tcpActivity context clientFd true (.bytes (byte :: data)))).Answers
        host := by
  have nonempty : byte :: data ≠ [] := List.cons_ne_nil _ _
  have accepted : (session.take (.bytes (byte :: data))).link =
      .accepted clientFd := link
  have only : (session.take (.bytes (byte :: data))).received =
      [byte :: data] := congrArg (· ++ [byte :: data]) unread
  have parsed := sends.parse_first_block library unread nonempty initial
  by_cases admin : (session.take (.bytes (byte :: data))).AdminRequested host
  · have whole : host.print host.authentication <+: byte :: data := by
      obtain ⟨_, first, rest, same, whole, _⟩ := admin
      rw [only] at same
      rwa [(List.cons.inj same).1]
    rcases parsed with ⟨_, found⟩ | ⟨lacking, _⟩
    · exact .of_admin accepted running connected only nonempty found admin
        context
    · exact (lacking whole).elim
  · have unanswered : .authSuccess ∉ session.answered := fun member =>
      not_adminRequested_of_unread unread (answers.verdict.mp member)
    refine .of_not_admin accepted running connected unanswered admin
      nonempty (fun room => ?_) context
    rcases parsed with ⟨whole, found⟩ | ⟨_, rejected⟩
    · exact .inr ⟨found, fun name => admin ⟨name, _, _, only, whole, room⟩⟩
    · exact .inl rejected

theorem Answers.receives (answers : session.Answers host)
    (sends : session.Sends host)
    (library : PrintsAndParses host.parse host.print [host.authentication])
    {clientFd : Nat} (link : session.link = .accepted clientFd)
    (present : session.serverExited = false)
    (running : session.server.fault = none)
    (connected : clientFd ∈ session.server.server.connected)
    {received : Received}
    (arrives : Arrives session.toServer session.ClientEnded received)
    (context : RequestContext) :
    ((session.take received).serve host
      (.tcpActivity context clientFd true received)).Answers host := by
  have silent : ∀ other, tcpRequest host.parse other = .ok none →
      ∀ sender reply, session.link = .accepted sender →
        .reply (.tcp sender) reply ∉ session.server.actions host.parse
          (.tcpActivity context clientFd true other) := by
    intro other nothing sender reply _
    refine reply_notMem_of_not_writes (by simp) ?_ reply
    rintro ⟨fits, _, _, _, request, carried, _⟩
    have returned := (tcpRequest_eq_request_iff host.parse).mpr ⟨fits, carried⟩
    cases nothing.symm.trans returned
  match received, arrives with
  | .failed, _ => exact answers.serve (silent .failed rfl)
  | .bytes [], _ => exact answers.serve (silent (.bytes []) rfl)
  | .bytes (byte :: data), arrives =>
      have taken : (session.take (.bytes (byte :: data))).received =
          session.received ++ [byte :: data] := rfl
      have accepted : (session.take (.bytes (byte :: data))).link =
          .accepted clientFd := link
      by_cases unread : session.received = []
      · exact answers.receives_first sends library link running connected
          unread arrives.1 context
      · by_cases admin : session.AdminRequested host
        · exact answers.of_heard unread taken rfl (by simp [accepted]) admin _
        · rcases answers.ended unread admin with closed | exited | stopped
          · cases link.symm.trans closed
          · cases present.symm.trans exited
          · exact (stopped running).elim

theorem clientFd?_eq_some {clientFd : Nat}
    (found : session.clientFd? = some clientFd) :
    session.link = .accepted clientFd ∧ session.serverExited = false ∧
      session.server.fault = none ∧
      clientFd ∈ session.server.server.connected := by
  unfold clientFd? at found
  split at found
  · rename_i other link
    split at found
    · rename_i present
      obtain rfl := Option.some.inj found
      exact ⟨link, present⟩
    · cases found
  · cases found
  · cases found

theorem answers_step (answers : session.Answers host)
    (sends : session.Sends host)
    (library : PrintsAndParses host.parse host.print [host.authentication])
    (event : SessionEvent) : (session.step host event).Answers host := by
  have steps := step_cases host session event
  generalize session.step host event = after at steps ⊢
  cases steps with
  | idle => exact answers
  | server present other =>
      refine answers.serve fun clientFd reply accepted => ?_
      apply reply_notMem_actions
      rintro context peername received rfl
      exact other accepted
  | serverExits =>
      exact ⟨answers.verdict, fun _ _ => .inr (.inl rfl), answers.waiting⟩
  | accepts waiting =>
      rename_i context family clientFd
      have silent : ∀ sender reply, session.link = .accepted sender →
          .reply (.tcp sender) reply ∉ session.server.actions host.parse
            (.tcpConnection context family (some clientFd)) := by
        intro sender reply accepted
        cases accepted.symm.trans waiting
      have served := answers.serve silent
      have unread := received_serve host session
        (.tcpConnection context family (some clientFd))
      rw [answers.waiting waiting] at unread
      exact ⟨served.verdict, fun heard => (heard unread).elim, by simp⟩
  | serverDrops found =>
      refine answers.serve fun sender reply _ => ?_
      refine reply_notMem_of_not_writes (by simp) ?_ reply
      rintro ⟨_, _, writes⟩
      exact writes
  | serverReceives found arrives =>
      obtain ⟨link, present, running, connected⟩ := clientFd?_eq_some found
      exact answers.receives sends library link present running connected
        arrives _
  | enters untold =>
      obtain ⟨_, entered⟩ := enter_eq host session _
      rw [entered]
      exact ⟨answers.verdict, answers.ended, answers.waiting⟩
  | stops => exact ⟨answers.verdict, answers.ended, answers.waiting⟩
  | authenticates untold connected =>
      exact ⟨answers.verdict, answers.ended, answers.waiting⟩
  | forks untold authenticated =>
      exact ⟨answers.verdict, answers.ended, answers.waiting⟩
  | childStops => exact ⟨answers.verdict, answers.ended, answers.waiting⟩
  | childReceives forked running arrives =>
      exact ⟨answers.verdict, answers.ended, answers.waiting⟩

end Answers

/-! ## Updates -/

/-- Whoever is asked for an update, or has sent one, was answered as an admin
user. -/
structure UpdatesAuthenticated (session : Session) : Prop where
  asked : session.menu.point.Updating → .authSuccess ∈ session.answered
  sent : ∀ request ∈ session.sent, request.Requests (ascii "update") →
    .authSuccess ∈ session.answered

section Updates

variable {host : Host} {session : Session}

theorem not_update_authentication (host : Host) :
    ¬ host.authentication.Requests (ascii "update") := by
  intro updates
  have authenticates :=
    authenticationRequest_requests host.signedChar host.osId
  have same : ascii "update" = ascii "authenticateme" :=
    Option.some.inj (updates.symm.trans authenticates)
  exact absurd same (by decide)

theorem UpdatesAuthenticated.serve (updates : session.UpdatesAuthenticated)
    (event : Event) : (session.serve host event).UpdatesAuthenticated := by
  obtain ⟨replies, answered, _⟩ := answered_serve host session event
  obtain ⟨link, toClient, all, served⟩ := serve_eq host session event
  have grown : session.answered ⊆ (session.serve host event).answered := by
    rw [answered]
    exact List.subset_append_left _ _
  rw [served] at grown ⊢
  exact ⟨fun asked => grown (updates.asked asked),
    fun request sent update => grown (updates.sent request sent update)⟩

theorem UpdatesAuthenticated.stopMenu
    (updates : session.UpdatesAuthenticated) :
    session.stopMenu.UpdatesAuthenticated :=
  ⟨False.elim, updates.sent⟩

theorem UpdatesAuthenticated.enter (updates : session.UpdatesAuthenticated)
    {input : MenuInput} (running : session.menuInterrupted = false)
    (chosen : session.ChoosesUpdate (.input input) →
      .authSuccess ∈ session.answered) :
    (session.enter host input).UpdatesAuthenticated := by
  obtain ⟨_, entered⟩ := enter_eq host session input
  rw [entered]
  refine ⟨fun asked => ?_, fun request sent update => ?_⟩
  · change (session.menu.handleUserInput input).1.point.Updating at asked
    rcases session.menu.point_handleUserInput input with
      same | option | stopped | ⟨_, before | ⟨option, authenticated, line⟩⟩
    · rw [same] at asked
      exact updates.asked asked
    · rw [option] at asked
      exact asked.elim
    · rw [stopped] at asked
      exact asked.elim
    · exact updates.asked before
    · exact chosen ⟨by rw [line], option, authenticated, running⟩
  · rcases List.mem_append.mp sent with early | late
    · exact updates.sent request early update
    · exact updates.asked (Menu.updating_of_requests late update)

theorem updatesAuthenticated_step (updates : session.UpdatesAuthenticated)
    {event : SessionEvent}
    (chosen : session.ChoosesUpdate event →
      .authSuccess ∈ session.answered) :
    (session.step host event).UpdatesAuthenticated := by
  have steps := step_cases host session event
  generalize session.step host event = after at steps ⊢
  cases steps with
  | idle => exact updates
  | server present other => exact updates.serve _
  | serverExits => exact ⟨updates.asked, updates.sent⟩
  | accepts waiting =>
      rename_i context family clientFd
      have served : (session.serve host (.tcpConnection context family
          (some clientFd))).UpdatesAuthenticated := updates.serve _
      exact ⟨served.asked, served.sent⟩
  | serverDrops found => exact updates.serve _
  | serverReceives found arrives =>
      apply UpdatesAuthenticated.serve
      unfold take
      split <;> exact ⟨updates.asked, updates.sent⟩
  | stops => exact updates.stopMenu
  | authenticates untold connected =>
      refine ⟨False.elim, fun request sent update => ?_⟩
      rcases List.mem_append.mp sent with early | late
      · exact updates.sent request early update
      · obtain rfl := List.mem_singleton.mp late
        exact (not_update_authentication host update).elim
  | forks untold authenticated => exact ⟨False.elim, updates.sent⟩
  | enters untold => exact updates.enter untold chosen
  | childStops => exact ⟨updates.asked, updates.sent⟩
  | childReceives forked running arrives =>
      exact ⟨updates.asked, updates.sent⟩

end Updates

end Session

/-! ## Runs -/

/-- Whenever an update is chosen, and whenever one has been sent, the server
has answered the client as an admin user. -/
structure AgreesOnAuthentication (host : Host) (supplies : Supplies)
    (events : List SessionEvent) : Prop where
  chosen : ∀ front event, front ++ [event] <+: events →
    (sessionRun host supplies front).ChoosesUpdate event →
      .authSuccess ∈ (sessionRun host supplies front).answered
  sent : ∀ front, front <+: events →
    ∀ request ∈ (sessionRun host supplies front).sent,
      request.Requests (ascii "update") →
        .authSuccess ∈ (sessionRun host supplies front).answered

section Runs

variable (host : Host) (supplies : Supplies)

theorem answers_sessionRun
    (library : PrintsAndParses host.parse host.print [host.authentication])
    (events : List SessionEvent) :
    (sessionRun host supplies events).Answers host := by
  induction events using List.reverseRecOn with
  | nil =>
      refine ⟨iff_of_false List.not_mem_nil ?_, fun heard => (heard rfl).elim,
        fun _ => rfl⟩
      exact Session.not_adminRequested_of_unread rfl
  | append_singleton events event induction =>
      rw [sessionRun_concat]
      exact Session.answers_step induction
        (sends_sessionRun host supplies events) library event

/-- Client and server agree on the authentication if and only if every choice
of an update finds that the server has received an admin user's request. -/
theorem sessionRun_agreesOnAuthentication_iff
    (library : PrintsAndParses host.parse host.print [host.authentication])
    (events : List SessionEvent) :
    AgreesOnAuthentication host supplies events ↔
      GuardedRun (Session.step host) (Session.ChoosesAfterRequest host)
        (.initial supplies) events := by
  have verdict := fun front =>
    (answers_sessionRun host supplies library front).verdict
  constructor
  · intro agrees
    rw [guardedRun_iff]
    intro front event initial chooses
    exact (verdict front).mp (agrees.chosen front event initial chooses)
  · intro guarded
    have chosen : ∀ front event, front ++ [event] <+: events →
        (sessionRun host supplies front).ChoosesUpdate event →
          .authSuccess ∈ (sessionRun host supplies front).answered := by
      intro front event initial chooses
      exact (verdict front).mpr
        (guardedRun_iff.mp guarded front event initial chooses)
    have updates : ∀ front, front <+: events →
        (sessionRun host supplies front).UpdatesAuthenticated := by
      intro front
      induction front using List.reverseRecOn with
      | nil => exact fun _ => ⟨False.elim, by simp [sessionRun, Session.initial]⟩
      | append_singleton front event induction =>
          intro initial
          rw [sessionRun_concat]
          exact Session.updatesAuthenticated_step
            (induction ((List.prefix_append _ _).trans initial))
            (chosen front event initial)
    exact ⟨chosen, fun front initial => (updates front initial).sent⟩

end Runs

/-! ## Concrete sessions -/

/-- The text that `cJSON_Print` makes of the authentication request. -/
def authenticationText (osId : Bytes) : Bytes :=
  ascii "\x7b\n\t\"message\":\t\"authenticateme\",\n\t\"hostname\":\t\"" ++
    osId ++ ascii "\"\n\x7d"

/-- A host with the given ID, whose library knows the request alone. -/
def Host.named (osId : Bytes) : Host where
  parse := Json.parseFirst (authenticationText osId)
    (authenticationRequest true osId)
  print := fun _ => authenticationText osId
  signedChar := true
  osId := osId

theorem printsAndParses_named {osId : Bytes}
    (noNul : 0 ∉ authenticationText osId) :
    PrintsAndParses (Host.named osId).parse (Host.named osId).print
      [(Host.named osId).authentication] :=
  printsAndParses_parseFirst (authenticationText osId)
    (authenticationRequest true osId) 1 rfl noNul

theorem agreesOnAuthentication_of_answered :
    AgreesOnAuthentication (Host.named adminUser) .zero
      [.authenticates, .forks true, .accepts .attached .ipv6 8,
        .serverReceives .attached (.bytes (authenticationText adminUser)),
        .input (.line (some (ascii "2\n")))] := by
  apply (sessionRun_agreesOnAuthentication_iff _ _
    (printsAndParses_named (by decide)) _).mpr
  have other : ∀ (session : Session) event,
      event ≠ .input (.line (some (ascii "2\n"))) →
        session.ChoosesAfterRequest (Host.named adminUser) event :=
    fun _ _ different chooses => (different chooses.1).elim
  refine ⟨other _ _ (by simp), other _ _ (by simp), other _ _ (by simp),
    other _ _ (by simp), fun _ => ⟨by decide, authenticationText adminUser, [],
      rfl, List.prefix_refl _, by decide⟩, trivial⟩

/-- A user of another host updates the supplies before the server answers. -/
theorem not_agreesOnAuthentication :
    ¬ ∀ (host : Host) (supplies : Supplies) (events : List SessionEvent),
      PrintsAndParses host.parse host.print [host.authentication] →
      AgreesOnAuthentication host supplies events := by
  intro agrees
  let host := Host.named (ascii "debian")
  let events : List SessionEvent := [.authenticates, .forks true,
    .input (.line (some (ascii "2\n"))), .input (.line (some (ascii "1\n"))),
    .input (.line (some (ascii "1\n"))), .input (.number (some 5))]
  have sent : (sessionRun host .zero events).sent =
      [host.authentication, updateRequest .food (ascii "meat") 5] := rfl
  have answered : (sessionRun host .zero events).answered = [] := rfl
  have update := (agrees host .zero events
    (printsAndParses_named (by decide))).sent events (List.prefix_refl _)
    (updateRequest .food (ascii "meat") 5) (by simp [sent]) rfl
  rw [answered] at update
  cases update

end ShelterServer
