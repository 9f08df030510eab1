import ShelterServer.ClientSession
import ShelterServer.ServerWrites
import ShelterServer.Transports

/-!
# What the server answers in a session

The replies that reach a client are those that the server makes on its
descriptor while the connection stands.  The answer to the client's first
block decides whether it is the admin user: after any other answer the server
has closed the connection or stopped.
-/

namespace ShelterServer

open Foundations Faulting

/-! ## Deliveries -/

namespace Session

variable (host : Host)

theorem link_foldl_deliver (actions : List Action) (session : Session) :
    (actions.foldl (deliver host) session).link = session.link ∨
      (actions.foldl (deliver host) session).link = .closed := by
  induction actions generalizing session with
  | nil => exact .inl rfl
  | cons action actions induction =>
      have first : (session.deliver host action).link = session.link ∨
          (session.deliver host action).link = .closed := by
        unfold deliver
        split
        · split <;> exact .inl rfl
        · split <;> exact .inl rfl
        · split
          · exact .inr rfl
          · exact .inl rfl
        · exact .inl rfl
      rw [List.foldl_cons]
      rcases induction (session.deliver host action) with same | closed
      · rw [same]
        exact first
      · exact .inr closed

/-- The client is answered what the server replies to its descriptor while the
connection stands. -/
theorem answered_foldl_deliver (actions : List Action) (session : Session) :
    ∃ replies, (actions.foldl (deliver host) session).answered =
        session.answered ++ replies ∧
      ∀ reply ∈ replies, ∃ clientFd, session.link = .accepted clientFd ∧
        .reply (.tcp clientFd) reply ∈ actions := by
  induction actions generalizing session with
  | nil => exact ⟨[], (List.append_nil _).symm, by simp⟩
  | cons action actions induction =>
      obtain ⟨later, answered, replied⟩ :=
        induction (session.deliver host action)
      have kept : ∀ clientFd,
          (session.deliver host action).link = .accepted clientFd →
            session.link = .accepted clientFd := by
        intro clientFd accepted
        rcases link_foldl_deliver host [action] session with
          same | closed
        · exact same.symm.trans accepted
        · cases accepted.symm.trans closed
      have lifted : ∀ reply ∈ later, ∃ clientFd,
          session.link = .accepted clientFd ∧
            .reply (.tcp clientFd) reply ∈ action :: actions := by
        intro reply member
        obtain ⟨clientFd, accepted, sent⟩ := replied reply member
        exact ⟨clientFd, kept clientFd accepted, List.mem_cons_of_mem _ sent⟩
      by_cases answers : ∃ clientFd reply, session.link = .accepted clientFd ∧
          action = .reply (.tcp clientFd) reply
      · obtain ⟨clientFd, reply, accepted, rfl⟩ := answers
        refine ⟨reply :: later, ?_, ?_⟩
        · rw [List.foldl_cons, answered]
          simp [deliver, accepted]
        · intro other member
          rcases List.mem_cons.mp member with rfl | inLater
          · exact ⟨clientFd, accepted, List.mem_cons_self⟩
          · exact lifted other inLater
      · refine ⟨later, ?_, lifted⟩
        have unanswered : (session.deliver host action).answered =
            session.answered := by
          unfold deliver
          split
          · split <;> rfl
          · rename_i clientFd _ reply accepted
            split
            · rename_i same
              subst same
              exact (answers ⟨_, _, accepted, rfl⟩).elim
            · rfl
          · split <;> rfl
          · rfl
        rw [List.foldl_cons, answered, unanswered]

theorem link_foldl_deliver_of_closed {actions : List Action}
    {session : Session} {clientFd : Nat}
    (accepted : session.link = .accepted clientFd)
    (closes : .closed clientFd ∈ actions) :
    (actions.foldl (deliver host) session).link = .closed := by
  obtain ⟨early, late, rfl⟩ := List.append_of_mem closes
  rw [List.foldl_append, List.foldl_cons]
  have closed : ((early.foldl (deliver host) session).deliver host
      (.closed clientFd)).link = .closed := by
    rcases link_foldl_deliver host early session with same | closed
    · simp [deliver, same, accepted]
    · simp [deliver, closed]
  rcases link_foldl_deliver host late
      ((early.foldl (deliver host) session).deliver host (.closed clientFd))
    with same | ended
  · exact same.trans closed
  · exact ended

end Session

/-! ## The first request -/

section FirstRequest

variable {parse : Bytes → Option Json} {context : RequestContext}
  {clientFd : Nat} {server : Server} {block : Bytes}

theorem authenticationRequest_hostname (signedChar : Bool) (osId : Bytes) :
    (authenticationRequest signedChar osId).getObjectItem (ascii "hostname") =
      some (.string (encodeUtf8 signedChar osId)) :=
  rfl

/-- A connection is closed, and nobody is answered. -/
theorem trace_closeTcpClient (clientFd : Nat) (server : Server) :
    ∃ late, (exec (closeTcpClient clientFd) server).2.trace =
        server.trace ++ .closed clientFd :: late ∧
      ∀ peer reply, .reply peer reply ∉ late := by
  refine ⟨_, List.append_assoc server.trace [.closed clientFd] _, ?_⟩
  intro peer reply
  split <;> simp

theorem trace_keepOrClose_false (context : RequestContext) (clientFd : Nat)
    (server : Server) :
    ∃ message late,
      (exec (keepOrClose context clientFd false) server).2.trace =
          server.trace ++ .logEvent message :: .closed clientFd :: late ∧
        ∀ peer reply, .reply peer reply ∉ late := by
  rw [keepOrClose, if_neg Bool.false_ne_true,
    exec_bind_of_ok (exec_logEvent _ _)]
  obtain ⟨late, trace, silent⟩ := trace_closeTcpClient clientFd
    (server.act [.logEvent (snprintf256
      (ascii "TCP client disconnected from IP: " ++ context.clientIp))])
  refine ⟨snprintf256
    (ascii "TCP client disconnected from IP: " ++ context.clientIp), late, ?_,
    silent⟩
  rw [trace]
  exact List.append_assoc _ _ _

theorem exec_handleTcpJson_authentication (signedChar : Bool) (osId : Bytes) :
    exec (handleTcpJson context clientFd
        (authenticationRequest signedChar osId)) server =
      if encodeUtf8 signedChar osId = adminUser then
        (.ok true, server.act [.logEvent (snprintf256
            (ascii "Update request from authenticated TCP client " ++
              context.clientIp)), .reply (.tcp clientFd) .authSuccess])
      else
        (.ok false, server.act [.logEvent (snprintf256
            (ascii "Update request from not authenticated TCP client " ++
              context.clientIp)), .reply (.tcp clientFd) .authFailure]) := by
  have found : (authenticationRequest signedChar osId).getObjectItem
      (ascii "message") = some (.string (ascii "authenticateme")) := rfl
  simp only [handleTcpJson, found, stringOperand_bind, Json.valuestring,
    if_true, authenticateTcpClient, authenticationRequest_hostname]
  split <;>
    simp only [exec_bind_of_ok (exec_logEvent _ _), sendJsonToTcpClient,
      sendJson, exec_bind, exec_modify, exec_pure, Server.act,
      List.append_assoc, List.cons_append, List.nil_append]

variable {host : Host} (context)

/-- A block that holds the whole request of an admin user gets its answer. -/
theorem actions_of_admin (connected : clientFd ∈ server.connected)
    (nonempty : block ≠ []) (room : block.length < bufferSize)
    (parsed : host.parse (untilNul block) = some host.authentication)
    (admin : encodeUtf8 host.signedChar host.osId = adminUser) :
    Process.actions host.parse ⟨server, none⟩
        (.tcpActivity context clientFd true (.bytes block)) =
      [.logEvent (snprintf256
          (ascii "Update request from authenticated TCP client " ++
            context.clientIp)), .reply (.tcp clientFd) .authSuccess] := by
  apply actions_of_trace
  rw [Process.step, Process.server_after, handleEvent,
    exec_bind_of_ok (exec_get server), if_pos connected,
    handleTcpSocketActivity, if_pos rfl,
    checkTcpClientsMessages_of_parsed host.parse nonempty room parsed,
    Host.authentication,
    exec_bind_of_ok ((exec_handleTcpJson_authentication _ _).trans
      (if_pos admin))]
  rfl

/-- A client that is not served is closed, and nobody is answered meanwhile. -/
theorem actions_of_unserved (connected : clientFd ∈ server.connected)
    {received : Received} {early : List Action}
    (checked : exec (checkTcpClientsMessages parse context clientFd received)
      server = (.ok false, server.act early)) :
    ∃ message late, Process.actions parse ⟨server, none⟩
        (.tcpActivity context clientFd true received) =
          early ++ .logEvent message :: .closed clientFd :: late ∧
      ∀ peer reply, .reply peer reply ∉ late := by
  obtain ⟨message, late, trace, silent⟩ :=
    trace_keepOrClose_false context clientFd (server.act early)
  refine ⟨message, late, actions_of_trace parse ?_, silent⟩
  rw [Process.step, Process.server_after, handleEvent,
    exec_bind_of_ok (exec_get server), if_pos connected,
    handleTcpSocketActivity, if_pos rfl, exec_bind_of_ok checked, trace]
  exact List.append_assoc _ _ _

/-- A block from which no admin user's request can be read gets no such
answer, and the connection is closed or the process stopped. -/
theorem actions_of_not_admin (connected : clientFd ∈ server.connected)
    (nonempty : block ≠ [])
    (refused : block.length < bufferSize →
      host.parse (untilNul block) = none ∨
        host.parse (untilNul block) = some host.authentication ∧
          encodeUtf8 host.signedChar host.osId ≠ adminUser) :
    let event : Event := .tcpActivity context clientFd true (.bytes block)
    .reply (.tcp clientFd) .authSuccess ∉
        Process.actions host.parse ⟨server, none⟩ event ∧
      (.closed clientFd ∈ Process.actions host.parse ⟨server, none⟩ event ∨
        (Process.step host.parse ⟨server, none⟩ event).fault ≠ none) := by
  intro event
  have closes : ∀ early, .reply (.tcp clientFd) .authSuccess ∉ early →
      exec (checkTcpClientsMessages host.parse context clientFd
        (.bytes block)) server = (.ok false, server.act early) →
      .reply (.tcp clientFd) .authSuccess ∉
          Process.actions host.parse ⟨server, none⟩ event ∧
        .closed clientFd ∈
          Process.actions host.parse ⟨server, none⟩ event := by
    intro early unanswered checked
    obtain ⟨message, late, actions, silent⟩ :=
      actions_of_unserved context connected checked
    rw [actions]
    simp [unanswered, silent]
  by_cases room : block.length < bufferSize
  · rcases refused room with rejected | ⟨parsed, other⟩
    · have checked := closes [] List.not_mem_nil (by
        rw [checkTcpClientsMessages, receiveTcpJson_eq,
          tcpRequest_bytes host.parse nonempty, if_pos room, rejected]
        exact congrArg (Prod.mk _) (by simp [Server.act]))
      exact ⟨checked.1, .inl checked.2⟩
    · have checked := closes _ (by simp) ((congrArg (exec · server)
        (checkTcpClientsMessages_of_parsed host.parse nonempty room parsed
          context clientFd)).trans
          ((exec_handleTcpJson_authentication _ _).trans (if_neg other)))
      exact ⟨checked.1, .inl checked.2⟩
  · have full : Process.step host.parse ⟨server, none⟩ event =
        ⟨server, some .outOfBounds⟩ := by
      rw [Process.step, handleEvent, exec_bind_of_ok (exec_get server),
        if_pos connected, handleTcpSocketActivity, if_pos rfl,
        checkTcpClientsMessages, receiveTcpJson_eq,
        tcpRequest_bytes host.parse nonempty, if_neg room]
      rfl
    have silent : Process.actions host.parse ⟨server, none⟩ event = [] := by
      apply actions_of_trace
      rw [full, List.append_nil]
    rw [silent, full]
    simp

end FirstRequest

end ShelterServer
