import Mathlib.Logic.Function.Basic
import ShelterServer.ServerWrites

/-!
# Peers that vanish

The server's writes on the network.  A peer that has closed answers the next
bytes with a reset, and a write on a connection whose reset has arrived kills
the process, which neither ignores SIGPIPE nor asks for `MSG_NOSIGNAL`.  A run
is killed exactly when it broadcasts to a listed client, or answers one, whose
connection is in that state.
-/

namespace ShelterServer

open Foundations Faulting

/-! ## The network -/

/-- A connection as the server's side of it stands; `answered` is closed by a
peer whose reset is still under way. -/
inductive Connection where
  | established
  | peerClosed
  | answered
  | reset
deriving DecidableEq

/-- What the next bytes do to a connection that has not been reset. -/
def Connection.send : Connection → Connection
  | .peerClosed => .answered
  | connection => connection

structure Network where
  process : Process
  connections : Nat → Connection
  /-- SIGPIPE was raised. -/
  killed : Bool

def Network.setConnection (network : Network) (clientFd : Nat)
    (connection : Connection) : Network :=
  { network with
    connections := Function.update network.connections clientFd connection }

/-- `send(client_fd, …, 0)`. -/
def Network.send (network : Network) (clientFd : Nat) : Network :=
  if network.connections clientFd = .reset then
    { network with killed := true }
  else
    network.setConnection clientFd (network.connections clientFd).send

/-- What an action of the server does to its connections. -/
def Network.deliver (network : Network) : Action → Network
  | .accepted clientFd => network.setConnection clientFd .established
  | .sendTcp clientFd _ => network.send clientFd
  | .reply (.tcp clientFd) _ => network.send clientFd
  | _ => network

inductive NetworkEvent where
  | server (event : Event)
  | peerCloses (clientFd : Nat)
  | resetArrives (clientFd : Nat)

section Step

variable (parse : Bytes → Option Json)

def Network.step (network : Network) (event : NetworkEvent) : Network :=
  if network.killed then network
  else
    match event with
    | .server event =>
        (network.process.actions parse event).foldl Network.deliver
          { network with process := network.process.step parse event }
    | .peerCloses clientFd =>
        if network.connections clientFd = .established then
          network.setConnection clientFd .peerClosed
        else network
    | .resetArrives clientFd =>
        if network.connections clientFd = .answered then
          network.setConnection clientFd .reset
        else network

/-- A freshly started server without connections. -/
def Network.initial (supplies : Supplies) : Network where
  process := .running (.initial supplies)
  connections := fun _ => .established
  killed := false

def networkRun (supplies : Supplies) (events : List NetworkEvent) : Network :=
  run (Network.step parse) (.initial supplies) events

end Step

/-! ## Delivery -/

theorem connections_send_eq_reset_iff (network : Network)
    (clientFd other : Nat) :
    (network.send clientFd).connections other = .reset ↔
      network.connections other = .reset := by
  unfold Network.send
  split
  · rfl
  · rename_i unreset
    by_cases same : other = clientFd
    · subst same
      simp only [Network.setConnection, Function.update_self]
      cases connection : network.connections other <;>
        simp_all [Connection.send]
    · simp [Network.setConnection, same]

theorem killed_send_iff (network : Network) (clientFd : Nat) :
    (network.send clientFd).killed = true ↔
      network.killed = true ∨ network.connections clientFd = .reset := by
  unfold Network.send
  split
  · simp [*]
  · simp [Network.setConnection, *]

theorem deliver_of_tcpPeer {action : Action} {clientFd : Nat}
    (peer : action.tcpPeer = some clientFd) (network : Network) :
    network.deliver action = network.send clientFd := by
  match action, peer with
  | .sendTcp other _, peer =>
      obtain rfl := Option.some.inj peer
      rfl
  | .reply (.tcp other) _, peer =>
      obtain rfl := Option.some.inj peer
      rfl

theorem deliver_of_unheard {action : Action} (unheard : action.tcpPeer = none)
    (connects : ∀ clientFd, action ≠ .accepted clientFd) (network : Network) :
    network.deliver action = network := by
  match action, unheard with
  | .logEvent _, _ => rfl
  | .accepted clientFd, _ => exact (connects clientFd rfl).elim
  | .closed _, _ => rfl
  | .sendUdp _ _, _ => rfl
  | .reply (.udp _) _, _ => rfl
  | .updateSupplies _, _ => rfl

/-- Actions that accept nothing kill the process if and only if they write to
a connection that had been reset before them. -/
theorem killed_foldl_deliver_iff {actions : List Action}
    (accepts : ∀ clientFd, Action.accepted clientFd ∉ actions)
    (network : Network) :
    (actions.foldl Network.deliver network).killed = true ↔
      network.killed = true ∨ ∃ clientFd ∈ actions.filterMap Action.tcpPeer,
        network.connections clientFd = .reset := by
  induction actions generalizing network with
  | nil => simp
  | cons action actions induction =>
      simp only [List.mem_cons, not_or] at accepts
      have later := induction fun clientFd => (accepts clientFd).2
      rw [List.foldl_cons, later, List.filterMap_cons]
      cases peer : action.tcpPeer with
      | none =>
          rw [deliver_of_unheard peer fun clientFd =>
            Ne.symm (accepts clientFd).1]
      | some clientFd =>
          simp only [deliver_of_tcpPeer peer, killed_send_iff,
            connections_send_eq_reset_iff, List.mem_cons, exists_eq_or_imp,
            or_assoc]

/-- Actions that write nothing do not kill the process. -/
theorem killed_foldl_deliver_of_unheard {actions : List Action}
    (unheard : actions.filterMap Action.tcpPeer = []) (network : Network) :
    (actions.foldl Network.deliver network).killed = network.killed := by
  induction actions generalizing network with
  | nil => rfl
  | cons action actions induction =>
      rw [List.filterMap_cons] at unheard
      cases peer : action.tcpPeer with
      | some clientFd => simp [peer] at unheard
      | none =>
          rw [peer] at unheard
          rw [List.foldl_cons, induction unheard]
          match action, peer with
          | .logEvent _, _ => rfl
          | .accepted _, _ => rfl
          | .closed _, _ => rfl
          | .sendUdp _ _, _ => rfl
          | .reply (.udp _) _, _ => rfl
          | .updateSupplies _, _ => rfl

/-! ## Runs -/

section Runs

variable (parse : Bytes → Option Json)

/-- What a handler reads leaves room for a terminator. -/
def NetworkEvent.FitsBuffer : NetworkEvent → Prop
  | .server event => event.FitsBuffer
  | .peerCloses _ => True
  | .resetArrives _ => True

/-- The server is alive and reads no block that fills its buffer. -/
def Network.FitsBuffer (network : Network) (event : NetworkEvent) : Prop :=
  network.process.fault = none → event.FitsBuffer

/-- An event of the server writes to no connection that has been reset. -/
def Network.WritesToOpen (network : Network) : NetworkEvent → Prop
  | .server event => ∀ clientFd,
      network.process.Writes parse event clientFd →
        network.connections clientFd ≠ .reset
  | .peerCloses _ => True
  | .resetArrives _ => True

/-- One event of the server kills it if and only if it writes to a connection
that has been reset. -/
theorem killed_server_iff {network : Network} (alive : network.killed = false)
    (event : Event) :
    (network.step parse (.server event)).killed = false ↔
      (event.FitsBuffer → network.WritesToOpen parse (.server event)) := by
  rcases network with ⟨⟨server, fault⟩, connections, killed⟩
  obtain rfl : killed = false := alive
  rw [Network.step, if_neg Bool.false_ne_true, ← Bool.not_eq_true]
  simp only [Network.WritesToOpen]
  cases fault with
  | some fault =>
      have stopped : Process.actions parse ⟨server, some fault⟩ event = [] :=
        actions_of_trace parse (List.append_nil _).symm
      rw [stopped]
      exact iff_of_true Bool.false_ne_true fun _ _ writes =>
        nomatch writes.1
  | none =>
      by_cases accepts : ∃ context family clientFd,
          event = .tcpConnection context family (some clientFd)
      · obtain ⟨context, family, clientFd, rfl⟩ := accepts
        obtain ⟨actions, trace, unheard⟩ : ∃ actions,
            (Process.step parse ⟨server, none⟩ (.tcpConnection context family
              (some clientFd))).server.trace = server.trace ++ actions ∧
            actions.filterMap Action.tcpPeer = [] := by
          rw [Process.step, Process.server_after, handleEvent,
            exec_bind_of_ok (exec_get server)]
          split
          · exact ⟨[], (List.append_nil _).symm, rfl⟩
          · exact tcpPeer_acceptTcpConnection context family clientFd server
        rw [actions_of_trace parse trace,
          killed_foldl_deliver_of_unheard unheard]
        exact iff_of_true Bool.false_ne_true fun _ _ writes => writes.2.elim
      · obtain ⟨actions, trace, written, unaccepted⟩ := wrote_handleEvent parse
          (fun context family clientFd same =>
            accepts ⟨context, family, clientFd, same⟩) server
        have grown : (Process.step parse ⟨server, none⟩ event).server.trace =
            server.trace ++ actions := by
          rw [Process.step, Process.server_after, trace]
        rw [actions_of_trace parse grown, killed_foldl_deliver_iff unaccepted]
        simp only [Bool.false_eq_true, false_or, not_exists, not_and, written]
        exact ⟨fun opened fits clientFd writes =>
            opened clientFd ⟨fits, writes⟩,
          fun opened clientFd writes => opened writes.1 clientFd writes.2⟩

theorem killed_step_iff {network : Network} (alive : network.killed = false)
    (event : NetworkEvent) :
    (network.step parse event).killed = false ↔
      (event.FitsBuffer → network.WritesToOpen parse event) := by
  cases event with
  | server event => exact killed_server_iff parse alive event
  | peerCloses clientFd =>
      rw [Network.step, if_neg (by simp [alive])]
      apply iff_of_true _ fun _ => trivial
      split <;> exact alive
  | resetArrives clientFd =>
      rw [Network.step, if_neg (by simp [alive])]
      apply iff_of_true _ fun _ => trivial
      split <;> exact alive

theorem killed_networkRun_eq_false (supplies : Supplies)
    (events : List NetworkEvent) :
    (networkRun parse supplies events).killed = false ↔
      GuardedRun (Network.step parse)
        (fun network event =>
          event.FitsBuffer → network.WritesToOpen parse event)
        (.initial supplies) events := by
  induction events using List.reverseRecOn with
  | nil => exact iff_of_true rfl trivial
  | append_singleton events event induction =>
      rw [guardedRun_concat, ← induction, networkRun, run_concat]
      change _ ↔ (networkRun parse supplies events).killed = false ∧
        (event.FitsBuffer →
          (networkRun parse supplies events).WritesToOpen parse event)
      change ((networkRun parse supplies events).step parse event).killed =
        false ↔ _
      cases alive : (networkRun parse supplies events).killed with
      | false =>
          rw [killed_step_iff parse alive]
          simp
      | true => simp [Network.step, alive]

/-- A run raises no SIGPIPE if and only if none of its events writes to a
connection whose reset has arrived.  A block of `BUFFER_SIZE` bytes stops the
process at the write behind the buffer; without such blocks every failure that
is announced and every request that is sent counts. -/
theorem networkRun_killed_eq_false_iff (supplies : Supplies)
    (events : List NetworkEvent) :
    ((networkRun parse supplies events).killed = false ↔
      GuardedRun (Network.step parse)
        (fun network event =>
          event.FitsBuffer → network.WritesToOpen parse event)
        (.initial supplies) events) ∧
    (GuardedRun (Network.step parse) Network.FitsBuffer (.initial supplies)
        events →
      ((networkRun parse supplies events).killed = false ↔
        GuardedRun (Network.step parse) (Network.WritesToOpen parse)
          (.initial supplies) events)) := by
  have written := killed_networkRun_eq_false parse supplies events
  refine ⟨written, fun fits => written.trans (fits.congr ?_)⟩
  intro network event fits
  refine ⟨fun opened => ?_, fun opened _ => opened⟩
  cases event with
  | server event =>
      exact fun clientFd writes => opened (fits writes.1) clientFd writes
  | peerCloses _ => trivial
  | resetArrives _ => trivial

end Runs

/-- A failure and an alert between a client's close and the server's reading
of it. -/
theorem not_networkRun_killed_eq_false :
    ¬ ∀ (parse : Bytes → Option Json) (supplies : Supplies)
      (events : List NetworkEvent),
      (networkRun parse supplies events).killed = false := by
  intro alive
  have killed := alive (fun _ => none) .zero
    [.server (.tcpConnection .attached .ipv6 (some 8)), .peerCloses 8,
      .server (.unixActivity .attached true (.bytes failureMessage)),
      .resetArrives 8,
      .server (.fifoActivity .attached true
        (.bytes (alertMessage (feverAlert .north))))]
  revert killed
  decide +kernel

end ShelterServer
