import Mathlib.Data.Finset.Card
import ShelterServer.Effects

/-!
# The TCP client table

The clients that the server serves are those in `master_fds`, while broadcasts
go to those in its table of `MAX_CLIENTS` descriptors.  An accepted connection
always enters the former but the latter only if there is room, so the two
agree throughout a run exactly when every connection finds room.
-/

namespace ShelterServer

open Foundations Faulting

/-- The table lists every connected client once and nothing else. -/
def ListsConnected (server : Server) : Prop :=
  ∀ clientFd, server.tcpClients.live.count clientFd =
    if clientFd ∈ server.connected then 1 else 0

/-- How often a message was sent to a TCP client. -/
def timesSent (trace : List Action) (clientFd : Nat) (message : Bytes) : Nat :=
  trace.countP fun action =>
    match action with
    | .sendTcp other text => other == clientFd && text == message
    | _ => false

/-- The table is exact, and a broadcast reaches every connected client once
and nobody else. -/
structure ServesConnected (server : Server) : Prop where
  table : ListsConnected server
  broadcast : ∀ message clientFd,
    timesSent (exec (sendToAllTcpClients message) server).2.trace clientFd
        message =
      timesSent server.trace clientFd message +
        if clientFd ∈ server.connected then 1 else 0

theorem timesSent_sendToAllTcpClients (server : Server) (message : Bytes)
    (clientFd : Nat) :
    timesSent (exec (sendToAllTcpClients message) server).2.trace clientFd
        message =
      timesSent server.trace clientFd message +
        server.tcpClients.live.count clientFd := by
  change timesSent (server.trace ++ server.tcpClients.live.map fun clientFd =>
    .sendTcp clientFd message) clientFd message = _
  rw [timesSent, List.countP_append, List.countP_map, List.count]
  congr 2
  funext other
  simp

theorem servesConnected_iff {server : Server} :
    ServesConnected server ↔ ListsConnected server := by
  constructor
  · exact ServesConnected.table
  · intro table
    refine ⟨table, fun message clientFd => ?_⟩
    rw [timesSent_sendToAllTcpClients, table clientFd]

theorem ListsConnected.count_eq_card {server : Server}
    (table : ListsConnected server) :
    server.tcpClients.count = server.connected.card := by
  have distinct : server.tcpClients.live.Nodup := by
    rw [List.nodup_iff_count_le_one]
    intro clientFd
    rw [table clientFd]
    split <;> omega
  have same : server.tcpClients.live.toFinset = server.connected := by
    ext clientFd
    rw [List.mem_toFinset, ← List.count_pos_iff, table clientFd]
    split
    · simp [*]
    · simp [*]
  rw [← BoundedTable.length_live, ← same, List.toFinset_card_of_nodup distinct]

/-! ## Steps -/

theorem respected_clients :
    Respected fun before after =>
      (after.tcpClients, after.connected) =
        (before.tcpClients, before.connected) :=
  .of_view (fun _ _ => rfl) fun _ _ quiet =>
    Prod.ext quiet.tcpClients quiet.connected

/-- A relation that compares the table and the connected clients alone. -/
theorem Respected.of_clients {relation : Server → Server → Prop}
    (trans : ∀ {before middle after}, relation before middle →
      relation middle after → relation before after)
    (of_same : ∀ {before after : Server},
      (after.tcpClients, after.connected) =
        (before.tcpClients, before.connected) → relation before after) :
    Respected relation where
  trans := trans
  quiet quiet := of_same (Prod.ext quiet.tcpClients quiet.connected)
  status peer access :=
    (respected_clients.status peer access).mono fun _ _ => of_same
  summary peer context :=
    (respected_clients.summary peer context).mono fun _ _ => of_same

theorem clients_updateSupplies (access : SegmentAccess) (request : Json) :
    Within (fun before after =>
        (after.tcpClients, after.connected) =
          (before.tcpClients, before.connected))
      (updateSupplies access request) := by
  intro server
  rw [updateSupplies, exec_bind_of_ok (exec_modify _ _),
    exec_bind_of_ok (exec_get _)]
  split <;> rfl

/-- A change that keeps an exact table exact. -/
def KeepsTable (before after : Server) : Prop :=
  ListsConnected before → ListsConnected after

theorem KeepsTable.of_same {before after : Server}
    (same : (after.tcpClients, after.connected) =
      (before.tcpClients, before.connected)) : KeepsTable before after := by
  obtain ⟨tcpClients, connected⟩ := Prod.ext_iff.mp same
  intro table clientFd
  rw [show after.tcpClients = before.tcpClients from tcpClients,
    show after.connected = before.connected from connected]
  exact table clientFd

theorem respected_keepsTable : Respected KeepsTable :=
  .of_clients (fun first second => second ∘ first) .of_same

theorem keepsTable_closeTcpClient (clientFd : Nat) :
    Within KeepsTable (closeTcpClient clientFd) := by
  intro server table other
  change (removeTcpClient clientFd server.tcpClients).live.count other =
    if other ∈ server.connected.erase clientFd then 1 else 0
  rw [live_removeTcpClient]
  by_cases same : other = clientFd
  · subst same
    rw [List.count_erase_self, table other]
    split <;> simp
  · rw [List.count_erase_of_ne same, table other]
    simp [same]

theorem live_acceptTcpConnection (context : RequestContext)
    (family : PeerFamily) (clientFd : Nat) (server : Server) :
    (exec (acceptTcpConnection context family clientFd)
        server).2.tcpClients.live =
      if server.tcpClients.count < maxClients then
        server.tcpClients.live ++ [clientFd]
      else server.tcpClients.live := by
  rw [← BoundedTable.length_live]
  exact BoundedTable.live_push _ _

/-- A new connection leaves the table exact if and only if there was room. -/
theorem listsConnected_acceptTcpConnection_iff {server : Server}
    (table : ListsConnected server) {clientFd : Nat}
    (fresh : clientFd ∉ server.connected) (context : RequestContext)
    (family : PeerFamily) :
    ListsConnected
        (exec (acceptTcpConnection context family clientFd) server).2 ↔
      server.connected.card < maxClients := by
  have connected :
      (exec (acceptTcpConnection context family clientFd) server).2.connected =
        insert clientFd server.connected := rfl
  rw [← table.count_eq_card]
  constructor
  · intro exact
    by_contra full
    have listed := exact clientFd
    rw [live_acceptTcpConnection, if_neg full, connected, table clientFd,
      if_neg fresh, if_pos (Finset.mem_insert_self _ _)] at listed
    cases listed
  · intro room other
    rw [live_acceptTcpConnection, if_pos room, connected, List.count_append,
      table other]
    by_cases same : other = clientFd
    · subst same
      simp [fresh]
    · simp [same, Ne.symm same]

section Runs

variable (parse : Bytes → Option Json)

/-- A connection that the server accepts finds fewer than `MAX_CLIENTS`
clients connected. -/
def Process.HasRoom (process : Process) : Event → Prop
  | .tcpConnection _ _ (some clientFd) =>
      process.fault = none → clientFd ∉ process.server.connected →
        process.server.connected.card < maxClients
  | _ => True

theorem keepsTable_recordUdpClient (client : UDPClientData) :
    Within KeepsTable (recordUdpClient client) :=
  fun _ => .of_same rfl

theorem keepsTable_updateSupplies (access : SegmentAccess) (request : Json) :
    Within KeepsTable (updateSupplies access request) :=
  (clients_updateSupplies access request).mono fun _ _ => .of_same

theorem keepsTable_handleEvent {event : Event}
    (other : ∀ context family clientFd,
      event ≠ .tcpConnection context family (some clientFd)) :
    Within KeepsTable (handleEvent parse event) :=
  respected_keepsTable.handleEvent parse
    (fun context family clientFd _ same _ =>
      (other context family clientFd same).elim)
    keepsTable_closeTcpClient (fun _ _ _ _ => keepsTable_recordUdpClient _)
    fun _ _ => keepsTable_updateSupplies _ _

/-- From an exact table, one event leads to an exact table if and only if it
is no connection that finds the table full. -/
theorem listsConnected_step_iff {process : Process} {event : Event}
    (table : ListsConnected process.server) :
    ListsConnected (process.step parse event).server ↔
      process.HasRoom event := by
  rcases process with ⟨server, fault⟩
  cases fault with
  | some fault =>
      apply iff_of_true table
      match event with
      | .tcpConnection _ _ (some _) => exact fun running => nomatch running
      | .tcpConnection _ _ none => trivial
      | .tcpActivity _ _ _ _ => trivial
      | .udpActivity _ _ _ => trivial
      | .unixActivity _ _ _ => trivial
      | .fifoActivity _ _ _ => trivial
  | none =>
      change ListsConnected
        (Process.after (exec (handleEvent parse event) server)).server ↔ _
      rw [Process.server_after]
      match event with
      | .tcpConnection context family (some clientFd) =>
          rw [handleEvent, exec_bind_of_ok (exec_get server)]
          by_cases present : clientFd ∈ server.connected
          · rw [if_pos present]
            exact iff_of_true table fun _ fresh => (fresh present).elim
          · rw [if_neg present,
              listsConnected_acceptTcpConnection_iff table present]
            simp [Process.HasRoom, present]
      | .tcpConnection context family none => exact iff_of_true table trivial
      | .tcpActivity _ _ _ _ =>
          exact iff_of_true
            (keepsTable_handleEvent parse (by simp) server table) trivial
      | .udpActivity _ _ _ =>
          exact iff_of_true
            (keepsTable_handleEvent parse (by simp) server table) trivial
      | .unixActivity _ _ _ =>
          exact iff_of_true
            (keepsTable_handleEvent parse (by simp) server table) trivial
      | .fifoActivity _ _ _ =>
          exact iff_of_true
            (keepsTable_handleEvent parse (by simp) server table) trivial

theorem listsConnected_initial (supplies : Supplies) :
    ListsConnected (.initial supplies) :=
  fun _ => rfl

/-- The table is exact and every broadcast complete in every state of a run if
and only if every connection that the run accepts finds room. -/
theorem serverRun_servesConnected_iff (supplies : Supplies)
    (events : List Event) :
    (∀ front, front <+: events →
        ServesConnected (serverRun parse supplies front).server) ↔
      GuardedRun (Process.step parse) Process.HasRoom
        (.running (.initial supplies)) events := by
  simp only [servesConnected_iff]
  constructor
  · intro exact
    refine guardedRun_iff.mpr fun front event initial => ?_
    have before := exact front ((List.prefix_append _ _).trans initial)
    have after := exact _ initial
    rw [serverRun_concat] at after
    exact (listsConnected_step_iff parse before).mp after
  · intro roomy front initial
    exact (roomy.of_prefix initial).invariant
      (fun process event table room =>
        (listsConnected_step_iff parse table).mpr room)
      (listsConnected_initial supplies)

end Runs

/-- The sixth of six connected clients is not in the table. -/
theorem not_serverRun_servesConnected :
    ¬ ∀ (parse : Bytes → Option Json) (supplies : Supplies)
      (events : List Event) (front : List Event), front <+: events →
      ServesConnected (serverRun parse supplies front).server := by
  intro serves
  have exact := (serves (fun _ => none) .zero
    ([8, 9, 10, 11, 12, 13].map fun clientFd =>
      .tcpConnection .attached .ipv6 (some clientFd)) _ List.prefix_rfl).table 13
  revert exact
  decide +kernel

end ShelterServer
