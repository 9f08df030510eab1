import ShelterServer.ConnectedClients
import ShelterServer.EmergencyRecord
import ShelterServer.EndpointCache
import ShelterServer.Faults

/-!
# Notices of an emergency

An infection alert is announced to the clients of both tables and recorded.
An electricity failure is announced to the TCP clients alone and not recorded,
so every emergency of a run is handled in full exactly when the failures among
them find no UDP client and a record that already shows them.
-/

namespace ShelterServer

open Foundations Faulting

/-! ## The TCP table -/

/-- The table lists connected clients only, each at most once. -/
def ListsOnlyConnected (server : Server) : Prop :=
  ∀ clientFd, server.tcpClients.live.count clientFd ≤
    if clientFd ∈ server.connected then 1 else 0

theorem ListsOnlyConnected.nodup {server : Server}
    (table : ListsOnlyConnected server) : server.tcpClients.live.Nodup := by
  rw [List.nodup_iff_count_le_one]
  intro clientFd
  have listed := table clientFd
  split at listed <;> omega

def KeepsListing (before after : Server) : Prop :=
  ListsOnlyConnected before → ListsOnlyConnected after

theorem KeepsListing.of_same {before after : Server}
    (same : (after.tcpClients, after.connected) =
      (before.tcpClients, before.connected)) : KeepsListing before after := by
  obtain ⟨tcpClients, connected⟩ := Prod.ext_iff.mp same
  intro table clientFd
  rw [show after.tcpClients = before.tcpClients from tcpClients,
    show after.connected = before.connected from connected]
  exact table clientFd

theorem respected_keepsListing : Respected KeepsListing :=
  .of_clients (fun first second => second ∘ first) .of_same

theorem keepsListing_closeTcpClient (clientFd : Nat) :
    Within KeepsListing (closeTcpClient clientFd) := by
  intro server table other
  change (removeTcpClient clientFd server.tcpClients).live.count other ≤
    if other ∈ server.connected.erase clientFd then 1 else 0
  rw [live_removeTcpClient]
  have listed := table other
  by_cases same : other = clientFd
  · subst same
    rw [List.count_erase_self]
    split at listed <;> simp <;> omega
  · rw [List.count_erase_of_ne same]
    simpa [same] using listed

theorem keepsListing_acceptTcpConnection {clientFd : Nat} {server : Server}
    (fresh : clientFd ∉ server.connected) (context : RequestContext)
    (family : PeerFamily) :
    KeepsListing server
      (exec (acceptTcpConnection context family clientFd) server).2 := by
  intro table other
  have connected :
      (exec (acceptTcpConnection context family clientFd) server).2.connected =
        insert clientFd server.connected := rfl
  have listed := table other
  rw [live_acceptTcpConnection, connected]
  by_cases same : other = clientFd
  · subst same
    rw [if_neg fresh] at listed
    split <;> simp <;> omega
  · split
    · simpa [same, Ne.symm same] using listed
    · simpa [same] using listed

section Runs

variable (parse : Bytes → Option Json)

theorem keepsListing_handleEvent (event : Event) :
    Within KeepsListing (handleEvent parse event) :=
  respected_keepsListing.handleEvent parse
    (fun context family _ _ _ fresh =>
      keepsListing_acceptTcpConnection fresh context family)
    keepsListing_closeTcpClient (fun _ _ _ _ _ => .of_same rfl)
    fun _ _ => (clients_updateSupplies _ _).mono fun _ _ => .of_same

theorem listsOnlyConnected_serverRun (supplies : Supplies)
    (events : List Event) :
    ListsOnlyConnected (serverRun parse supplies events).server := by
  induction events using List.reverseRecOn with
  | nil => exact fun _ => Nat.zero_le _
  | append_singleton events event induction =>
      rw [serverRun_concat, Process.step]
      split
      · rw [Process.server_after]
        exact keepsListing_handleEvent parse event _ induction
      · exact induction

/-- The UDP table lists no address twice. -/
theorem nodup_udpClients_serverRun (supplies : Supplies)
    (events : List Event) :
    ((serverRun parse supplies events).server.udpClients.live.map
      fun client => client.clientAddr.bytes).Nodup := by
  have keys := collect_keys_nodup (UDPClientData.comparedKey ∘ arrivalClient)
    maxClients (observe (Process.step parse) (Process.hears parse)
      (.running (.initial supplies)) events)
  rw [← List.map_map, ← live_serverRun] at keys
  refine .of_map (fun bytes => ((bytes.drop 4).take 4, (bytes.drop 2).take 2)) ?_
  rw [List.map_map]
  exact keys

end Runs

/-! ## Emergencies -/

/-- The text of the emergency that an event announces: an alert from the FIFO,
or a failure from the Unix socket. -/
def Event.emergency : Event → Option Bytes
  | .fifoActivity context true (.bytes (byte :: data)) =>
      (checkAlertsBuffer (byte :: data)).map fun buffer =>
        buffer.text context.behindStack
  | .unixActivity _ true (.bytes (byte :: data)) =>
      some (untilNul (byte :: data))
  | _ => none

theorem Event.emergency_cases {event : Event} {emergency : Bytes}
    (announced : event.emergency = some emergency) :
    (∃ context opened received,
      event = .fifoActivity context opened received) ∨
      ∃ context byte data,
        event = .unixActivity context true (.bytes (byte :: data)) ∧
          untilNul (byte :: data) = emergency := by
  unfold Event.emergency at announced
  split at announced
  · exact Or.inl ⟨_, _, _, rfl⟩
  · exact Or.inr ⟨_, _, _, rfl, Option.some.inj announced⟩
  · cases announced

/-- The descriptors to which notifications were sent. -/
def notifiedTcp (actions : List Action) : List Nat :=
  actions.filterMap fun action =>
    match action with
    | .sendTcp clientFd _ => some clientFd
    | _ => none

/-- The addresses to which notifications were sent. -/
def notifiedUdp (actions : List Action) : List Bytes :=
  actions.filterMap fun action =>
    match action with
    | .sendUdp client _ => some client.clientAddr.bytes
    | _ => none

/-- Every listed client is sent one notification. -/
def NotifiesOnce (server : Server) (actions : List Action) : Prop :=
  (∀ clientFd ∈ server.tcpClients.live,
      (notifiedTcp actions).count clientFd = 1) ∧
    ∀ client ∈ server.udpClients.live,
      (notifiedUdp actions).count client.clientAddr.bytes = 1

theorem notifiedTcp_append (front back : List Action) :
    notifiedTcp (front ++ back) = notifiedTcp front ++ notifiedTcp back :=
  List.filterMap_append

theorem notifiedUdp_append (front back : List Action) :
    notifiedUdp (front ++ back) = notifiedUdp front ++ notifiedUdp back :=
  List.filterMap_append

theorem notifiedTcp_sendToAllTcpClients (clients : List Nat)
    (message : Bytes) :
    notifiedTcp (clients.map fun clientFd => .sendTcp clientFd message) =
      clients := by
  induction clients with
  | nil => rfl
  | cons clientFd clients induction =>
      exact congrArg (List.cons clientFd) induction

theorem notifiedUdp_sendToAllTcpClients (clients : List Nat)
    (message : Bytes) :
    notifiedUdp (clients.map fun clientFd => .sendTcp clientFd message) =
      [] := by
  induction clients with
  | nil => rfl
  | cons clientFd clients induction => exact induction

theorem notifiedTcp_sendToAllUdpClients (clients : List UDPClientData)
    (message : Bytes) :
    notifiedTcp (clients.map fun client => .sendUdp client message) = [] := by
  induction clients with
  | nil => rfl
  | cons client clients induction => exact induction

theorem notifiedUdp_sendToAllUdpClients (clients : List UDPClientData)
    (message : Bytes) :
    notifiedUdp (clients.map fun client => .sendUdp client message) =
      clients.map fun client => client.clientAddr.bytes := by
  induction clients with
  | nil => rfl
  | cons client clients induction =>
      exact congrArg (List.cons client.clientAddr.bytes) induction

/-- What `check_alerts` does to the outside. -/
def alertActions (server : Server) (message : Bytes) : List Action :=
  [.logEvent message] ++
    (server.tcpClients.live.map fun clientFd => .sendTcp clientFd message) ++
    (server.udpClients.live.map fun client => .sendUdp client message) ++
    [.logEvent (ascii "Sent alert notification to all connected clients")]

theorem trace_announceAlert (timestamp message : Bytes) (server : Server) :
    (exec (announceAlert timestamp message) server).2.trace =
      server.trace ++ alertActions server message := by
  simp only [announceAlert, logEvent, recordEmergency, sendToAllTcpClients,
    sendToAllUdpClients, exec_bind, exec_modify]
  split <;> simp [alertActions, Server.act, countAlert]

theorem notifiesOnce_alertActions {server : Server}
    (tcp : server.tcpClients.live.Nodup)
    (udp : (server.udpClients.live.map fun client =>
      client.clientAddr.bytes).Nodup) (message : Bytes) :
    NotifiesOnce server (alertActions server message) := by
  have toTcp : notifiedTcp (alertActions server message) =
      server.tcpClients.live := by
    simp only [alertActions, notifiedTcp_append,
      notifiedTcp_sendToAllTcpClients, notifiedTcp_sendToAllUdpClients]
    simp [notifiedTcp]
  have toUdp : notifiedUdp (alertActions server message) =
      server.udpClients.live.map fun client => client.clientAddr.bytes := by
    simp only [alertActions, notifiedUdp_append,
      notifiedUdp_sendToAllTcpClients, notifiedUdp_sendToAllUdpClients]
    simp [notifiedUdp]
  refine ⟨fun clientFd listed => ?_, fun client listed => ?_⟩
  · rw [toTcp]
    exact List.count_eq_one_of_mem tcp listed
  · rw [toUdp]
    exact List.count_eq_one_of_mem udp (List.mem_map_of_mem listed)

section Handling

variable (parse : Bytes → Option Json)

/-- A process handles an event that announces an emergency in full: every
listed client is notified once, and until a later event is recorded the record
shows as much of the emergency as its field can hold. -/
structure Process.Announces (process : Process) (event : Event)
    (emergency : Bytes) : Prop where
  returns : (process.step parse event).fault = none
  notified : ∃ actions, (process.step parse event).server.trace =
    process.server.trace ++ actions ∧ NotifiesOnce process.server actions
  reported : ∀ later, observe (Process.step parse)
      (fun process event => (process.recordedEvent parse event).toList)
      (process.step parse event) later = [] →
    (run (Process.step parse) (process.step parse event)
        later).server.emergencyInfo.lastEvent = .strncpy 100 emergency

/-- An electricity failure is announced in a block shorter than the buffer,
while no UDP client is listed and the record shows the failure already. -/
def Process.KnowsFailure (process : Process) : Event → Prop
  | .unixActivity _ true (.bytes (byte :: data)) =>
      process.fault = none →
        (byte :: data).length < bufferSize ∧
          process.server.udpClients.live = [] ∧
          process.server.emergencyInfo.lastEvent =
            .strncpy 100 (untilNul (byte :: data))
  | _ => True

theorem announces_fifoActivity {process : Process}
    (running : process.fault = none)
    (tcp : process.server.tcpClients.live.Nodup)
    (udp : (process.server.udpClients.live.map fun client =>
      client.clientAddr.bytes).Nodup)
    {context : RequestContext} {opened : Bool} {received : Received}
    {emergency : Bytes}
    (announced : (Event.fifoActivity context opened received).emergency =
      some emergency) :
    process.Announces parse (.fifoActivity context opened received)
      emergency := by
  rcases process with ⟨server, fault⟩
  obtain rfl : fault = none := running
  match opened, received, announced with
  | true, .bytes (byte :: data), announced =>
      rw [Event.emergency] at announced
      obtain ⟨buffer, stored, rfl⟩ := Option.map_eq_some_iff.mp announced
      have handled : Process.step parse ⟨server, none⟩
          (.fifoActivity context true (.bytes (byte :: data))) =
          .after (exec (announceAlert context.timestamp
            (buffer.text context.behindStack)) server) := by
        simp only [Process.step, handleEvent, checkAlerts, if_true, stored]
      have returned : ∃ state, exec (announceAlert context.timestamp
          (buffer.text context.behindStack)) server = (.ok ⟨⟩, state) := by
        simp only [announceAlert, logEvent, recordEmergency,
          sendToAllTcpClients, sendToAllUdpClients, exec_bind, exec_modify]
        split
        · exact ⟨_, rfl⟩
        · exact ⟨_, rfl⟩
      refine ⟨?_, ⟨alertActions server (buffer.text context.behindStack), ?_,
        notifiesOnce_alertActions tcp udp _⟩, fun later silent => ?_⟩
      · obtain ⟨state, executed⟩ := returned
        rw [handled, executed]
        rfl
      · rw [handled, Process.server_after, trace_announceAlert]
      · rw [emergencyInfo_run_of_silent parse silent, handled,
          Process.server_after, emergencyInfo_announceAlert]
        rfl

theorem exec_handleUnixConnection_of_lt {data : Bytes} (nonempty : data ≠ [])
    (room : data.length < bufferSize) (context : RequestContext)
    (server : Server) :
    exec (handleUnixConnection context true (.bytes data)) server =
      (.ok ⟨⟩, server.act
        ((server.tcpClients.live.map fun clientFd =>
          .sendTcp clientFd disconnectMessage) ++
          [.logEvent (untilNul data)])) := by
  obtain ⟨byte, rest, rfl⟩ := List.exists_cons_of_ne_nil nonempty
  obtain ⟨buffer, stored, _, text⟩ :=
    receiveAndTerminate_of_lt le_rfl room.le room context.stack
  simp only [handleUnixConnection, if_true, handleUnixConnectionBuffer, stored,
    text, sendToAllTcpClients, logEvent, exec_bind, exec_modify, Server.act,
    List.append_assoc]

theorem announces_unixActivity_iff {process : Process}
    (running : process.fault = none)
    (tcp : process.server.tcpClients.live.Nodup)
    (context : RequestContext) (byte : UInt8) (data : Bytes) :
    process.Announces parse (.unixActivity context true (.bytes (byte :: data)))
        (untilNul (byte :: data)) ↔
      process.KnowsFailure
        (.unixActivity context true (.bytes (byte :: data))) := by
  rcases process with ⟨server, fault⟩
  obtain rfl : fault = none := running
  simp only [Process.KnowsFailure, true_imp_iff]
  by_cases room : (byte :: data).length < bufferSize
  · have handled : Process.step parse ⟨server, none⟩
        (.unixActivity context true (.bytes (byte :: data))) =
        .running (server.act
          ((server.tcpClients.live.map fun clientFd =>
            .sendTcp clientFd disconnectMessage) ++
            [.logEvent (untilNul (byte :: data))])) := by
      rw [Process.step, handleEvent,
        exec_handleUnixConnection_of_lt (by simp) room]
      rfl
    constructor
    · intro announces
      obtain ⟨actions, trace, notified⟩ := announces.notified
      refine ⟨room, ?_, ?_⟩
      · rw [handled] at trace
        obtain rfl := List.append_cancel_left trace
        by_contra listed
        obtain ⟨client, member⟩ := List.exists_mem_of_ne_nil _ listed
        have once := notified.2 client member
        rw [notifiedUdp_append, notifiedUdp_sendToAllTcpClients] at once
        cases once
      · have shown := announces.reported [] rfl
        rw [handled] at shown
        exact shown
    · rintro ⟨_, unlisted, shown⟩
      refine ⟨by rw [handled]; rfl, ⟨_, by rw [handled]; rfl, ?_, ?_⟩, ?_⟩
      · intro clientFd listed
        rw [notifiedTcp_append, notifiedTcp_sendToAllTcpClients]
        simpa [notifiedTcp] using List.count_eq_one_of_mem tcp listed
      · intro client listed
        rw [show server.udpClients.live = [] from unlisted] at listed
        cases listed
      · intro later silent
        rw [emergencyInfo_run_of_silent parse silent, handled]
        exact shown
  · refine iff_of_false (fun announces => ?_) fun both => room both.1
    have refused : receiveAndTerminate bufferSize le_rfl context.stack
        (byte :: data) = none :=
      receiveAndTerminate_eq_none (Nat.le_of_not_lt room)
    have returned := announces.returns
    simp only [Process.step, handleEvent, handleUnixConnection, if_true,
      handleUnixConnectionBuffer, refused, exec_throw, Process.after] at returned
    cases returned

end Handling

/-- `FAILURE_MESSAGE`. -/
def failureMessage : Bytes :=
  ascii "Electricity failure. Disconnecting all clients."

end ShelterServer
