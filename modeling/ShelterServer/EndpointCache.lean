import ShelterServer.Effects

/-!
# The UDP client cache

The duplicate test of `add_udp_client` reads an IPv6 source through the IPv4
layout: where it looks for the address it finds the flow information, which is
zero.  The cache therefore identifies clients by their ports alone, and holds
the endpoints it should exactly as long as the ports of those differ.
-/

namespace ShelterServer

open Foundations Faulting

/-- The cache holds the first `MAX_CLIENTS` distinct endpoints among the
sources, in order of first arrival. -/
def HoldsFirstEndpoints (udpClients : UDPClientList)
    (sources : List SockaddrIn6) : Prop :=
  udpClients.live.map (fun client => client.clientAddr.endpoint) =
    (sources.map SockaddrIn6.endpoint).eraseDups.take maxClients

section Runs

variable (parse : Bytes → Option Json)

/-- The socket and the source of the parseable datagram that a running server
receives with an event. -/
def Process.hears (process : Process) : Event → List (Nat × SockaddrIn6)
  | .udpActivity _ sockfd datagram =>
      if process.fault = none ∧
          (udpRequest parse datagram.received).isSome = true then
        [(sockfd, datagram.source)]
      else []
  | _ => []

/-- The sources of the parseable datagrams of a run, in order of arrival. -/
def sourcesHeard (supplies : Supplies) (events : List Event) :
    List SockaddrIn6 :=
  (observe (Process.step parse) (Process.hears parse)
    (.running (.initial supplies)) events).map Prod.snd

/-- The entry made for a socket and a source. -/
def arrivalClient (arrival : Nat × SockaddrIn6) : UDPClientData :=
  ⟨arrival.1, arrival.2.storage, sockaddrIn6Size⟩

theorem respected_udpClients :
    Respected fun before after => after.udpClients = before.udpClients :=
  .of_view (fun _ _ => rfl) fun _ _ quiet => quiet.udpClients

theorem udpClients_updateSupplies (access : SegmentAccess) (request : Json) :
    Within (fun before after => after.udpClients = before.udpClients)
      (updateSupplies access request) := by
  intro start
  rw [updateSupplies, exec_bind_of_ok (exec_modify _ _),
    exec_bind_of_ok (exec_get _)]
  split <;> rfl

theorem udpClients_acceptTcpConnection (context : RequestContext)
    (family : PeerFamily) (clientFd : Nat) :
    Within (fun before after => after.udpClients = before.udpClients)
      (acceptTcpConnection context family clientFd) :=
  fun _ => rfl

theorem udpClients_closeTcpClient (clientFd : Nat) :
    Within (fun before after => after.udpClients = before.udpClients)
      (closeTcpClient clientFd) :=
  fun _ => rfl

/-- The cache after a datagram that parses. -/
theorem live_handleUdpJson (context : RequestContext) (sockfd : Nat)
    (datagram : Datagram) (request : Json) (server : Server) :
    (exec (handleUdpJson context sockfd datagram request)
        server).2.udpClients.live =
      keepFirst UDPClientData.comparedKey maxClients server.udpClients.live
        (datagram.client sockfd) := by
  rw [handleUdpJson, recordUdpClient, exec_bind_of_ok (exec_modify _ _),
    ← live_addUdpClient]
  congr 1
  split
  · rfl
  · split
    · rfl
    · exact respected_udpClients.udp.answerUdpRequest context _
        (fun _ _ => udpClients_updateSupplies _ _) _

theorem live_handleUdpSocketActivity (context : RequestContext) (sockfd : Nat)
    (datagram : Datagram) (server : Server) :
    (exec (handleUdpSocketActivity parse context sockfd datagram)
        server).2.udpClients.live =
      if (udpRequest parse datagram.received).isSome = true then
        keepFirst UDPClientData.comparedKey maxClients server.udpClients.live
          (datagram.client sockfd)
      else server.udpClients.live := by
  have final : (exec (handleUdpSocketActivity parse context sockfd datagram)
      server).2 =
        (exec (checkUdpClientsMessages parse context sockfd datagram)
          server).2 := by
    rw [handleUdpSocketActivity, exec_bind]
    rcases exec (checkUdpClientsMessages parse context sockfd datagram) server
      with ⟨result, state⟩
    cases result <;> rfl
  rw [final, checkUdpClientsMessages, receiveUdpJson_eq, pure_bind]
  cases udpRequest parse datagram.received with
  | none => rfl
  | some request =>
      exact live_handleUdpJson context sockfd datagram request server

theorem udpClients_handleEvent {event : Event}
    (other : ∀ context sockfd datagram,
      event ≠ .udpActivity context sockfd datagram) :
    Within (fun before after => after.udpClients = before.udpClients)
      (handleEvent parse event) :=
  respected_udpClients.handleEvent parse
    (fun context family clientFd start _ _ =>
      udpClients_acceptTcpConnection context family clientFd start)
    udpClients_closeTcpClient
    (fun context sockfd datagram same =>
      (other context sockfd datagram same).elim)
    fun _ _ => udpClients_updateSupplies _ _

/-- The cache after one event of a run. -/
theorem live_step (process : Process) (event : Event) :
    (process.step parse event).server.udpClients.live =
      ((process.hears parse event).map arrivalClient).foldl
        (keepFirst UDPClientData.comparedKey maxClients)
        process.server.udpClients.live := by
  rcases process with ⟨server, fault⟩
  cases fault with
  | some fault =>
      cases event <;> simp [Process.step, Process.hears]
  | none =>
      change (Process.after _).server.udpClients.live = _
      rw [Process.server_after]
      cases event with
      | udpActivity context sockfd datagram =>
          simp only [handleEvent, live_handleUdpSocketActivity, Process.hears,
            true_and]
          split <;> rfl
      | tcpConnection context family accepted =>
          rw [udpClients_handleEvent parse (by simp) server]
          rfl
      | tcpActivity context clientFd peername received =>
          rw [udpClients_handleEvent parse (by simp) server]
          rfl
      | unixActivity context accepted received =>
          rw [udpClients_handleEvent parse (by simp) server]
          rfl
      | fifoActivity context opened received =>
          rw [udpClients_handleEvent parse (by simp) server]
          rfl

/-- The cache collects the sources by what `add_udp_client` compares. -/
theorem live_serverRun (supplies : Supplies) (events : List Event) :
    (serverRun parse supplies events).server.udpClients.live =
      (collect (UDPClientData.comparedKey ∘ arrivalClient) maxClients
        (observe (Process.step parse) (Process.hears parse)
          (.running (.initial supplies)) events)).map arrivalClient := by
  rw [← collect_map]
  induction events using List.reverseRecOn with
  | nil => rfl
  | append_singleton events event induction =>
      rw [observe_concat, List.map_append, collect_append, ← induction,
        serverRun_concat]
      exact live_step parse _ event

/-- What `add_udp_client` compares of a source with this endpoint. -/
def Endpoint.comparedKey (endpoint : Endpoint) : Bytes × Bytes :=
  ([0, 0, 0, 0], endpoint.port)

theorem Endpoint.nodup_map_comparedKey {endpoints : List Endpoint} :
    (endpoints.map Endpoint.comparedKey).Nodup ↔
      (endpoints.map Endpoint.port).Nodup := by
  have ports : endpoints.map Endpoint.comparedKey =
      (endpoints.map Endpoint.port).map (Prod.mk [0, 0, 0, 0]) := by
    rw [List.map_map]
    rfl
  rw [ports, List.nodup_map_iff (Prod.mk_right_injective _)]

theorem comparedKey_arrivalClient (arrival : Nat × SockaddrIn6) :
    (UDPClientData.comparedKey ∘ arrivalClient) arrival =
      Endpoint.comparedKey ((SockaddrIn6.endpoint ∘ Prod.snd) arrival) := by
  simp only [Function.comp_apply, UDPClientData.comparedKey, arrivalClient,
    SockaddrIn6.sinAddr_storage, SockaddrIn6.sinPort_storage,
    SockaddrIn6.endpoint, Endpoint.comparedKey]

theorem sourcesHeard_prefix (supplies : Supplies) {front events : List Event}
    (initial : front <+: events) :
    sourcesHeard parse supplies front <+: sourcesHeard parse supplies events := by
  obtain ⟨back, rfl⟩ := initial
  induction back using List.reverseRecOn with
  | nil => simp
  | append_singleton back event induction =>
      apply induction.trans
      rw [sourcesHeard, sourcesHeard, ← List.append_assoc, observe_concat,
        List.map_append]
      exact List.prefix_append _ _

theorem holdsFirstEndpoints_iff (supplies : Supplies) (events : List Event) :
    HoldsFirstEndpoints (serverRun parse supplies events).server.udpClients
        (sourcesHeard parse supplies events) ↔
      ((((sourcesHeard parse supplies events).map
        SockaddrIn6.endpoint).eraseDups.take maxClients).map
          Endpoint.port).Nodup := by
  have identifies := collect_identifies_iff comparedKey_arrivalClient
    maxClients (observe (Process.step parse) (Process.hears parse)
      (.running (.initial supplies)) events)
  have endpoints :
      (fun client : UDPClientData => client.clientAddr.endpoint) ∘
          arrivalClient =
        SockaddrIn6.endpoint ∘ Prod.snd :=
    funext fun arrival => arrival.2.endpoint_storage
  rw [HoldsFirstEndpoints, live_serverRun, List.map_map, endpoints,
    sourcesHeard, List.map_map, ← Endpoint.nodup_map_comparedKey]
  exact identifies

/-- In every state of a run the cache holds the first distinct endpoints heard
so far if and only if the first distinct endpoints of the whole run have
distinct ports. -/
theorem udpClients_holdFirstEndpoints_iff (supplies : Supplies)
    (events : List Event) :
    (∀ front, front <+: events →
        HoldsFirstEndpoints (serverRun parse supplies front).server.udpClients
          (sourcesHeard parse supplies front)) ↔
      ((((sourcesHeard parse supplies events).map
        SockaddrIn6.endpoint).eraseDups.take maxClients).map
          Endpoint.port).Nodup := by
  constructor
  · intro holds
    exact (holdsFirstEndpoints_iff parse supplies events).mp
      (holds events List.prefix_rfl)
  · intro distinct front initial
    rw [holdsFirstEndpoints_iff]
    have sources := sourcesHeard_prefix parse supplies initial
    have firsts := (collect_isPrefix SockaddrIn6.endpoint maxClients sources).map
      SockaddrIn6.endpoint
    rw [collect_keys, collect_keys] at firsts
    exact (firsts.map Endpoint.port).sublist.nodup distinct

end Runs

/-- Of two clients with one port, the second is taken for the first. -/
theorem not_udpClients_holdFirstEndpoints :
    ¬ ∀ (parse : Bytes → Option Json) (supplies : Supplies)
      (events : List Event) (front : List Event), front <+: events →
      HoldsFirstEndpoints (serverRun parse supplies front).server.udpClients
        (sourcesHeard parse supplies front) := by
  intro holds
  let parse : Bytes → Option Json := fun text =>
    if text = ascii "\x7b\x7d" then some (.object []) else none
  let event : SockaddrIn6 → Event := fun source =>
    .udpActivity .attached 4 ⟨.bytes (ascii "\x7b\x7d"), source⟩
  have firsts := holds parse .zero [event .loopback, event .neighbour] _
    List.prefix_rfl
  rw [holdsFirstEndpoints_iff] at firsts
  revert firsts
  decide

end ShelterServer
