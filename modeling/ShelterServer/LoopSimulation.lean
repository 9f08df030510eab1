import ShelterServer.ConnectedClients
import ShelterServer.SelectPass

/-!
# The select loop and the events of a run

The loop over descriptors and the server that handles events describe the
same program at two levels.  Every handler that the loop calls is an event of
the server, after which both have the same client table and the same
connections; so an event is never about a descriptor that is in use twice or
not at all.
-/

namespace ShelterServer

open Foundations Faulting DescriptorTable

/-- The loop and the server have the same client table and connections. -/
structure Represents (loop : SelectLoop) (server : Server) : Prop where
  table : server.tcpClients = loop.tcpClients
  clients : ∀ fd, fd ∈ server.connected ↔ loop.IsClient fd

/-- What `accept` on the TCP socket returns. -/
def SelectLoop.acceptResult (answers : Answers) (loop : SelectLoop) :
    Option Nat :=
  if answers.accepts then
    (loop.files.openLowest fdSetSize (.tcpClient loop.accepted)).map Prod.fst
  else none

/-- The event of a dispatch: which handler is called, and what the system
calls that concern descriptors return. -/
inductive Reports (parse : Bytes → Option Json) (fds : ServerFds)
    (answers : Answers) (loop : SelectLoop) (server : Server) (fd : Nat) :
    Event → Prop
  | tcpConnection (context : RequestContext) (family : PeerFamily)
      (route : fds.route fd = .acceptTcpConnection) :
      Reports parse fds answers loop server fd
        (.tcpConnection context family (loop.acceptResult answers))
  | tcpActivity (context : RequestContext) (received : Received)
      (route : fds.route fd = .handleTcpSocketActivity)
      (served : answers.peername fd = true →
        (exec (checkTcpClientsMessages parse context fd received) server).1 =
          .ok (answers.served fd)) :
      Reports parse fds answers loop server fd
        (.tcpActivity context fd (answers.peername fd) received)
  | udpActivity (context : RequestContext) (datagram : Datagram)
      (route : fds.route fd = .handleUdpSocketActivity) :
      Reports parse fds answers loop server fd
        (.udpActivity context fd datagram)
  | unixActivity (context : RequestContext) (received : Received)
      (route : fds.route fd = .handleUnixSocketActivity) :
      Reports parse fds answers loop server fd
        (.unixActivity context answers.unixAccepts received)
  | fifoActivity (context : RequestContext) (received : Received)
      (route : fds.route fd = .checkAlerts) :
      Reports parse fds answers loop server fd
        (.fifoActivity context answers.fifoOpens received)

namespace Represents

variable {fds : ServerFds} {loop : SelectLoop} {server : Server}

/-- Steps that change neither the table nor the connections. -/
theorem of_same (represents : Represents loop server) {after : Server}
    (same : (after.tcpClients, after.connected) =
      (server.tcpClients, server.connected)) : Represents loop after := by
  obtain ⟨tcpClients, connected⟩ := Prod.ext_iff.mp same
  refine ⟨tcpClients.trans represents.table, fun fd => ?_⟩
  rw [show after.connected = server.connected from connected]
  exact represents.clients fd

theorem accept (represents : Represents loop server) {clientFd : Nat}
    {files : DescriptorTable OpenFile}
    (opened : Opened fdSetSize loop.files (.tcpClient loop.accepted) clientFd
      files) (context : RequestContext) (family : PeerFamily) :
    Represents (loop.withTcpClient clientFd files)
      (exec (acceptTcpConnection context family clientFd) server).2 where
  table := congrArg (addTcpClient clientFd) represents.table
  clients fd := by
    rw [Sound.isClient_withTcpClient opened, ← represents.clients]
    exact Finset.mem_insert

theorem close (represents : Represents loop server) (clientFd : Nat) :
    Represents (loop.closeTcpClient clientFd)
      (exec (closeTcpClient clientFd) server).2 where
  table := congrArg (removeTcpClient clientFd) represents.table
  clients fd := by
    rw [Sound.isClient_closeTcpClient, ← represents.clients]
    exact Finset.mem_erase

theorem notMem_connected (represents : Represents loop server)
    {clientFd : Nat} (free : loop.files clientFd = none) :
    clientFd ∉ server.connected := by
  rw [represents.clients]
  rintro ⟨connection, found⟩
  rw [free] at found
  cases found

theorem keepOrClose (represents : Represents loop server)
    (context : RequestContext) (clientFd : Nat) (served : Bool) :
    Represents (if served then loop else loop.closeTcpClient clientFd)
      (exec (keepOrClose context clientFd served) server).2 := by
  cases served with
  | true => exact represents
  | false =>
      refine close (represents.of_same ?_) clientFd
      exact respected_clients.of_quiet (quiet_logEvent _) server

variable {parse : Bytes → Option Json} {answers : Answers} {fd : Nat}

theorem tcpConnection (represents : Represents loop server)
    (context : RequestContext) (family : PeerFamily) :
    Represents (loop.acceptTcpConnection answers)
      (exec (handleEvent parse
        (.tcpConnection context family (loop.acceptResult answers)))
        server).2 := by
  unfold SelectLoop.acceptTcpConnection SelectLoop.acceptResult
  split
  · cases opens : loop.files.openLowest fdSetSize
        (.tcpClient loop.accepted) with
    | none => exact represents
    | some opening =>
        obtain ⟨clientFd, files⟩ := opening
        have opened := opened_of_openLowest opens
        have fresh := represents.notMem_connected opened.free
        simp only [Option.map_some, handleEvent]
        rw [exec_bind_of_ok (exec_get server), if_neg fresh]
        exact represents.accept opened context family
  · exact represents

theorem tcpActivity (represents : Represents loop server)
    (client : loop.IsClient fd) (context : RequestContext)
    (received : Received)
    (served : answers.peername fd = true →
      (exec (checkTcpClientsMessages parse context fd received) server).1 =
        .ok (answers.served fd)) :
    Represents (loop.handleTcpSocketActivity answers fd)
      (exec (handleEvent parse
        (.tcpActivity context fd (answers.peername fd) received)) server).2 := by
  have connected := (represents.clients fd).mpr client
  rw [handleEvent, exec_bind_of_ok (exec_get server), if_pos connected,
    SelectLoop.handleTcpSocketActivity, handleTcpSocketActivity]
  cases named : answers.peername fd with
  | false => exact represents.close fd
  | true =>
      have checked : exec (checkTcpClientsMessages parse context fd received)
          server = (.ok (answers.served fd), _) := Prod.ext (served named) rfl
      rw [if_pos rfl, if_pos rfl, exec_bind_of_ok checked]
      refine keepOrClose (represents.of_same ?_) context fd _
      exact respected_clients.checkTcpClientsMessages parse context fd
        (fun request _ _ _ => clients_updateSupplies _ request) server

theorem clients_handleUdpSocketActivity (context : RequestContext)
    (sockfd : Nat) (datagram : Datagram) :
    Within (fun before after =>
        (after.tcpClients, after.connected) =
          (before.tcpClients, before.connected))
      (handleUdpSocketActivity parse context sockfd datagram) := by
  refine respected_clients.bind ?_ fun _ => respected_clients.pure _
  exact respected_clients.udp.checkUdpClientsMessages parse context sockfd
    (fun _ => rfl) fun request _ _ _ => clients_updateSupplies _ request

/-- The handler that the loop calls and the handler of its event lead to the
same table and connections. -/
theorem handle (represents : Represents loop server)
    (sound : Sound fds loop) (watched : fd ∈ loop.masterFds) {event : Event}
    (reports : Reports parse fds answers loop server fd event) :
    Represents (loop.handle answers fd (fds.route fd))
      (exec (handleEvent parse event) server).2 := by
  cases reports with
  | tcpConnection context family route =>
      rw [route]
      exact represents.tcpConnection context family
  | tcpActivity context received route served =>
      have client := sound.isClient_of_route watched route
      rw [route]
      exact represents.tcpActivity client context received served
  | udpActivity context datagram route =>
      rw [route]
      exact represents.of_same
        (clients_handleUdpSocketActivity context fd datagram server)
  | unixActivity context received route =>
      rw [route, SelectLoop.handle, handleUnixSocketActivity_eq]
      exact represents.of_same (respected_clients.of_quiet
        (quiet_handleUnixConnection context _ received) server)
  | fifoActivity context received route =>
      rw [route, SelectLoop.handle, checkAlerts_eq]
      exact represents.of_same (respected_clients.of_quiet
        (quiet_checkAlerts context _ received) server)

end Represents

/-! ## Joint runs -/

/-- The loop and the server after the same dispatches of watched
descriptors. -/
inductive JointRun (parse : Bytes → Option Json) (used : Nat → Bool)
    (fds : ServerFds) : SelectLoop → Server → Prop
  | start {loop : SelectLoop} (supplies : Supplies)
      (starts : startServer used = some (fds, loop)) :
      JointRun parse used fds loop (.initial supplies)
  | dispatch {loop : SelectLoop} {server : Server} {answers : Answers}
      {fd : Nat} {event : Event} (before : JointRun parse used fds loop server)
      (watched : fd ∈ loop.masterFds)
      (reports : Reports parse fds answers loop server fd event) :
      JointRun parse used fds (loop.handle answers fd (fds.route fd))
        (exec (handleEvent parse event) server).2

theorem represents_initial {used : Nat → Bool} {fds : ServerFds}
    {loop : SelectLoop} (starts : startServer used = some (fds, loop))
    (supplies : Supplies) : Represents loop (.initial supplies) := by
  obtain ⟨files, _, none, _, rfl⟩ := startServer_eq_some starts
  refine ⟨rfl, fun fd => iff_of_false (Finset.notMem_empty fd) ?_⟩
  exact fun client => none fd _ client.choose_spec

/-- The two levels of the program agree after every joint run: the table and
the connections of the server are those of the loop, whose descriptors are in
order. -/
theorem JointRun.sound_and_represents {parse : Bytes → Option Json}
    {used : Nat → Bool} {fds : ServerFds} {loop : SelectLoop}
    {server : Server} (joint : JointRun parse used fds loop server) :
    Sound fds loop ∧ Represents loop server := by
  induction joint with
  | start supplies starts =>
      exact ⟨sound_startServer starts, represents_initial starts supplies⟩
  | dispatch _ watched reports induction =>
      obtain ⟨sound, represents⟩ := induction
      exact ⟨sound.handle watched _, represents.handle sound watched reports⟩

/-- A client is accepted and served, and the end of its stream closes it. -/
theorem sound_and_represents_of_closed :
    let answers := acceptsAndServes fun fd => fd ≠ 7
    let accepted := startedLoop.2.handle answers 3 (startedLoop.1.route 3)
    let connected := (exec (handleEvent (fun _ => none) (.tcpConnection
      .attached .ipv6 (startedLoop.2.acceptResult answers))) (.initial .zero)).2
    let closed := accepted.handle answers 7 (startedLoop.1.route 7)
    let disconnected := (exec (handleEvent (fun _ => none) (.tcpActivity
      .attached 7 (answers.peername 7) (.bytes []))) connected).2
    (connected.tcpClients.live = [7] ∧ disconnected.tcpClients.live = []) ∧
      Sound startedLoop.1 closed ∧ Represents closed disconnected := by
  intro answers accepted connected closed disconnected
  have joint : JointRun (fun _ => none) standardStreams startedLoop.1 accepted
      connected :=
    .dispatch (.start .zero startServer_standardStreams) (by decide +kernel)
      (.tcpConnection .attached .ipv6 (by decide +kernel))
  have ended : JointRun (fun _ => none) standardStreams startedLoop.1 closed
      disconnected :=
    .dispatch joint (by decide +kernel)
      (.tcpActivity .attached (.bytes []) (by decide +kernel) fun _ => rfl)
  exact ⟨by decide +kernel, JointRun.sound_and_represents ended⟩

end ShelterServer
