import ShelterServer.SelectLoop

/-!
# Soundness of the descriptor bookkeeping

The set handed to `select`, its bound and the client table agree with the
kernel's table.  This module states the invariant that relates them and shows
that `start_server` establishes it and every handler keeps it.
-/

namespace ShelterServer

open Foundations DescriptorTable

/-- The server's own descriptors refer to their files, in ascending order, and
none below the last is free. -/
structure ServerFds.Established (fds : ServerFds)
    (files : DescriptorTable OpenFile) : Prop where
  tcp_lt_udp : fds.tcpSocketFd < fds.udpSocketFd
  udp_lt_unix : fds.udpSocketFd < fds.unixSocketFd
  unix_lt_fifo : fds.unixSocketFd < fds.fifoFd
  tcpSocket : files fds.tcpSocketFd = some .tcpSocket
  udpSocket : files fds.udpSocketFd = some .udpSocket
  unixSocket : files fds.unixSocketFd = some .unixSocket
  fifo : files fds.fifoFd = some .fifo
  filled : files.FilledBelow (fds.fifoFd + 1)

theorem ServerFds.mem_all {fds : ServerFds} {fd : Nat} :
    fd ∈ fds.all ↔ fd = fds.tcpSocketFd ∨ fd = fds.udpSocketFd ∨
      fd = fds.unixSocketFd ∨ fd = fds.fifoFd := by
  simp [ServerFds.all]

namespace ServerFds.Established

variable {fds : ServerFds} {files after : DescriptorTable OpenFile}

theorem of_same (established : fds.Established files)
    (same : ∀ fd ≤ fds.fifoFd, after fd = files fd) :
    fds.Established after := by
  have tcp_lt_udp := established.tcp_lt_udp
  have udp_lt_unix := established.udp_lt_unix
  have unix_lt_fifo := established.unix_lt_fifo
  refine ⟨tcp_lt_udp, udp_lt_unix, unix_lt_fifo, ?_, ?_, ?_, ?_, ?_⟩
  · rw [same _ (by omega), established.tcpSocket]
  · rw [same _ (by omega), established.udpSocket]
  · rw [same _ (by omega), established.unixSocket]
  · rw [same _ le_rfl, established.fifo]
  · intro lower below
    rw [same lower (Nat.le_of_lt_succ below)]
    exact established.filled lower below

theorem between (established : fds.Established files) {fd : Nat}
    (server : fd ∈ fds.all) : fds.tcpSocketFd ≤ fd ∧ fd ≤ fds.fifoFd := by
  have tcp_lt_udp := established.tcp_lt_udp
  have udp_lt_unix := established.udp_lt_unix
  have unix_lt_fifo := established.unix_lt_fifo
  rcases ServerFds.mem_all.mp server with rfl | rfl | rfl | rfl <;> omega

/-- The tests of the loop lead to the handler of the descriptor's file. -/
theorem route_eq (established : fds.Established files) {fd : Nat}
    (server : fd ∈ fds.all) :
    ∃ file, files fd = some file ∧ file.route = some (fds.route fd) := by
  have tcp_lt_udp := established.tcp_lt_udp
  have udp_lt_unix := established.udp_lt_unix
  have unix_lt_fifo := established.unix_lt_fifo
  rcases ServerFds.mem_all.mp server with rfl | rfl | rfl | rfl
  · exact ⟨_, established.tcpSocket, by simp [ServerFds.route, OpenFile.route]⟩
  · refine ⟨_, established.udpSocket, ?_⟩
    rw [ServerFds.route, if_neg (by omega), if_pos rfl]
    rfl
  · refine ⟨_, established.unixSocket, ?_⟩
    rw [ServerFds.route, if_neg (by omega), if_neg (by omega), if_pos rfl]
    rfl
  · refine ⟨_, established.fifo, ?_⟩
    rw [ServerFds.route, if_neg (by omega), if_neg (by omega),
      if_neg (by omega), if_pos rfl]
    rfl

end ServerFds.Established

theorem ServerFds.route_of_notMem {fds : ServerFds} {fd : Nat}
    (client : fd ∉ fds.all) : fds.route fd = .handleTcpSocketActivity := by
  simp only [ServerFds.mem_all, not_or] at client
  rw [ServerFds.route, if_neg client.1, if_neg client.2.1,
    if_neg client.2.2.1, if_neg client.2.2.2]

/-- The descriptor of an accepted connection that is not yet closed. -/
def SelectLoop.IsClient (loop : SelectLoop) (fd : Nat) : Prop :=
  ∃ connection, loop.files fd = some (.tcpClient connection)

/-- What holds of the bookkeeping at every call of `select`. -/
structure Bookkeeping (fds : ServerFds) (loop : SelectLoop) : Prop where
  established : fds.Established loop.files
  distinct : ∀ fd other connection,
    loop.files fd = some (.tcpClient connection) →
    loop.files other = some (.tcpClient connection) → fd = other
  exact : ∀ fd, fd ∈ loop.masterFds ↔ fd ∈ fds.all ∨ loop.IsClient fd
  opened : ∀ fd ∈ loop.masterFds, (loop.files fd).isSome
  bounds : ∀ fd ∈ loop.masterFds,
    fds.tcpSocketFd ≤ fd ∧ fd ≤ loop.maxFd
  listed : ∀ fd ∈ loop.tcpClients.live, loop.IsClient fd
  once : loop.tcpClients.live.Nodup

/-- The invariant of the loop. -/
structure Sound (fds : ServerFds) (loop : SelectLoop) : Prop where
  established : fds.Established loop.files
  above : ∀ fd, loop.IsClient fd → fds.fifoFd < fd
  exact : ∀ fd, fd ∈ loop.masterFds ↔ fd ∈ fds.all ∨ loop.IsClient fd
  bounded : ∀ fd ∈ loop.masterFds, fd ≤ loop.maxFd
  limited : loop.maxFd < fdSetSize
  listed : ∀ fd ∈ loop.tcpClients.live, loop.IsClient fd
  once : loop.tcpClients.live.Nodup
  numbered : ∀ fd connection,
    loop.files fd = some (.tcpClient connection) → connection < loop.accepted
  distinct : ∀ fd other connection,
    loop.files fd = some (.tcpClient connection) →
    loop.files other = some (.tcpClient connection) → fd = other

namespace Sound

variable {fds : ServerFds} {loop : SelectLoop}

/-- A descriptor in the set refers to a file that the loop hands to its
handler. -/
theorem route_eq (sound : Sound fds loop) {fd : Nat}
    (member : fd ∈ loop.masterFds) :
    ∃ file, loop.files fd = some file ∧ file.route = some (fds.route fd) := by
  by_cases server : fd ∈ fds.all
  · exact sound.established.route_eq server
  · obtain ⟨connection, found⟩ :=
      ((sound.exact fd).mp member).resolve_left server
    exact ⟨_, found, by rw [ServerFds.route_of_notMem server]; rfl⟩

theorem isClient_of_route (sound : Sound fds loop) {fd : Nat}
    (member : fd ∈ loop.masterFds)
    (route : fds.route fd = .handleTcpSocketActivity) : loop.IsClient fd := by
  obtain ⟨file, found, serves⟩ := sound.route_eq member
  rw [route] at serves
  cases file with
  | tcpClient connection => exact ⟨connection, found⟩
  | _ => cases serves

theorem bookkeeping (sound : Sound fds loop) : Bookkeeping fds loop where
  established := sound.established
  distinct := sound.distinct
  exact := sound.exact
  opened fd member := by
    obtain ⟨file, found, _⟩ := sound.route_eq member
    rw [found]
    rfl
  bounds fd member := by
    refine ⟨?_, sound.bounded fd member⟩
    rcases (sound.exact fd).mp member with server | client
    · exact (sound.established.between server).1
    · have fifo := sound.established.between
        (ServerFds.mem_all.mpr (.inr (.inr (.inr rfl))))
      exact fifo.1.trans (sound.above fd client).le
  listed := sound.listed
  once := sound.once

/-! ## Handlers -/

section Accept

variable {clientFd : Nat} {files : DescriptorTable OpenFile}

theorem client_iff_of_opened
    (opened : Opened fdSetSize loop.files (.tcpClient loop.accepted) clientFd
      files) (fd connection : Nat) :
    files fd = some (.tcpClient connection) ↔
      fd = clientFd ∧ connection = loop.accepted ∨
        loop.files fd = some (.tcpClient connection) := by
  by_cases same : fd = clientFd
  · simp [same, opened.found, opened.free, eq_comm]
  · simp [same, opened.others fd same]

theorem isClient_withTcpClient
    (opened : Opened fdSetSize loop.files (.tcpClient loop.accepted) clientFd
      files) (fd : Nat) :
    (loop.withTcpClient clientFd files).IsClient fd ↔
      fd = clientFd ∨ loop.IsClient fd := by
  change (∃ connection, files fd = some (.tcpClient connection)) ↔ _
  simp [client_iff_of_opened opened, exists_or, SelectLoop.IsClient]

theorem notMem_live_of_free (sound : Sound fds loop)
    (free : loop.files clientFd = none) :
    clientFd ∉ loop.tcpClients.live := by
  intro listed
  obtain ⟨connection, found⟩ := sound.listed clientFd listed
  rw [free] at found
  cases found

theorem live_withTcpClient (clientFd : Nat)
    (files : DescriptorTable OpenFile) (loop : SelectLoop) :
    (loop.withTcpClient clientFd files).tcpClients.live =
      loop.tcpClients.live ∨
    (loop.withTcpClient clientFd files).tcpClients.live =
      loop.tcpClients.live ++ [clientFd] := by
  have pushed := BoundedTable.live_push loop.tcpClients clientFd
  split at pushed
  · exact .inr pushed
  · exact .inl pushed

theorem withTcpClient (sound : Sound fds loop)
    (opened : Opened fdSetSize loop.files (.tcpClient loop.accepted) clientFd
      files) : Sound fds (loop.withTcpClient clientFd files) where
  established := by
    refine sound.established.of_same fun fd below => ?_
    exact opened.keeps (sound.established.filled fd (Nat.lt_succ_of_le below))
  above fd client := by
    rcases (isClient_withTcpClient opened fd).mp client with rfl | client
    · exact opened.le_of_filledBelow sound.established.filled
    · exact sound.above fd client
  exact fd := by
    rw [isClient_withTcpClient opened]
    change fd ∈ insert clientFd loop.masterFds ↔ _
    rw [Finset.mem_insert, sound.exact, or_left_comm]
  bounded fd member := by
    rcases Finset.mem_insert.mp member with rfl | member
    · exact le_max_right _ _
    · exact (sound.bounded fd member).trans (le_max_left _ _)
  limited := max_lt sound.limited opened.limited
  listed fd member := by
    apply (isClient_withTcpClient opened fd).mpr
    rcases live_withTcpClient clientFd files loop with live | live
    · rw [live] at member
      exact .inr (sound.listed fd member)
    · rw [live, List.mem_append, List.mem_singleton] at member
      exact member.symm.imp_right (sound.listed fd)
  once := by
    rcases live_withTcpClient clientFd files loop with live | live
    · rw [live]
      exact sound.once
    · rw [live, ← List.concat_eq_append]
      exact sound.once.concat (sound.notMem_live_of_free opened.free)
  numbered fd connection found := by
    rcases (client_iff_of_opened opened fd connection).mp found with
      ⟨_, rfl⟩ | found
    · exact Nat.lt_succ_self _
    · exact Nat.lt_succ_of_lt (sound.numbered fd connection found)
  distinct fd other connection found foundOther := by
    rcases (client_iff_of_opened opened fd connection).mp found with
      ⟨rfl, rfl⟩ | old
    · rcases (client_iff_of_opened opened other _).mp foundOther with
        ⟨rfl, _⟩ | old
      · rfl
      · exact (Nat.lt_irrefl _ (sound.numbered _ _ old)).elim
    · rcases (client_iff_of_opened opened other _).mp foundOther with
        ⟨rfl, rfl⟩ | oldOther
      · exact (Nat.lt_irrefl _ (sound.numbered _ _ old)).elim
      · exact sound.distinct fd other connection old oldOther

theorem acceptTcpConnection (sound : Sound fds loop) (answers : Answers) :
    Sound fds (loop.acceptTcpConnection answers) := by
  unfold SelectLoop.acceptTcpConnection
  split
  · split
    · exact sound
    · exact sound.withTcpClient (opened_of_openLowest ‹_›)
  · exact sound

end Accept

section Close

variable {clientFd : Nat}

theorem client_iff_of_close (fd connection : Nat) :
    loop.files.close clientFd fd = some (.tcpClient connection) ↔
      fd ≠ clientFd ∧ loop.files fd = some (.tcpClient connection) := by
  by_cases same : fd = clientFd
  · simp [same]
  · simp [same, close_of_ne]

theorem isClient_closeTcpClient (fd : Nat) :
    (loop.closeTcpClient clientFd).IsClient fd ↔
      fd ≠ clientFd ∧ loop.IsClient fd := by
  change (∃ connection,
    loop.files.close clientFd fd = some (.tcpClient connection)) ↔ _
  simp [client_iff_of_close, SelectLoop.IsClient]

theorem closeTcpClient (sound : Sound fds loop)
    (client : loop.IsClient clientFd) :
    Sound fds (loop.closeTcpClient clientFd) where
  established := by
    refine sound.established.of_same fun fd below => close_of_ne _ ?_
    exact (Nat.lt_of_le_of_lt below (sound.above clientFd client)).ne
  above fd remains :=
    sound.above fd ((isClient_closeTcpClient fd).mp remains).2
  exact fd := by
    rw [isClient_closeTcpClient]
    change fd ∈ loop.masterFds.erase clientFd ↔ _
    rw [Finset.mem_erase, sound.exact]
    have apart : fd ∈ fds.all → fd ≠ clientFd := fun server =>
      (Nat.lt_of_le_of_lt (sound.established.between server).2
        (sound.above clientFd client)).ne
    tauto
  bounded fd member := sound.bounded fd (Finset.mem_of_mem_erase member)
  limited := sound.limited
  listed fd member := by
    change fd ∈ (removeTcpClient clientFd loop.tcpClients).live at member
    rw [live_removeTcpClient, sound.once.mem_erase_iff] at member
    exact (isClient_closeTcpClient fd).mpr
      ⟨member.1, sound.listed fd member.2⟩
  once := by
    change (removeTcpClient clientFd loop.tcpClients).live.Nodup
    rw [live_removeTcpClient]
    exact sound.once.erase clientFd
  numbered fd connection found :=
    sound.numbered fd connection ((client_iff_of_close fd connection).mp found).2
  distinct fd other connection found foundOther :=
    sound.distinct fd other connection
      ((client_iff_of_close fd connection).mp found).2
      ((client_iff_of_close other connection).mp foundOther).2

end Close

theorem handleTcpSocketActivity (sound : Sound fds loop) {clientFd : Nat}
    (client : loop.IsClient clientFd) (answers : Answers) :
    Sound fds (loop.handleTcpSocketActivity answers clientFd) := by
  unfold SelectLoop.handleTcpSocketActivity
  split
  · split
    · exact sound
    · exact sound.closeTcpClient client
  · exact sound.closeTcpClient client

end Sound

@[simp] theorem handleUnixSocketActivity_eq (loop : SelectLoop)
    (answers : Answers) : loop.handleUnixSocketActivity answers = loop := by
  simp [SelectLoop.handleUnixSocketActivity]

@[simp] theorem checkAlerts_eq (loop : SelectLoop) (answers : Answers) :
    loop.checkAlerts answers = loop := by
  simp [SelectLoop.checkAlerts]

theorem Sound.handle {fds : ServerFds} {loop : SelectLoop}
    (sound : Sound fds loop) {fd : Nat} (member : fd ∈ loop.masterFds)
    (answers : Answers) : Sound fds (loop.handle answers fd (fds.route fd)) := by
  have client := sound.isClient_of_route member
  generalize fds.route fd = handler at client
  cases handler with
  | acceptTcpConnection => exact sound.acceptTcpConnection answers
  | handleUdpSocketActivity => exact sound
  | handleUnixSocketActivity =>
      rw [SelectLoop.handle, handleUnixSocketActivity_eq]
      exact sound
  | checkAlerts =>
      rw [SelectLoop.handle, checkAlerts_eq]
      exact sound
  | handleTcpSocketActivity =>
      exact sound.handleTcpSocketActivity (client rfl) answers

/-! ## The start of the loop -/

/-- No connection has been accepted yet. -/
def NoClients (files : DescriptorTable OpenFile) : Prop :=
  ∀ fd connection, files fd ≠ some (.tcpClient connection)

theorem noClients_inheritedFiles (used : Nat → Bool) :
    NoClients (inheritedFiles used) := by
  intro fd connection found
  unfold inheritedFiles at found
  split at found <;> cases found

theorem NoClients.opened {files after : DescriptorTable OpenFile}
    {file : OpenFile} {fd : Nat} (none : NoClients files)
    (server : ∀ connection, file ≠ .tcpClient connection)
    (opened : Opened fdSetSize files file fd after) : NoClients after := by
  intro other connection
  by_cases same : other = fd
  · rw [same, opened.found]
    exact fun found => server connection (Option.some.inj found)
  · rw [opened.others other same]
    exact none other connection

/-- The loop starts with the four descriptors and no client. -/
theorem startServer_eq_some {used : Nat → Bool} {fds : ServerFds}
    {loop : SelectLoop} (starts : startServer used = some (fds, loop)) :
    ∃ files, fds.Established files ∧ NoClients files ∧
      fds.fifoFd < fdSetSize ∧
      loop = ⟨files, fds.all, fds.fifoFd, .empty 0, 0⟩ := by
  simp only [startServer, Option.bind_eq_bind, Option.bind_eq_some_iff,
    Option.pure_def, Option.some.injEq, Prod.mk.injEq, Prod.exists] at starts
  obtain ⟨tcpSocketFd, files₁, opens₁, udpSocketFd, files₂, opens₂,
    unixSocketFd, files₃, opens₃, fifoFd, files₄, opens₄, rfl, rfl⟩ := starts
  have tcp := opened_of_openLowest opens₁
  have udp := opened_of_openLowest opens₂
  have unix := opened_of_openLowest opens₃
  have fifo := opened_of_openLowest opens₄
  have tcp_lt_udp := udp.le_of_filledBelow tcp.filledBelow
  have udp_lt_unix := unix.le_of_filledBelow udp.filledBelow
  have unix_lt_fifo := fifo.le_of_filledBelow unix.filledBelow
  have largest :
      max (max (max tcpSocketFd udpSocketFd) fifoFd) unixSocketFd = fifoFd := by
    omega
  refine ⟨files₄, ?_, ?_, fifo.limited, by rw [largest]⟩
  · exact {
      tcp_lt_udp := tcp_lt_udp
      udp_lt_unix := udp_lt_unix
      unix_lt_fifo := unix_lt_fifo
      tcpSocket :=
        fifo.keeps_file (unix.keeps_file (udp.keeps_file tcp.found))
      udpSocket := fifo.keeps_file (unix.keeps_file udp.found)
      unixSocket := fifo.keeps_file unix.found
      fifo := fifo.found
      filled := fifo.filledBelow }
  · have tcpNone := (noClients_inheritedFiles used).opened (by simp) tcp
    have udpNone := tcpNone.opened (by simp) udp
    have unixNone := udpNone.opened (by simp) unix
    exact unixNone.opened (by simp) fifo

theorem sound_startServer {used : Nat → Bool} {fds : ServerFds}
    {loop : SelectLoop} (starts : startServer used = some (fds, loop)) :
    Sound fds loop := by
  obtain ⟨files, established, none, limited, rfl⟩ := startServer_eq_some starts
  exact {
    established
    above := fun fd client => (none fd _ client.choose_spec).elim
    exact := fun fd =>
      (or_iff_left fun client => none fd _ client.choose_spec).symm
    bounded := fun fd member => (established.between member).2
    limited
    listed := by simp
    once := by simp
    numbered := fun fd connection found => (none fd connection found).elim
    distinct := fun fd _ connection found => (none fd connection found).elim }

end ShelterServer
