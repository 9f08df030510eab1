import ShelterServer.Foundations.ByteString

/-!
# The receive buffers

Every block that the server or a client receives is first stored in an array
of `BUFFER_SIZE` bytes and then read as a C string.  Six functions do this by
hand, with three schemes: the full size is received and a terminator written
behind the block, one byte less is received and a terminator written, or the
array is zeroed first and nothing is written.
-/

namespace ShelterServer

open Foundations

/-- `BUFFER_SIZE`. -/
def bufferSize : Nat := 1024

abbrev ReceiveBuffer := Buffer bufferSize

/-- Receive at most `limit` bytes and execute `buffer[bytes_received] = 0`;
`none` when that index is outside the array. -/
def receiveAndTerminate (limit : Nat) (fits : limit ≤ bufferSize)
    (stack : ReceiveBuffer) (data : Bytes) : Option ReceiveBuffer :=
  (stack.receive limit fits data).write? (data.take limit).length 0

/-- Receive at most `limit` bytes into a zeroed array. -/
def receiveIntoZeroed (limit : Nat) (fits : limit ≤ bufferSize)
    (data : Bytes) : Option ReceiveBuffer :=
  some ((Buffer.zeroed bufferSize).receive limit fits data)

/-- `recv(sockfd, buffer, BUFFER_SIZE, 0)` of `receive_tcp_json`. -/
def receiveTcpJsonBuffer (stack : ReceiveBuffer) (data : Bytes) :
    Option ReceiveBuffer :=
  receiveAndTerminate bufferSize le_rfl stack data

/-- `recvfrom(sockfd, buffer, BUFFER_SIZE - 1, …)` of `receive_udp_json`. -/
def receiveUdpJsonBuffer (stack : ReceiveBuffer) (data : Bytes) :
    Option ReceiveBuffer :=
  receiveAndTerminate (bufferSize - 1) (by decide) stack data

/-- `recv(client_fd, buffer, BUFFER_SIZE, 0)` of `handle_unix_socket_activity`
on an accepted connection. -/
def handleUnixConnectionBuffer (stack : ReceiveBuffer) (data : Bytes) :
    Option ReceiveBuffer :=
  receiveAndTerminate bufferSize le_rfl stack data

/-- `recv(sockfd, buffer, BUFFER_SIZE, 0)` of `handle_unix_socket_activity` on
a connectionless socket. -/
def handleUnixDatagramBuffer (stack : ReceiveBuffer) (data : Bytes) :
    Option ReceiveBuffer :=
  receiveAndTerminate bufferSize le_rfl stack data

/-- `read(fd, alert_message, sizeof(alert_message))` of `check_alerts`. -/
def checkAlertsBuffer (data : Bytes) : Option ReceiveBuffer :=
  receiveIntoZeroed bufferSize le_rfl data

/-- `recv(sockfd, buffer, BUFFER_SIZE, 0)` of the TCP client's
`receive_json`. -/
def receiveJsonBuffer (data : Bytes) : Option ReceiveBuffer :=
  receiveIntoZeroed bufferSize le_rfl data

/-- `recvfrom(sockfd, buffer, BUFFER_SIZE, …)` of the UDP client's
`receive_and_handle_json`. -/
def receiveAndHandleJsonBuffer (stack : ReceiveBuffer) (data : Bytes) :
    Option ReceiveBuffer :=
  receiveAndTerminate bufferSize le_rfl stack data

/-- The places where a received block becomes a string. -/
inductive ReceivePath where
  | receiveTcpJson
  | receiveUdpJson
  | handleUnixConnection
  | handleUnixDatagram
  | checkAlerts
  | receiveJson
  | receiveAndHandleJson
deriving DecidableEq

namespace ReceivePath

/-- The size passed to the receive call. -/
def limit : ReceivePath → Nat
  | .receiveUdpJson => bufferSize - 1
  | _ => bufferSize

/-- The array is zeroed before the call and no terminator is written. -/
def zeroesFirst : ReceivePath → Bool
  | .checkAlerts | .receiveJson => true
  | _ => false

/-- The array as it is handed to the readers of the string. -/
def deliver : ReceivePath → ReceiveBuffer → Bytes → Option ReceiveBuffer
  | .receiveTcpJson, stack, data => receiveTcpJsonBuffer stack data
  | .receiveUdpJson, stack, data => receiveUdpJsonBuffer stack data
  | .handleUnixConnection, stack, data => handleUnixConnectionBuffer stack data
  | .handleUnixDatagram, stack, data => handleUnixDatagramBuffer stack data
  | .checkAlerts, _, data => checkAlertsBuffer data
  | .receiveJson, _, data => receiveJsonBuffer data
  | .receiveAndHandleJson, stack, data => receiveAndHandleJsonBuffer stack data

theorem limit_le : (path : ReceivePath) → path.limit ≤ bufferSize
  | .receiveUdpJson => by decide
  | .receiveTcpJson | .handleUnixConnection | .handleUnixDatagram
  | .checkAlerts | .receiveJson | .receiveAndHandleJson => le_rfl

theorem deliver_of_terminating {path : ReceivePath}
    (terminates : path.zeroesFirst = false) (stack : ReceiveBuffer)
    (data : Bytes) :
    path.deliver stack data =
      receiveAndTerminate path.limit path.limit_le stack data := by
  cases path with
  | checkAlerts => cases terminates
  | receiveJson => cases terminates
  | _ => rfl

theorem deliver_of_zeroing {path : ReceivePath}
    (zeroes : path.zeroesFirst = true) (stack : ReceiveBuffer)
    (data : Bytes) :
    path.deliver stack data =
      receiveIntoZeroed path.limit path.limit_le data := by
  cases path with
  | checkAlerts => rfl
  | receiveJson => rfl
  | _ => cases zeroes

end ReceivePath

/-- A block arrives as a string inside its own buffer: no write leaves the
array, a terminator lies inside it, and the string is the received bytes up to
their first NUL. -/
def DeliversString (delivered : Option ReceiveBuffer) (data : Bytes) : Prop :=
  ∃ buffer, delivered = some buffer ∧ buffer.Terminated ∧
    ∀ beyond, buffer.text beyond = untilNul data

/-- A receive call takes no more than its limit. -/
theorem receiveAndTerminate_take {limit : Nat} {fits : limit ≤ bufferSize}
    {stack : ReceiveBuffer} {data : Bytes} :
    receiveAndTerminate limit fits stack (data.take limit) =
      receiveAndTerminate limit fits stack data := by
  simp only [receiveAndTerminate, Buffer.receive, List.take_take, Nat.min_self]

theorem receiveAndTerminate_eq_none {stack : ReceiveBuffer} {data : Bytes}
    (full : bufferSize ≤ data.length) :
    receiveAndTerminate bufferSize le_rfl stack data = none := by
  rw [receiveAndTerminate, Buffer.write?_eq_none_iff, List.length_take,
    Nat.min_eq_left full]

theorem receiveAndTerminate_eq_none_iff {limit : Nat}
    (fits : limit ≤ bufferSize) (stack : ReceiveBuffer) {data : Bytes}
    (received : data.length ≤ limit) :
    receiveAndTerminate limit fits stack data = none ↔
      bufferSize ≤ data.length := by
  rw [receiveAndTerminate, List.take_of_length_le received,
    Buffer.write?_eq_none_iff]

theorem receiveAndTerminate_of_lt {limit : Nat} (fits : limit ≤ bufferSize)
    {data : Bytes} (received : data.length ≤ limit)
    (room : data.length < bufferSize) (stack : ReceiveBuffer) :
    DeliversString (receiveAndTerminate limit fits stack data) data := by
  have whole : data.take limit = data := List.take_of_length_le received
  have inside : (data.take limit).length < bufferSize := by rwa [whole]
  obtain ⟨rest, written, write, bytes⟩ :=
    stack.receive_write?_bytes fits inside
  rw [whole] at bytes
  have terminated : written.Terminated :=
    Buffer.terminated_iff_mem.mpr (by simp [bytes])
  refine ⟨written, write, terminated, fun beyond => ?_⟩
  rw [Buffer.text_of_terminated terminated, bytes, untilNul_append_zero]

theorem receiveAndTerminate_delivers_iff {limit : Nat}
    (fits : limit ≤ bufferSize) (stack : ReceiveBuffer) {data : Bytes}
    (received : data.length ≤ limit) :
    DeliversString (receiveAndTerminate limit fits stack data) data ↔
      data.length < bufferSize := by
  constructor
  · rintro ⟨buffer, stored, _, _⟩
    by_contra full
    have refused := (receiveAndTerminate_eq_none_iff fits stack
      received).mpr (Nat.le_of_not_lt full)
    rw [refused] at stored
    cases stored
  · intro room
    exact receiveAndTerminate_of_lt fits received room stack

private theorem receiveIntoZeroed_bytes {limit : Nat}
    (fits : limit ≤ bufferSize) {data : Bytes}
    (received : data.length ≤ limit) :
    ∃ buffer, receiveIntoZeroed limit fits data = some buffer ∧
      buffer.bytes = data ++ List.replicate (bufferSize - data.length) 0 := by
  refine ⟨_, rfl, ?_⟩
  simp [Buffer.receive, Buffer.zeroed, List.take_of_length_le received]

/-- A zeroed array terminates the block unless the block fills it without a
NUL of its own. -/
theorem receiveIntoZeroed_delivers_iff {limit : Nat}
    (fits : limit ≤ bufferSize) {data : Bytes}
    (received : data.length ≤ limit) :
    DeliversString (receiveIntoZeroed limit fits data) data ↔
      data.length < bufferSize ∨ 0 ∈ data := by
  obtain ⟨buffer, stored, bytes⟩ :=
    receiveIntoZeroed_bytes fits received
  have terminated : buffer.Terminated ↔
      data.length < bufferSize ∨ 0 ∈ data := by
    rw [Buffer.terminated_iff_mem, bytes, List.mem_append, List.mem_replicate]
    constructor
    · rintro (member | ⟨room, _⟩)
      · exact .inr member
      · left
        omega
    · rintro (room | member)
      · right
        exact ⟨by omega, rfl⟩
      · exact .inl member
  constructor
  · rintro ⟨other, storedOther, terminatedOther, _⟩
    obtain rfl := Option.some.inj (stored.symm.trans storedOther)
    exact terminated.mp terminatedOther
  · intro room
    refine ⟨buffer, stored, terminated.mpr room, fun beyond => ?_⟩
    rw [Buffer.text_of_terminated (terminated.mpr room), bytes,
      untilNul_append_replicate]

/-- A received block becomes a string inside its own buffer exactly when it is
shorter than the buffer or, on the paths that zero the array first, contains a
NUL. -/
theorem deliver_deliversString_iff (path : ReceivePath) (stack : ReceiveBuffer)
    {data : Bytes} (received : data.length ≤ path.limit) :
    DeliversString (path.deliver stack data) data ↔
      data.length < bufferSize ∨ (path.zeroesFirst = true ∧ 0 ∈ data) := by
  cases zeroes : path.zeroesFirst with
  | false =>
      rw [ReceivePath.deliver_of_terminating zeroes,
        receiveAndTerminate_delivers_iff path.limit_le stack received]
      simp
  | true =>
      rw [ReceivePath.deliver_of_zeroing zeroes,
        receiveIntoZeroed_delivers_iff path.limit_le received]
      simp

theorem deliver_deliversString_of_one_byte :
    [65].length ≤ ReceivePath.receiveTcpJson.limit ∧
      (DeliversString (ReceivePath.receiveTcpJson.deliver
          (Buffer.zeroed bufferSize) [65]) [65] ↔
        [(65 : UInt8)].length < bufferSize ∨
          (ReceivePath.receiveTcpJson.zeroesFirst = true ∧
            (0 : UInt8) ∈ [65])) :=
  ⟨by decide, deliver_deliversString_iff .receiveTcpJson _ (by decide)⟩

/-- A block of `BUFFER_SIZE` bytes puts the terminator behind the array. -/
theorem not_deliversString_of_full_block :
    ¬ ∀ (path : ReceivePath) (stack : ReceiveBuffer) (data : Bytes),
      1 ≤ data.length → data.length ≤ path.limit →
        DeliversString (path.deliver stack data) data := by
  intro delivers
  have full : (List.replicate bufferSize (65 : UInt8)).length = bufferSize :=
    List.length_replicate
  obtain ⟨buffer, stored, _, _⟩ := delivers .receiveTcpJson
    (Buffer.zeroed bufferSize) (List.replicate bufferSize 65)
    (by rw [full]; decide) (le_of_eq full)
  have refused : receiveAndTerminate bufferSize le_rfl
      (Buffer.zeroed bufferSize) (List.replicate bufferSize 65) = none :=
    receiveAndTerminate_eq_none (ge_of_eq full)
  rw [ReceivePath.deliver, receiveTcpJsonBuffer, refused] at stored
  cases stored

end ShelterServer
