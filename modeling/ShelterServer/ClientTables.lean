import ShelterServer.Foundations.BoundedTable
import ShelterServer.Foundations.ByteString
import ShelterServer.Foundations.FirstSeen

/-!
# The client tables

The server remembers its TCP clients by descriptor and its UDP clients by
socket and address, each in an array of `MAX_CLIENTS` entries.
-/

namespace ShelterServer

open Foundations

/-- `MAX_CLIENTS`. -/
def maxClients : Nat := 5

/-! ## TCP clients -/

abbrev TCPClientList := BoundedTable Nat maxClients

def addTcpClient (clientFd : Nat) (tcpClients : TCPClientList) :
    TCPClientList :=
  tcpClients.push clientFd

def removeTcpClient (clientFd : Nat) (tcpClients : TCPClientList) :
    TCPClientList :=
  tcpClients.removeFirst (· == clientFd)

theorem live_removeTcpClient (clientFd : Nat) (tcpClients : TCPClientList) :
    (removeTcpClient clientFd tcpClients).live =
      tcpClients.live.erase clientFd := by
  rw [removeTcpClient, BoundedTable.live_removeFirst, List.erase_eq_eraseP']

/-! ## UDP clients -/

/-- `struct sockaddr_storage`. -/
abbrev SockaddrStorage := Buffer 128

namespace SockaddrStorage

/-- `sin_port` of the storage read as a `struct sockaddr_in`. -/
def sinPort (storage : SockaddrStorage) : Bytes :=
  (storage.bytes.drop 2).take 2

/-- `sin_addr.s_addr` of the storage read as a `struct sockaddr_in`. -/
def sinAddr (storage : SockaddrStorage) : Bytes :=
  (storage.bytes.drop 4).take 4

end SockaddrStorage

/-- The source of a datagram as `recvfrom` stores it for an `AF_INET6` socket:
the port in network byte order, no flow information, and behind the structure
whatever the storage held before. -/
structure SockaddrIn6 where
  sin6Port : Vector UInt8 2
  sin6Addr : Vector UInt8 16
  sin6ScopeId : Vector UInt8 4
  untouched : Vector UInt8 100

/-- `AF_INET6`, the port, the flow information, the address, the scope. -/
def SockaddrIn6.storage (source : SockaddrIn6) : SockaddrStorage :=
  ⟨[10, 0] ++ source.sin6Port.toList ++ [0, 0, 0, 0] ++
      source.sin6Addr.toList ++ source.sin6ScopeId.toList ++
      source.untouched.toList, by simp⟩

/-- A full endpoint. -/
structure Endpoint where
  address : Bytes
  port : Bytes
deriving DecidableEq

def SockaddrIn6.endpoint (source : SockaddrIn6) : Endpoint :=
  ⟨source.sin6Addr.toList, source.sin6Port.toList⟩

/-- The endpoint in a storage that holds a `sockaddr_in6`. -/
def SockaddrStorage.endpoint (storage : SockaddrStorage) : Endpoint :=
  ⟨(storage.bytes.drop 8).take 16, (storage.bytes.drop 2).take 2⟩

/-- The two bytes of a port, the four of the flow information and the sixteen
of an address lie at fixed offsets. -/
private theorem storage_bytes (source : SockaddrIn6) :
    ∃ high low, source.sin6Port.toList = [high, low] ∧
      source.storage.bytes = [10, 0, high, low, 0, 0, 0, 0] ++
        (source.sin6Addr.toList ++
          (source.sin6ScopeId.toList ++ source.untouched.toList)) := by
  have length : source.sin6Port.toList.length = 2 := by simp
  obtain ⟨high, low, port⟩ := List.length_eq_two.mp length
  exact ⟨high, low, port, by simp [SockaddrIn6.storage, port]⟩

theorem SockaddrIn6.endpoint_storage (source : SockaddrIn6) :
    source.storage.endpoint = source.endpoint := by
  obtain ⟨high, low, port, bytes⟩ := storage_bytes source
  simp [SockaddrStorage.endpoint, SockaddrIn6.endpoint, bytes, port]

/-- Read through the IPv4 layout, the address field of an IPv6 source is its
flow information. -/
theorem SockaddrIn6.sinAddr_storage (source : SockaddrIn6) :
    source.storage.sinAddr = [0, 0, 0, 0] := by
  obtain ⟨high, low, _, bytes⟩ := storage_bytes source
  simp [SockaddrStorage.sinAddr, bytes]

theorem SockaddrIn6.sinPort_storage (source : SockaddrIn6) :
    source.storage.sinPort = source.sin6Port.toList := by
  obtain ⟨high, low, port, bytes⟩ := storage_bytes source
  simp [SockaddrStorage.sinPort, bytes, port]

/-- `::1` at port zero. -/
def SockaddrIn6.loopback : SockaddrIn6 where
  sin6Port := .replicate 2 0
  sin6Addr := (Vector.replicate 16 0).set 15 1
  sin6ScopeId := .replicate 4 0
  untouched := .replicate 100 0

/-- A source at `::2` with the same port. -/
def SockaddrIn6.neighbour : SockaddrIn6 :=
  { SockaddrIn6.loopback with
    sin6Addr := (Vector.replicate 16 0).set 15 2 }

/-- `sizeof(struct sockaddr_in6)`. -/
def sockaddrIn6Size : Nat := 28

structure UDPClientData where
  sockfd : Nat
  clientAddr : SockaddrStorage
  addrLen : Nat

abbrev UDPClientList := BoundedTable UDPClientData maxClients

/-- The comparison made by `add_udp_client`. -/
def sameUdpClient (existing client : UDPClientData) : Bool :=
  existing.clientAddr.sinAddr == client.clientAddr.sinAddr &&
    existing.clientAddr.sinPort == client.clientAddr.sinPort

def addUdpClient (udpClients : UDPClientList) (client : UDPClientData) :
    UDPClientList :=
  if udpClients.live.any fun existing => sameUdpClient existing client then
    udpClients
  else udpClients.push client

/-- The fields that `add_udp_client` takes for the identity of a client. -/
def UDPClientData.comparedKey (client : UDPClientData) : Bytes × Bytes :=
  (client.clientAddr.sinAddr, client.clientAddr.sinPort)

theorem sameUdpClient_iff {existing client : UDPClientData} :
    sameUdpClient existing client = true ↔
      existing.comparedKey = client.comparedKey := by
  simp [sameUdpClient, UDPClientData.comparedKey]

theorem live_addUdpClient (udpClients : UDPClientList)
    (client : UDPClientData) :
    (addUdpClient udpClients client).live =
      keepFirst UDPClientData.comparedKey maxClients udpClients.live client := by
  have known :
      (udpClients.live.any fun existing => sameUdpClient existing client) =
          true ↔
        client.comparedKey ∈
          udpClients.live.map UDPClientData.comparedKey := by
    simp only [List.any_eq_true, sameUdpClient_iff, List.mem_map]
  rw [addUdpClient, keepFirst]
  by_cases present :
      client.comparedKey ∈ udpClients.live.map UDPClientData.comparedKey
  · rw [if_pos (known.mpr present), if_pos present]
  · rw [if_neg (present ∘ known.mp), if_neg present, BoundedTable.live_push]

end ShelterServer
