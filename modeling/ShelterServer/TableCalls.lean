import ShelterServer.ClientTables

/-!
# Calls on the client tables

The functions on the client tables as loops over an array and a counter, with
every access to the array checked.  From a table whose counter is in bounds
they never leave the array, and what they do to the entries in use is what the
operations on bounded tables do, so that any sequence of calls acts on a list
of at most `MAX_CLIENTS` entries.
-/

namespace ShelterServer

open Foundations

universe u v

variable {Client : Type u}

/-- An array of clients and the counter `num_clients`. -/
structure ClientArray (Client : Type u) where
  clients : Vector Client maxClients
  numClients : Int

/-- An access to the array; there is no result outside of it. -/
def readClient (clients : Vector Client maxClients) (index : Int) :
    Option Client :=
  if 0 ≤ index then clients[index.toNat]? else none

def writeClient (clients : Vector Client maxClients) (index : Int)
    (client : Client) : Option (Vector Client maxClients) :=
  if inside : 0 ≤ index ∧ index.toNat < maxClients then
    some (clients.set index.toNat client inside.2)
  else none

namespace ClientArray

/-- `add_tcp_client` without its log message. -/
def addTcpClient (clientFd : Client) (tcpClientsList : ClientArray Client) :
    Option (ClientArray Client) :=
  if tcpClientsList.numClients < maxClients then do
    let clients ← writeClient tcpClientsList.clients
      tcpClientsList.numClients clientFd
    some ⟨clients, tcpClientsList.numClients + 1⟩
  else some tcpClientsList

/-- The inner loop of a removal, from some index on. -/
def shiftClients (numClients : Int) (clients : Vector Client maxClients)
    (index : Int) : Option (Vector Client maxClients) :=
  if index < numClients - 1 then do
    let next ← readClient clients (index + 1)
    let clients ← writeClient clients index next
    shiftClients numClients clients (index + 1)
  else some clients
termination_by (numClients - 1 - index).toNat

/-- The outer loop of a removal, from some index on. -/
def removeClient (matching : Client → Bool) (array : ClientArray Client)
    (index : Int) : Option (ClientArray Client) :=
  if index < array.numClients then do
    let client ← readClient array.clients index
    if matching client then do
      let clients ← shiftClients array.numClients array.clients index
      some ⟨clients, array.numClients - 1⟩
    else removeClient matching array (index + 1)
  else some array
termination_by (array.numClients - index).toNat

/-- `remove_tcp_client` without its log message: it returns after the first
match, so the inner loop may use up the index of the search. -/
def removeTcpClient {Fd : Type u} [DecidableEq Fd] (clientFd : Fd)
    (tcpClients : ClientArray Fd) : Option (ClientArray Fd) :=
  removeClient (fun entry => entry == clientFd) tcpClients 0

/-- `remove_udp_client`, given the `sockfd` of an entry: it leaves the loop
after the first match. -/
def removeUdpClient {Fd : Type v} [DecidableEq Fd] (sockfdOf : Client → Fd)
    (sockfd : Fd) (udpClients : ClientArray Client) :
    Option (ClientArray Client) :=
  removeClient (fun entry => sockfdOf entry == sockfd) udpClients 0

end ClientArray

/-! ## Bounded tables -/

/-- The array and the counter of a table. -/
def tableArray (table : BoundedTable Client maxClients) : ClientArray Client :=
  ⟨table.slots, table.count⟩

theorem readClient_of_lt (clients : Vector Client maxClients) {index : Nat}
    (inside : index < maxClients) :
    readClient clients index = some clients[index] := by
  rw [readClient, if_pos (Int.natCast_nonneg index), Int.toNat_natCast,
    Vector.getElem?_eq_getElem inside]

theorem writeClient_of_lt (clients : Vector Client maxClients) {index : Nat}
    (inside : index < maxClients) (client : Client) :
    writeClient clients index client = some (clients.set index client) :=
  dif_pos ⟨Int.natCast_nonneg index, inside⟩

namespace ClientArray

theorem addTcpClient_tableArray (clientFd : Client)
    (table : BoundedTable Client maxClients) :
    addTcpClient clientFd (tableArray table) =
      some (tableArray (table.push clientFd)) := by
  by_cases room : table.count < maxClients
  · have bounded : (tableArray table).numClients < maxClients :=
      Int.ofNat_lt.mpr room
    rw [addTcpClient, if_pos bounded, BoundedTable.push, dif_pos room]
    simp [tableArray, writeClient_of_lt _ room]
  · have full : ¬ (tableArray table).numClients < maxClients :=
      fun less => room (Int.ofNat_lt.mp less)
    rw [addTcpClient, if_neg full, BoundedTable.push_of_full room]

/-- The inner loop moves the entries behind the index by one slot. -/
theorem shiftClients_eq (clients : Vector Client maxClients)
    (index moves : Nat) (inside : index + moves < maxClients) :
    shiftClients ((index + moves + 1 : Nat) : Int) clients index =
      some (BoundedTable.shiftLeft clients index moves inside) := by
  induction moves generalizing clients index with
  | zero =>
      rw [shiftClients, if_neg (by omega), BoundedTable.shiftLeft]
  | succ moves induction =>
      have next : index + 1 < maxClients := by omega
      have here : index < maxClients := by omega
      have last : index + (moves + 1) + 1 = index + 1 + moves + 1 := by omega
      rw [shiftClients, if_pos (by omega), BoundedTable.shiftLeft, last,
        ← induction _ (index + 1) (by omega), Int.natCast_add_one,
        ← Int.natCast_add_one index]
      simp only [readClient_of_lt clients next, writeClient_of_lt clients here,
        Option.bind_eq_bind, Option.bind_some]

/-- The outer loop with some entries left to inspect. -/
theorem removeClient_eq (matching : Client → Bool)
    (table : BoundedTable Client maxClients) (remaining : Nat)
    (bounded : remaining ≤ table.count) :
    removeClient matching (tableArray table)
        ((table.count - remaining : Nat) : Int) =
      some (tableArray (table.removeFrom matching remaining bounded)) := by
  have fits := table.count_le
  induction remaining with
  | zero =>
      rw [removeClient, if_neg (by simp [tableArray]), BoundedTable.removeFrom]
  | succ remaining induction =>
      have inside : table.count - (remaining + 1) < maxClients := by omega
      have more : ((table.count - (remaining + 1) : Nat) : Int) <
          (tableArray table).numClients :=
        Int.ofNat_lt.mpr (by omega)
      have advance : ((table.count - (remaining + 1) : Nat) : Int) + 1 =
          ((table.count - remaining : Nat) : Int) := by omega
      have ends : table.count - (remaining + 1) + remaining + 1 =
          table.count := by omega
      have shifted := shiftClients_eq table.slots
        (table.count - (remaining + 1)) remaining (by omega)
      rw [ends] at shifted
      rw [removeClient, if_pos more, BoundedTable.removeFrom, advance,
        induction (Nat.le_of_succ_le bounded)]
      by_cases found :
          matching table.slots[table.count - (remaining + 1)] = true
      · have fewer : ((table.count - 1 : Nat) : Int) =
            (table.count : Int) - 1 := by omega
        simp [tableArray, readClient_of_lt table.slots inside, found, shifted,
          fewer]
      · simp [tableArray, readClient_of_lt table.slots inside, found]

theorem removeClient_tableArray (matching : Client → Bool)
    (table : BoundedTable Client maxClients) :
    removeClient matching (tableArray table) 0 =
      some (tableArray (table.removeFirst matching)) := by
  have whole := removeClient_eq matching table table.count le_rfl
  rwa [Nat.sub_self] at whole

end ClientArray

/-! ## Sequences of calls -/

inductive TcpTableCall (Fd : Type u) where
  | add (clientFd : Fd)
  | remove (clientFd : Fd)

section Sequences

variable {Fd : Type v} [DecidableEq Fd]

def TcpTableCall.onArray : TcpTableCall Fd → ClientArray Fd →
    Option (ClientArray Fd)
  | .add clientFd, array => array.addTcpClient clientFd
  | .remove clientFd, array => array.removeTcpClient clientFd

/-- What a call is for: it appends a descriptor if there is room, or removes
the first occurrence of one. -/
def TcpTableCall.onEntries : TcpTableCall Fd → List Fd → List Fd
  | .add clientFd, entries =>
      if entries.length < maxClients then entries ++ [clientFd] else entries
  | .remove clientFd, entries => entries.erase clientFd

/-- The live prefix of the array is a list of at most `MAX_CLIENTS` entries. -/
structure ClientArray.Holds (array : ClientArray Client)
    (entries : List Client) : Prop where
  numClients : array.numClients = entries.length
  bounded : entries.length ≤ maxClients
  live : array.clients.toList.take entries.length = entries

theorem tableArray_holds (table : BoundedTable Client maxClients) :
    (tableArray table).Holds table.live where
  numClients := congrArg Nat.cast table.length_live.symm
  bounded := table.length_live.trans_le table.count_le
  live := by rw [table.length_live]; rfl

/-- Calls that act on tables as on lists do so one after the other. -/
theorem foldlM_tableArray {Call : Type*}
    (onArray : ClientArray Client → Call → Option (ClientArray Client))
    (onEntries : List Client → Call → List Client)
    (step : ∀ (table : BoundedTable Client maxClients) (call : Call),
      ∃ next, onArray (tableArray table) call = some (tableArray next) ∧
        next.live = onEntries table.live call)
    (table : BoundedTable Client maxClients) (calls : List Call) :
    ∃ last, calls.foldlM onArray (tableArray table) =
        some (tableArray last) ∧
      last.live = calls.foldl onEntries table.live := by
  induction calls generalizing table with
  | nil => exact ⟨table, rfl, rfl⟩
  | cons call calls induction =>
      obtain ⟨next, called, live⟩ := step table call
      obtain ⟨last, run, result⟩ := induction next
      refine ⟨last, ?_, ?_⟩
      · rw [List.foldlM_cons, called]
        exact run
      · rw [List.foldl_cons, ← live]
        exact result

theorem TcpTableCall.onArray_tableArray (table : BoundedTable Fd maxClients)
    (call : TcpTableCall Fd) :
    ∃ next, call.onArray (tableArray table) = some (tableArray next) ∧
      next.live = call.onEntries table.live := by
  cases call with
  | add clientFd =>
      exact ⟨table.push clientFd,
        ClientArray.addTcpClient_tableArray clientFd table,
        table.live_push clientFd⟩
  | remove clientFd =>
      refine ⟨_, ClientArray.removeClient_tableArray _ table, ?_⟩
      rw [BoundedTable.live_removeFirst]
      exact (List.erase_eq_eraseP' clientFd table.live).symm

theorem ClientArray.removeUdpClient_tableArray (sockfdOf : Client → Fd)
    (table : BoundedTable Client maxClients) (sockfd : Fd) :
    ∃ next, (tableArray table).removeUdpClient sockfdOf sockfd =
        some (tableArray next) ∧
      next.live = table.live.eraseP fun entry => sockfdOf entry == sockfd :=
  ⟨_, removeClient_tableArray _ table, table.live_removeFirst _⟩

/-- From a table whose counter is in bounds, every sequence of calls stays
inside the array and acts on its live prefix as on a list. -/
theorem clientTables_hold (sockfdOf : Client → Fd) :
    (∀ (tcpClients : BoundedTable Fd maxClients)
        (calls : List (TcpTableCall Fd)),
      ∃ array, calls.foldlM (fun array call => call.onArray array)
          (tableArray tcpClients) = some array ∧
        array.Holds (calls.foldl (fun entries call => call.onEntries entries)
          tcpClients.live)) ∧
    ∀ (udpClients : BoundedTable Client maxClients) (sockfds : List Fd),
      ∃ array, sockfds.foldlM
          (fun array sockfd => array.removeUdpClient sockfdOf sockfd)
          (tableArray udpClients) = some array ∧
        array.Holds (sockfds.foldl (fun entries sockfd =>
          entries.eraseP fun entry => sockfdOf entry == sockfd)
          udpClients.live) := by
  constructor
  · intro tcpClients calls
    obtain ⟨last, run, live⟩ :=
      foldlM_tableArray (fun array call => call.onArray array)
        (fun entries call => call.onEntries entries)
        TcpTableCall.onArray_tableArray tcpClients calls
    exact ⟨_, run, live ▸ tableArray_holds last⟩
  · intro udpClients sockfds
    obtain ⟨last, run, live⟩ :=
      foldlM_tableArray
        (fun array sockfd => array.removeUdpClient sockfdOf sockfd)
        (fun entries sockfd =>
          entries.eraseP fun entry => sockfdOf entry == sockfd)
        (ClientArray.removeUdpClient_tableArray sockfdOf) udpClients sockfds
    exact ⟨_, run, live ▸ tableArray_holds last⟩

end Sequences

end ShelterServer
