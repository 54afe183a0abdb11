import OwdPacing.Config
import OwdPacing.Container.Log

/-!
# The sockets

`StartApplication` of the two programs opens a socket for each interface of the node but
the loopback.  The client connects it to the peer's address on the interface of the same
number, and knows the subflow of an echo by the place of its socket in `m_sockets`.  So a
subflow keeps its number on the way to the server and back as long as the two nodes have
their loopback interfaces at the same places.
-/

namespace OwdPacing

open Container StateError

/-! ## Nodes -/

/-- An `Ipv4Address`. -/
abbrev Ipv4Address := UInt32

/-- `Ipv4Address::GetLoopback`. -/
def getLoopback : Ipv4Address := 0x7f000001

/-- `CFG_PORT` of `config.h`. -/
def CFG_PORT : UInt16 := 1234

/-- An `InetSocketAddress`. -/
structure InetSocketAddress where
  ipv4 : Ipv4Address
  port : UInt16
  deriving DecidableEq, Repr

/-- The interfaces of a node, with the addresses of each. -/
abbrev Ipv4 := List (List Ipv4Address)

/-- A socket: a number instead of its pointer, and what it is bound and connected to. -/
structure UdpSocket where
  ptr : Nat
  bound : InetSocketAddress
  peer : Option InetSocketAddress
  deriving DecidableEq, Repr

/-- What `StartApplication` changes: how many sockets there are, and `m_sockets`. -/
structure SocketTable where
  created : Nat
  m_sockets : List UdpSocket
  deriving DecidableEq, Repr

/-- No sockets yet. -/
def SocketTable.empty : SocketTable := ⟨0, []⟩

/-- Why `StartApplication` stops. -/
inductive SetupFailure
  /-- "For now assume 1 ip per interface". -/
  | oneIpPerInterface
  /-- The library's assertion on the numbers given to `GetAddress`. -/
  | getAddress
  deriving DecidableEq, Repr

/-- A part of `StartApplication`. -/
abbrev SetupM := EStateM SetupFailure SocketTable

/-- `Socket::CreateSocket`. -/
def createSocket : SetupM Nat := do
  let ptr := (← get).created
  modify fun table => { table with created := table.created + 1 }
  pure ptr

/-- `m_sockets.push_back`. -/
def pushSocket (sock : UdpSocket) : SetupM Unit :=
  modify fun table => { table with m_sockets := table.m_sockets ++ [sock] }

/-- `ip->GetAddress (i, 0).GetLocal ()`. -/
def getAddress (ip : Ipv4) (i : Nat) : SetupM Ipv4Address :=
  match ip[i]?.bind List.head? with
  | none => throw .getAddress
  | some address => pure address

/-- `NS_ASSERT_MSG (ip->GetNAddresses (i) == 1)`. -/
def assertOneAddress (ip : Ipv4) (i : Nat) : SetupM Unit :=
  if (ip[i]?.getD []).length = 1 then pure () else throw .oneIpPerInterface

namespace OWDHost

/-- A pass of the loop of `OWDHost::StartApplication`; `ippeer` is the server's node.  The
socket is created before the loopback is skipped. -/
def openSocket (ip ippeer : Ipv4) (i : Nat) : SetupM Unit := do
  assertOneAddress ip i
  let sock ← createSocket
  let address ← getAddress ip i
  if address = getLoopback then
    return
  let remote ← getAddress ippeer i
  pushSocket ⟨sock, ⟨address, CFG_PORT⟩, some ⟨remote, CFG_PORT⟩⟩

/-- The loop over the interfaces in `OWDHost::StartApplication`. -/
def openSockets (ip ippeer : Ipv4) : SetupM Unit :=
  forM (List.range ip.length) (openSocket ip ippeer)

/-- `OWDHost::GetIndexOfSocket`, `none` for its fatal error. -/
def getIndexOfSocket (m_sockets : List UdpSocket) (ptr : Nat) : Option Nat :=
  m_sockets.findIdx? fun sock => sock.ptr = ptr

end OWDHost

namespace OwdServer

/-- A pass of the loop of `OwdServer::StartApplication`. -/
def openSocket (ip : Ipv4) (i : Nat) : SetupM Unit := do
  assertOneAddress ip i
  let address ← getAddress ip i
  if address = getLoopback then
    return
  let sock ← createSocket
  pushSocket ⟨sock, ⟨address, CFG_PORT⟩, none⟩

/-- `OwdServer::StartApplication`. -/
def startApplication (ip : Ipv4) : SetupM Unit := forM (List.range ip.length) (openSocket ip)

end OwdServer

/-- The sockets of a node that receive what is sent to an address. -/
def receivers (m_sockets : List UdpSocket) (target : InetSocketAddress) :
    List UdpSocket :=
  m_sockets.filter fun sock => sock.bound = target

/-! ## What the loops do -/

namespace Ipv4

/-- The first `n` interfaces without the loopback. -/
def opened (ip : Ipv4) (n : Nat) : List Nat :=
  (List.range n).filter fun i => ip[i]? ≠ some [getLoopback]

/-- The first address of an interface. -/
def addressAt (ip : Ipv4) (i : Nat) : Ipv4Address := (ip[i]?.bind List.head?).getD 0

variable {ip ippeer : Ipv4} {i n : Nat} {address : Ipv4Address}

theorem opened_succ (ip : Ipv4) (n : Nat) :
    ip.opened (n + 1) =
      if ip[n]? = some [getLoopback] then ip.opened n else ip.opened n ++ [n] := by
  unfold opened
  rw [List.range_succ, List.filter_append]
  split_ifs with loopback
  · rw [List.filter_singleton, loopback]
    simp
  · rw [List.filter_singleton]
    simp [loopback]

theorem addressAt_eq (get : ip[i]? = some [address]) : ip.addressAt i = address := by
  rw [addressAt, get]
  rfl

theorem lt_of_mem_opened (mem : i ∈ ip.opened n) : i < n :=
  List.mem_range.mp (List.mem_filter.mp mem).1

theorem opened_nodup (ip : Ipv4) (n : Nat) : (ip.opened n).Nodup := List.nodup_range.filter _

/-- Nodes with their loopback at the same places have the same other interfaces. -/
theorem opened_congr
    (aligned : ∀ i : Nat, ip[i]? = some [getLoopback] ↔ ippeer[i]? = some [getLoopback])
    (n : Nat) : ip.opened n = ippeer.opened n := by
  unfold opened
  simp only [ne_eq, aligned]

end Ipv4

variable {ip ippeer : Ipv4} {i n : Nat} {address : Ipv4Address} {table : SocketTable}

section Passes

variable {β : Type} {f : Unit → SetupM β} {g : Ipv4Address → SetupM β}

theorem run_assertOneAddress_bind (one : ip[i]? = some [address]) :
    (assertOneAddress ip i >>= f).run table = (f ()).run table := by
  rw [assertOneAddress, one]
  rfl

theorem run_assertOneAddress_bind_of_not (many : ∀ address, ip[i]? ≠ some [address]) :
    (assertOneAddress ip i >>= f).run table = .error .oneIpPerInterface table := by
  have length : ¬ (ip[i]?.getD []).length = 1 := by
    intro one
    obtain ⟨address, eq⟩ := List.length_eq_one_iff.mp one
    apply many address
    cases get : ip[i]? with
    | none =>
        rw [get] at eq
        cases eq
    | some addresses =>
        rw [get] at eq
        exact congrArg some eq
  rw [assertOneAddress, if_neg length]
  rfl

theorem run_getAddress_bind (get : ip[i]?.bind List.head? = some address) :
    (getAddress ip i >>= g).run table = (g address).run table := by
  rw [getAddress, get]
  rfl

theorem run_getAddress_bind_of_none (none : ip[i]?.bind List.head? = none) :
    (getAddress ip i >>= g).run table = .error .getAddress table := by
  rw [getAddress, none]
  rfl

end Passes

namespace OWDHost

/-- The socket of an interface of the client. -/
def socketAt (ip ippeer : Ipv4) (i : Nat) : UdpSocket :=
  ⟨i, ⟨ip.addressAt i, CFG_PORT⟩, some ⟨ippeer.addressAt i, CFG_PORT⟩⟩

/-- The client after `n` interfaces. -/
def tableAfter (ip ippeer : Ipv4) (n : Nat) : SocketTable :=
  ⟨n, (ip.opened n).map (socketAt ip ippeer)⟩

/-- What the loop needs of an interface. -/
def Opens (ip ippeer : Ipv4) (i : Nat) : Prop :=
  ∃ address, ip[i]? = some [address] ∧
    (address ≠ getLoopback → ∃ remote, ippeer[i]?.bind List.head? = some remote)

theorem run_openSocket (opens : Opens ip ippeer i) :
    (openSocket ip ippeer i).run (tableAfter ip ippeer i) =
      .ok () (tableAfter ip ippeer (i + 1)) := by
  obtain ⟨address, one, peer⟩ := opens
  have head : ip[i]?.bind List.head? = some address := by rw [one]; rfl
  unfold openSocket createSocket
  simp only [bind_assoc, pure_bind]
  rw [run_assertOneAddress_bind one, run_get_bind, run_modify_bind, run_getAddress_bind head]
  split_ifs with loopback
  · have same : ip.opened (i + 1) = ip.opened i := by
      rw [Ipv4.opened_succ, if_pos (loopback ▸ one)]
    unfold tableAfter
    rw [same]
    rfl
  · obtain ⟨remote, there⟩ := peer loopback
    have more : ip.opened (i + 1) = ip.opened i ++ [i] := by
      rw [Ipv4.opened_succ, if_neg (by rw [one]; simpa using loopback)]
    have local_eq : ip.addressAt i = address := Ipv4.addressAt_eq one
    have remote_eq : ippeer.addressAt i = remote := by
      rw [Ipv4.addressAt, there]
      rfl
    rw [run_getAddress_bind there]
    unfold tableAfter
    rw [more, List.map_append, List.map_singleton, socketAt, local_eq, remote_eq]
    rfl

theorem run_openSocket_of_not (opens : ¬ Opens ip ippeer i) (after : SocketTable) :
    (openSocket ip ippeer i).run table ≠ .ok () after := by
  by_cases one : ∃ address, ip[i]? = some [address]
  · obtain ⟨address, one⟩ := one
    have head : ip[i]?.bind List.head? = some address := by rw [one]; rfl
    have hidden : address ≠ getLoopback ∧ ippeer[i]?.bind List.head? = none := by
      by_contra fine
      refine opens ⟨address, one, fun notLoopback => ?_⟩
      exact Option.ne_none_iff_exists'.mp fun none => fine ⟨notLoopback, none⟩
    unfold openSocket createSocket
    simp only [bind_assoc, pure_bind]
    rw [run_assertOneAddress_bind one, run_get_bind, run_modify_bind, run_getAddress_bind head,
      if_neg hidden.1, run_getAddress_bind_of_none hidden.2]
    intro returned
    cases returned
  · rw [openSocket, run_assertOneAddress_bind_of_not (not_exists.mp one)]
    intro returned
    cases returned

/-- What `OWDHost::StartApplication` leaves in `m_sockets`, and when it does not stop. -/
theorem run_openSockets (ip ippeer : Ipv4) (after : SocketTable) :
    (openSockets ip ippeer).run .empty = .ok () after ↔
      (∀ i < ip.length, Opens ip ippeer i) ∧ after = tableAfter ip ippeer ip.length :=
  run_forM_range (openSocket ip ippeer) (tableAfter ip ippeer) (Opens ip ippeer)
    (fun _ => run_openSocket) (fun _ after stops => run_openSocket_of_not stops after) _ after

end OWDHost

namespace OwdServer

/-- The socket of an interface of the server. -/
def socketAt (ip : Ipv4) (entry : Nat × Nat) : UdpSocket :=
  ⟨entry.2, ⟨ip.addressAt entry.1, CFG_PORT⟩, none⟩

/-- The server after `n` interfaces. -/
def tableAfter (ip : Ipv4) (n : Nat) : SocketTable :=
  ⟨(ip.opened n).length, (ip.opened n).zipIdx.map (socketAt ip)⟩

theorem run_openSocket (one : ∃ address, ip[i]? = some [address]) :
    (openSocket ip i).run (tableAfter ip i) = .ok () (tableAfter ip (i + 1)) := by
  obtain ⟨address, one⟩ := one
  have head : ip[i]?.bind List.head? = some address := by rw [one]; rfl
  unfold openSocket createSocket
  rw [run_assertOneAddress_bind one, run_getAddress_bind head]
  split_ifs with loopback
  · have same : ip.opened (i + 1) = ip.opened i := by
      rw [Ipv4.opened_succ, if_pos (loopback ▸ one)]
    unfold tableAfter
    rw [same]
    rfl
  · have more : ip.opened (i + 1) = ip.opened i ++ [i] := by
      rw [Ipv4.opened_succ, if_neg (by rw [one]; simpa using loopback)]
    unfold tableAfter
    rw [more, List.length_append, List.zipIdx_append, List.map_append, Nat.zero_add,
      List.zipIdx_singleton, List.map_singleton, socketAt, Ipv4.addressAt_eq one]
    rfl

theorem run_openSocket_of_not (many : ¬ ∃ address, ip[i]? = some [address])
    (after : SocketTable) : (openSocket ip i).run table ≠ .ok () after := by
  rw [openSocket, run_assertOneAddress_bind_of_not (not_exists.mp many)]
  intro returned
  cases returned

/-- What `OwdServer::StartApplication` leaves in `m_sockets`, and when it does not stop. -/
theorem run_startApplication (ip : Ipv4) (after : SocketTable) :
    (startApplication ip).run .empty = .ok () after ↔
      (∀ i < ip.length, ∃ address, ip[i]? = some [address]) ∧ after = tableAfter ip ip.length :=
  run_forM_range (openSocket ip) (tableAfter ip) (fun i => ∃ address, ip[i]? = some [address])
    (fun _ => run_openSocket) (fun _ after stops => run_openSocket_of_not stops after) _ after

end OwdServer

/-! ## Subflows -/

/-- Each of the interfaces in use has an address of its own. -/
theorem bound_nodup (distinct : ip.Nodup)
    (one : ∀ i < ip.length, ∃ address, ip[i]? = some [address]) :
    ((ip.opened ip.length).map fun i =>
      (⟨ip.addressAt i, CFG_PORT⟩ : InetSocketAddress)).Nodup := by
  refine List.Nodup.map_on ?_ (ip.opened_nodup ip.length)
  intro i memI j memJ same
  have ltI := Ipv4.lt_of_mem_opened memI
  obtain ⟨a, getI⟩ := one i ltI
  obtain ⟨b, getJ⟩ := one j (Ipv4.lt_of_mem_opened memJ)
  have addresses : ip.addressAt i = ip.addressAt j := congrArg InetSocketAddress.ipv4 same
  rw [Ipv4.addressAt_eq getI, Ipv4.addressAt_eq getJ] at addresses
  exact (List.getElem?_inj ltI distinct).mp (by rw [getI, getJ, addresses])

/-- **A subflow keeps its number.**  When both programs have started on nodes whose
interfaces have addresses of their own and whose loopback interfaces stand at the same
places, they have as many sockets, and for each number: the client's socket is connected
to what the server's socket is bound to, no other socket of the server receives what is
sent there, no other socket of the client receives what is sent back, and the client
finds the number again by the socket. -/
theorem subflow_kept {client server : SocketTable}
    (opened : (OWDHost.openSockets ip ippeer).run .empty = .ok () client)
    (started : (OwdServer.startApplication ippeer).run .empty = .ok () server)
    (length : ip.length = ippeer.length)
    (aligned : ∀ i : Nat, ip[i]? = some [getLoopback] ↔ ippeer[i]? = some [getLoopback])
    (distinct : ip.Nodup) (distinctPeer : ippeer.Nodup) :
    client.m_sockets.length = server.m_sockets.length ∧
    ∀ k sock, client.m_sockets[k]? = some sock →
      ∃ remote, server.m_sockets[k]? = some remote ∧ sock.peer = some remote.bound ∧
        receivers server.m_sockets remote.bound = [remote] ∧
        receivers client.m_sockets sock.bound = [sock] ∧
        OWDHost.getIndexOfSocket client.m_sockets sock.ptr = some k := by
  obtain ⟨opens, rfl⟩ := (OWDHost.run_openSockets ip ippeer client).mp opened
  obtain ⟨one, rfl⟩ := (OwdServer.run_startApplication ippeer server).mp started
  have same : ippeer.opened ippeer.length = ip.opened ip.length := by
    rw [← length, Ipv4.opened_congr aligned]
  have clientBound : (((ip.opened ip.length).map (OWDHost.socketAt ip ippeer)).map
      UdpSocket.bound).Nodup := by
    rw [List.map_map]
    exact bound_nodup distinct fun i lt => (opens i lt).imp fun _ h => h.1
  have clientPtr : (((ip.opened ip.length).map (OWDHost.socketAt ip ippeer)).map
      UdpSocket.ptr).Nodup := by
    rw [List.map_map]
    exact (List.map_id _).symm ▸ ip.opened_nodup ip.length
  have serverBound : (((ippeer.opened ippeer.length).zipIdx.map (OwdServer.socketAt ippeer)).map
      UdpSocket.bound).Nodup := by
    have first : ((ippeer.opened ippeer.length).zipIdx.map (OwdServer.socketAt ippeer)).map
        UdpSocket.bound = (((ippeer.opened ippeer.length).zipIdx).map Prod.fst).map
          fun i => ⟨ippeer.addressAt i, CFG_PORT⟩ := by
      rw [List.map_map, List.map_map]
      rfl
    rw [first, List.zipIdx_map_fst]
    exact bound_nodup distinctPeer one
  unfold OWDHost.tableAfter OwdServer.tableAfter
  dsimp only
  refine ⟨by rw [List.length_map, List.length_map, List.length_zipIdx, same], ?_⟩
  intro k sock get
  obtain ⟨i, here, rfl⟩ := Option.map_eq_some_iff.mp ((List.getElem?_map ..).symm.trans get)
  have there : ((ippeer.opened ippeer.length).zipIdx.map (OwdServer.socketAt ippeer))[k]? =
      some (OwdServer.socketAt ippeer (i, k)) := by
    rw [List.getElem?_map, List.getElem?_zipIdx, same, here, Nat.zero_add]
    rfl
  exact ⟨_, there, rfl, filter_key_eq serverBound (List.mem_of_getElem? there),
    filter_key_eq clientBound (List.mem_of_getElem? get), findIdx?_key_eq clientPtr get⟩

/-- Nodes with a loopback interface and two others each. -/
theorem subflow_kept_two : ∃ client server sock remote,
    (OWDHost.openSockets [[getLoopback], [1], [2]] [[getLoopback], [3], [4]]).run .empty =
      .ok () client ∧
    (OwdServer.startApplication [[getLoopback], [3], [4]]).run .empty = .ok () server ∧
    client.m_sockets[1]? = some sock ∧ server.m_sockets[1]? = some remote ∧
    receivers server.m_sockets remote.bound = [remote] ∧
    OWDHost.getIndexOfSocket client.m_sockets sock.ptr = some 1 := by
  have aligned : ∀ i : Nat, ([[getLoopback], [1], [2]] : Ipv4)[i]? = some [getLoopback] ↔
      ([[getLoopback], [3], [4]] : Ipv4)[i]? = some [getLoopback] := by
    intro i
    rcases i with _ | _ | _ | i
    · exact iff_of_true rfl rfl
    · exact iff_of_false (by decide) (by decide)
    · exact iff_of_false (by decide) (by decide)
    · exact iff_of_false (by simp) (by simp)
  have opened :
      (OWDHost.openSockets [[getLoopback], [1], [2]] [[getLoopback], [3], [4]]).run .empty =
        .ok () ⟨3, [⟨1, ⟨1, CFG_PORT⟩, some ⟨3, CFG_PORT⟩⟩,
          ⟨2, ⟨2, CFG_PORT⟩, some ⟨4, CFG_PORT⟩⟩]⟩ :=
    rfl
  have started : (OwdServer.startApplication [[getLoopback], [3], [4]]).run .empty =
      .ok () ⟨2, [⟨0, ⟨3, CFG_PORT⟩, none⟩, ⟨1, ⟨4, CFG_PORT⟩, none⟩]⟩ := rfl
  obtain ⟨-, kept⟩ := subflow_kept opened started rfl aligned (by decide) (by decide)
  obtain ⟨remote, there, -, received, -, index⟩ := kept 1 _ rfl
  exact ⟨_, _, _, remote, opened, started, rfl, there, received, index⟩

end OwdPacing
