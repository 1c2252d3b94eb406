import Mathlib.Data.List.Nodup
import PicoLogicAnalyzer.Lib.Assign
import PicoLogicAnalyzer.Net.DhcpOptions

/-
  Leases of the DHCP server.

  The table is an assignment of addresses to clients. A
  request makes a client give back what it has, also when it
  is refused afterwards, and a granted request is told to the
  client. So the table and the acknowledgements always agree,
  and no address is promised to two clients. A client with
  the hardware address zero leaves its entry vacant.

  Key definitions include:
    * `owners`
    * `promised`
    * `LeaseTable`

  Key theorems include:
    * `owners_freeClient` and `owners_setMac`
    * `LeaseTable.step`
    * `leases_exclusive`
    * `offered_address_is_granted`
-/

------------------------------------------------------------
-- The Table As An Assignment
------------------------------------------------------------

namespace PicoLogicAnalyzer

open Layout

/- The owner of an address; others are vacant. -/
def owners (entries : List DhcpEntry) (ip : Ip4) : Mac :=
  match entries.find? (fun entry => entry.addr = ip) with
  | some entry => entry.mac
  | none => Mac.zero

/- The addresses of the table are distinct. -/
def Distinct (entries : List DhcpEntry) : Prop :=
  (entries.map DhcpEntry.addr).Nodup

instance (entries : List DhcpEntry) :
    Decidable (Distinct entries) :=
  inferInstanceAs (Decidable (List.Nodup _))

variable {entries : List DhcpEntry}

theorem owners_of_mem
    (hDistinct : Distinct entries)
    {entry : DhcpEntry}
    (hMember : entry ∈ entries) :
    owners entries entry.addr = entry.mac := by
  unfold owners
  split
  · rename_i found hFind
    have hAddr : found.addr = entry.addr := by
      simpa using List.find?_some hFind
    rw [List.inj_on_of_nodup_map hDistinct
      (List.mem_of_find?_eq_some hFind) hMember hAddr]
  · rename_i hFind
    have hOther := List.find?_eq_none.mp hFind entry hMember
    simp at hOther

theorem owners_of_not_mem
    {ip : Ip4}
    (hOutside : ip ∉ entries.map DhcpEntry.addr) :
    owners entries ip = Mac.zero := by
  unfold owners
  split
  · rename_i found hFind
    refine absurd (List.mem_map.mpr ⟨found, ?_, ?_⟩) hOutside
    · exact List.mem_of_find?_eq_some hFind
    · simpa using List.find?_some hFind
  · rfl

/- Two tables of the same addresses with the same owners. -/
theorem owners_eq
    (hDistinct : Distinct entries)
    {owner : Ip4 → Mac}
    (hOwner :
      ∀ entry ∈ entries, owner entry.addr = entry.mac)
    (hOutside :
      ∀ ip, ip ∉ entries.map DhcpEntry.addr →
        owner ip = Mac.zero) :
    owners entries = owner := by
  funext ip
  by_cases hInside : ip ∈ entries.map DhcpEntry.addr
  · rcases List.mem_map.mp hInside with
      ⟨entry, hMember, rfl⟩
    rw [owners_of_mem hDistinct hMember,
      hOwner entry hMember]
  · rw [owners_of_not_mem hInside, hOutside ip hInside]

@[simp] theorem map_addr_setMac
    (index : Fin entries.length)
    (mac : Mac) :
    (setMac entries index mac).map DhcpEntry.addr =
      entries.map DhcpEntry.addr := by
  have hLength :
      index.val < (entries.map DhcpEntry.addr).length := by
    rw [List.length_map]
    exact index.isLt
  have hSame := List.set_getElem_self hLength
  rw [List.getElem_map] at hSame
  rw [setMac, List.map_set]
  exact hSame

/- An entry of the table after one owner has been set. -/
theorem mem_setMac
    (hDistinct : Distinct entries)
    {index : Fin entries.length}
    {mac : Mac}
    {entry : DhcpEntry}
    (hMember : entry ∈ setMac entries index mac) :
    (entry.addr = (entries.get index).addr ∧ entry.mac = mac) ∨
      (entry ∈ entries ∧
        entry.addr ≠ (entries.get index).addr) := by
  rcases List.mem_iff_getElem.mp hMember with
    ⟨j, hLength, rfl⟩
  simp only [setMac, List.length_set] at hLength
  simp only [setMac, List.getElem_set]
  by_cases hHere : index.val = j
  · rw [if_pos hHere]
    exact Or.inl ⟨rfl, rfl⟩
  · rw [if_neg hHere]
    refine Or.inr ⟨List.getElem_mem hLength, ?_⟩
    intro hAddr
    have hLeft : j < (entries.map DhcpEntry.addr).length := by
      simpa using hLength
    have hRight :
        index.val < (entries.map DhcpEntry.addr).length := by
      simp
    have hSame :
        (entries.map DhcpEntry.addr)[j] =
          (entries.map DhcpEntry.addr)[index.val] := by
      simpa using hAddr
    exact hHere (hDistinct.getElem_inj_iff.mp hSame).symm

/- Setting the owner of an entry grants its address. -/
theorem owners_setMac
    (hDistinct : Distinct entries)
    (index : Fin entries.length)
    (mac : Mac) :
    owners (setMac entries index mac) =
      Assign.grant (owners entries) (entries.get index).addr mac := by
  have hKept : Distinct (setMac entries index mac) := by
    rw [Distinct, map_addr_setMac]
    exact hDistinct
  unfold Assign.grant
  refine owners_eq hKept ?_ ?_
  · intro entry hMember
    rcases mem_setMac hDistinct hMember with
      ⟨hAddr, hMac⟩ | ⟨hOld, hAddr⟩
    · rw [hAddr, Function.update_self, hMac]
    · rw [Function.update_of_ne hAddr,
        owners_of_mem hDistinct hOld]
  · intro ip hOutside
    rw [map_addr_setMac] at hOutside
    have hOther : ip ≠ (entries.get index).addr := by
      rintro rfl
      exact hOutside
        (List.mem_map_of_mem (List.getElem_mem index.isLt))
    rw [Function.update_of_ne hOther,
      owners_of_not_mem hOutside]

@[simp] theorem map_addr_freeClient (mac : Mac) :
    (freeClient entries mac).map DhcpEntry.addr =
      entries.map DhcpEntry.addr := by
  unfold freeClient freeEntry
  split
  · exact map_addr_setMac _ _
  · rfl

/- A client that has at most one entry gives it back. -/
theorem owners_freeClient
    (hDistinct : Distinct entries)
    (hSingle : Assign.Single Mac.zero (owners entries))
    (mac : Mac) :
    owners (freeClient entries mac) =
      Assign.release Mac.zero (owners entries) mac := by
  unfold freeClient freeEntry
  split
  · rename_i index hFind
    have hMac : (entries.get index).mac = mac := by
      simpa using (List.findFinIdx?_eq_some_iff.mp hFind).1
    have hOwner : owners entries (entries.get index).addr = mac :=
      (owners_of_mem hDistinct
        (List.getElem_mem index.isLt)).trans hMac
    rw [owners_setMac hDistinct]
    funext ip
    by_cases hHere : ip = (entries.get index).addr
    · rw [hHere, Assign.grant, Function.update_self,
        Assign.release, if_pos hOwner]
    · rw [Assign.grant, Function.update_of_ne hHere,
        Assign.release]
      split
      · rename_i hToo
        -- Only the vacant key can own a second address.
        by_contra hOwned
        exact hHere
          (hSingle ip _ (hToo.trans hOwner.symm) hOwned)
      · rfl
  · rename_i hFind
    funext ip
    rw [Assign.release]
    split
    · rename_i hToo
      by_cases hInside : ip ∈ entries.map DhcpEntry.addr
      · rcases List.mem_map.mp hInside with
          ⟨entry, hMember, rfl⟩
        rw [owners_of_mem hDistinct hMember] at hToo
        have hOther :=
          List.findFinIdx?_eq_none_iff.mp hFind entry hMember
        simp [hToo] at hOther
      · exact owners_of_not_mem hInside
    · rfl

end PicoLogicAnalyzer

------------------------------------------------------------
-- What Clients Are Told
------------------------------------------------------------

namespace PicoLogicAnalyzer

open Layout

namespace Dhserver

/- An acknowledgement, as a client reads it. -/
def Reply.isAck (reply : Reply) : Bool :=
  reply.dhcp.option 53 = some [dhcpAck]

/-
  A client that asks has given up what it had. It has an
  address when it is told so.
-/
def tell
    (held : Mac → Option Ip4) :
    Event → Mac → Option Ip4
| .requested mac _ => Function.update held mac none
| .sent reply =>
    if reply.isAck then
      Function.update held (reply.dhcp.read DhcpType.chaddr)
        (some (reply.dhcp.read DhcpType.yiaddr))
    else
      held

/- The address each client has been told last. -/
def promised (trace : List Event) : Mac → Option Ip4 :=
  trace.foldl tell (fun _ => none)

variable (config : DhcpConfig) (netif : Netif)

theorem isAck_answer
    (dhcp : DhcpType)
    (msgType : UInt8)
    (addr : Ip4)
    (leaseTime : UInt32)
    (dest : Ip4)
    (port : Nat) :
    Reply.isAck
        ⟨dest, port,
          dhcp.answer config netif msgType addr leaseTime⟩ =
      decide (msgType = dhcpAck) := by
  rw [Reply.isAck,
    DhcpType.option_answer config netif msgType leaseTime dhcp
      addr (by decide) (by decide)]
  simp [answerItems]

end Dhserver

end PicoLogicAnalyzer

------------------------------------------------------------
-- Requests
------------------------------------------------------------

namespace PicoLogicAnalyzer

open Layout

namespace Dhserver

variable (config : DhcpConfig) (netif : Netif)
variable {server : Server} {packet : Packet} {ip : Ip4}

/- The client that the buffer names. -/
abbrev Server.client (server : Server) : Mac :=
  server.dhcpData.read DhcpType.chaddr

/- The table with the entry of this client given back. -/
abbrev Server.freed (server : Server) : List DhcpEntry :=
  freeClient server.entries server.client

/- The request for `ip` can be granted. -/
def Grantable
    (server : Server)
    (packet : Packet)
    (ip : Ip4) :
    Prop :=
  ip ∈ server.entries.map DhcpEntry.addr ∧
    owners server.freed ip = Mac.zero ∧
    packet.allocated = true

theorem distinct_freed
    (hDistinct : Distinct server.entries) :
    Distinct server.freed := by
  rw [Distinct, map_addr_freeClient]
  exact hDistinct

/- The search by address, in a table of distinct addresses. -/
theorem entryByIp_some
    {entries : List DhcpEntry}
    (hDistinct : Distinct entries)
    {index : Fin entries.length}
    (hFind : entryByIp entries ip = some index) :
    (entries.get index).addr = ip ∧
      owners entries ip = (entries.get index).mac := by
  have hAddr : (entries.get index).addr = ip := by
    simpa using (List.findFinIdx?_eq_some_iff.mp hFind).1
  refine ⟨hAddr, ?_⟩
  rw [← hAddr]
  exact owners_of_mem hDistinct (List.getElem_mem index.isLt)

theorem entryByIp_none
    {entries : List DhcpEntry}
    (hFind : entryByIp entries ip = none) :
    ip ∉ entries.map DhcpEntry.addr := by
  intro hInside
  rcases List.mem_map.mp hInside with ⟨entry, hMember, hAddr⟩
  have hOther :=
    List.findFinIdx?_eq_none_iff.mp hFind entry hMember
  simp [hAddr] at hOther

/- A granted request. -/
theorem requestIp_of_grantable
    (hDistinct : Distinct server.entries)
    (hGrant : Grantable server packet ip) :
    ∃ index leaseTime dest,
      (server.freed.get index).addr = ip ∧
        requestIp config netif server packet ip =
          ({ dhcpData :=
              server.dhcpData.answer config netif dhcpAck ip
                leaseTime
             entries :=
              setMac server.freed index server.client },
            [.requested server.client ip,
              .sent
                { dest := dest
                  port := packet.port
                  dhcp :=
                    server.dhcpData.answer config netif dhcpAck
                      ip leaseTime }]) := by
  rcases hGrant with ⟨hInside, hOwner, hAllocated⟩
  cases hFind : entryByIp server.freed ip with
  | none =>
      have hOutside := entryByIp_none hFind
      rw [map_addr_freeClient] at hOutside
      exact absurd hInside hOutside
  | some index =>
      rcases entryByIp_some (distinct_freed hDistinct) hFind
        with ⟨hAddr, hMac⟩
      rw [hOwner] at hMac
      refine ⟨index, (server.freed.get index).lease,
        getDhcpDestination netif
          (server.dhcpData.answer config netif dhcpAck ip
            (server.freed.get index).lease)
          (server.freed.get index).addr false, hAddr, ?_⟩
      unfold requestIp
      simp only
      rw [hFind]
      simp only [isVacant, ← hMac, decide_true, if_true,
        hAllocated]

/- A refused request only costs the client its entry. -/
theorem requestIp_of_not_grantable
    (hDistinct : Distinct server.entries)
    (hRefused : ¬ Grantable server packet ip) :
    (requestIp config netif server packet ip).1.entries =
        server.freed ∧
      (requestIp config netif server packet ip).2 =
        [.requested server.client ip] := by
  unfold requestIp
  simp only
  split
  · exact ⟨rfl, rfl⟩
  · rename_i index hFind
    rcases entryByIp_some (distinct_freed hDistinct) hFind
      with ⟨hAddr, hMac⟩
    split
    · rename_i hVacant
      have hRefusedBuffer : packet.allocated = false := by
        by_contra hAllocated
        refine hRefused ⟨?_, ?_, by simpa using hAllocated⟩
        · rw [← map_addr_freeClient server.client, ← hAddr]
          exact List.mem_map_of_mem
            (List.getElem_mem index.isLt)
        · rw [hMac]
          exact of_decide_eq_true hVacant
      rw [hRefusedBuffer]
      exact ⟨rfl, rfl⟩
    · exact ⟨rfl, rfl⟩

end Dhserver

end PicoLogicAnalyzer

------------------------------------------------------------
-- Table And Promises
------------------------------------------------------------

namespace PicoLogicAnalyzer

open Layout

namespace Dhserver

/- The table is what the clients have been told it is. -/
structure LeaseTable
    (pool : List Ip4)
    (trace : List Event)
    (server : Server) : Prop where
  addrs : server.entries.map DhcpEntry.addr = pool
  single : Assign.Single Mac.zero (owners server.entries)
  agrees :
    Assign.Agrees Mac.zero (promised trace)
      (owners server.entries)

/- A table that nobody has an entry of. -/
theorem LeaseTable.initial
    {server : Server}
    (hDistinct : Distinct server.entries)
    (hVacant :
      ∀ entry ∈ server.entries, entry.mac = Mac.zero) :
    LeaseTable (server.entries.map DhcpEntry.addr) [] server := by
  have hOwners :
      owners server.entries = fun _ => Mac.zero := by
    refine owners_eq hDistinct ?_ (fun _ _ => rfl)
    intro entry hMember
    exact (hVacant entry hMember).symm
  refine ⟨rfl, ?_, ?_⟩
  · rw [hOwners]
    exact fun _ _ _ hOwned => absurd rfl hOwned
  · rw [hOwners]
    intro mac hMac ip
    exact iff_of_false (Option.some_ne_none ip).symm hMac.symm

namespace LeaseTable

variable (config : DhcpConfig) (netif : Netif)
variable {pool : List Ip4} {trace : List Event}
variable {server : Server}

theorem distinct
    (h : LeaseTable pool trace server)
    (hPool : pool.Nodup) :
    Distinct server.entries := by
  rw [Distinct, h.addrs]
  exact hPool

/- A request gives back, and perhaps takes, one address. -/
theorem requestIp
    (h : LeaseTable pool trace server)
    (hPool : pool.Nodup)
    (packet : Packet)
    (ip : Ip4) :
    LeaseTable pool
      (trace ++
        (Dhserver.requestIp config netif server packet ip).2)
      (Dhserver.requestIp config netif server packet ip).1 := by
  have hDistinct := h.distinct hPool
  have hFreed :=
    owners_freeClient hDistinct h.single server.client
  have hSingle := h.single.release server.client
  have hAgrees := h.agrees.release server.client
  rw [← hFreed] at hSingle hAgrees
  by_cases hGrant : Grantable server packet ip
  · rcases requestIp_of_grantable config netif hDistinct hGrant
      with ⟨index, leaseTime, dest, hAddr, hResult⟩
    have hFree :
        server.client ≠ Mac.zero →
          ∀ a, owners server.freed a ≠ server.client := by
      intro hClient a
      rw [hFreed]
      exact Assign.release_ne hClient a
    have hOwners :=
      owners_setMac (distinct_freed hDistinct) index
        server.client
    rw [hAddr] at hOwners
    rw [hResult]
    refine ⟨?_, ?_, ?_⟩
    · rw [map_addr_setMac, map_addr_freeClient]
      exact h.addrs
    · rw [hOwners]
      exact hSingle.grant hFree ip
    · have hTold := hAgrees.grant hFree hGrant.2.1
      rw [← hOwners] at hTold
      rw [promised, List.foldl_append]
      simp only [List.foldl_cons, List.foldl_nil, tell,
        isAck_answer, decide_true, if_true,
        DhcpType.yiaddr_answer,
        DhcpType.read_answer config netif dhcpAck leaseTime
          server.dhcpData ip
          (show DhcpType.Kept DhcpType.chaddr by decide)]
      exact hTold
  · rcases requestIp_of_not_grantable config netif hDistinct
      hGrant with ⟨hEntries, hEvents⟩
    refine ⟨?_, ?_, ?_⟩
    · rw [hEntries, map_addr_freeClient]
      exact h.addrs
    · rw [hEntries]
      exact hSingle
    · rw [hEntries, hEvents, promised, List.foldl_append]
      exact hAgrees

/- An offer promises nothing. -/
theorem discover
    (h : LeaseTable pool trace server)
    (packet : Packet) :
    LeaseTable pool
      (trace ++
        (Dhserver.discover config netif server packet).2)
      (Dhserver.discover config netif server packet).1 := by
  have hOffer : (decide (dhcpOffer = dhcpAck)) = false := by
    decide
  unfold Dhserver.discover
  simp only
  split
  · rw [List.append_nil]
    exact h
  · refine ⟨h.addrs, h.single, ?_⟩
    split
    · rw [promised, List.foldl_append]
      simp only [List.foldl_cons, List.foldl_nil, tell,
        isAck_answer, hOffer]
      exact h.agrees
    · rw [List.append_nil]
      exact h.agrees

/- One packet. -/
theorem step
    (h : LeaseTable pool trace server)
    (hPool : pool.Nodup)
    (packet : Packet) :
    LeaseTable pool
      (trace ++ (udpRecvProc config netif server packet).2)
      (udpRecvProc config netif server packet).1 := by
  have hLoaded :
      LeaseTable pool trace (server.load packet) :=
    ⟨h.addrs, h.single, h.agrees⟩
  rcases udpRecvProc_cases config netif server packet with
    hResult | hResult | ⟨ip, hResult⟩
  · rw [hResult, List.append_nil]
    exact hLoaded
  · rw [hResult]
    exact hLoaded.discover config netif packet
  · rw [hResult]
    exact hLoaded.requestIp config netif hPool packet ip

end LeaseTable

end Dhserver

end PicoLogicAnalyzer

------------------------------------------------------------
-- Exclusive Leases
------------------------------------------------------------

namespace PicoLogicAnalyzer

open Layout

/- A client owns an address when it has its entry. -/
theorem owners_eq_iff
    {entries : List DhcpEntry}
    (hDistinct : Distinct entries)
    {mac : Mac}
    (hMac : mac ≠ Mac.zero)
    (ip : Ip4) :
    owners entries ip = mac ↔
      ∃ entry ∈ entries, entry.mac = mac ∧ entry.addr = ip := by
  constructor
  · intro hOwner
    by_cases hInside : ip ∈ entries.map DhcpEntry.addr
    · rcases List.mem_map.mp hInside with
        ⟨entry, hMember, rfl⟩
      rw [owners_of_mem hDistinct hMember] at hOwner
      exact ⟨entry, hMember, hOwner, rfl⟩
    · rw [owners_of_not_mem hInside] at hOwner
      exact absurd hOwner.symm hMac
  · rintro ⟨entry, hMember, hOwner, rfl⟩
    rw [owners_of_mem hDistinct hMember]
    exact hOwner

namespace Dhserver

variable (config : DhcpConfig) (netif : Netif)
variable {server : Server}

theorem LeaseTable.run
    {pool : List Ip4}
    {trace : List Event}
    (h : LeaseTable pool trace server)
    (hPool : pool.Nodup)
    (packets : List Packet) :
    LeaseTable pool
      (trace ++
        (Machine.run (udpRecvProc config netif) server
          packets).2)
      (Machine.run (udpRecvProc config netif) server
        packets).1 :=
  Machine.run_trace_invariant
    (fun _ _ packet h => h.step config netif hPool packet) h
    packets

/-
  Whatever packets arrive, a client has the address that it
  was told last and has not asked to change since, and no
  two clients have been told the same one.
-/
theorem leases_exclusive
    (hDistinct : Distinct server.entries)
    (hVacant :
      ∀ entry ∈ server.entries, entry.mac = Mac.zero)
    (packets : List Packet) :
    let run :=
      Machine.run (udpRecvProc config netif) server packets
    (∀ mac, mac ≠ Mac.zero →
      ∀ ip, promised run.2 mac = some ip ↔
        ∃ entry ∈ run.1.entries,
          entry.mac = mac ∧ entry.addr = ip) ∧
      ∀ mac mac' ip, mac ≠ Mac.zero → mac' ≠ Mac.zero →
        promised run.2 mac = some ip →
        promised run.2 mac' = some ip → mac = mac' := by
  have h :=
    (LeaseTable.initial hDistinct hVacant).run config netif
      hDistinct packets
  rw [List.nil_append] at h
  refine ⟨?_, ?_⟩
  · intro mac hMac ip
    rw [h.agrees mac hMac]
    exact owners_eq_iff (h.distinct hDistinct) hMac ip
  · intro mac mac' ip hMac hMac' hHeld hToo
    exact h.agrees.exclusive hMac hMac' hHeld hToo

theorem distinct_dhcpEntries : Distinct dhcpEntries := by
  decide

/- The second client is refused what the first one has. -/
theorem leases_exclusive_two_clients :
    let run :=
      Machine.run (udpRecvProc dhcpConfig netifData)
        Server.boot
        [sampleRequest (sampleMac 1) 2,
          sampleRequest (sampleMac 2) 2,
          sampleRequest (sampleMac 2) 3]
    promised run.2 (sampleMac 1) =
        some (initIp4 192 168 7 2) ∧
      promised run.2 (sampleMac 2) =
        some (initIp4 192 168 7 3) ∧
      ∀ mac mac' ip, mac ≠ Mac.zero → mac' ≠ Mac.zero →
        promised run.2 mac = some ip →
        promised run.2 mac' = some ip → mac = mac' := by
  refine ⟨by decide +kernel, by decide +kernel, ?_⟩
  exact
    (leases_exclusive dhcpConfig netifData
      distinct_dhcpEntries (by decide) _).2

/-
  Without a hardware address of its own a client is told an
  address that is then given to the next one.
-/
example :
    let run :=
      Machine.run (udpRecvProc dhcpConfig netifData)
        Server.boot
        [sampleRequest Mac.zero 2,
          sampleRequest (sampleMac 1) 2]
    promised run.2 Mac.zero = promised run.2 (sampleMac 1) := by
  decide +kernel

end Dhserver

end PicoLogicAnalyzer

------------------------------------------------------------
-- From Offer To Acknowledgement
------------------------------------------------------------

namespace PicoLogicAnalyzer

open Layout

namespace Dhserver

/- A packet in which a client looks for a server. -/
def Packet.Discovers
    (packet : Packet)
    (mac : Mac) :
    Prop :=
  ∃ items item more,
    Carries mac items packet.payload ∧
      items.find? (fun item => item.tag = 53) = some item ∧
      item.value = dhcpDiscover :: more

/- A packet in which a client asks for an address. -/
def Packet.Requests
    (packet : Packet)
    (mac : Mac)
    (ip : Ip4) :
    Prop :=
  ∃ items item more asked,
    Carries mac items packet.payload ∧
      items.find? (fun item => item.tag = 53) = some item ∧
      item.value = dhcpRequest :: more ∧
      items.find? (fun item => item.tag = 50) = some asked ∧
      asked.value = ip.bytes

variable (config : DhcpConfig) (netif : Netif)
variable {server : Server} {packet : Packet} {mac : Mac}

/- Such a packet is read the same way in every state. -/
theorem Packet.Discovers.read
    (hDiscovers : packet.Discovers mac)
    (server : Server) :
    udpRecvProc config netif server packet =
        discover config netif (server.load packet) packet ∧
      (server.load packet).client = mac := by
  rcases hDiscovers with
    ⟨items, item, more, hCarries, hType, hValue⟩
  have hOption := hCarries.option server.dhcpData hType
  rw [hValue] at hOption
  exact ⟨udpRecvProc_discover config netif hOption,
    hCarries.chaddr server.dhcpData⟩

theorem Packet.Requests.read
    {ip : Ip4}
    (hRequests : packet.Requests mac ip)
    (server : Server) :
    udpRecvProc config netif server packet =
        requestIp config netif (server.load packet) packet
          ip ∧
      (server.load packet).client = mac := by
  rcases hRequests with
    ⟨items, item, more, asked, hCarries, hType, hValue, hAsked,
      hIp⟩
  have hOption := hCarries.option server.dhcpData hType
  have hAddress := hCarries.option server.dhcpData hAsked
  rw [hValue] at hOption
  rw [hIp] at hAddress
  exact ⟨udpRecvProc_request config netif hOption hAddress,
    hCarries.chaddr server.dhcpData⟩

/- The entry that is offered to a client. -/
def Server.offered (server : Server) :
    Option (Fin server.entries.length) :=
  (entryByMac server.entries server.client).or
    (vacantAddress server.entries)

/- Its own entry, or a vacant one if it has none. -/
theorem offered_of_room
    (hRoom :
      ∃ entry ∈ server.entries,
        entry.mac = server.client ∨ entry.mac = Mac.zero) :
    ∃ index, server.offered = some index ∧
      ((server.entries.get index).mac = server.client ∨
        ((server.entries.get index).mac = Mac.zero ∧
          ∀ entry ∈ server.entries,
            entry.mac ≠ server.client)) := by
  unfold Server.offered
  cases hKnown :
      entryByMac server.entries server.client with
  | some index =>
      refine ⟨index, rfl, Or.inl ?_⟩
      simpa using (List.findFinIdx?_eq_some_iff.mp hKnown).1
  | none =>
      have hUnknown :
          ∀ entry ∈ server.entries,
            entry.mac ≠ server.client := by
        intro entry hMember
        simpa using
          List.findFinIdx?_eq_none_iff.mp hKnown entry hMember
      cases hFree : vacantAddress server.entries with
      | none =>
          rcases hRoom with ⟨entry, hMember, hMac | hMac⟩
          · exact absurd hMac (hUnknown entry hMember)
          · have hTaken :=
              List.findFinIdx?_eq_none_iff.mp hFree entry
                hMember
            simp [isVacant, hMac] at hTaken
      | some index =>
          refine ⟨index, rfl, Or.inr ⟨?_, hUnknown⟩⟩
          simpa [isVacant] using
            (List.findFinIdx?_eq_some_iff.mp hFree).1

theorem discover_of_offered
    {index : Fin server.entries.length}
    (hOffered : server.offered = some index)
    (hAllocated : packet.allocated = true) :
    ∃ dest,
      discover config netif server packet =
        ({ server with
            dhcpData :=
              server.dhcpData.answer config netif dhcpOffer
                (server.entries.get index).addr
                (server.entries.get index).lease },
          [.sent
            { dest := dest
              port := packet.port
              dhcp :=
                server.dhcpData.answer config netif dhcpOffer
                  (server.entries.get index).addr
                  (server.entries.get index).lease }]) := by
  refine ⟨getDhcpDestination netif
    (server.dhcpData.answer config netif dhcpOffer
      (server.entries.get index).addr (server.entries.get index).lease)
    (server.entries.get index).addr false, ?_⟩
  rw [Server.offered] at hOffered
  unfold discover
  simp only
  rw [hOffered]
  simp only [hAllocated, if_true]

theorem discover_entries (server : Server) :
    (discover config netif server packet).1.entries =
      server.entries := by
  unfold discover
  simp only
  split <;> rfl

/- Events that acknowledge this address to nobody else. -/
def Event.Spares (mac : Mac) (ip : Ip4) : Event → Prop
| .requested _ _ => True
| .sent reply =>
    reply.isAck = true →
      reply.dhcp.read DhcpType.yiaddr = ip →
      reply.dhcp.read DhcpType.chaddr = mac

/- The address belongs to the client or to nobody. -/
def Available
    (mac : Mac)
    (ip : Ip4)
    (entries : List DhcpEntry) :
    Prop :=
  owners entries ip = mac ∨ owners entries ip = Mac.zero

/- It stays so unless it is acknowledged to someone else. -/
theorem Available.requestIp
    {pool : List Ip4}
    {trace : List Event}
    {ip ip' : Ip4}
    (hAvailable : Available mac ip server.entries)
    (h : LeaseTable pool trace server)
    (hPool : pool.Nodup)
    (hSpares :
      ∀ event ∈
        (Dhserver.requestIp config netif server packet ip').2,
        event.Spares mac ip) :
    Available mac ip
      (Dhserver.requestIp config netif server packet
        ip').1.entries := by
  have hDistinct := h.distinct hPool
  have hFreed : Available mac ip server.freed := by
    rw [Available,
      owners_freeClient hDistinct h.single server.client,
      Assign.release]
    split
    · exact Or.inr rfl
    · exact hAvailable
  by_cases hGrant : Grantable server packet ip'
  · rcases requestIp_of_grantable config netif hDistinct hGrant
      with ⟨index, leaseTime, dest, hAddr, hResult⟩
    have hOwners :=
      owners_setMac (distinct_freed hDistinct) index
        server.client
    rw [hAddr] at hOwners
    rw [hResult] at hSpares ⊢
    rw [Available, hOwners, Assign.grant]
    by_cases hSame : ip = ip'
    · -- The address is acknowledged, so to this client.
      have hSpared :=
        hSpares _
          (List.mem_cons_of_mem _ (List.mem_singleton_self _))
      simp only [Event.Spares, isAck_answer, decide_true,
        DhcpType.yiaddr_answer,
        DhcpType.read_answer config netif dhcpAck leaseTime
          server.dhcpData ip'
          (show DhcpType.Kept DhcpType.chaddr by decide)]
        at hSpared
      rw [hSame, Function.update_self]
      exact Or.inl (hSpared trivial hSame.symm)
    · rw [Function.update_of_ne hSame]
      exact hFreed
  · rw [(requestIp_of_not_grantable config netif hDistinct
      hGrant).1]
    exact hFreed

theorem Available.step
    {pool : List Ip4}
    {trace : List Event}
    {ip : Ip4}
    (hAvailable : Available mac ip server.entries)
    (h : LeaseTable pool trace server)
    (hPool : pool.Nodup)
    (hSpares :
      ∀ event ∈ (udpRecvProc config netif server packet).2,
        event.Spares mac ip) :
    Available mac ip
      (udpRecvProc config netif server packet).1.entries := by
  have hLoaded :
      LeaseTable pool trace (server.load packet) :=
    ⟨h.addrs, h.single, h.agrees⟩
  have hSame :
      Available mac ip (server.load packet).entries :=
    hAvailable
  rcases udpRecvProc_cases config netif server packet with
    hResult | hResult | ⟨ip', hResult⟩
  · rw [hResult]
    exact hSame
  · rw [hResult, discover_entries]
    exact hSame
  · rw [hResult] at hSpares ⊢
    exact hSame.requestIp config netif hLoaded hPool hSpares

theorem Available.run
    {pool : List Ip4}
    {trace : List Event}
    {ip : Ip4}
    (hAvailable : Available mac ip server.entries)
    (h : LeaseTable pool trace server)
    (hPool : pool.Nodup)
    {packets : List Packet}
    (hSpares :
      ∀ event ∈
        (Machine.run (udpRecvProc config netif) server
          packets).2,
        event.Spares mac ip) :
    Available mac ip
      (Machine.run (udpRecvProc config netif) server
        packets).1.entries := by
  have hEnd :=
    Machine.run_trace_invariant
      (P := fun later server =>
        LeaseTable pool (trace ++ later) server ∧
          ((∀ event ∈ later, event.Spares mac ip) →
            Available mac ip server.entries))
      (fun later server packet hNow => by
        refine ⟨?_, ?_⟩
        · rw [← List.append_assoc]
          exact hNow.1.step config netif hPool packet
        · intro hAll
          rw [List.forall_mem_append] at hAll
          exact (hNow.2 hAll.1).step config netif hNow.1 hPool
            hAll.2)
      ⟨by rwa [List.append_nil], fun _ => hAvailable⟩ packets
  exact hEnd.2 hSpares

/- A client is granted an address that nobody else has. -/
theorem Available.granted
    {pool : List Ip4}
    {trace : List Event}
    {ip : Ip4}
    (hAvailable : Available mac ip server.entries)
    (h : LeaseTable pool trace server)
    (hPool : pool.Nodup)
    (hInside : ip ∈ pool)
    (hRequests : packet.Requests mac ip)
    (hAllocated : packet.allocated = true) :
    ∃ ack,
      (udpRecvProc config netif server packet).2 =
          [.requested mac ip, .sent ack] ∧
        ack.isAck = true ∧
        ack.dhcp.read DhcpType.chaddr = mac ∧
        ack.dhcp.read DhcpType.yiaddr = ip := by
  rcases hRequests.read config netif server with
    ⟨hRead, hClient⟩
  have hDistinct : Distinct (server.load packet).entries :=
    h.distinct hPool
  have hGrant : Grantable (server.load packet) packet ip := by
    refine ⟨?_, ?_, hAllocated⟩
    · exact h.addrs.symm ▸ hInside
    · rw [owners_freeClient hDistinct h.single, hClient,
        Assign.release]
      split
      · rfl
      · rename_i hOther
        exact hAvailable.resolve_left hOther
  rcases requestIp_of_grantable config netif hDistinct hGrant
    with ⟨index, leaseTime, dest, hAddr, hResult⟩
  have hEvents :=
    congrArg Prod.snd (hRead.trans hResult)
  rw [hClient] at hEvents
  refine ⟨_, hEvents, ?_, ?_, ?_⟩
  · rw [isAck_answer]
    exact decide_eq_true rfl
  · rw [DhcpType.read_answer config netif dhcpAck leaseTime _ ip
      (show DhcpType.Kept DhcpType.chaddr by decide)]
    exact hClient
  · exact DhcpType.yiaddr_answer config netif dhcpAck leaseTime
      _ ip

/- A client that has an address is offered this one. -/
theorem LeaseTable.offered_own
    {pool : List Ip4}
    {trace : List Event}
    (h : LeaseTable pool trace server)
    (hPool : pool.Nodup)
    (hClient : server.client ≠ Mac.zero)
    {index : Fin server.entries.length}
    (hOwner :
      (server.entries.get index).mac = server.client ∨
        ((server.entries.get index).mac = Mac.zero ∧
          ∀ entry ∈ server.entries,
            entry.mac ≠ server.client))
    {ip : Ip4}
    (hPromised : promised trace server.client = some ip) :
    (server.entries.get index).addr = ip := by
  have hDistinct := h.distinct hPool
  have hHeld := (h.agrees server.client hClient ip).mp hPromised
  rcases hOwner with hOwn | ⟨_, hUnknown⟩
  · have hToo :=
      (owners_of_mem hDistinct
        (List.getElem_mem index.isLt)).trans hOwn
    refine h.single _ _ (hToo.trans hHeld.symm) ?_
    intro hZero
    exact hClient (hToo.symm.trans hZero)
  · rcases (owners_eq_iff hDistinct hClient ip).mp hHeld with
      ⟨entry, hMember, hMac, _⟩
    exact absurd hMac (hUnknown entry hMember)

/-
  The packet is answered by an offer of the address the
  client has, if it has one. After any further packets that
  leave the offered address alone, a request for it is
  acknowledged.
-/
def ObtainsAddress
    (found : Server × List Event)
    (mac : Mac)
    (discovery : Packet) :
    Prop :=
  let answered := udpRecvProc config netif found.1 discovery
  ∃ offer,
    answered.2 = [.sent offer] ∧
      offer.dhcp.option 53 = some [dhcpOffer] ∧
      offer.dhcp.read DhcpType.chaddr = mac ∧
      (∀ ip, promised found.2 mac = some ip →
        offer.dhcp.read DhcpType.yiaddr = ip) ∧
      ∀ others request,
        let later :=
          Machine.run (udpRecvProc config netif) answered.1
            others
        let ip := offer.dhcp.read DhcpType.yiaddr
        (∀ event ∈ later.2, event.Spares mac ip) →
        request.Requests mac ip →
        request.allocated = true →
        ∃ ack,
          (udpRecvProc config netif later.1 request).2 =
              [.requested mac ip, .sent ack] ∧
            ack.isAck = true ∧
            ack.dhcp.read DhcpType.chaddr = mac ∧
            ack.dhcp.read DhcpType.yiaddr = ip

theorem offered_address_is_granted
    (hDistinct : Distinct server.entries)
    (hVacant :
      ∀ entry ∈ server.entries, entry.mac = Mac.zero)
    (before : List Packet)
    (hMac : mac ≠ Mac.zero)
    {discovery : Packet}
    (hDiscovers : discovery.Discovers mac)
    (hAllocated : discovery.allocated = true)
    (hRoom :
      ∃ entry ∈
        (Machine.run (udpRecvProc config netif) server
          before).1.entries,
        entry.mac = mac ∨ entry.mac = Mac.zero) :
    ObtainsAddress config netif
      (Machine.run (udpRecvProc config netif) server before)
      mac discovery := by
  have hTable :=
    (LeaseTable.initial hDistinct hVacant).run config netif
      hDistinct before
  rw [List.nil_append] at hTable
  revert hTable hRoom
  generalize
    Machine.run (udpRecvProc config netif) server before = found
  intro hRoom hTable
  rcases hDiscovers.read config netif found.1 with
    ⟨hRead, hClient⟩
  have hLoaded :
      LeaseTable (server.entries.map DhcpEntry.addr) found.2
        (found.1.load discovery) :=
    ⟨hTable.addrs, hTable.single, hTable.agrees⟩
  have hEntries := hLoaded.distinct hDistinct
  rcases offered_of_room (by rwa [hClient]) with
    ⟨index, hOffered, hOwner⟩
  rcases discover_of_offered config netif hOffered hAllocated
    with ⟨dest, hAnswer⟩
  rw [← hRead] at hAnswer
  have hIndex :=
    List.getElem_mem index.isLt
      (l := (found.1.load discovery).entries)
  have hAvailable :
      Available mac
        ((found.1.load discovery).entries.get index).addr
        (udpRecvProc config netif found.1 discovery).1.entries := by
    have hOwned :
        owners (found.1.load discovery).entries
            ((found.1.load discovery).entries.get index).addr =
          ((found.1.load discovery).entries.get index).mac :=
      owners_of_mem hEntries hIndex
    rw [hAnswer]
    simp only [Available, hOwned]
    rw [← hClient]
    exact hOwner.imp_right And.left
  have hAfter := hTable.step config netif hDistinct discovery
  have hYiaddr :=
    DhcpType.yiaddr_answer config netif dhcpOffer
      ((found.1.load discovery).entries.get index).lease
      (found.1.load discovery).dhcpData
      ((found.1.load discovery).entries.get index).addr
  refine ⟨_, congrArg Prod.snd hAnswer, ?_, ?_, ?_, ?_⟩
  · rw [DhcpType.option_answer config netif dhcpOffer _ _ _
      (by decide) (by decide)]
    rfl
  · rw [DhcpType.read_answer config netif dhcpOffer _ _ _
      (show DhcpType.Kept DhcpType.chaddr by decide)]
    exact hClient
  · intro ip hPromised
    rw [hYiaddr]
    refine hLoaded.offered_own hDistinct ?_ hOwner ?_
    · rwa [hClient]
    · rwa [hClient]
  · intro others request
    simp only [hYiaddr]
    intro hSpares hRequests hBuffer
    exact
      (hAvailable.run config netif hAfter hDistinct
        hSpares).granted config netif
        (hAfter.run config netif hDistinct others) hDistinct
        (hLoaded.addrs ▸ List.mem_map_of_mem hIndex) hRequests
        hBuffer

/- The second client obtains the second address. -/
theorem second_client_obtains_address :
    ObtainsAddress dhcpConfig netifData
        (Machine.run (udpRecvProc dhcpConfig netifData)
          Server.boot [sampleRequest (sampleMac 1) 2])
        (sampleMac 2) (sampleDiscovery (sampleMac 2)) := by
  have hDiscovers :
      (sampleDiscovery (sampleMac 2)).Discovers
        (sampleMac 2) := by
    refine ⟨[⟨53, [1], by decide⟩], ⟨53, [1], by decide⟩, [],
      ⟨sampleHeader (sampleMac 2), [], rfl, ?_⟩, rfl, rfl⟩
    decide +kernel
  exact
    offered_address_is_granted dhcpConfig netifData
      distinct_dhcpEntries (by decide) _ (by decide) hDiscovers
      rfl (by decide +kernel)

end Dhserver

end PicoLogicAnalyzer
