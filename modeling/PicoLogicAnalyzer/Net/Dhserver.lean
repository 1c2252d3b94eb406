import PicoLogicAnalyzer.Lib.Layout
import PicoLogicAnalyzer.Lib.Machine
import PicoLogicAnalyzer.Lib.Text
import PicoLogicAnalyzer.Lib.Tlv

/-
  The DHCP server.

  A packet is copied over the front of `dhcp_data`, which
  keeps the bytes of earlier packets behind it. The answer is
  made in the same place. The table of addresses is searched
  by hardware address, by IP address or for a vacant entry;
  an entry is vacant when its hardware address is zero.

  Key definitions include:
    * `DhcpType`
    * `findDhcpOption`
    * `fillOptions`
    * `getDhcpDestination`
    * `Dhserver.udpRecvProc`
-/

------------------------------------------------------------
-- Addresses
------------------------------------------------------------

namespace PicoLogicAnalyzer

open Layout

abbrev Ip4 := Record 4

abbrev Mac := Record 6

def Ip4.any : Ip4 :=
  Record.fill 4 0

def Mac.zero : Mac :=
  Record.fill 6 0

/- The broadcast address of a network. -/
def Ip4.broadcast (addr netmask : Ip4) : Ip4 where
  bytes :=
    List.zipWith (fun a m => a ||| ~~~m) addr.bytes
      netmask.bytes
  length_eq := by
    rw [List.length_zipWith, addr.length_eq,
      netmask.length_eq]
    rfl

structure DhcpEntry where
  mac : Mac
  addr : Ip4
  lease : UInt32
deriving DecidableEq

/- The options of an answer fit the options area. -/
structure DhcpConfig where
  router : Ip4
  dns : Ip4
  domain : Option (List UInt8)
  domain_short : ∀ text ∈ domain, text.length ≤ 239

/- The addresses of the interface a packet came from. -/
structure Netif where
  addr : Ip4
  netmask : Ip4

end PicoLogicAnalyzer

------------------------------------------------------------
-- The Packet Buffer
------------------------------------------------------------

namespace PicoLogicAnalyzer

open Layout

/- `DHCP_TYPE`, with its byte of padding at the end. -/
abbrev DhcpType := Record 516

namespace DhcpType

def op : Field 516 1 := ⟨0, by decide⟩
def xid : Field 516 4 := ⟨4, by decide⟩
def secs : Field 516 2 := ⟨8, by decide⟩
def flags : Field 516 2 := ⟨10, by decide⟩
def ciaddr : Field 516 4 := ⟨12, by decide⟩
def yiaddr : Field 516 4 := ⟨16, by decide⟩
def giaddr : Field 516 4 := ⟨24, by decide⟩
/- The six bytes of `dp_chaddr` the server looks at. -/
def chaddr : Field 516 6 := ⟨28, by decide⟩
def magic : Field 516 4 := ⟨236, by decide⟩
def options : Field 516 275 := ⟨240, by decide⟩

end DhcpType

def magicCookie : Record 4 where
  bytes := [0x63, 0x82, 0x53, 0x63]
  length_eq := rfl

/- The DHCP message types the server handles or sends. -/
def dhcpDiscover : UInt8 := 1
def dhcpOffer : UInt8 := 2
def dhcpRequest : UInt8 := 3
def dhcpAck : UInt8 := 5

/- A whole option inside an options area. -/
structure OptionAt (attrs : List UInt8) where
  position : Nat
  sized : position + 1 < attrs.length
  whole :
    position + (attrs.get ⟨position + 1, sized⟩).toNat + 2 ≤
      attrs.length

/- `ptr[1]` -/
def OptionAt.length
    {attrs : List UInt8}
    (found : OptionAt attrs) :
    UInt8 :=
  attrs.get ⟨found.position + 1, found.sized⟩

/- The search loop, from `i` on. -/
def findDhcpOptionFrom
    (attrs : List UInt8)
    (attr : UInt8) :
    Nat → Nat → Option (OptionAt attrs)
| 0, _ => none
| fuel + 1, i =>
    if hSized : i + 1 < attrs.length then
      let next := i + (attrs.get ⟨i + 1, hSized⟩).toNat + 2
      if hWhole : next ≤ attrs.length then
        if attrs.get ⟨i, Nat.lt_of_succ_lt hSized⟩ = attr then
          some ⟨i, hSized, hWhole⟩
        else
          findDhcpOptionFrom attrs attr fuel next
      else
        none
    else
      none

/- Padding and end marks are options like all others. -/
def findDhcpOption
    (attrs : List UInt8)
    (attr : UInt8) :
    Option (OptionAt attrs) :=
  findDhcpOptionFrom attrs attr attrs.length 0

namespace DhcpType

/- Copy a packet into the buffer, as far as it fits. -/
def load
    (dhcp : DhcpType)
    (payload : List UInt8) :
    DhcpType :=
  dhcp.overlay payload

/- Options found in the options area of a buffer. -/
abbrev OptionIn (dhcp : DhcpType) :=
  OptionAt (dhcp.read options).bytes

def find (dhcp : DhcpType) (attr : UInt8) :
    Option dhcp.OptionIn :=
  findDhcpOption (dhcp.read options).bytes attr

variable {dhcp : DhcpType}

theorem OptionIn.whole_inside (found : dhcp.OptionIn) :
    found.position + found.length.toNat + 2 ≤ 275 :=
  Nat.le_trans found.whole
    (Nat.le_of_eq (dhcp.read options).length_eq)

/-
  `ptr[2]`. Behind an empty option at the very end of the
  options area this is the padding of the record.
-/
def OptionIn.first (found : dhcp.OptionIn) : UInt8 :=
  dhcp.get (240 + found.position + 2)
    (by have := found.whole_inside; omega)

/- The value of an option of four bytes. -/
def OptionIn.ip
    (found : dhcp.OptionIn)
    (hFour : found.length = 4) :
    Ip4 :=
  dhcp.read
    { offset := 240 + found.position + 2
      inside := by
        have hInside := found.whole_inside
        rw [hFour, show (4 : UInt8).toNat = 4 from rfl]
          at hInside
        omega }

end DhcpType

end PicoLogicAnalyzer

------------------------------------------------------------
-- Answers
------------------------------------------------------------

namespace PicoLogicAnalyzer

open Layout

/- The four bytes of a lease time, most significant first. -/
def leaseBytes (leaseTime : UInt32) : List UInt8 :=
  [(leaseTime >>> 24).toUInt8, (leaseTime >>> 16).toUInt8,
    (leaseTime >>> 8).toUInt8, leaseTime.toUInt8]

/- An address is left out when it is zero. -/
def addressOption (tag : UInt8) (ip : Ip4) : List UInt8 :=
  if ip ≠ Ip4.any then tag :: 4 :: ip.bytes else []

def domainOption : Option (List UInt8) → List UInt8
| some text => 15 :: UInt8.ofNat text.length :: text
| none => []

def fillOptions
    (msgType : UInt8)
    (domain : Option (List UInt8))
    (dns : Ip4)
    (leaseTime : UInt32)
    (serverid router subnet : Ip4) :
    List UInt8 :=
  [53, 1, msgType] ++
    54 :: 4 :: serverid.bytes ++
    51 :: 4 :: leaseBytes leaseTime ++
    1 :: 4 :: subnet.bytes ++
    addressOption 3 router ++
    domainOption domain ++
    addressOption 6 dns ++
    [255]

/- The buffer as an answer that assigns `addr`. -/
def DhcpType.answer
    (dhcp : DhcpType)
    (config : DhcpConfig)
    (netif : Netif)
    (msgType : UInt8)
    (addr : Ip4)
    (leaseTime : UInt32) :
    DhcpType :=
  let text :=
    fillOptions msgType config.domain config.dns leaseTime
      netif.addr config.router netif.netmask
  let dhcp := dhcp.write op ⟨[2], rfl⟩
  let dhcp := dhcp.write secs (Record.fill 2 0)
  let dhcp := dhcp.write flags (Record.fill 2 0)
  let dhcp := dhcp.write yiaddr addr
  let dhcp := dhcp.write magic magicCookie
  dhcp.write options ((Record.fill 275 0).overlay text)

/-
  Where an answer is sent. The last two branches of the
  source meet: a client without an address is always reached
  by a broadcast.
-/
def getDhcpDestination
    (netif : Netif)
    (dhcp : DhcpType)
    (yiaddr : Ip4)
    (isNak : Bool) :
    Ip4 :=
  let giaddr := dhcp.read DhcpType.giaddr
  let ciaddr := dhcp.read DhcpType.ciaddr
  let broadcastFlag :=
    (dhcp.read DhcpType.flags).get 0 (by decide) &&& 0x80 ≠ 0
  let broadcast := Ip4.broadcast netif.addr netif.netmask
  if giaddr ≠ Ip4.any then giaddr
  else if isNak then broadcast
  else if ciaddr ≠ Ip4.any then ciaddr
  else if broadcastFlag then broadcast
  else if yiaddr ≠ Ip4.any then broadcast
  else broadcast

end PicoLogicAnalyzer

------------------------------------------------------------
-- The Table
------------------------------------------------------------

namespace PicoLogicAnalyzer

def entryByIp
    (entries : List DhcpEntry)
    (ip : Ip4) :
    Option (Fin entries.length) :=
  entries.findFinIdx? (fun entry => entry.addr = ip)

def entryByMac
    (entries : List DhcpEntry)
    (mac : Mac) :
    Option (Fin entries.length) :=
  entries.findFinIdx? (fun entry => entry.mac = mac)

def isVacant (entry : DhcpEntry) : Bool :=
  entry.mac = Mac.zero

def vacantAddress
    (entries : List DhcpEntry) :
    Option (Fin entries.length) :=
  entries.findFinIdx? isVacant

def setMac
    (entries : List DhcpEntry)
    (index : Fin entries.length)
    (mac : Mac) :
    List DhcpEntry :=
  entries.set index { (entries.get index) with mac := mac }

def freeEntry
    (entries : List DhcpEntry)
    (index : Fin entries.length) :
    List DhcpEntry :=
  setMac entries index Mac.zero

/- Step 2 of a request: the client gives its entry back. -/
def freeClient
    (entries : List DhcpEntry)
    (mac : Mac) :
    List DhcpEntry :=
  match entryByMac entries mac with
  | some index => freeEntry entries index
  | none => entries

end PicoLogicAnalyzer

------------------------------------------------------------
-- The Server
------------------------------------------------------------

namespace PicoLogicAnalyzer

open Layout

namespace Dhserver

structure Server where
  dhcpData : DhcpType
  entries : List DhcpEntry

/-
  A datagram for the server: what its first buffer holds, the
  port it came from and whether a buffer for an answer can be
  allocated.
-/
structure Packet where
  payload : List UInt8
  port : Nat
  allocated : Bool

structure Reply where
  dest : Ip4
  port : Nat
  dhcp : DhcpType
deriving DecidableEq

/- A request for an address was read, an answer was sent. -/
inductive Event where
  | requested (mac : Mac) (ip : Ip4)
  | sent (reply : Reply)
deriving DecidableEq

section Server

variable (config : DhcpConfig) (netif : Netif)

/- `DHCP_DISCOVER` -/
def discover
    (server : Server)
    (packet : Packet) :
    Server × List Event :=
  let dhcp := server.dhcpData
  let mac := dhcp.read DhcpType.chaddr
  match (entryByMac server.entries mac).or
      (vacantAddress server.entries) with
  | none => (server, [])
  | some index =>
      let entry := (server.entries.get index)
      let answer :=
        dhcp.answer config netif dhcpOffer entry.addr
          entry.lease
      ({ server with dhcpData := answer },
        if packet.allocated then
          [.sent
            { dest :=
                getDhcpDestination netif answer entry.addr false
              port := packet.port
              dhcp := answer }]
        else
          [])

/- A request for `ip`, from its second step on. -/
def requestIp
    (server : Server)
    (packet : Packet)
    (ip : Ip4) :
    Server × List Event :=
  let dhcp := server.dhcpData
  let mac := dhcp.read DhcpType.chaddr
  let entries := freeClient server.entries mac
  match entryByIp entries ip with
  | none =>
      ({ server with entries := entries },
        [.requested mac ip])
  | some index =>
      let entry := (entries.get index)
      if isVacant entry then
        let answer :=
          dhcp.answer config netif dhcpAck ip entry.lease
        if packet.allocated then
          ({ dhcpData := answer
             entries := setMac entries index mac },
            [.requested mac ip,
              .sent
                { dest :=
                    getDhcpDestination netif answer entry.addr
                      false
                  port := packet.port
                  dhcp := answer }])
        else
          ({ dhcpData := answer, entries := entries },
            [.requested mac ip])
      else
        ({ server with entries := entries },
          [.requested mac ip])

/- `DHCP_REQUEST` -/
def request
    (server : Server)
    (packet : Packet) :
    Server × List Event :=
  match server.dhcpData.find 50 with
  | none => (server, [])
  | some found =>
      if hFour : found.length = 4 then
        requestIp config netif server packet (found.ip hFour)
      else
        (server, [])

def udpRecvProc
    (server : Server)
    (packet : Packet) :
    Server × List Event :=
  let server :=
    { server with
      dhcpData := server.dhcpData.load packet.payload }
  match server.dhcpData.find 53 with
  | none => (server, [])
  | some found =>
      if found.first = dhcpDiscover then
        discover config netif server packet
      else if found.first = dhcpRequest then
        request config netif server packet
      else
        (server, [])

end Server

end Dhserver

end PicoLogicAnalyzer

------------------------------------------------------------
-- The Network Of The Board
------------------------------------------------------------

namespace PicoLogicAnalyzer

/- `INIT_IP4` -/
def initIp4 (a b c d : UInt8) : Ip4 where
  bytes := [a, b, c, d]
  length_eq := rfl

def netifData : Netif where
  addr := initIp4 192 168 7 1
  netmask := initIp4 255 255 255 0

/- The addresses that can be assigned, for a day each. -/
def dhcpEntries : List DhcpEntry :=
  [⟨Mac.zero, initIp4 192 168 7 2, 86400⟩,
    ⟨Mac.zero, initIp4 192 168 7 3, 86400⟩,
    ⟨Mac.zero, initIp4 192 168 7 4, 86400⟩]

def dhcpConfig : DhcpConfig where
  router := initIp4 0 0 0 0
  dns := initIp4 192 168 7 1
  domain := some (Text.ascii "usb")
  domain_short := by decide

/- The server before the first packet. -/
def Dhserver.Server.boot : Dhserver.Server where
  dhcpData := Layout.Record.fill 516 0
  entries := dhcpEntries

end PicoLogicAnalyzer

------------------------------------------------------------
-- Packets For Concrete Runs
------------------------------------------------------------

namespace PicoLogicAnalyzer

namespace Dhserver

/- Hardware addresses of concrete clients. -/
def sampleMac (last : UInt8) : Mac where
  bytes := [2, 0, 0, 0, 0, last]
  length_eq := rfl

/-
  A header with a transaction id and no address but the
  hardware address.
-/
def sampleHeader (mac : Mac) : List UInt8 :=
  List.replicate 4 0 ++ [18, 52, 86, 120] ++
    List.replicate 20 0 ++ mac.bytes ++ List.replicate 206 0

def sampleDiscovery (mac : Mac) : Packet where
  payload := sampleHeader mac ++ [53, 1, 1]
  port := 68
  allocated := true

def sampleRequest (mac : Mac) (last : UInt8) : Packet where
  payload :=
    sampleHeader mac ++ [53, 1, 3, 50, 4, 192, 168, 7, last]
  port := 68
  allocated := true

end Dhserver

end PicoLogicAnalyzer
