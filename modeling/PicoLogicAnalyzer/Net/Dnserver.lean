import PicoLogicAnalyzer.Net.Dhserver

/-
  The DNS server.

  The question of a datagram is parsed into a static buffer,
  which keeps the bytes of earlier names behind the new one.
  A store outside the buffer has no defined result, so the
  model has none.

  Key definitions include:
    * `DnsQuery`
    * `parseNextQuery`
    * `dnsQueryProc`
    * `Dnserver.udpRecvProc`
-/

------------------------------------------------------------
-- The Parsed Question
------------------------------------------------------------

namespace PicoLogicAnalyzer

open Layout

/- `dns_query_t`; type and class stand as they were sent. -/
structure DnsQuery where
  name : Record 128
  type : Record 2
  cls : Record 2
deriving DecidableEq

namespace DnsQuery

/- The static buffer before the first datagram. -/
def blank : DnsQuery where
  name := Record.fill 128 0
  type := Record.fill 2 0
  cls := Record.fill 2 0

/- A store into the name, if it stays inside. -/
def store
    (query : DnsQuery)
    (index : Nat)
    (bytes : List UInt8) :
    Option DnsQuery :=
  if hInside : index + bytes.length ≤ 128 then
    some
      { query with
        name :=
          query.name.write ⟨index, hInside⟩ ⟨bytes, rfl⟩ }
  else
    none

end DnsQuery

end PicoLogicAnalyzer

------------------------------------------------------------
-- Parsing
------------------------------------------------------------

namespace PicoLogicAnalyzer

open Layout

/-
  The variables of the parser: `consumed` bytes are in front
  of `ptr`, and `rest` are the `size` bytes behind it.
-/
structure DnsParse where
  query : DnsQuery
  len : Nat
  labels : Nat
  consumed : Nat
  rest : List UInt8

/- An error code with the buffer, or an undefined store. -/
inductive DnsStop where
  | code (query : DnsQuery) (value : Int)
  | undefined

def dnsDot : UInt8 := 46

namespace DnsParse

/- Store at `len` and advance it. -/
def append
    (parse : DnsParse)
    (bytes : List UInt8) :
    Except DnsStop DnsParse :=
  match parse.query.store parse.len bytes with
  | none => .error .undefined
  | some query =>
      .ok
        { parse with
          query := query
          len := parse.len + bytes.length }

/- The dot in front of every label but the first. -/
def separate (parse : DnsParse) : Except DnsStop DnsParse :=
  if 0 < parse.labels then
    if parse.len = 128 then
      .error (.code parse.query (-2))
    else
      parse.append [dnsDot]
  else
    .ok parse

/- The bytes of a label. -/
def copyLabel
    (lableLen : UInt8)
    (parse : DnsParse) :
    Except DnsStop DnsParse :=
  if parse.rest.length < lableLen.toNat then
    .error (.code parse.query (-1))
  else if 128 ≤ parse.len + lableLen.toNat then
    .error (.code parse.query (-2))
  else
    (parse.append (parse.rest.take lableLen.toNat)).map
      (fun parse =>
        { parse with
          labels := parse.labels + 1
          consumed := parse.consumed + lableLen.toNat
          rest := parse.rest.drop lableLen.toNat })

/- The loop over the labels. -/
def parseLabels : Nat → DnsParse → Except DnsStop DnsParse
| 0, _ => .error .undefined
| fuel + 1, parse =>
    match parse.rest with
    | [] => .error (.code parse.query (-1))
    | lableLen :: rest =>
        let parse :=
          { parse with
            consumed := parse.consumed + 1
            rest := rest }
        if lableLen = 0 then
          .ok parse
        else
          match parse.separate.bind (copyLabel lableLen) with
          | .error stop => .error stop
          | .ok parse => parseLabels fuel parse

/- What follows the loop. -/
def finish (parse : DnsParse) : Option (DnsQuery × Int) :=
  if hWhole : 4 ≤ parse.rest.length then
    (parse.query.store parse.len [0]).map
      (fun query =>
        ({ query with
           type :=
             { bytes := parse.rest.take 2
               length_eq := by
                 rw [List.length_take]
                 omega }
           cls :=
             { bytes := (parse.rest.drop 2).take 2
               length_eq := by
                 rw [List.length_take, List.length_drop]
                 omega } },
          (parse.consumed : Int) + 4))
  else
    some (parse.query, -1)

end DnsParse

/- Nothing is returned when a store is undefined. -/
def parseNextQuery
    (data : List UInt8)
    (query : DnsQuery) :
    Option (DnsQuery × Int) :=
  match DnsParse.parseLabels (data.length + 1)
      { query := query
        len := 0
        labels := 0
        consumed := 0
        rest := data } with
  | .error .undefined => none
  | .error (.code query value) => some (query, value)
  | .ok parse => parse.finish

end PicoLogicAnalyzer

------------------------------------------------------------
-- The Server
------------------------------------------------------------

namespace PicoLogicAnalyzer

open Layout

/- The characters of a C string. -/
def cString (bytes : List UInt8) : List UInt8 :=
  bytes.takeWhile (· ≠ 0)

def dnsHostName : List UInt8 := Text.ascii "tiny.usb"

/- The address of a name that is known. -/
def dnsQueryProc (name : List UInt8) : Option Ip4 :=
  if cString name = dnsHostName then
    some netifData.addr
  else
    none

def ntohs (value : Record 2) : Nat :=
  (value.get 0 Nat.zero_lt_two).toNat * 256 +
    (value.get 1 Nat.one_lt_two).toNat

def htons (value : UInt16) : Record 2 where
  bytes := [(value >>> 8).toUInt8, value.toUInt8]
  length_eq := rfl

/- `dns_header_t` -/
abbrev DnsHeader := Record 12

namespace DnsHeader

/- The byte that holds `qr` in its highest bit. -/
def flags : Field 12 1 := ⟨2, by decide⟩

/- `n_record` -/
def nRecord (index : Fin 4) : Field 12 2 :=
  ⟨4 + 2 * index, by omega⟩

def qr (header : Record 12) : UInt8 :=
  header.get 2 (by decide) >>> 7

def setQr (header : Record 12) : Record 12 :=
  header.write flags
    ⟨[header.get 2 (by decide) ||| 0x80], rfl⟩

/- The header of an answer. -/
def answer (header : Record 12) : Record 12 :=
  (setQr header).write (nRecord 1) (htons 1)

end DnsHeader

/- `dns_answer_t`, with a pointer to the question's name. -/
def dnsAnswer (addr : Ip4) : List UInt8 :=
  (htons 0xC00C).bytes ++ (htons 1).bytes ++
    (htons 1).bytes ++ [0, 0, 0, 32] ++ (htons 4).bytes ++
    addr.bytes

namespace Dnserver

/-
  A datagram for the server: what its first buffer holds,
  where it came from and whether a buffer for an answer can
  be allocated.
-/
structure Packet where
  payload : List UInt8
  addr : Ip4
  port : Nat
  allocated : Bool

structure Reply where
  payload : List UInt8
  addr : Ip4
  port : Nat
deriving DecidableEq

/- An answer to the first `len` bytes behind the header. -/
def reply
    (header : Record 12)
    (packet : Packet)
    (len : Nat)
    (hostAddr : Ip4) :
    Reply where
  payload :=
    (DnsHeader.answer header).bytes ++
      (packet.payload.drop 12).take len ++ dnsAnswer hostAddr
  addr := packet.addr
  port := packet.port

def udpRecvProc
    (query : DnsQuery)
    (packet : Packet) :
    Option (DnsQuery × List Reply) :=
  if hLong : 12 < packet.payload.length then
    let header : Record 12 :=
      { bytes := packet.payload.take 12
        length_eq := by
          rw [List.length_take]
          omega }
    if DnsHeader.qr header ≠ 0 then
      some (query, [])
    else if ntohs (header.read (DnsHeader.nRecord 0)) ≠ 1 then
      some (query, [])
    else
      match parseNextQuery (packet.payload.drop 12) query with
      | none => none
      | some (query, len) =>
          if len < 0 then
            some (query, [])
          else
            match dnsQueryProc query.name.bytes with
            | none => some (query, [])
            | some hostAddr =>
                if packet.allocated then
                  some
                    (query,
                      [reply header packet len.toNat hostAddr])
                else
                  some (query, [])
  else
    some (query, [])

/- After an undefined store nothing is known. -/
def step :
    Option DnsQuery → Packet → Option DnsQuery × List Reply
| none, _ => (none, [])
| some query, packet =>
    match udpRecvProc query packet with
    | none => (none, [])
    | some (query, replies) => (some query, replies)

end Dnserver

end PicoLogicAnalyzer
