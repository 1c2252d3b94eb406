import PicoLogicAnalyzer.Net.Dhserver

/-
  Options of a DHCP message.

  `find_dhcp_option` finds the first option with a tag. What
  the server writes into an answer is found by the same
  search, and what a client writes into a packet is found
  whatever earlier packets have left behind it.

  Key definitions include:
    * `DhcpType.option`
    * `answerItems`
    * `Carries`

  Key theorems include:
    * `DhcpType.option_of_encode`
    * `option_answer`
    * `Carries.option`
-/

------------------------------------------------------------
-- The Search
------------------------------------------------------------

namespace PicoLogicAnalyzer

open Layout

/- The loop follows the items of the options area. -/
theorem findDhcpOptionFrom_position
    (attrs : List UInt8)
    (attr : UInt8)
    (fuel i : Nat) :
    (findDhcpOptionFrom attrs attr fuel i).map
        OptionAt.position =
      Tlv.find attr fuel (attrs.drop i) i := by
  induction fuel generalizing i with
  | zero => rfl
  | succ fuel ih =>
      by_cases hSized : i + 1 < attrs.length
      · have hText :
            attrs.drop i =
              attrs[i] :: attrs[i + 1] :: attrs.drop (i + 2) := by
          rw [List.drop_eq_getElem_cons (by omega),
            List.drop_eq_getElem_cons hSized]
        rw [Tlv.find, hText, Tlv.uncons]
        simp only [findDhcpOptionFrom, dif_pos hSized,
          List.get_eq_getElem, List.length_drop]
        by_cases hWhole :
            i + attrs[i + 1].toNat + 2 ≤ attrs.length
        · have hRest :
              attrs[i + 1].toNat ≤ attrs.length - (i + 2) := by
            omega
          simp only [dif_pos hWhole, if_pos hRest]
          by_cases hTag : attrs[i] = attr
          · simp only [if_pos hTag, Option.map_some]
          · simp only [if_neg hTag, ih]
            rw [List.drop_drop, Tlv.Item.length_encode,
              List.length_take, List.length_drop,
              Nat.min_eq_left hRest, ← Nat.add_assoc,
              Nat.add_right_comm i 2]
        · have hRest :
              ¬ attrs[i + 1].toNat ≤ attrs.length - (i + 2) := by
            omega
          simp only [dif_neg hWhole, if_neg hRest,
            Option.map_none]
      · have hShort : Tlv.uncons (attrs.drop i) = none := by
          apply Tlv.uncons_of_length_le
          rw [List.length_drop]
          omega
        rw [Tlv.find, hShort, findDhcpOptionFrom,
          dif_neg hSized]
        rfl

namespace DhcpType

/- The value of the first option with a tag. -/
def option
    (dhcp : DhcpType)
    (attr : UInt8) :
    Option (List UInt8) :=
  (dhcp.find attr).map
    (fun found =>
      ((dhcp.read options).bytes.drop
        (found.position + 2)).take found.length.toNat)

variable {dhcp : DhcpType} {attr : UInt8}

theorem find_position
    {text : List UInt8}
    (hBytes : (dhcp.read options).bytes = text)
    (attr : UInt8) :
    (dhcp.find attr).map OptionAt.position =
      Tlv.find attr text.length text 0 := by
  rw [← hBytes]
  exact findDhcpOptionFrom_position _ attr _ 0

/- An option behind options with other tags is found. -/
theorem option_of_encode
    {before : List Tlv.Item}
    (hBefore : ∀ item ∈ before, item.tag ≠ attr)
    {item : Tlv.Item}
    (hTag : item.tag = attr)
    {rest : List UInt8}
    (hBytes :
      (dhcp.read options).bytes =
        Tlv.encode before ++ (item.encode ++ rest)) :
    dhcp.option attr = some item.value := by
  have hFuel :
      before.length <
        (Tlv.encode before ++ (item.encode ++ rest)).length := by
    have hLength := Tlv.length_le_length_encode before
    rw [List.length_append, List.length_append,
      Tlv.Item.length_encode]
    omega
  have hFind := find_position hBytes attr
  rw [Tlv.find_encode hBefore hTag rest hFuel] at hFind
  rcases Option.map_eq_some_iff.mp hFind with
    ⟨found, hFound, hPosition⟩
  have hLength :
      found.length = UInt8.ofNat item.value.length := by
    have hByte :
        (dhcp.read options).bytes[found.position + 1]? =
          some (UInt8.ofNat item.value.length) := by
      rw [hPosition, hBytes,
        List.getElem?_append_right (by omega),
        Nat.add_sub_cancel_left]
      rfl
    exact List.getElem_of_getElem? hByte |>.2
  rw [option, hFound, Option.map_some, hLength, hPosition,
    hBytes, UInt8.toNat_ofNat', Nat.mod_eq_of_lt item.short,
    ← List.drop_drop, List.drop_left]
  simp [Tlv.Item.encode]

/- The first item of a list with this tag is found. -/
theorem option_of_find
    {items : List Tlv.Item}
    {item : Tlv.Item}
    (hFind :
      items.find? (fun item => item.tag = attr) = some item)
    {rest : List UInt8}
    (hBytes :
      (dhcp.read options).bytes = Tlv.encode items ++ rest) :
    dhcp.option attr = some item.value := by
  rcases List.find?_eq_some_iff_append.mp hFind with
    ⟨hTag, before, after, hSplit, hBefore⟩
  rw [hSplit, Tlv.encode_append, Tlv.encode_cons,
    List.append_assoc, List.append_assoc] at hBytes
  refine option_of_encode ?_ (of_decide_eq_true hTag) hBytes
  intro other hMember
  simpa using hBefore other hMember

/- Without such an option the search has no result. -/
theorem option_eq_none
    {items : List Tlv.Item}
    (hItems : ∀ item ∈ items, item.tag ≠ attr)
    {rest : List UInt8}
    (hRest : Tlv.uncons rest = none)
    (hBytes :
      (dhcp.read options).bytes = Tlv.encode items ++ rest) :
    dhcp.option attr = none := by
  have hFind := find_position hBytes attr
  rw [Tlv.find_eq_none hItems hRest] at hFind
  rw [option, Option.map_eq_none_iff.mp hFind]
  rfl

/- The bytes of an option, where the server reads them. -/
theorem value_of_option
    {found : dhcp.OptionIn}
    (hFound : dhcp.find attr = some found)
    {value : List UInt8}
    (hValue : dhcp.option attr = some value) :
    value.length = found.length.toNat ∧
      value =
        (dhcp.bytes.drop (240 + found.position + 2)).take
          value.length := by
  rw [option, hFound, Option.map_some, Option.some_inj]
    at hValue
  have hInside := found.whole_inside
  have hLength : value.length = found.length.toNat := by
    rw [← hValue, List.length_take, List.length_drop,
      (dhcp.read options).length_eq]
    omega
  refine ⟨hLength, ?_⟩
  rw [hLength, ← hValue]
  generalize found.length.toNat = length at hInside ⊢
  generalize found.position = position at hInside ⊢
  simp only [Record.read, options, List.drop_take,
    List.drop_drop, List.take_take]
  rw [Nat.min_eq_left (by omega)]
  rfl

theorem first_of_option
    {found : dhcp.OptionIn}
    (hFound : dhcp.find attr = some found)
    {byte : UInt8}
    {more : List UInt8}
    (hValue : dhcp.option attr = some (byte :: more)) :
    found.first = byte := by
  have hBytes := (value_of_option hFound hValue).2
  have hByte :
      dhcp.bytes[240 + found.position + 2]? = some byte := by
    have hHead := congrArg (fun value => value[0]?) hBytes
    simpa [List.getElem?_take] using hHead.symm
  exact (List.getElem_of_getElem? hByte).2

theorem ip_of_option
    {found : dhcp.OptionIn}
    (hFound : dhcp.find attr = some found)
    {ip : Ip4}
    (hValue : dhcp.option attr = some ip.bytes) :
    ∃ hFour, found.ip hFour = ip := by
  rcases value_of_option hFound hValue with ⟨hLength, hBytes⟩
  rw [ip.length_eq] at hLength hBytes
  refine ⟨UInt8.toNat_inj.mp hLength.symm, ?_⟩
  ext1
  exact hBytes.symm

end DhcpType

end PicoLogicAnalyzer

------------------------------------------------------------
-- Answers
------------------------------------------------------------

namespace PicoLogicAnalyzer

open Layout

/- An option whose value is an address. -/
def ipItem (tag : UInt8) (ip : Ip4) : Tlv.Item where
  tag := tag
  value := ip.bytes
  short := by
    rw [ip.length_eq]
    decide

def addressItems (tag : UInt8) (ip : Ip4) : List Tlv.Item :=
  if ip ≠ Ip4.any then [ipItem tag ip] else []

def domainItems :
    (domain : Option (List UInt8)) →
      (∀ text ∈ domain, text.length ≤ 239) → List Tlv.Item
| some text, hShort =>
    [{ tag := 15
       value := text
       short := by
        have := hShort text rfl
        omega }]
| none, _ => []

/- The options of an answer. -/
def answerItems
    (config : DhcpConfig)
    (netif : Netif)
    (msgType : UInt8)
    (leaseTime : UInt32) :
    List Tlv.Item :=
  [⟨53, [msgType], (by decide : 1 < 256)⟩,
      ipItem 54 netif.addr,
      ⟨51, leaseBytes leaseTime, (by decide : 4 < 256)⟩,
      ipItem 1 netif.netmask] ++
    addressItems 3 config.router ++
    domainItems config.domain config.domain_short ++
    addressItems 6 config.dns

theorem ipItem_encode (tag : UInt8) (ip : Ip4) :
    (ipItem tag ip).encode = tag :: 4 :: ip.bytes := by
  rw [Tlv.Item.encode, ipItem, ip.length_eq]
  rfl

theorem encode_addressItems (tag : UInt8) (ip : Ip4) :
    Tlv.encode (addressItems tag ip) =
      addressOption tag ip := by
  unfold addressItems addressOption
  split
  · rw [Tlv.encode_cons, ipItem_encode, Tlv.encode_nil,
      List.append_nil]
  · rfl

theorem length_addressOption_le (tag : UInt8) (ip : Ip4) :
    (addressOption tag ip).length ≤ 6 := by
  unfold addressOption
  split
  · apply Nat.le_of_eq
    rw [List.length_cons, List.length_cons, ip.length_eq]
  · exact Nat.zero_le 6

theorem encode_domainItems
    (domain : Option (List UInt8))
    (hShort : ∀ text ∈ domain, text.length ≤ 239) :
    Tlv.encode (domainItems domain hShort) =
      domainOption domain := by
  cases domain with
  | none => rfl
  | some text =>
      exact List.append_nil _

theorem length_domainOption_le
    {domain : Option (List UInt8)}
    (hShort : ∀ text ∈ domain, text.length ≤ 239) :
    (domainOption domain).length ≤ 241 := by
  cases domain with
  | none => exact Nat.zero_le 241
  | some text =>
      have hLength := hShort text rfl
      simp only [domainOption, List.length_cons]
      omega

variable (config : DhcpConfig) (netif : Netif)
variable (msgType : UInt8) (leaseTime : UInt32)

theorem fillOptions_eq :
    fillOptions msgType config.domain config.dns leaseTime
        netif.addr config.router netif.netmask =
      Tlv.encode
          (answerItems config netif msgType leaseTime) ++
        [255] := by
  simp only [answerItems, Tlv.encode_append,
    encode_addressItems, encode_domainItems, Tlv.encode_cons,
    ipItem_encode, Tlv.encode_nil, List.append_nil]
  simp only [fillOptions, List.append_assoc]
  rfl

/- The options of an answer fit their area. -/
theorem length_fillOptions_le :
    (fillOptions msgType config.domain config.dns leaseTime
      netif.addr config.router netif.netmask).length ≤ 275 := by
  have hRouter := length_addressOption_le 3 config.router
  have hDns := length_addressOption_le 6 config.dns
  have hDomain := length_domainOption_le config.domain_short
  simp only [fillOptions, List.length_append,
    List.length_cons, List.length_nil, netif.addr.length_eq,
    netif.netmask.length_eq, leaseBytes]
  omega

namespace DhcpType

variable (dhcp : DhcpType) (addr : Ip4)

/- The options area of an answer. -/
theorem options_answer :
    ((dhcp.answer config netif msgType addr leaseTime).read
        options).bytes =
      Tlv.encode
          (answerItems config netif msgType leaseTime) ++
        255 ::
          List.replicate
            (275 -
              (fillOptions msgType config.domain config.dns
                leaseTime netif.addr config.router
                netif.netmask).length) 0 := by
  have hFits :=
    length_fillOptions_le config netif msgType leaseTime
  rw [answer, Record.read_write, Record.bytes_overlay _ hFits,
    Record.fill, List.drop_replicate, fillOptions_eq,
    List.append_assoc]
  rfl

/-
  A search of an answer finds the options that were written,
  and no other option but padding and the end mark.
-/
theorem option_answer
    {tag : UInt8}
    (hPad : tag ≠ 0)
    (hEnd : tag ≠ 255) :
    (dhcp.answer config netif msgType addr leaseTime).option
        tag =
      ((answerItems config netif msgType leaseTime).find?
        (fun item => item.tag = tag)).map Tlv.Item.value := by
  have hBytes :=
    options_answer config netif msgType leaseTime dhcp addr
  generalize
    answerItems config netif msgType leaseTime = items
    at hBytes ⊢
  cases hFind :
      items.find? (fun item => item.tag = tag) with
  | some item =>
      exact option_of_find hFind hBytes
  | none =>
      rcases Tlv.mark_replicate_zero_eq 255 _ with
        ⟨more, rest, hMore, hTags, hRest⟩
      rw [hMore, ← List.append_assoc, ← Tlv.encode_append]
        at hBytes
      refine option_eq_none ?_ hRest hBytes
      intro item hMember
      rcases List.mem_append.mp hMember with hOwn | hMark
      · simpa using List.find?_eq_none.mp hFind item hOwn
      · rcases hTags item hMark with hTag | hTag
        · rw [hTag]
          exact hEnd.symm
        · rw [hTag]
          exact hPad.symm

/- Fields an answer leaves as they are in the packet. -/
def Kept {width : Nat} (field : Field 516 width) : Prop :=
  op.Disjoint field ∧ secs.Disjoint field ∧
    flags.Disjoint field ∧ yiaddr.Disjoint field ∧
    magic.Disjoint field ∧ options.Disjoint field

instance {width : Nat} (field : Field 516 width) :
    Decidable (Kept field) :=
  inferInstanceAs (Decidable (_ ∧ _))

theorem read_answer
    {width : Nat}
    {field : Field 516 width}
    (hKept : Kept field) :
    (dhcp.answer config netif msgType addr leaseTime).read
        field =
      dhcp.read field := by
  rcases hKept with
    ⟨hOp, hSecs, hFlags, hYiaddr, hMagic, hOptions⟩
  rw [answer, Record.read_write_of_disjoint _ hOptions,
    Record.read_write_of_disjoint _ hMagic,
    Record.read_write_of_disjoint _ hYiaddr,
    Record.read_write_of_disjoint _ hFlags,
    Record.read_write_of_disjoint _ hSecs,
    Record.read_write_of_disjoint _ hOp]

theorem yiaddr_answer :
    (dhcp.answer config netif msgType addr leaseTime).read
        yiaddr = addr := by
  rw [answer, Record.read_write_of_disjoint _ (by decide),
    Record.read_write_of_disjoint _ (by decide),
    Record.read_write]

end DhcpType

end PicoLogicAnalyzer

------------------------------------------------------------
-- Packets
------------------------------------------------------------

namespace PicoLogicAnalyzer

open Layout

/-
  A packet from `mac` that carries these options, behind a
  whole header and in front of anything else.
-/
def Carries
    (mac : Mac)
    (items : List Tlv.Item)
    (payload : List UInt8) :
    Prop :=
  ∃ header rest,
    payload = header ++ (Tlv.encode items ++ rest) ∧
      header.length = 240 ∧
      (header.drop 28).take 6 = mac.bytes ∧
      (Tlv.encode items).length ≤ 275

namespace Carries

variable {mac : Mac} {items : List Tlv.Item}
variable {payload : List UInt8}

/- What earlier packets have left is not looked at. -/
theorem chaddr
    (hCarries : Carries mac items payload)
    (dhcp : DhcpType) :
    (dhcp.load payload).read DhcpType.chaddr = mac := by
  rcases hCarries with
    ⟨header, rest, rfl, hHeader, hMac, hItems⟩
  have hCovered :
      DhcpType.chaddr.offset + 6 ≤
        (header ++ (Tlv.encode items ++ rest)).length := by
    rw [List.length_append, hHeader]
    simp only [DhcpType.chaddr]
    omega
  ext1
  rw [DhcpType.load, Record.read_overlay dhcp hCovered,
    ← hMac]
  simp only [DhcpType.chaddr]
  rw [List.drop_append_of_le_length (by omega),
    List.take_append_of_le_length
      (by rw [List.length_drop]; omega)]

theorem options
    (hCarries : Carries mac items payload)
    (dhcp : DhcpType) :
    ∃ rest,
      ((dhcp.load payload).read DhcpType.options).bytes =
        Tlv.encode items ++ rest := by
  rcases hCarries with
    ⟨header, rest, rfl, hHeader, hMac, hItems⟩
  -- The part of the options area that the items cover.
  let covered : Field 516 (Tlv.encode items).length :=
    ⟨240, by omega⟩
  have hCovered :
      covered.offset + (Tlv.encode items).length ≤
        (header ++ (Tlv.encode items ++ rest)).length := by
    rw [List.length_append, List.length_append, hHeader]
    simp only [covered]
    omega
  have hFront := Record.read_overlay dhcp hCovered
  simp only [covered] at hFront
  rw [List.drop_left' hHeader, List.take_left] at hFront
  have hTake :
      ((dhcp.load
        (header ++ (Tlv.encode items ++ rest))).read
          DhcpType.options).bytes.take
            (Tlv.encode items).length =
        Tlv.encode items := by
    refine Eq.trans ?_ hFront
    simp only [DhcpType.load, Record.read, DhcpType.options,
      List.take_take]
    rw [Nat.min_eq_left hItems]
  exact ⟨_, (List.take_append_drop _ _).symm.trans
    (congrArg (· ++ _) hTake)⟩

theorem option
    (hCarries : Carries mac items payload)
    (dhcp : DhcpType)
    {tag : UInt8}
    {item : Tlv.Item}
    (hFind :
      items.find? (fun item => item.tag = tag) = some item) :
    (dhcp.load payload).option tag = some item.value := by
  rcases hCarries.options dhcp with ⟨rest, hBytes⟩
  exact DhcpType.option_of_find hFind hBytes

end Carries

end PicoLogicAnalyzer

------------------------------------------------------------
-- What The Server Reads
------------------------------------------------------------

namespace PicoLogicAnalyzer

open Layout

namespace Dhserver

variable (config : DhcpConfig) (netif : Netif)
variable {server : Server} {packet : Packet}

/- The server with a packet in its buffer. -/
def Server.load
    (server : Server)
    (packet : Packet) :
    Server :=
  { server with
    dhcpData := server.dhcpData.load packet.payload }

/- All that a packet can make the server do. -/
theorem udpRecvProc_cases
    (server : Server)
    (packet : Packet) :
    udpRecvProc config netif server packet =
        (server.load packet, []) ∨
      udpRecvProc config netif server packet =
        discover config netif (server.load packet) packet ∨
      ∃ ip,
        udpRecvProc config netif server packet =
          requestIp config netif (server.load packet) packet
            ip := by
  unfold udpRecvProc
  simp only
  split
  · exact Or.inl rfl
  · split
    · exact Or.inr (Or.inl rfl)
    · split
      · unfold request
        split
        · exact Or.inl rfl
        · split
          · exact Or.inr (Or.inr ⟨_, rfl⟩)
          · exact Or.inl rfl
      · exact Or.inl rfl

theorem udpRecvProc_discover
    {more : List UInt8}
    (hType :
      (server.dhcpData.load packet.payload).option 53 =
        some (dhcpDiscover :: more)) :
    udpRecvProc config netif server packet =
      discover config netif (server.load packet) packet := by
  rcases Option.map_eq_some_iff.mp hType with
    ⟨found, hFound, _⟩
  have hFirst := DhcpType.first_of_option hFound hType
  simp only [udpRecvProc]
  rw [hFound]
  simp only [hFirst, if_true]
  rfl

theorem udpRecvProc_request
    {more : List UInt8}
    (hType :
      (server.dhcpData.load packet.payload).option 53 =
        some (dhcpRequest :: more))
    {ip : Ip4}
    (hIp :
      (server.dhcpData.load packet.payload).option 50 =
        some ip.bytes) :
    udpRecvProc config netif server packet =
      requestIp config netif (server.load packet) packet ip := by
  rcases Option.map_eq_some_iff.mp hType with
    ⟨found, hFound, _⟩
  have hFirst := DhcpType.first_of_option hFound hType
  rcases Option.map_eq_some_iff.mp hIp with
    ⟨foundIp, hFoundIp, _⟩
  rcases DhcpType.ip_of_option hFoundIp hIp with
    ⟨hFour, hValue⟩
  have hOther : dhcpRequest ≠ dhcpDiscover := by decide
  simp only [udpRecvProc]
  rw [hFound]
  simp only [hFirst, if_neg hOther, if_true, request]
  rw [hFoundIp]
  simp only [dif_pos hFour, hValue]
  rfl

end Dhserver

end PicoLogicAnalyzer

------------------------------------------------------------
-- Replies
------------------------------------------------------------

namespace PicoLogicAnalyzer

open Layout

namespace Dhserver

variable (config : DhcpConfig) (netif : Netif)

/- Where a reply to the packet in a buffer goes. -/
def replyTarget (dhcp : DhcpType) : Ip4 :=
  if dhcp.read DhcpType.giaddr ≠ Ip4.any then
    dhcp.read DhcpType.giaddr
  else if dhcp.read DhcpType.ciaddr ≠ Ip4.any then
    dhcp.read DhcpType.ciaddr
  else
    Ip4.broadcast netif.addr netif.netmask

/-
  What a client can rely on in a reply: it assigns an address
  of the table, repeats the packet in the other fields, and
  its options are those of the configuration.
-/
structure Answers
    (server : Server)
    (packet : Packet)
    (msgType : UInt8)
    (reply : Reply) : Prop where
  entry :
    ∃ entry ∈ server.entries,
      reply.dhcp.read DhcpType.yiaddr = entry.addr ∧
        ∀ tag, tag ≠ 0 → tag ≠ 255 →
          reply.dhcp.option tag =
            ((answerItems config netif msgType
              entry.lease).find?
                (fun item => item.tag = tag)).map
                  Tlv.Item.value
  kept :
    ∀ {width : Nat} (field : Field 516 width),
      DhcpType.Kept field →
        reply.dhcp.read field =
          (server.dhcpData.load packet.payload).read field
  target :
    reply.dest =
        replyTarget netif
          (server.dhcpData.load packet.payload) ∧
      reply.port = packet.port

/- The broadcast flag of the packet is cleared beforehand. -/
theorem getDhcpDestination_answer
    (dhcp : DhcpType)
    (msgType : UInt8)
    (addr yiaddr : Ip4)
    (leaseTime : UInt32) :
    getDhcpDestination netif
        (dhcp.answer config netif msgType addr leaseTime)
        yiaddr false =
      replyTarget netif dhcp := by
  have hGiaddr :=
    DhcpType.read_answer config netif msgType leaseTime dhcp
      addr (show DhcpType.Kept DhcpType.giaddr by decide)
  have hCiaddr :=
    DhcpType.read_answer config netif msgType leaseTime dhcp
      addr (show DhcpType.Kept DhcpType.ciaddr by decide)
  simp only [getDhcpDestination, replyTarget, hGiaddr,
    hCiaddr, ite_self]
  rfl

/- Giving an entry back keeps addresses and lease times. -/
theorem mem_freeClient
    {entries : List DhcpEntry}
    {mac : Mac}
    {entry : DhcpEntry}
    (hMember : entry ∈ freeClient entries mac) :
    ∃ entry' ∈ entries,
      entry'.addr = entry.addr ∧ entry'.lease = entry.lease := by
  unfold freeClient freeEntry setMac at hMember
  split at hMember
  · rename_i index hFind
    rcases List.mem_or_eq_of_mem_set hMember with hOld | rfl
    · exact ⟨entry, hOld, rfl, rfl⟩
    · exact ⟨_, List.get_mem entries index, rfl, rfl⟩
  · exact ⟨entry, hMember, rfl, rfl⟩

variable {server : Server} {packet : Packet}

theorem answers_answer
    {entry : DhcpEntry}
    (hMember : entry ∈ server.entries)
    (msgType : UInt8)
    (yiaddr : Ip4) :
    Answers config netif server packet msgType
      { dest :=
          getDhcpDestination netif
            ((server.dhcpData.load packet.payload).answer
              config netif msgType entry.addr entry.lease)
            yiaddr false
        port := packet.port
        dhcp :=
          (server.dhcpData.load packet.payload).answer config
            netif msgType entry.addr entry.lease } where
  entry :=
    ⟨entry, hMember,
      DhcpType.yiaddr_answer config netif msgType entry.lease _
        entry.addr,
      fun _ hPad hEnd =>
        DhcpType.option_answer config netif msgType entry.lease
          _ entry.addr hPad hEnd⟩
  kept := fun _ hKept =>
    DhcpType.read_answer config netif msgType entry.lease _
      entry.addr hKept
  target :=
    ⟨getDhcpDestination_answer config netif _ msgType _ yiaddr
      _, rfl⟩

theorem discover_answers
    {reply : Reply}
    (hSent :
      .sent reply ∈
        (discover config netif (server.load packet) packet).2) :
    Answers config netif server packet dhcpOffer reply := by
  unfold discover at hSent
  simp only at hSent
  split at hSent
  · cases hSent
  · rename_i index hFind
    split at hSent
    · rw [Event.sent.inj (List.mem_singleton.mp hSent)]
      exact answers_answer config netif
        (List.get_mem server.entries index) dhcpOffer _
    · cases hSent

theorem requestIp_answers
    {ip : Ip4}
    {reply : Reply}
    (hSent :
      .sent reply ∈
        (requestIp config netif (server.load packet) packet
          ip).2) :
    Answers config netif server packet dhcpAck reply ∧
      Event.requested (reply.dhcp.read DhcpType.chaddr)
          (reply.dhcp.read DhcpType.yiaddr) ∈
        (requestIp config netif (server.load packet) packet
          ip).2 := by
  generalize hResult :
    requestIp config netif (server.load packet) packet ip =
      result at hSent ⊢
  have hRefused :
      ∀ {mac : Mac},
        Event.sent reply ∉ [Event.requested mac ip] := by
    intro mac hMember
    cases List.mem_singleton.mp hMember
  unfold requestIp at hResult
  simp only at hResult
  split at hResult
  · rw [← hResult] at hSent
    exact absurd hSent hRefused
  · rename_i index hFind
    have hAddr :
        (List.get _ index : DhcpEntry).addr = ip := by
      simpa using (List.findFinIdx?_eq_some_iff.mp hFind).1
    rcases mem_freeClient (List.get_mem _ index) with
      ⟨entry, hMember, hSame, hLease⟩
    replace hMember : entry ∈ server.entries := hMember
    split at hResult
    · split at hResult
      · rw [← hResult] at hSent ⊢
        rcases List.mem_cons.mp hSent with hOther | hHere
        · cases hOther
        · have hIp : entry.addr = ip := hSame.trans hAddr
          rw [Event.sent.inj (List.mem_singleton.mp hHere),
            ← hLease, ← hSame, ← hIp]
          refine ⟨answers_answer config netif hMember dhcpAck _,
            List.mem_cons.mpr (Or.inl ?_)⟩
          rw [DhcpType.yiaddr_answer,
            DhcpType.read_answer config netif dhcpAck _ _ _
              (show DhcpType.Kept DhcpType.chaddr by decide)]
      · rw [← hResult] at hSent
        exact absurd hSent hRefused
    · rw [← hResult] at hSent
      exact absurd hSent hRefused

/-
  Every reply is an offer or an acknowledgement that can be
  read back, and an acknowledgement assigns the address that
  its client has just asked for.
-/
theorem replies_read_back
    {reply : Reply}
    (hSent :
      .sent reply ∈
        (udpRecvProc config netif server packet).2) :
    Answers config netif server packet dhcpOffer reply ∨
      (Answers config netif server packet dhcpAck reply ∧
        Event.requested (reply.dhcp.read DhcpType.chaddr)
            (reply.dhcp.read DhcpType.yiaddr) ∈
          (udpRecvProc config netif server packet).2) := by
  rcases udpRecvProc_cases config netif server packet with
    hResult | hResult | ⟨ip, hResult⟩
  · rw [hResult] at hSent
    cases hSent
  · rw [hResult] at hSent
    exact Or.inl (discover_answers config netif hSent)
  · rw [hResult] at hSent ⊢
    exact Or.inr (requestIp_answers config netif hSent)

/- The acknowledgement of a request, read by its client. -/
theorem acknowledgement_is_read :
    let result :=
      udpRecvProc dhcpConfig netifData Server.boot
        (sampleRequest (sampleMac 1) 2)
    ∃ reply,
      .sent reply ∈ result.2 ∧
        reply.dhcp.option 51 = some [0, 1, 81, 128] ∧
        reply.dhcp.option 3 = none ∧
        (reply.dhcp.read DhcpType.xid).bytes =
          [18, 52, 86, 120] ∧
        (Answers dhcpConfig netifData Server.boot
            (sampleRequest (sampleMac 1) 2) dhcpOffer reply ∨
          (Answers dhcpConfig netifData Server.boot
              (sampleRequest (sampleMac 1) 2) dhcpAck reply ∧
            Event.requested (reply.dhcp.read DhcpType.chaddr)
                (reply.dhcp.read DhcpType.yiaddr) ∈
              result.2)) := by
  have hSent :
      Event.sent
          { dest := initIp4 192 168 7 255
            port := 68
            dhcp :=
              (Server.boot.dhcpData.load
                (sampleRequest (sampleMac 1) 2).payload).answer
                dhcpConfig netifData dhcpAck
                (initIp4 192 168 7 2) 86400 } ∈
        (udpRecvProc dhcpConfig netifData Server.boot
          (sampleRequest (sampleMac 1) 2)).2 := by
    decide +kernel
  refine ⟨_, hSent, ?_, ?_, ?_, ?_⟩
  · decide +kernel
  · decide +kernel
  · decide +kernel
  · exact replies_read_back dhcpConfig netifData hSent

end Dhserver

end PicoLogicAnalyzer
