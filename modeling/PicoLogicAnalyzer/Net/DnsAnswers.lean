import PicoLogicAnalyzer.Lib.DnsMessage
import PicoLogicAnalyzer.Net.Dnserver

/-
  What the DNS server answers.

  The parser accepts exactly the wire names whose text leaves
  room for the zero at its end, and never stores outside its
  buffer. The server therefore answers every datagram on its
  own, whatever its buffer holds from earlier ones.

  Key definitions include:
    * `AcceptedQuestion`
    * `Dnserver.Asks`
    * `Dnserver.Responds`

  Key theorems include:
    * `DnsParse.parseLabels_settles`
    * `parseNextQuery_cases`
    * `Dnserver.udpRecvProc_responds`
    * `Dnserver.readMessage_answerTo`
-/

------------------------------------------------------------
-- Stores
------------------------------------------------------------

namespace PicoLogicAnalyzer

open Labels

namespace DnsQuery

theorem store_eq
    (query : DnsQuery)
    {index : Nat}
    {bytes : List UInt8}
    (hInside : index + bytes.length ≤ 128) :
    ∃ query',
      query.store index bytes = some query' ∧
        query'.name.bytes.take (index + bytes.length) =
          query.name.bytes.take index ++ bytes := by
  refine ⟨_, dif_pos hInside, ?_⟩
  have hFront :
      (query.name.bytes.take index ++ bytes).length =
        index + bytes.length := by
    rw [List.length_append, List.length_take,
      query.name.length_eq]
    omega
  simp only [Layout.Record.write]
  rw [← List.append_assoc, List.take_left' hFront]

end DnsQuery

namespace DnsParse

/- The parser has copied these labels. -/
structure Parsed
    (parse : DnsParse)
    (labels : List Label) :
    Prop where
  labels_eq : parse.labels = labels.length
  len_eq : parse.len = (joined dnsDot labels).length
  name_eq :
    parse.query.name.bytes.take parse.len =
      joined dnsDot labels
  short : parse.len < 128

theorem append_eq
    (parse : DnsParse)
    {bytes : List UInt8}
    (hInside : parse.len + bytes.length ≤ 128) :
    ∃ query,
      parse.append bytes =
        .ok
          { parse with
            query := query
            len := parse.len + bytes.length } ∧
        query.name.bytes.take (parse.len + bytes.length) =
          parse.query.name.bytes.take parse.len ++ bytes := by
  rcases parse.query.store_eq hInside with
    ⟨query, hStore, hName⟩
  refine ⟨query, ?_, hName⟩
  rw [append, hStore]

variable {parse : DnsParse} {before : List Label}

/- There is always room for the dot. -/
theorem separate_eq
    (h : parse.Parsed before) :
    ∃ query,
      parse.separate =
        .ok
          { parse with
            query := query
            len :=
              parse.len + (gap dnsDot before).length } ∧
        query.name.bytes.take
            (parse.len + (gap dnsDot before).length) =
          joined dnsDot before ++ gap dnsDot before := by
  unfold separate gap
  by_cases hFirst : before = []
  · subst hFirst
    refine ⟨parse.query, ?_, ?_⟩
    · rw [if_neg (by rw [h.labels_eq]; decide), if_pos rfl]
      rfl
    · rw [if_pos rfl, List.append_nil, ← h.name_eq]
      rfl
  · have hLater : 0 < parse.labels := by
      rw [h.labels_eq]
      exact List.length_pos_of_ne_nil hFirst
    have hShort := h.short
    rw [if_pos hLater, if_neg (by omega), if_neg hFirst,
      ← h.name_eq]
    exact parse.append_eq h.short

/- A label that is cut off. -/
theorem label_of_cut
    (h : parse.Parsed before)
    {lableLen : UInt8}
    (hCut : parse.rest.length < lableLen.toNat) :
    ∃ query,
      parse.separate.bind (copyLabel lableLen) =
        .error (.code query (-1)) := by
  rcases separate_eq h with ⟨query, hSeparate, _⟩
  refine ⟨query, ?_⟩
  rw [hSeparate, Except.bind, copyLabel, if_pos hCut]

/- A whole label is copied when it leaves room. -/
theorem copyLabel_eq
    (parse : DnsParse)
    {label : Label}
    {rest : List UInt8}
    (hRest : parse.rest = label.bytes ++ rest)
    (hRoom : parse.len + label.bytes.length < 128) :
    ∃ query,
      copyLabel label.size parse =
        .ok
          { query := query
            len := parse.len + label.bytes.length
            labels := parse.labels + 1
            consumed := parse.consumed + label.bytes.length
            rest := rest } ∧
        query.name.bytes.take
            (parse.len + label.bytes.length) =
          parse.query.name.bytes.take parse.len ++
            label.bytes := by
  rcases parse.append_eq (Nat.le_of_lt hRoom) with
    ⟨query, hAppend, hName⟩
  refine ⟨query, ?_, hName⟩
  rw [copyLabel, label.toNat_size, hRest,
    if_neg (by rw [List.length_append]; omega),
    if_neg (Nat.not_le.mpr hRoom), List.take_left, hAppend]
  simp only [Except.map, hRest, List.drop_left]

theorem copyLabel_of_long
    (parse : DnsParse)
    {label : Label}
    {rest : List UInt8}
    (hRest : parse.rest = label.bytes ++ rest)
    (hLong : 128 ≤ parse.len + label.bytes.length) :
    copyLabel label.size parse =
      .error (.code parse.query (-2)) := by
  rw [copyLabel, label.toNat_size, hRest,
    if_neg (by rw [List.length_append]; omega),
    if_pos hLong]

/- What becomes of a whole label. -/
theorem label_of_whole
    (h : parse.Parsed before)
    {label : Label}
    {rest : List UInt8}
    (hRest : parse.rest = label.bytes ++ rest) :
    (∃ parse',
      parse.separate.bind (copyLabel label.size) =
          .ok parse' ∧
        parse'.Parsed (before ++ [label]) ∧
        parse'.rest = rest ∧
        parse'.consumed =
          parse.consumed + label.bytes.length) ∨
    (128 ≤ (joined dnsDot (before ++ [label])).length ∧
      ∃ query,
        parse.separate.bind (copyLabel label.size) =
          .error (.code query (-2))) := by
  rcases separate_eq h with ⟨query, hSeparate, hName⟩
  have hLength :
      (joined dnsDot (before ++ [label])).length =
        parse.len + (gap dnsDot before).length +
          label.bytes.length := by
    rw [joined_concat, List.length_append, List.length_append,
      h.len_eq]
  rw [hSeparate, Except.bind, hLength]
  by_cases hRoom :
      parse.len + (gap dnsDot before).length +
        label.bytes.length < 128
  · rcases copyLabel_eq
        { parse with
          query := query
          len := parse.len + (gap dnsDot before).length }
        hRest hRoom with
      ⟨query', hCopy, hCopied⟩
    refine Or.inl ⟨_, hCopy, ?_, rfl, rfl⟩
    rw [hName, ← joined_concat] at hCopied
    constructor
    · rw [List.length_append, ← h.labels_eq]
      rfl
    · exact hLength.symm
    · exact hCopied
    · exact hRoom
  · rw [Nat.not_lt] at hRoom
    exact Or.inr
      ⟨hRoom, query, copyLabel_of_long _ hRest hRoom⟩

end DnsParse

end PicoLogicAnalyzer

------------------------------------------------------------
-- Whole Names
------------------------------------------------------------

namespace PicoLogicAnalyzer

open Labels

namespace DnsParse

/-
  The loop has copied a wire name whose text leaves room for
  the zero at its end, or has returned an error because there
  is no such name.
-/
def Settles
    (parse : DnsParse)
    (before : List Label)
    (result : Except DnsStop DnsParse) :
    Prop :=
  (∃ parse' labels,
    result = .ok parse' ∧
      parse'.Parsed (before ++ labels) ∧
      parse.rest = encode labels ++ 0 :: parse'.rest ∧
      parse'.consumed =
        parse.consumed + (encode labels).length + 1) ∨
  (∃ query value,
    result = .error (.code query value) ∧ value < 0 ∧
      ∀ labels rest,
        parse.rest = encode labels ++ 0 :: rest →
          128 ≤ (joined dnsDot (before ++ labels)).length)

variable {parse parse' : DnsParse} {before : List Label}

/- After a copied label the rest decides. -/
theorem Settles.cons
    {label : Label}
    {result : Except DnsStop DnsParse}
    (hSettles : parse'.Settles (before ++ [label]) result)
    (hRest : parse.rest = label.encode ++ parse'.rest)
    (hConsumed :
      parse'.consumed =
        parse.consumed + 1 + label.bytes.length) :
    parse.Settles before result := by
  rcases hSettles with
    ⟨last, labels, hResult, hParsed, hName, hCount⟩ |
    ⟨query, value, hResult, hNegative, hLong⟩
  · refine Or.inl
      ⟨last, label :: labels, hResult, ?_, ?_, ?_⟩
    · rw [List.append_assoc] at hParsed
      exact hParsed
    · rw [hRest, hName, encode_cons, List.append_assoc]
    · rw [hCount, hConsumed, encode_cons, List.length_append,
        Label.length_encode]
      omega
  · refine Or.inr ⟨query, value, hResult, hNegative, ?_⟩
    intro labels rest hName
    rw [hRest, Label.encode, List.cons_append] at hName
    rcases encode_zero_uncons label.size_ne_zero hName with
      ⟨other, labels, rfl, hSize, hTail⟩
    rcases Label.eq_of_append hSize hTail with ⟨rfl, hLater⟩
    have hLength := hLong labels rest hLater
    rw [List.append_assoc] at hLength
    exact hLength

/- A label without room is an error for every name with it. -/
theorem settles_of_long
    {label : Label}
    {text : List UInt8}
    (hRest : parse.rest = label.encode ++ text)
    (hLong :
      128 ≤ (joined dnsDot (before ++ [label])).length)
    (query : DnsQuery) :
    parse.Settles before (.error (.code query (-2))) := by
  refine Or.inr ⟨query, -2, rfl, by decide, ?_⟩
  intro labels rest hName
  rw [hRest, Label.encode, List.cons_append] at hName
  rcases encode_zero_uncons label.size_ne_zero hName with
    ⟨other, labels, rfl, hSize, hTail⟩
  rcases Label.eq_of_append hSize hTail with ⟨rfl, _⟩
  have hMore :=
    length_joined_le dnsDot (before ++ [label]) labels
  rw [List.append_assoc] at hMore
  exact hLong.trans hMore

/- Neither has a name without its end. -/
theorem settles_of_cut
    (hCut :
      ∀ labels rest,
        parse.rest ≠ encode labels ++ 0 :: rest)
    (query : DnsQuery) :
    parse.Settles before (.error (.code query (-1))) := by
  refine Or.inr ⟨query, -1, rfl, by decide, ?_⟩
  intro labels rest hName
  exact absurd hName (hCut labels rest)

theorem parseLabels_settles
    (h : parse.Parsed before)
    {fuel : Nat}
    (hFuel : parse.rest.length < fuel) :
    parse.Settles before (parseLabels fuel parse) := by
  induction fuel generalizing parse before with
  | zero => exact absurd hFuel (Nat.not_lt_zero _)
  | succ fuel ih =>
      rw [parseLabels]
      cases hText : parse.rest with
      | nil =>
          apply settles_of_cut
          intro labels rest hName
          rw [hText] at hName
          simp at hName
      | cons lableLen text =>
          have hNext :
              Parsed
                { parse with
                  consumed := parse.consumed + 1
                  rest := text }
                before :=
            ⟨h.labels_eq, h.len_eq, h.name_eq, h.short⟩
          rw [hText, List.length_cons] at hFuel
          by_cases hEnd : lableLen = 0
          · refine Or.inl ⟨_, [], if_pos hEnd, ?_, ?_, rfl⟩
            · rw [List.append_nil]
              exact hNext
            · rw [hText, hEnd]
              rfl
          · simp only [if_neg hEnd]
            by_cases hWhole : lableLen.toNat ≤ text.length
            · have hLabel := Label.encode_front hEnd hWhole
              have hSize := Label.size_front hEnd hWhole
              generalize
                Label.front lableLen text hEnd hWhole = label
                at hLabel hSize
              subst hSize
              rw [← hLabel] at hText
              rw [Label.encode, List.cons_append,
                List.cons.injEq] at hLabel
              rcases label_of_whole hNext hLabel.2.symm with
                ⟨parse', hCopy, hParsed, hRest, hCount⟩ |
                ⟨hLong, query, hStop⟩
              · rw [hCopy]
                rw [← hRest] at hText
                refine
                  Settles.cons (ih hParsed ?_) hText hCount
                rw [hRest, List.length_drop]
                omega
              · rw [hStop]
                exact settles_of_long hText hLong query
            · rcases label_of_cut hNext
                  (Nat.not_le.mp hWhole) with
                ⟨query, hCut⟩
              rw [hCut]
              apply settles_of_cut
              intro labels rest hName
              rw [hText] at hName
              rcases encode_zero_uncons hEnd hName with
                ⟨label, labels, rfl, rfl, rfl⟩
              rw [label.toNat_size, List.length_append] at hWhole
              omega

end DnsParse

end PicoLogicAnalyzer

------------------------------------------------------------
-- Questions
------------------------------------------------------------

namespace PicoLogicAnalyzer

open Labels

/- Nothing behind a zero belongs to a C string. -/
theorem cString_append_zero (text rest : List UInt8) :
    cString (text ++ 0 :: rest) = cString text := by
  induction text with
  | nil => simp [cString]
  | cons byte text ih =>
      simp only [cString, List.cons_append,
        List.takeWhile_cons] at ih ⊢
      rw [ih]

/- The data starts with a question the parser accepts. -/
structure AcceptedQuestion
    (data : List UInt8)
    (labels : List Label)
    (tail : Layout.Record 4)
    (rest : List UInt8) :
    Prop where
  data_eq :
    data = encode labels ++ 0 :: (tail.bytes ++ rest)
  short : (joined dnsDot labels).length < 128

theorem AcceptedQuestion.unique
    {data : List UInt8}
    {labels labels' : List Label}
    {tail tail' : Layout.Record 4}
    {rest rest' : List UInt8}
    (h : AcceptedQuestion data labels tail rest)
    (h' : AcceptedQuestion data labels' tail' rest') :
    labels = labels' ∧ tail = tail' := by
  rcases encode_zero_inj (h.data_eq.symm.trans h'.data_eq)
    with ⟨hLabels, hBehind⟩
  have hLength : tail.bytes.length = tail'.bytes.length := by
    rw [tail.length_eq, tail'.length_eq]
  exact
    ⟨hLabels,
      Layout.Record.ext (List.append_inj hBehind hLength).1⟩

/- Behind the labels their text is ended and returned. -/
theorem DnsParse.finish_eq
    {parse : DnsParse}
    {labels : List Label}
    (h : parse.Parsed labels)
    (hWhole : 4 ≤ parse.rest.length) :
    ∃ query : DnsQuery,
      parse.finish =
          some (query, ((parse.consumed + 4 : Nat) : Int)) ∧
        cString query.name.bytes =
          cString (joined dnsDot labels) := by
  have hEnd : parse.len + ([0] : List UInt8).length ≤ 128 :=
    h.short
  rcases parse.query.store_eq hEnd with
    ⟨query, hStore, hName⟩
  rw [finish, dif_pos hWhole, hStore, Option.map_some]
  refine ⟨_, rfl, ?_⟩
  rw [h.name_eq] at hName
  simp only
  rw [← List.take_append_drop
      (parse.len + ([0] : List UInt8).length)
      query.name.bytes,
    hName, List.append_assoc]
  exact cString_append_zero _ _

/-
  The parser returns the length of an accepted question and
  its name, and an error where there is none.
-/
theorem parseNextQuery_cases
    (data : List UInt8)
    (query : DnsQuery) :
    (∃ labels tail rest,
      ∃ query' : DnsQuery,
        AcceptedQuestion data labels tail rest ∧
        parseNextQuery data query =
          some
            (query', (((encode labels).length + 5 : Nat) : Int)) ∧
        cString query'.name.bytes =
          cString (joined dnsDot labels)) ∨
    (∃ query' value,
      parseNextQuery data query = some (query', value) ∧
        value < 0 ∧
        ∀ labels tail rest,
          ¬ AcceptedQuestion data labels tail rest) := by
  have hStart :
      DnsParse.Parsed
        { query := query
          len := 0
          labels := 0
          consumed := 0
          rest := data }
        [] :=
    ⟨rfl, rfl, rfl, Nat.zero_lt_succ 127⟩
  have hSettles :=
    DnsParse.parseLabels_settles hStart
      (Nat.lt_succ_self data.length)
  rw [parseNextQuery]
  rcases hSettles with
    ⟨parse, labels, hResult, hParsed, hName, hCount⟩ |
    ⟨query', value, hResult, hNegative, hLong⟩
  · simp only [Nat.succ_eq_add_one] at hResult
    rw [hResult]
    simp only at hName hCount
    by_cases hWhole : 4 ≤ parse.rest.length
    · rcases DnsParse.finish_eq hParsed hWhole with
        ⟨query', hFinish, hText⟩
      refine Or.inl
        ⟨labels,
          { bytes := parse.rest.take 4
            length_eq := by
              rw [List.length_take]
              omega },
          parse.rest.drop 4, query', ⟨?_, ?_⟩, ?_, hText⟩
      · rw [hName, List.take_append_drop]
      · have hShort := hParsed.short
        rw [hParsed.len_eq, List.nil_append] at hShort
        exact hShort
      · simp only
        rw [hFinish, hCount]
        congr 3
        omega
    · refine Or.inr ⟨parse.query, -1, dif_neg hWhole,
        by decide, ?_⟩
      intro labels' tail rest hAccepted
      rcases encode_zero_inj
          (hName.symm.trans hAccepted.data_eq) with
        ⟨_, hRest⟩
      rw [hRest, List.length_append, tail.length_eq] at hWhole
      omega
  · simp only [Nat.succ_eq_add_one] at hResult
    rw [hResult]
    refine Or.inr ⟨query', value, rfl, hNegative, ?_⟩
    intro labels tail rest hAccepted
    have hLength := hLong labels _ hAccepted.data_eq
    have hShort := hAccepted.short
    rw [List.nil_append] at hLength
    omega

end PicoLogicAnalyzer

------------------------------------------------------------
-- Answers
------------------------------------------------------------

namespace PicoLogicAnalyzer

open Labels Layout

namespace Dnserver

/-
  A datagram with one question for the name of the board. The
  name is cut at its first zero, and dots inside a label count
  like those between labels.
-/
structure Asks
    (packet : Packet)
    (header : Record 12)
    (labels : List Label)
    (tail : Record 4)
    (rest : List UInt8) :
    Prop where
  payload_eq :
    packet.payload =
      header.bytes ++
        (encode labels ++ 0 :: (tail.bytes ++ rest))
  isQuery : DnsHeader.qr header = 0
  one : ntohs (header.read (DnsHeader.nRecord 0)) = 1
  short : (joined dnsDot labels).length < 128
  named : cString (joined dnsDot labels) = dnsHostName

/- The question is repeated in front of the answer. -/
def answerTo
    (packet : Packet)
    (header : Record 12)
    (labels : List Label)
    (tail : Record 4) :
    Reply where
  payload :=
    (DnsHeader.answer header).bytes ++
      (encode labels ++ 0 :: (tail.bytes ++
        dnsAnswer netifData.addr))
  addr := packet.addr
  port := packet.port

theorem length_header
    {packet : Packet}
    (hLong : 12 < packet.payload.length) :
    (packet.payload.take 12).length = 12 := by
  rw [List.length_take]
  omega

/- The labels of the board's name. -/
def boardLabels : List Label :=
  [⟨Text.ascii "tiny", by decide, by decide⟩,
    ⟨Text.ascii "usb", by decide, by decide⟩]

theorem cString_of_zero_notMem
    {text : List UInt8}
    (hZero : 0 ∉ text) :
    cString text = text := by
  induction text with
  | nil => rfl
  | cons byte text ih =>
      rw [List.mem_cons, not_or] at hZero
      have hHead : byte ≠ 0 := Ne.symm hZero.1
      have hTail := ih hZero.2
      rw [cString] at hTail
      rw [cString, List.takeWhile_cons, if_pos, hTail]
      exact decide_eq_true hHead

/-
  Labels without dots and zeros ask for the board when they
  are the two labels of its name.
-/
theorem named_iff_of_plain
    {labels : List Label}
    (hPlain :
      ∀ label ∈ labels,
        dnsDot ∉ label.bytes ∧ 0 ∉ label.bytes) :
    cString (joined dnsDot labels) = dnsHostName ↔
      labels = boardLabels := by
  have hZero : 0 ∉ joined dnsDot labels := by
    intro hMember
    rcases mem_joined hMember with hDot | hLabel
    · exact absurd hDot (by decide)
    · rcases hLabel with ⟨label, hLabel, hInside⟩
      exact (hPlain label hLabel).2 hInside
  have hBoard : joined dnsDot boardLabels = dnsHostName := by
    decide
  rw [cString_of_zero_notMem hZero, ← hBoard]
  constructor
  · intro hSame
    apply joined_inj _ _ hSame
    · exact fun label hLabel => (hPlain label hLabel).1
    · decide
  · rintro rfl
    rfl

/- The header of a datagram that is long enough. -/
def headerOf
    (packet : Packet)
    (hLong : 12 < packet.payload.length) :
    Record 12 where
  bytes := packet.payload.take 12
  length_eq := length_header hLong

variable
  {packet : Packet}
  {header : Record 12}
  {labels : List Label}
  {tail : Record 4}
  {rest : List UInt8}

/- What the server looks at, in the order it does. -/
theorem asks_iff :
    Asks packet header labels tail rest ↔
      ∃ hLong : 12 < packet.payload.length,
        header = headerOf packet hLong ∧
          DnsHeader.qr header = 0 ∧
          ntohs (header.read (DnsHeader.nRecord 0)) = 1 ∧
          AcceptedQuestion (packet.payload.drop 12) labels
            tail rest ∧
          cString (joined dnsDot labels) = dnsHostName := by
  constructor
  · intro h
    have hPayload := h.payload_eq
    have hLong : 12 < packet.payload.length := by
      rw [hPayload, List.length_append, header.length_eq,
        List.length_append, List.length_cons]
      omega
    refine ⟨hLong, ?_, h.isQuery, h.one, ⟨?_, h.short⟩,
      h.named⟩
    · have hFront : packet.payload.take 12 = header.bytes := by
        rw [hPayload, List.take_left' header.length_eq]
      exact Record.ext hFront.symm
    · rw [hPayload, List.drop_left' header.length_eq]
  · rintro
      ⟨hLong, rfl, hQuery, hOne, hAccepted, hNamed⟩
    refine ⟨?_, hQuery, hOne, hAccepted.short, hNamed⟩
    rw [← hAccepted.data_eq, headerOf, List.take_append_drop]

/- The longest reply repeats a name of 127 characters. -/
theorem Asks.length_answerTo_le
    (h : Asks packet header labels tail rest) :
    (answerTo packet header labels tail).payload.length ≤
      161 := by
  have hName := length_encode_le dnsDot labels
  have hShort := h.short
  have hAnswer : (dnsAnswer netifData.addr).length = 16 := by
    decide
  simp only [answerTo, List.length_append, List.length_cons,
    tail.length_eq, (DnsHeader.answer header).length_eq,
    hAnswer]
  omega

/- The reply repeats the bytes the parser has consumed. -/
theorem reply_eq
    (hLong : 12 < packet.payload.length)
    (hAccepted :
      AcceptedQuestion (packet.payload.drop 12) labels tail
        rest) :
    reply (headerOf packet hLong) packet
        ((encode labels).length + 5) netifData.addr =
      answerTo packet (headerOf packet hLong) labels tail := by
  have hQuestion :
      (encode labels ++ 0 :: tail.bytes).length =
        (encode labels).length + 5 := by
    rw [List.length_append, List.length_cons,
      tail.length_eq]
  have hData :
      packet.payload.drop 12 =
        (encode labels ++ 0 :: tail.bytes) ++ rest := by
    rw [hAccepted.data_eq, List.append_assoc,
      List.cons_append]
  rw [reply, answerTo, hData, List.take_left' hQuestion]
  simp only [List.append_assoc, List.cons_append]

end Dnserver

end PicoLogicAnalyzer

------------------------------------------------------------
-- The Server's Step
------------------------------------------------------------

namespace PicoLogicAnalyzer

open Labels Layout

namespace Dnserver

variable
  {packet : Packet}
  {replies : List Reply}

/- What the server sends for a datagram. -/
def Responds
    (packet : Packet)
    (replies : List Reply) :
    Prop :=
  (∃ header labels tail rest,
    Asks packet header labels tail rest ∧
      replies =
        if packet.allocated then
          [answerTo packet header labels tail]
        else
          []) ∨
  ((∀ header labels tail rest,
    ¬ Asks packet header labels tail rest) ∧ replies = [])

theorem responds_nil
    (hNever :
      ∀ header labels tail rest,
        ¬ Asks packet header labels tail rest) :
    Responds packet [] :=
  Or.inr ⟨hNever, rfl⟩

section Header

variable
  {query query' : DnsQuery}
  (hLong : 12 < packet.payload.length)
  (hQuery : DnsHeader.qr (headerOf packet hLong) = 0)
  (hOne :
    ntohs
        ((headerOf packet hLong).read
          (DnsHeader.nRecord 0)) =
      1)

include hQuery hOne

/- Once the header is accepted the parser decides. -/
theorem udpRecvProc_of_error
    {value : Int}
    (hParse :
      parseNextQuery (packet.payload.drop 12) query =
        some (query', value))
    (hNegative : value < 0) :
    udpRecvProc query packet = some (query', []) := by
  rw [headerOf] at hQuery hOne
  rw [udpRecvProc, dif_pos hLong]
  simp only [hQuery, hOne, ne_eq, not_true, if_false, hParse,
    if_pos hNegative]

theorem udpRecvProc_of_parsed
    {len : Nat}
    (hParse :
      parseNextQuery (packet.payload.drop 12) query =
        some (query', (len : Int))) :
    udpRecvProc query packet =
      some
        (query',
          ((dnsQueryProc query'.name.bytes).filter
            (fun _ => packet.allocated)).toList.map
            (reply (headerOf packet hLong) packet len)) := by
  have hPositive : ¬ (len : Int) < 0 :=
    Int.not_lt.mpr (Int.natCast_nonneg _)
  rw [headerOf] at hQuery hOne
  rw [udpRecvProc, dif_pos hLong]
  simp only [hQuery, hOne, ne_eq, not_true, if_false, hParse,
    if_neg hPositive, Int.toNat_natCast]
  cases dnsQueryProc query'.name.bytes with
  | none => rfl
  | some hostAddr =>
      cases packet.allocated with
      | true => rfl
      | false => rfl

/- A question is answered when its name is known. -/
theorem responds_of_question
    (query : DnsQuery) :
    ∃ query' replies,
      udpRecvProc query packet = some (query', replies) ∧
        Responds packet replies := by
  rcases parseNextQuery_cases (packet.payload.drop 12) query
    with
    ⟨labels, tail, rest, query', hAccepted, hParse, hName⟩ |
    ⟨query', value, hParse, hNegative, hNever⟩
  · have hReplies :=
      udpRecvProc_of_parsed hLong hQuery hOne hParse
    rw [dnsQueryProc, hName] at hReplies
    by_cases hHost :
        cString (joined dnsDot labels) = dnsHostName
    · have hAsks :
          Asks packet (headerOf packet hLong) labels tail rest :=
        asks_iff.mpr
          ⟨hLong, rfl, hQuery, hOne, hAccepted, hHost⟩
      refine
        ⟨query', _, hReplies, Or.inl ⟨_, _, _, _, hAsks, ?_⟩⟩
      rw [if_pos hHost, ← reply_eq hLong hAccepted]
      cases packet.allocated with
      | true => rfl
      | false => rfl
    · rw [if_neg hHost] at hReplies
      refine ⟨query', [], hReplies, responds_nil ?_⟩
      intro header labels' tail' rest' hAsks
      rcases asks_iff.mp hAsks with
        ⟨_, _, _, _, hAccepted', hHost'⟩
      rcases hAccepted.unique hAccepted' with ⟨rfl, _⟩
      exact hHost hHost'
  · refine
      ⟨query', [],
        udpRecvProc_of_error hLong hQuery hOne hParse
          hNegative,
        responds_nil ?_⟩
    intro header labels tail rest hAsks
    rcases asks_iff.mp hAsks with ⟨_, _, _, _, hAccepted, _⟩
    exact hNever labels tail rest hAccepted

end Header

/-
  The parser never fails, and the server answers when it is
  asked for the board and has a buffer.
-/
theorem udpRecvProc_responds
    (query : DnsQuery)
    (packet : Packet) :
    ∃ query' replies,
      udpRecvProc query packet = some (query', replies) ∧
        Responds packet replies := by
  by_cases hLong : 12 < packet.payload.length
  · by_cases hQuery : DnsHeader.qr (headerOf packet hLong) = 0
    · by_cases hOne :
          ntohs
              ((headerOf packet hLong).read
                (DnsHeader.nRecord 0)) =
            1
      · exact responds_of_question hLong hQuery hOne query
      · refine ⟨query, [], ?_, responds_nil ?_⟩
        · rw [udpRecvProc, dif_pos hLong]
          exact
            (if_neg (not_not_intro hQuery)).trans
              (if_pos hOne)
        · intro header labels tail rest hAsks
          rcases asks_iff.mp hAsks with ⟨_, rfl, _, hOne', _⟩
          exact hOne hOne'
    · refine ⟨query, [], ?_, responds_nil ?_⟩
      · rw [udpRecvProc, dif_pos hLong]
        exact if_pos hQuery
      · intro header labels tail rest hAsks
        rcases asks_iff.mp hAsks with ⟨_, rfl, hQuery', _⟩
        exact hQuery hQuery'
  · refine ⟨query, [], dif_neg hLong, responds_nil ?_⟩
    intro header labels tail rest hAsks
    rcases asks_iff.mp hAsks with ⟨hLong', _⟩
    exact hLong hLong'

end Dnserver

end PicoLogicAnalyzer

------------------------------------------------------------
-- Runs Of The Server
------------------------------------------------------------

namespace PicoLogicAnalyzer

open Labels Layout

namespace Dnserver

theorem Responds.mem_iff
    {packet : Packet}
    {replies : List Reply}
    (h : Responds packet replies)
    (reply : Reply) :
    reply ∈ replies ↔
      packet.allocated = true ∧
        ∃ header labels tail rest,
          Asks packet header labels tail rest ∧
            reply = answerTo packet header labels tail := by
  rcases h with
    ⟨header, labels, tail, rest, hAsks, rfl⟩ |
    ⟨hNever, rfl⟩
  · cases hAllocated : packet.allocated with
    | false => simp
    | true =>
        simp only [if_true, List.mem_singleton, true_and]
        constructor
        · intro hReply
          exact ⟨header, labels, tail, rest, hAsks, hReply⟩
        · rintro ⟨header', labels', tail', rest', hAsks', rfl⟩
          rcases asks_iff.mp hAsks with
            ⟨_, rfl, _, _, hAccepted, _⟩
          rcases asks_iff.mp hAsks' with
            ⟨_, rfl, _, _, hAccepted', _⟩
          rcases hAccepted.unique hAccepted' with ⟨rfl, rfl⟩
          rfl
  · constructor
    · intro hMember
      cases hMember
    · rintro ⟨_, header, labels, tail, rest, hAsks, _⟩
      exact absurd hAsks (hNever header labels tail rest)

theorem Responds.length_le
    {packet : Packet}
    {replies : List Reply}
    (h : Responds packet replies) :
    replies.length ≤ 1 := by
  rcases h with ⟨_, _, _, _, _, rfl⟩ | ⟨_, rfl⟩
  · cases packet.allocated with
    | false => exact Nat.zero_le 1
    | true => exact Nat.le_refl 1
  · exact Nat.zero_le 1

/- One datagram leaves the buffer defined. -/
theorem step_responds
    (query : DnsQuery)
    (packet : Packet) :
    ∃ query' replies,
      step (some query) packet = (some query', replies) ∧
        Responds packet replies := by
  rcases udpRecvProc_responds query packet with
    ⟨query', replies, hStep, hResponds⟩
  refine ⟨query', replies, ?_, hResponds⟩
  rw [step, hStep]

/- The buffer is defined. -/
def Defined (buffer : Option DnsQuery) : Prop :=
  ∃ query, buffer = some query

theorem step_defined
    {buffer : Option DnsQuery}
    (hDefined : Defined buffer)
    (packet : Packet) :
    Defined (step buffer packet).1 := by
  rcases hDefined with ⟨query, rfl⟩
  rcases step_responds query packet with
    ⟨query', replies, hStep, _⟩
  exact ⟨query', congrArg Prod.fst hStep⟩

theorem run_defined (packets : List Packet) :
    Defined
      (Machine.run step (some DnsQuery.blank) packets).1 :=
  Machine.run_invariant (P := Defined)
    (fun _ packet hDefined => step_defined hDefined packet)
    ⟨DnsQuery.blank, rfl⟩ packets

/-
  After any datagrams the server answers the next one exactly
  when a buffer is free and it asks for the board: it is a
  query with one question, its name ends inside the datagram
  with four bytes behind it, the text of the name leaves room
  for a zero, and up to its first zero it is the name of the
  board. No store leaves the buffer, and no reply is longer
  than 161 bytes.
-/
theorem answers_exactly
    (before : List Packet)
    (packet : Packet) :
    ∃ query replies,
      step
          (Machine.run step (some DnsQuery.blank) before).1
          packet =
        (some query, replies) ∧
      replies.length ≤ 1 ∧
      (∀ reply ∈ replies, reply.payload.length ≤ 161) ∧
      ∀ reply,
        reply ∈ replies ↔
          packet.allocated = true ∧
            ∃ header labels tail rest,
              Asks packet header labels tail rest ∧
                reply =
                  answerTo packet header labels tail := by
  rcases run_defined before with ⟨query, hBefore⟩
  rw [hBefore]
  rcases step_responds query packet with
    ⟨query', replies, hStep, hResponds⟩
  refine
    ⟨query', replies, hStep, hResponds.length_le, ?_,
      hResponds.mem_iff⟩
  intro reply hReply
  rcases (hResponds.mem_iff reply).mp hReply with
    ⟨_, header, labels, tail, rest, hAsks, rfl⟩
  exact hAsks.length_answerTo_le

end Dnserver

end PicoLogicAnalyzer

------------------------------------------------------------
-- Reading Answers
------------------------------------------------------------

namespace PicoLogicAnalyzer

open Labels Layout

namespace DnsHeader

def id : Field 12 2 := ⟨0, by decide⟩

/- Both bytes of the flags. -/
def allFlags : Field 12 2 := ⟨2, by decide⟩

/- `n_record[0]`, `n_record[2]` and `n_record[3]` -/
def questions : Field 12 2 := ⟨4, by decide⟩

def authorities : Field 12 2 := ⟨8, by decide⟩

def additionals : Field 12 2 := ⟨10, by decide⟩

/- In a query the response bit is zero. -/
theorem toNat_or_response
    (byte : UInt8)
    (hQuery : byte >>> 7 = 0) :
    (byte ||| 0x80).toNat = byte.toNat + 128 := by
  have hAll :
      ∀ i : Fin 256,
        UInt8.ofNat i >>> 7 = 0 →
          (UInt8.ofNat i ||| 0x80).toNat =
            (UInt8.ofNat i).toNat + 128 := by
    decide +kernel
  have hByte := hAll ⟨byte.toNat, byte.toNat_lt⟩
  simp only [UInt8.ofNat_toNat] at hByte
  exact hByte hQuery

/- The counts of an answer. -/
def counts (header : Record 12) : DnsMessage.Header where
  id := ntohs (header.read id)
  flags := ntohs (header.read allFlags) + 0x8000
  questions := ntohs (header.read questions)
  answers := 1
  authorities := ntohs (header.read authorities)
  additionals := ntohs (header.read additionals)

/- How the header of an answer is read. -/
theorem readHeader_answer
    {header : Record 12}
    (hQuery : qr header = 0)
    (text : List UInt8) :
    DnsMessage.readHeader ((answer header).bytes ++ text) =
      some (counts header, text) := by
  rcases header with ⟨bytes, hLength⟩
  match bytes, hLength with
  | [b0, b1, b2, b3, b4, b5, b6, b7, b8, b9, b10, b11], _ =>
      have hBit := toNat_or_response b2 hQuery
      have hFlags :
          (b2 ||| 0x80).toNat * 256 + b3.toNat =
            b2.toNat * 256 + b3.toNat + 0x8000 := by
        rw [hBit]
        omega
      have hRead :
          DnsMessage.readHeader
              ([b0, b1, b2 ||| 0x80, b3, b4, b5, 0, 1, b8, b9,
                b10, b11] ++ text) =
            some
              (⟨b0.toNat * 256 + b1.toNat,
                (b2 ||| 0x80).toNat * 256 + b3.toNat,
                b4.toNat * 256 + b5.toNat, 1,
                b8.toNat * 256 + b9.toNat,
                b10.toNat * 256 + b11.toNat⟩, text) :=
        rfl
      rw [hFlags] at hRead
      exact hRead

end DnsHeader

namespace Dnserver

/- The type and the class behind the name. -/
def questionType (tail : Record 4) : Nat :=
  ntohs (tail.read ⟨0, by decide⟩)

def questionClass (tail : Record 4) : Nat :=
  ntohs (tail.read ⟨2, by decide⟩)

/- The message a well-formed answer stands for. -/
def answerMessage
    (header : Record 12)
    (labels : List Label)
    (tail : Record 4) :
    DnsMessage.Message where
  id := ntohs (header.read DnsHeader.id)
  flags := ntohs (header.read DnsHeader.allFlags) + 0x8000
  questions :=
    [⟨labels, questionType tail, questionClass tail⟩]
  answers := [⟨labels, 1, 1, 32, netifData.addr.bytes⟩]
  authorities := []
  additionals := []

/- The query announces questions only, with legal labels. -/
def WellFormed
    (header : Record 12)
    (labels : List Label) :
    Prop :=
  (∀ label ∈ labels, label.bytes.length ≤ 63) ∧
    ntohs (header.read DnsHeader.authorities) = 0 ∧
    ntohs (header.read DnsHeader.additionals) = 0

variable {labels : List Label}

/- The question is read where the query had it. -/
theorem readQuestion_eq
    (message : List UInt8)
    (hShort : (joined dnsDot labels).length < 128)
    (tail : Record 4)
    (text : List UInt8) :
    DnsMessage.readMany (DnsMessage.readQuestion message) 1
        (encode labels ++ 0 :: (tail.bytes ++ text)) =
      if ∀ label ∈ labels, label.bytes.length ≤ 63 then
        some
          ([⟨labels, questionType tail, questionClass tail⟩],
            text)
      else
        none := by
  have hSmall :
      ∀ label ∈ labels, label.bytes.length < 192 := by
    intro label hMember
    have hInside := length_le_length_joined dnsDot hMember
    omega
  have hName :=
    DnsMessage.readName_encode message hSmall
      (tail.bytes ++ text)
  rcases tail with ⟨bytes, hLength⟩
  match bytes, hLength with
  | [b0, b1, b2, b3], _ =>
      simp only [DnsMessage.readMany,
        DnsMessage.readQuestion, hName]
      split
      · rfl
      · rfl

/- The answer names the question by a pointer to it. -/
theorem readAnswer_eq
    {message : List UInt8}
    {rest : List UInt8}
    (hThere :
      message.drop 12 = encode labels ++ 0 :: rest)
    (hSmall : ∀ label ∈ labels, label.bytes.length ≤ 63) :
    DnsMessage.readMany (DnsMessage.readResource message) 1
        (dnsAnswer netifData.addr) =
      some
        ([⟨labels, 1, 1, 32, netifData.addr.bytes⟩], []) := by
  have hName :=
    DnsMessage.readName_pointer 192 12 (by decide) hThere
      hSmall
      [0, 1, 0, 1, 0, 0, 0, 32, 0, 4, 192, 168, 7, 1]
  have hAnswer :
      dnsAnswer netifData.addr =
        192 :: 12 ::
          [0, 1, 0, 1, 0, 0, 0, 32, 0, 4, 192, 168, 7, 1] := by
    decide
  have hData :
      DnsMessage.readBytes 4 [192, 168, 7, 1] =
        some (netifData.addr.bytes, []) := by
    decide
  have hOne :
      (0 : UInt8).toNat * 256 + (1 : UInt8).toNat = 1 := by
    decide
  have hLength :
      (0 : UInt8).toNat * 256 + (4 : UInt8).toNat = 4 := by
    decide
  have hTtl :
      ((0 : UInt8).toNat * 256 + (0 : UInt8).toNat) * 65536 +
          ((0 : UInt8).toNat * 256 + (32 : UInt8).toNat) =
        32 := by
    decide
  rw [hAnswer]
  simp only [DnsMessage.readMany, DnsMessage.readResource,
    hName, DnsMessage.readWord, Option.bind_eq_bind,
    Option.bind_some, Option.pure_def]
  rw [hLength, hData, hOne, hTtl]
  rfl

/- A client reads the answer when the query is well formed. -/
theorem readMessage_answerTo
    {packet : Packet}
    {header : Record 12}
    {tail : Record 4}
    {rest : List UInt8}
    (hAsks : Asks packet header labels tail rest) :
    (WellFormed header labels →
      DnsMessage.readMessage
          (answerTo packet header labels tail).payload =
        some (answerMessage header labels tail)) ∧
    (¬ WellFormed header labels →
      DnsMessage.readMessage
          (answerTo packet header labels tail).payload =
        none) := by
  have hThere :
      (answerTo packet header labels tail).payload.drop 12 =
        encode labels ++ 0 :: (tail.bytes ++
          dnsAnswer netifData.addr) :=
    List.drop_left' (DnsHeader.answer header).length_eq
  generalize hMessage :
    (answerTo packet header labels tail).payload = message
    at hThere ⊢
  have hHeader :=
    DnsHeader.readHeader_answer hAsks.isQuery
      (message.drop 12)
  rw [hThere] at hHeader
  change
    DnsMessage.readHeader
      (answerTo packet header labels tail).payload = _
    at hHeader
  rw [hMessage] at hHeader
  have hQuestion :=
    readQuestion_eq message hAsks.short tail
      (dnsAnswer netifData.addr)
  have hOne : (DnsHeader.counts header).questions = 1 :=
    hAsks.one
  rw [DnsMessage.readMessage_eq hHeader, hOne, hQuestion]
  by_cases hSmall : ∀ label ∈ labels, label.bytes.length ≤ 63
  · have hSections :=
      DnsMessage.readSections_of_end (DnsHeader.counts header)
        (readAnswer_eq hThere hSmall)
    rw [if_pos hSmall, Option.bind_some]
    simp only [hSections]
    constructor
    · intro h
      exact if_pos h.2
    · intro h
      exact if_neg (fun hCounts => h ⟨hSmall, hCounts⟩)
  · rw [if_neg hSmall]
    exact ⟨fun h => absurd h.1 hSmall, fun _ => rfl⟩

/-
  In every run every answer goes back to the sender of a
  query for the board. A client reads it as one question, the
  one of the query, and one address record for the same name
  when the query announces no authority and no additional
  records and its labels are legal. Otherwise the answer is
  not a message: it has the counts of the query without their
  records, or a label that the parser takes and a client does
  not. Labels free of dots and zeros are those of the board;
  others may spell its name in another way.
-/
theorem answers_readable_iff
    (packets : List Packet) :
    ∀ reply ∈
        (Machine.run step (some DnsQuery.blank) packets).2,
      ∃ packet ∈ packets,
        ∃ header labels tail rest,
          Asks packet header labels tail rest ∧
            reply.addr = packet.addr ∧
            reply.port = packet.port ∧
            ((∀ label ∈ labels,
                dnsDot ∉ label.bytes ∧ 0 ∉ label.bytes) →
              labels = boardLabels) ∧
            (WellFormed header labels →
              DnsMessage.readMessage reply.payload =
                some (answerMessage header labels tail)) ∧
            (¬ WellFormed header labels →
              DnsMessage.readMessage reply.payload = none) := by
  have hOurs :
      Machine.Guarded step (fun _ packet => packet ∈ packets)
        (some DnsQuery.blank) packets :=
    Machine.Guarded.of_forall (fun _ hMember _ => hMember) _
  refine
    hOurs.outputs (P := Defined)
      (fun _ packet hDefined _ => step_defined hDefined packet)
      ?_ ⟨DnsQuery.blank, rfl⟩
  rintro _ packet ⟨query, rfl⟩ hMember reply hReply
  rcases step_responds query packet with
    ⟨query', replies, hStep, hResponds⟩
  rw [hStep, hResponds.mem_iff] at hReply
  rcases hReply with
    ⟨_, header, labels, tail, rest, hAsks, rfl⟩
  exact
    ⟨packet, hMember, header, labels, tail, rest, hAsks, rfl,
      rfl,
      fun hPlain => (named_iff_of_plain hPlain).mp hAsks.named,
      readMessage_answerTo hAsks⟩

/- A query for the board that announces more records. -/
def sampleQuery (additionals : UInt8) : Packet where
  payload :=
    [0, 7, 1, 0, 0, 1, 0, 0, 0, 0, 0, additionals] ++
      [4] ++ Text.ascii "tiny" ++ [3] ++ Text.ascii "usb" ++
      [0, 0, 1, 0, 1]
  addr := initIp4 192 168 7 2
  port := 5353
  allocated := true

theorem sampleQuery_answer_readable :
    (Machine.run step (some DnsQuery.blank)
      [sampleQuery 0]).2.length = 1 ∧
    ∀ reply ∈
        (Machine.run step (some DnsQuery.blank)
          [sampleQuery 0]).2,
      ∃ packet ∈ [sampleQuery 0],
        ∃ header labels tail rest,
          Asks packet header labels tail rest ∧
            reply.addr = packet.addr ∧
            reply.port = packet.port ∧
            ((∀ label ∈ labels,
                dnsDot ∉ label.bytes ∧ 0 ∉ label.bytes) →
              labels = boardLabels) ∧
            (WellFormed header labels →
              DnsMessage.readMessage reply.payload =
                some (answerMessage header labels tail)) ∧
            (¬ WellFormed header labels →
              DnsMessage.readMessage reply.payload = none) :=
  ⟨by decide +kernel, answers_readable_iff [sampleQuery 0]⟩

/- With an additional record in the query no client can read
   the answer. -/
example :
    (Machine.run step (some DnsQuery.blank)
        [sampleQuery 0, sampleQuery 1]).2.map
      (fun reply =>
        (DnsMessage.readMessage reply.payload).isSome) =
      [true, false] := by
  decide +kernel

end Dnserver

end PicoLogicAnalyzer
