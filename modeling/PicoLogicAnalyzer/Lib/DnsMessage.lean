import PicoLogicAnalyzer.Lib.Labels

/-
  A reader of DNS messages.

  A message is a header with four counts, and as many
  questions and resources as the counts say. A name may end in
  a pointer to an earlier place of the message.

  Key definitions include:
    * `DnsMessage.Message`
    * `DnsMessage.readName`
    * `DnsMessage.readMessage`

  Key theorems include:
    * `DnsMessage.readName_encode`
    * `DnsMessage.readName_pointer`
    * `DnsMessage.readSections_of_end`
-/

------------------------------------------------------------
-- Messages
------------------------------------------------------------

namespace DnsMessage

open Labels

structure Header where
  id : Nat
  flags : Nat
  questions : Nat
  answers : Nat
  authorities : Nat
  additionals : Nat

structure Question where
  name : List Label
  type : Nat
  cls : Nat

structure Resource where
  name : List Label
  type : Nat
  cls : Nat
  ttl : Nat
  data : List UInt8

structure Message where
  id : Nat
  flags : Nat
  questions : List Question
  answers : List Resource
  authorities : List Resource
  additionals : List Resource

end DnsMessage

------------------------------------------------------------
-- The Reader
------------------------------------------------------------

namespace DnsMessage

open Labels

/- Words have their high byte first. -/
def readWord : List UInt8 → Option (Nat × List UInt8)
| high :: low :: text =>
    some (high.toNat * 256 + low.toNat, text)
| _ => none

def readBytes
    (count : Nat)
    (text : List UInt8) :
    Option (List UInt8 × List UInt8) :=
  if count ≤ text.length then
    some (text.take count, text.drop count)
  else
    none

/- A section of `count` entries. -/
def readMany
    {α : Type}
    (reader : List UInt8 → Option (α × List UInt8)) :
    Nat → List UInt8 → Option (List α × List UInt8)
| 0, text => some ([], text)
| count + 1, text => do
    let (entry, text) ← reader text
    let (entries, text) ← readMany reader count text
    return (entry :: entries, text)

section Reader

variable (message : List UInt8)

/- The labels of a name, through its pointers. -/
def expand : Nat → Name → Option (List Label)
| _, ⟨labels, none⟩ => some labels
| 0, ⟨_, some _⟩ => none
| fuel + 1, ⟨labels, some pointer⟩ => do
    let (name, _) ←
      Labels.read (message.length + 1) (message.drop pointer)
    let more ← expand fuel name
    return labels ++ more

def readName
    (text : List UInt8) :
    Option (List Label × List UInt8) := do
  let (name, text) ← Labels.read (text.length + 1) text
  let labels ← expand message message.length name
  return (labels, text)

def readQuestion
    (text : List UInt8) :
    Option (Question × List UInt8) := do
  let (name, text) ← readName message text
  let (type, text) ← readWord text
  let (cls, text) ← readWord text
  return (⟨name, type, cls⟩, text)

def readResource
    (text : List UInt8) :
    Option (Resource × List UInt8) := do
  let (name, text) ← readName message text
  let (type, text) ← readWord text
  let (cls, text) ← readWord text
  let (high, text) ← readWord text
  let (low, text) ← readWord text
  let (length, text) ← readWord text
  let (data, text) ← readBytes length text
  return (⟨name, type, cls, high * 65536 + low, data⟩, text)

def readHeader
    (text : List UInt8) :
    Option (Header × List UInt8) := do
  let (id, text) ← readWord text
  let (flags, text) ← readWord text
  let (questions, text) ← readWord text
  let (answers, text) ← readWord text
  let (authorities, text) ← readWord text
  let (additionals, text) ← readWord text
  some
    (⟨id, flags, questions, answers, authorities,
      additionals⟩, text)

/- The sections behind the questions. -/
def readSections
    (header : Header)
    (questions : List Question)
    (text : List UInt8) :
    Option Message := do
  let (answers, text) ←
    readMany (readResource message) header.answers text
  let (authorities, text) ←
    readMany (readResource message) header.authorities text
  let (additionals, _) ←
    readMany (readResource message) header.additionals text
  some
    { id := header.id
      flags := header.flags
      questions := questions
      answers := answers
      authorities := authorities
      additionals := additionals }

def readMessage : Option Message := do
  let (header, text) ← readHeader message
  let (questions, text) ←
    readMany (readQuestion message) header.questions text
  readSections message header questions text

end Reader

end DnsMessage

------------------------------------------------------------
-- Names In Messages
------------------------------------------------------------

namespace DnsMessage

open Labels

variable {labels : List Label}

/- A name without pointers is read where it stands. -/
theorem readName_encode
    (message : List UInt8)
    (hSmall : ∀ label ∈ labels, label.bytes.length < 192)
    (rest : List UInt8) :
    readName message (encode labels ++ 0 :: rest) =
      if ∀ label ∈ labels, label.bytes.length ≤ 63 then
        some (labels, rest)
      else
        none := by
  have hFuel :
      labels.length <
        (encode labels ++ 0 :: rest).length + 1 := by
    have hLabels := length_le_length_encode labels
    rw [List.length_append]
    omega
  rw [readName, read_encode hSmall hFuel]
  split
  · cases message with
    | nil => rfl
    | cons => rfl
  · rfl

/- A pointer stands for the name it points to. -/
theorem readName_pointer
    {message : List UInt8}
    (high low : UInt8)
    (hPointer : 192 ≤ high.toNat)
    {rest : List UInt8}
    (hThere :
      message.drop
          ((high.toNat - 192) * 256 + low.toNat) =
        encode labels ++ 0 :: rest)
    (hSmall : ∀ label ∈ labels, label.bytes.length ≤ 63)
    (text : List UInt8) :
    readName message (high :: low :: text) =
      some (labels, text) := by
  have hNonzero : high ≠ 0 := by
    intro hZero
    rw [hZero] at hPointer
    exact absurd hPointer (by decide)
  have hLength := congrArg List.length hThere
  rw [List.length_drop, List.length_append,
    List.length_cons] at hLength
  have hFuel : labels.length < message.length + 1 := by
    have hLabels := length_le_length_encode labels
    omega
  have hName :=
    read_encode
      (fun label hMember =>
        Nat.lt_of_le_of_lt (hSmall label hMember) (by decide))
      hFuel rest
  rw [if_pos hSmall, ← hThere] at hName
  rcases Nat.exists_eq_add_one_of_ne_zero
    (show message.length ≠ 0 by omega) with ⟨fuel, hMessage⟩
  simp [readName, Labels.read, hNonzero, hPointer, hMessage,
    expand, hMessage ▸ hName]

end DnsMessage

------------------------------------------------------------
-- Sections
------------------------------------------------------------

namespace DnsMessage

open Labels

variable {message : List UInt8}

/- The sections are read one after another. -/
theorem readMessage_eq
    {header : Header}
    {text : List UInt8}
    (hHeader : readHeader message = some (header, text)) :
    readMessage message =
      (readMany (readQuestion message) header.questions
        text).bind
        (fun (questions, text) =>
          readSections message header questions text) := by
  rw [readMessage, hHeader]
  rfl

/- Where a text ends no entry can be read. -/
theorem readMany_nil (count : Nat) :
    readMany (readResource message) count [] =
      if count = 0 then some ([], []) else none := by
  cases count with
  | zero => rfl
  | succ count => rfl

/-
  A message that ends behind its answers is read when it
  promises no other resources.
-/
theorem readSections_of_end
    (header : Header)
    {text : List UInt8}
    {answers : List Resource}
    (hAnswers :
      readMany (readResource message) header.answers text =
        some (answers, []))
    (questions : List Question) :
    readSections message header questions text =
      if header.authorities = 0 ∧ header.additionals = 0 then
        some
          { id := header.id
            flags := header.flags
            questions := questions
            answers := answers
            authorities := []
            additionals := [] }
      else
        none := by
  simp only [readSections, hAnswers, Option.bind_eq_bind,
    Option.bind_some, readMany_nil]
  by_cases hAuthorities : header.authorities = 0
  · by_cases hAdditionals : header.additionals = 0
    · simp [hAuthorities, hAdditionals, readMany_nil]
    · simp [hAuthorities, hAdditionals, readMany_nil]
  · simp [hAuthorities]

end DnsMessage
