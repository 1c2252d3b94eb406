import PicoLogicAnalyzer.Lib.Text

/-
  Command texts of `websocket_message`.

  A message is first compared, whole, with the fixed command
  texts. Otherwise up to 63 of its bytes are copied to a
  terminated buffer and scanned for a setting.

  Key definitions include:
    * `Command`
    * `commandTable`
    * `parseCommand`
-/

------------------------------------------------------------
-- Commands
------------------------------------------------------------

namespace PicoLogicAnalyzer

open Text

inductive Command where
  | status
  | singleCapture
  | captureChainStart
  | captureChainStop
  | pinTest
  | captureChainAnalysisStart
  | captureChainAnalysisStop
  | streamStart
  | streamStop
  | streamAnalysisStart
  | streamAnalysisStop
  | setFreq (value : Nat)
  | setChunkSize (value : Nat)
  | setChannelMask (value : Nat)
  | unknown
deriving DecidableEq, Repr

/- The `COMMAND_IS` tests in source order. -/
def commandTable : List (String × Command) :=
  [("STATUS", .status),
    ("SINGLE_CAPTURE", .singleCapture),
    ("CAPTURE_CHAIN_START", .captureChainStart),
    ("CAPTURE_CHAIN_STOP", .captureChainStop),
    ("PIN_TEST", .pinTest),
    ("CAPTURE_CHAIN_ANALYSIS_START",
      .captureChainAnalysisStart),
    ("CAPTURE_CHAIN_ANALYSIS_STOP",
      .captureChainAnalysisStop),
    ("STREAM_START", .streamStart),
    ("STREAM_STOP", .streamStop),
    ("STREAM_ANALYSIS_START", .streamAnalysisStart),
    ("STREAM_ANALYSIS_STOP", .streamAnalysisStop)]

/- The fixed command whose text is the whole message. -/
def matchCommand (data : List UInt8) : Option Command :=
  (commandTable.find?
    (fun entry => data == ascii entry.1)).map Prod.snd

/- The terminated copy of the message that is scanned. -/
def commandText (data : List UInt8) : List UInt8 :=
  (data.take 63).takeWhile (fun b => b != 0)

/- The settings, tried in source order. -/
def parseSetting (text : List UInt8) : Command :=
  match sscanfUnsigned "SET_FREQ" 10 text with
  | some value => .setFreq value
  | none =>
      match sscanfUnsigned "SET_CHUNK_SIZE" 10 text with
      | some value => .setChunkSize value
      | none =>
          match sscanfUnsigned "SET_CHANNEL_MASK" 16 text with
          | some value => .setChannelMask value
          | none => .unknown

def parseCommand (data : List UInt8) : Command :=
  match matchCommand data with
  | some command => command
  | none => parseSetting (commandText data)

end PicoLogicAnalyzer

------------------------------------------------------------
-- Parsing Facts
------------------------------------------------------------

namespace PicoLogicAnalyzer

open Text

/- Every table entry is parsed as its own command. -/
theorem parseCommand_table
    {entry : String × Command}
    (hMember : entry ∈ commandTable) :
    parseCommand (ascii entry.1) = entry.2 := by
  have hAll :
      ∀ entry ∈ commandTable,
        parseCommand (ascii entry.1) = entry.2 := by
    decide +kernel
  exact hAll entry hMember

/- The scan of a message finds a setting or nothing. -/
theorem parseSetting_cases (text : List UInt8) :
    (∃ value, parseSetting text = .setFreq value) ∨
      (∃ value, parseSetting text = .setChunkSize value) ∨
      (∃ value, parseSetting text = .setChannelMask value) ∨
      parseSetting text = .unknown := by
  unfold parseSetting
  split
  · exact Or.inl ⟨_, rfl⟩
  · split
    · exact Or.inr (Or.inl ⟨_, rfl⟩)
    · split
      · exact Or.inr (Or.inr (Or.inl ⟨_, rfl⟩))
      · exact Or.inr (Or.inr (Or.inr rfl))

/- A command of the table is the message with its text. -/
theorem parseCommand_eq_iff
    {entry : String × Command}
    (hMember : entry ∈ commandTable)
    (data : List UInt8) :
    parseCommand data = entry.2 ↔ data = ascii entry.1 := by
  have hUnique :
      ∀ entry ∈ commandTable, ∀ other ∈ commandTable,
        other.2 = entry.2 → other.1 = entry.1 := by
    decide +kernel
  have hFixed :
      ∀ entry ∈ commandTable,
        entry.2 ≠ .unknown ∧
          ∀ value, entry.2 ≠ .setFreq value ∧
            entry.2 ≠ .setChunkSize value ∧
            entry.2 ≠ .setChannelMask value := by
    simp [commandTable]
  constructor
  · intro hParse
    unfold parseCommand at hParse
    split at hParse
    case h_1 command hMatch =>
        rcases Option.map_eq_some_iff.mp hMatch with
          ⟨other, hFind, hOther⟩
        have hText := List.find?_some hFind
        have hSame :=
          hUnique entry hMember other
            (List.mem_of_find?_eq_some hFind)
            (hOther.trans hParse)
        rw [← hSame]
        exact eq_of_beq hText
    case h_2 =>
        exfalso
        rcases hFixed entry hMember with ⟨hKnown, hOther⟩
        rcases parseSetting_cases (commandText data) with
          ⟨value, hCase⟩ | ⟨value, hCase⟩ | ⟨value, hCase⟩ |
            hCase
        · exact (hOther value).1 (hParse.symm.trans hCase)
        · exact (hOther value).2.1 (hParse.symm.trans hCase)
        · exact (hOther value).2.2 (hParse.symm.trans hCase)
        · exact hKnown (hParse.symm.trans hCase)
  · rintro rfl
    exact parseCommand_table hMember

/- The number a setting carries. -/
def Command.value : Command → Option Nat
| .setFreq value => some value
| .setChunkSize value => some value
| .setChannelMask value => some value
| _ => none

/- A scanned setting is a 32-bit word. -/
theorem parseCommand_value_lt
    {data : List UInt8}
    {value : Nat}
    (hValue : (parseCommand data).value = some value) :
    value < 2 ^ 32 := by
  unfold parseCommand at hValue
  split at hValue
  case h_1 command hMatch =>
      exfalso
      rcases Option.map_eq_some_iff.mp hMatch with
        ⟨entry, hFind, hEntry⟩
      have hMember := List.mem_of_find?_eq_some hFind
      have hNone :
          ∀ entry ∈ commandTable, entry.2.value = none := by
        decide
      rw [← hEntry, hNone entry hMember] at hValue
      cases hValue
  case h_2 =>
      unfold parseSetting at hValue
      split at hValue
      case h_1 hScan =>
          cases hValue
          exact sscanfUnsigned_lt hScan
      case h_2 =>
          split at hValue
          case h_1 hScan =>
              cases hValue
              exact sscanfUnsigned_lt hScan
          case h_2 =>
              split at hValue
              case h_1 hScan =>
                  cases hValue
                  exact sscanfUnsigned_lt hScan
              case h_2 => cases hValue

end PicoLogicAnalyzer

------------------------------------------------------------
-- Printed Settings
------------------------------------------------------------

namespace PicoLogicAnalyzer

open Text

/- No fixed command starts like a setting. -/
theorem matchCommand_eq_none
    {data : List UInt8}
    (hSet : data.take 4 = ascii "SET_") :
    matchCommand data = none := by
  have hTable :
      ∀ entry ∈ commandTable,
        (ascii entry.1).take 4 ≠ ascii "SET_" := by
    decide
  rw [matchCommand, Option.map_eq_none_iff,
    List.find?_eq_none]
  intro entry hMember hEq
  rw [beq_iff_eq] at hEq
  rw [hEq] at hSet
  exact hTable entry hMember hSet

/- A label without terminator is copied. -/
theorem commandText_append
    {label : List UInt8}
    (hShort : label.length ≤ 63)
    (hText : label.all (fun b => b != 0) = true)
    (rest : List UInt8) :
    commandText (label ++ rest) =
      label ++
        (rest.take (63 - label.length)).takeWhile
          (fun b => b != 0) := by
  unfold commandText
  rw [List.take_append, List.take_of_length_le hShort,
    List.takeWhile_append_of_pos]
  exact List.all_eq_true.mp hText

/- A short text without terminator is copied whole. -/
theorem commandText_eq_self
    {text : List UInt8}
    (hShort : text.length ≤ 63)
    (hText : text.all (fun b => b != 0) = true) :
    commandText text = text := by
  have hCopy := commandText_append hShort hText []
  simpa using hCopy

/- A frequency or chunk size is never taken for a mask. -/
theorem parseCommand_other_setting
    {label : String}
    (hLabel : label ∈ ["SET_FREQ ", "SET_CHUNK_SIZE "])
    (text : String) :
    (∃ value, parseCommand (ascii (label ++ text)) =
        .setFreq value) ∨
      (∃ value, parseCommand (ascii (label ++ text)) =
        .setChunkSize value) ∨
      parseCommand (ascii (label ++ text)) = .unknown := by
  have hFacts :
      ∀ label ∈ ["SET_FREQ ", "SET_CHUNK_SIZE "],
        (ascii label).take 4 = ascii "SET_" ∧
          (ascii label).length ≤ 63 ∧
          (ascii label).all (fun b => b != 0) = true ∧
          7 ≤ (ascii label).length ∧
          (ascii label).take 7 ≠
            (ascii "SET_CHANNEL_MASK").take 7 := by
    decide
  rcases hFacts label hLabel with
    ⟨hSet, hShort, hText, hSeven, hOther⟩
  have hMatch :
      matchCommand (ascii label ++ ascii text) = none := by
    apply matchCommand_eq_none
    rw [List.take_append_of_le_length (by omega), hSet]
  rw [ascii_append, parseCommand, hMatch]
  simp only [parseSetting]
  rw [commandText_append hShort hText]
  have hMask :
      ∀ rest, sscanfUnsigned "SET_CHANNEL_MASK" 16
        (ascii label ++ rest) = none := by
    intro rest
    apply sscanfUnsigned_eq_none (n := 7) _ (by decide)
    rwa [List.take_append_of_le_length hSeven]
  split
  · exact Or.inl ⟨_, rfl⟩
  · split
    · exact Or.inr (Or.inl ⟨_, rfl⟩)
    · rw [hMask]
      exact Or.inr (Or.inr rfl)

/- A printed mask is read back. -/
theorem parseCommand_mask
    {mask : Nat}
    (hBound : mask < 2 ^ 32) :
    parseCommand
        (ascii
          ("SET_CHANNEL_MASK " ++
            String.ofList (Nat.toDigits 16 mask))) =
      .setChannelMask mask := by
  have hData :
      ascii
          ("SET_CHANNEL_MASK " ++
            String.ofList (Nat.toDigits 16 mask)) =
        ascii "SET_CHANNEL_MASK" ++
          32 :: digitsText 16 mask := by
    rw [ascii_append]
    have hLabel :
        ascii "SET_CHANNEL_MASK " =
          ascii "SET_CHANNEL_MASK" ++ [32] := by
      decide
    rw [hLabel, List.append_assoc]
    simp [ascii, digitsText]
  have hDigits : (digitsText 16 mask).length ≤ 8 := by
    rw [digitsText, List.length_map]
    apply Nat.toDigits_length 16 mask 8 (by decide)
    exact hBound.trans_le (by decide)
  have hLength :
      (ascii "SET_CHANNEL_MASK").length = 16 := by
    decide
  have hCopy :
      commandText
          (ascii "SET_CHANNEL_MASK" ++
            32 :: digitsText 16 mask) =
        ascii "SET_CHANNEL_MASK" ++
          32 :: digitsText 16 mask := by
    apply commandText_eq_self
    · simp only [List.length_append, List.length_cons,
        hLength]
      omega
    · rw [List.all_append, List.all_cons, Bool.and_eq_true,
        Bool.and_eq_true]
      refine ⟨by decide, by decide, ?_⟩
      rw [List.all_eq_true]
      intro b hMember
      rw [bne_iff_ne]
      exact
        digitsText_ne_zero (by decide) (by decide) mask b
          hMember
  have hOther :
      ∀ literal ∈ ["SET_FREQ", "SET_CHUNK_SIZE"],
        ∀ rest, sscanfUnsigned literal 10
          (ascii "SET_CHANNEL_MASK" ++ rest) = none := by
    have hFacts :
        ∀ literal ∈ ["SET_FREQ", "SET_CHUNK_SIZE"],
          (ascii "SET_CHANNEL_MASK").take 7 ≠
              (ascii literal).take 7 ∧
            7 ≤ (ascii literal).length := by
      decide
    intro literal hLiteral rest
    rcases hFacts literal hLiteral with ⟨hNe, hSeven⟩
    apply sscanfUnsigned_eq_none _ hSeven
    rwa [List.take_append_of_le_length (by decide)]
  have hMatch :
      matchCommand
          (ascii "SET_CHANNEL_MASK" ++
            32 :: digitsText 16 mask) = none := by
    apply matchCommand_eq_none
    rw [List.take_append_of_le_length (by decide)]
    decide
  rw [hData, parseCommand, hMatch]
  simp only [parseSetting]
  rw [hCopy, hOther _ (by simp), hOther _ (by simp),
    sscanfUnsigned_append _ (by decide) (by decide) hBound]

end PicoLogicAnalyzer
