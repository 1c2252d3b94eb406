import PicoLogicAnalyzer.Firmware.Requester

/-
  Command dispatch.

  Every message is answered once, to its sender, and the
  answer agrees with the state the command leaves behind.

  Key definitions include:
    * `Command.reported`
    * `Activity.payload`
    * `Command.startedReply`
    * `Device.running`
    * `Truthful`

  Key theorems include:
    * `handleCommand_payload`
    * `websocketMessage_truthful`
-/

------------------------------------------------------------
-- The Answer As A Function
------------------------------------------------------------

namespace PicoLogicAnalyzer

/- Label and value a setting command reports. -/
def Command.reported
    (config : LaConfig) :
    Command → Option (String × String)
| .setFreq _ => some ("FREQ ", toString config.frequency)
| .setChunkSize _ =>
    some ("CHUNKS_SIZE ", toString config.chunkBytes)
| .setChannelMask _ =>
    some ("CHANNEL_MASK ", maskText config.channelMask)
| _ => none

/-
  The message that answers a command, `config` being the
  configuration in force afterwards.
-/
def Activity.payload
    (env : Env)
    (a : Activity)
    (data : List UInt8)
    (config : LaConfig)
    (command : Command) :
    Payload :=
  match a.answer env command, command.reported config with
  | some text, _ => .text text
  | none, some (label, value) => .text (label ++ value)
  | none, none => .echo data

theorem Activity.payload_of_answer
    {env : Env}
    {a : Activity}
    {command : Command}
    {text : String}
    (hAnswer : a.answer env command = some text)
    (data : List UInt8)
    (config : LaConfig) :
    a.payload env data config command = .text text := by
  unfold payload
  rw [hAnswer]

/- Commands without a fixed answer. -/
theorem Activity.answer_eq_none
    {env : Env}
    {a : Activity}
    {command : Command}
    (hNone : a.answer env command = none) :
    (∃ value, command = .setFreq value) ∨
      (∃ value, command = .setChunkSize value) ∨
      (∃ value, command = .setChannelMask value) ∨
      command = .unknown := by
  cases command with
  | setFreq value => exact Or.inl ⟨value, rfl⟩
  | setChunkSize value => exact Or.inr (Or.inl ⟨value, rfl⟩)
  | setChannelMask value =>
      exact Or.inr (Or.inr (Or.inl ⟨value, rfl⟩))
  | unknown => exact Or.inr (Or.inr (Or.inr rfl))
  | _ => cases hNone

variable [CaptureModule] {d : Device} {a : Activity}

/- Set-ups aside, a command sends this message only. -/
theorem handleCommand_payload
    (h : d.Shows a)
    (env : Env)
    (id : Nat)
    (data : List UInt8)
    (command : Command) :
    ∃ setUps : List SetUp,
      (handleCommand env id data d command).2 =
        setUps.map Event.setUp ++
          [.sent id
            (a.payload env data
              (handleCommand env id data d
                command).1.bridge.laConfig command)
            env.replyAccepted] := by
  rcases handleCommand_answered h env id data command with
    ⟨setUps, payload, hAnswered⟩
  cases hAnswer : a.answer env command with
  | some text =>
      refine ⟨setUps, ?_⟩
      rw [Activity.payload_of_answer hAnswer,
        ← hAnswered.text text hAnswer]
      exact hAnswered.events_eq
  | none =>
      refine ⟨[], ?_⟩
      rcases Activity.answer_eq_none hAnswer with
        ⟨value, rfl⟩ | ⟨value, rfl⟩ | ⟨value, rfl⟩ | rfl
      · rfl
      · rfl
      · rfl
      · rfl

end PicoLogicAnalyzer

------------------------------------------------------------
-- Confirmed Starts
------------------------------------------------------------

namespace PicoLogicAnalyzer

/- The text that confirms a start command. -/
def Command.startedReply : Command → Option String
| .singleCapture => some "SINGLE_CAPTURE_STARTED"
| .captureChainStart => some "CAPTURE_CHAIN_STARTED"
| .captureChainAnalysisStart =>
    some "CAPTURE_CHAIN_ANALYSIS_STARTED"
| .streamStart => some "STREAM_STARTED"
| .streamAnalysisStart => some "STREAM_ANALYSIS_STARTED"
| _ => none

/- The flags of the operation a start command opens. -/
def Device.running (d : Device) : Command → Bool
| .singleCapture =>
    d.singleCapturePending && d.bridge.laSingleCaptureActive
| .captureChainStart => d.captureChainEnabled
| .captureChainAnalysisStart =>
    d.captureChainAnalysisEnabled && d.bridge.laRunning
| .streamStart =>
    d.streamMode == .raw && d.bridge.laStreamRunning
| .streamAnalysisStart =>
    d.streamMode == .analysis && d.bridge.laStreamRunning
| _ => false

variable {d : Device} {a : Activity}

/- Only starts look at the activity. -/
theorem Activity.answer_of_not_starts
    {command : Command}
    (hOther : command.starts = none)
    (env : Env) :
    a.answer env command =
      Activity.idle.answer env command := by
  cases command with
  | singleCapture => cases hOther
  | captureChainStart => cases hOther
  | captureChainAnalysisStart => cases hOther
  | streamStart => cases hOther
  | streamAnalysisStart => cases hOther
  | _ => rfl

theorem Command.starts_of_startedReply
    {command : Command}
    {text : String}
    (hReply : command.startedReply = some text) :
    command.starts ≠ none ∧ text ≠ "CAPTURE_BUSY" := by
  cases command with
  | singleCapture => cases hReply; decide
  | captureChainStart => cases hReply; decide
  | captureChainAnalysisStart => cases hReply; decide
  | streamStart => cases hReply; decide
  | streamAnalysisStart => cases hReply; decide
  | _ => cases hReply

/- The operation of a start command that opens it. -/
theorem Command.operation_of_opens
    {command : Command}
    {opened : Activity}
    {op : Operation}
    (hOpens : command.opens = some opened)
    (hStarts : command.starts = some op) :
    opened.operation = some op := by
  cases command <;> cases hOpens <;> cases hStarts <;> rfl

/- An idle device confirms exactly the starts that open. -/
theorem Activity.idle_answer_iff
    {env : Env}
    {command start : Command}
    {text : String}
    (hReply : start.startedReply = some text) :
    Activity.idle.answer env command = some text ↔
      command = start ∧
        start.opens =
          some (Activity.idle.handle env start) := by
  -- The texts of all commands are compared in pairs.
  cases start <;> cases hReply <;> cases command <;>
    simp [answer, handle, Command.opens] <;>
    split <;> simp_all

theorem Activity.answer_startedReply_iff
    {env : Env}
    {command start : Command}
    {text : String}
    (hReply : start.startedReply = some text) :
    a.answer env command = some text ↔
      command = start ∧ a = .idle ∧
        start.opens = some (a.handle env start) := by
  by_cases hIdle : a = .idle
  · subst hIdle
    rw [idle_answer_iff hReply]
    simp
  · rcases Command.starts_of_startedReply hReply with
      ⟨hStart, hText⟩
    have hOther : a.answer env command ≠ some text := by
      intro hAnswer
      by_cases hStarts : command.starts = none
      · rw [answer_of_not_starts hStarts,
          idle_answer_iff hReply] at hAnswer
        exact hStart (hAnswer.1 ▸ hStarts)
      · rw [(start_refused env hStarts hIdle).2] at hAnswer
        exact hText (Option.some.inj hAnswer).symm
    simp [hIdle, hOther]

/- The refusal is the answer of a busy device to a start. -/
theorem Activity.answer_busy_iff
    {env : Env}
    {command : Command} :
    a.answer env command = some "CAPTURE_BUSY" ↔
      command.starts ≠ none ∧ a ≠ .idle := by
  constructor
  · intro hAnswer
    refine ⟨?_, ?_⟩
    · intro hStarts
      rw [answer_of_not_starts hStarts] at hAnswer
      exact idle_answer_ne_busy env command hAnswer
    · rintro rfl
      exact idle_answer_ne_busy env command hAnswer
  · rintro ⟨hStarts, hOpen⟩
    exact (start_refused env hStarts hOpen).2

theorem Device.Shows.running_iff
    {env : Env}
    {command : Command}
    {text : String}
    (hReply : command.startedReply = some text)
    (h : d.Shows (Activity.idle.handle env command)) :
    d.running command = true ↔
      command.opens =
        some (Activity.idle.handle env command) := by
  have hPending := h.singleCapturePending
  have hActive := h.laSingleCaptureActive
  have hChain := h.captureChainEnabled
  have hAnalysis := h.captureChainAnalysisEnabled
  have hRunning := h.laRunning
  have hMode := h.streamMode
  have hStream := h.laStreamRunning
  cases command with
  | singleCapture =>
      cases hStarted : env.captureStarted <;>
        simp_all [Device.running, Activity.handle,
          Activity.flags, Command.opens, Flags.idle]
  | captureChainStart =>
      simp_all [Device.running, Activity.handle,
        Activity.flags, Command.opens, Flags.idle]
  | captureChainAnalysisStart =>
      cases hStarted : env.chunkStarted <;>
        simp_all [Device.running, Activity.handle,
          Activity.flags, Command.opens, Flags.idle]
  | streamStart =>
      simp_all [Device.running, Activity.handle,
        Activity.flags, Command.opens, Flags.idle]
  | streamAnalysisStart =>
      simp_all [Device.running, Activity.handle,
        Activity.flags, Command.opens, Flags.idle]
  | _ => cases hReply

end PicoLogicAnalyzer

------------------------------------------------------------
-- Reported Settings
------------------------------------------------------------

namespace PicoLogicAnalyzer

/- Labels of the answers that report a setting. -/
def settingLabels : List String :=
  ["FREQ ", "CHUNKS_SIZE ", "CHANNEL_MASK "]

/- The texts of the other answers. -/
def fixedAnswers : List String :=
  ["We're all find here now, thank you.. How are you?",
    "GPIO:HIGH", "GPIO:LOW", "CAPTURE_BUSY", "START_ERROR",
    "SINGLE_CAPTURE_STARTED", "SINGLE_CAPTURE_ERROR",
    "CAPTURE_CHAIN_STARTED", "CAPTURE_CHAIN_STOPPED",
    "CAPTURE_CHAIN_ANALYSIS_STARTED",
    "CAPTURE_CHAIN_ANALYSIS_STOPPED", "STREAM_STARTED",
    "STREAM_STOPPED", "STREAM_ANALYSIS_STARTED",
    "STREAM_ANALYSIS_STOPPED"]

theorem Command.startedReply_mem_fixed
    {command : Command}
    {text : String}
    (hReply : command.startedReply = some text) :
    text ∈ fixedAnswers := by
  cases command <;> cases hReply <;> decide

theorem Activity.answer_mem_fixed
    {env : Env}
    {a : Activity}
    {command : Command}
    {text : String}
    (hAnswer : a.answer env command = some text) :
    text ∈ fixedAnswers := by
  cases command <;> cases hAnswer <;>
    (try split_ifs) <;> decide

/- No fixed answer starts like a reported setting. -/
theorem settingLabel_foreign :
    ∀ label ∈ settingLabels, ∀ text ∈ fixedAnswers,
      label.toList.isPrefixOf text.toList = false := by
  decide +kernel

theorem Activity.answer_ne_setting
    {label : String}
    (hLabel : label ∈ settingLabels)
    (env : Env)
    (a : Activity)
    (command : Command)
    (value : String) :
    a.answer env command ≠ some (label ++ value) := by
  intro hAnswer
  exact
    append_ne_of_not_prefix
      (settingLabel_foreign label hLabel _
        (answer_mem_fixed hAnswer))
      value rfl

theorem Command.reported_label
    {config : LaConfig}
    {command : Command}
    {pair : String × String}
    (hReported : command.reported config = some pair) :
    pair.1 ∈ settingLabels := by
  cases command <;> cases hReported <;>
    simp [settingLabels]

/- Each label belongs to one setting. -/
theorem Command.reported_iff
    (config : LaConfig)
    (command : Command)
    (value : String) :
    (command.reported config = some ("FREQ ", value) ↔
        (∃ freq, command = .setFreq freq) ∧
          value = toString config.frequency) ∧
      (command.reported config =
          some ("CHUNKS_SIZE ", value) ↔
        (∃ size, command = .setChunkSize size) ∧
          value = toString config.chunkBytes) ∧
      (command.reported config =
          some ("CHANNEL_MASK ", value) ↔
        (∃ mask, command = .setChannelMask mask) ∧
          value = maskText config.channelMask) := by
  cases command <;> simp [reported, eq_comm]

theorem Activity.answer_of_reported
    {config : LaConfig}
    {command : Command}
    {pair : String × String}
    (hReported : command.reported config = some pair)
    (env : Env)
    (a : Activity) :
    a.answer env command = none := by
  cases command <;> cases hReported <;> rfl

/- A fixed text is the answer only where it is one. -/
theorem Activity.payload_text_iff
    {text : String}
    (hFixed : text ∈ fixedAnswers)
    (env : Env)
    (a : Activity)
    (data : List UInt8)
    (config : LaConfig)
    (command : Command) :
    a.payload env data config command = .text text ↔
      a.answer env command = some text := by
  refine ⟨?_, fun hAnswer => payload_of_answer hAnswer _ _⟩
  intro hPayload
  cases hAnswer : a.answer env command with
  | some text' =>
      rw [payload_of_answer hAnswer] at hPayload
      cases hPayload
      rfl
  | none =>
      exfalso
      cases hReported : command.reported config with
      | some pair =>
          simp only [payload, hAnswer, hReported,
            Payload.text.injEq] at hPayload
          exact
            append_ne_of_not_prefix
              (settingLabel_foreign _
                (Command.reported_label hReported) _ hFixed)
              pair.2 hPayload
      | none => simp [payload, hAnswer, hReported] at hPayload

/- Different labels make different texts. -/
theorem setting_text_inj
    {label label' value value' : String}
    (hLabel : label ∈ settingLabels)
    (hLabel' : label' ∈ settingLabels)
    (hText : label ++ value = label' ++ value') :
    label = label' ∧ value = value' := by
  have hStart :
      ∀ label ∈ settingLabels, ∀ label' ∈ settingLabels,
        label.toList.take 3 = label'.toList.take 3 →
          label = label' := by
    decide
  have hLong :
      ∀ label ∈ settingLabels, 3 ≤ label.toList.length := by
    decide
  have hChars := congrArg String.toList hText
  rw [String.toList_append, String.toList_append] at hChars
  have hTake := congrArg (List.take 3) hChars
  rw [List.take_append_of_le_length (hLong label hLabel),
    List.take_append_of_le_length (hLong label' hLabel')]
    at hTake
  have hSame := hStart label hLabel label' hLabel' hTake
  subst hSame
  refine ⟨rfl, ?_⟩
  exact String.toList_inj.mp (List.append_cancel_left hChars)

/- A setting is reported exactly when it was asked for. -/
theorem Activity.payload_setting_iff
    {label : String}
    (hLabel : label ∈ settingLabels)
    (env : Env)
    (a : Activity)
    (data : List UInt8)
    (config : LaConfig)
    (command : Command)
    (value : String) :
    a.payload env data config command =
        .text (label ++ value) ↔
      command.reported config = some (label, value) := by
  constructor
  · intro hPayload
    cases hAnswer : a.answer env command with
    | some text =>
        rw [payload_of_answer hAnswer] at hPayload
        cases hPayload
        exact absurd hAnswer
          (answer_ne_setting hLabel env a command value)
    | none =>
        cases hReported : command.reported config with
        | some pair =>
            simp only [payload, hAnswer, hReported,
              Payload.text.injEq] at hPayload
            have hSame :=
              setting_text_inj
                (Command.reported_label hReported) hLabel
                hPayload
            rw [← hSame.1, ← hSame.2]
        | none => simp [payload, hAnswer, hReported] at hPayload
  · intro hReported
    simp only [payload, answer_of_reported hReported,
      hReported]

end PicoLogicAnalyzer

------------------------------------------------------------
-- Truthful Answers
------------------------------------------------------------

namespace PicoLogicAnalyzer

open Text

/-
  The answer `payload` of connection `id` to message `data`
  agrees with the states before and after it.
-/
structure Truthful
    (id : Nat)
    (data : List UInt8)
    (before after : Device)
    (payload : Payload) : Prop where
  started :
    ∀ entry ∈ commandTable, ∀ text,
      entry.2.startedReply = some text →
        (payload = .text text ↔
          data = ascii entry.1 ∧ isBusy before = false ∧
            after.running entry.2 = true ∧
            ∀ op, entry.2.starts = some op →
              after.requester op = id)
  busy :
    payload = .text "CAPTURE_BUSY" ↔
      (∃ entry ∈ commandTable,
        entry.2.starts ≠ none ∧ data = ascii entry.1) ∧
        isBusy before = true
  refused :
    payload = .text "CAPTURE_BUSY" → after = before
  freq :
    ∀ value, payload = .text ("FREQ " ++ value) ↔
      (∃ freq, parseCommand data = .setFreq freq) ∧
        value = toString after.bridge.laConfig.frequency
  chunksSize :
    ∀ value, payload = .text ("CHUNKS_SIZE " ++ value) ↔
      (∃ size, parseCommand data = .setChunkSize size) ∧
        value = toString after.bridge.laConfig.chunkBytes
  channelMask :
    ∀ value, payload = .text ("CHANNEL_MASK " ++ value) ↔
      (∃ mask, parseCommand data = .setChannelMask mask) ∧
        value = maskText after.bridge.laConfig.channelMask
  echo :
    (∀ entry ∈ commandTable, data ≠ ascii entry.1) →
      sscanfUnsigned "SET_FREQ" 10 (commandText data) =
        none →
      sscanfUnsigned "SET_CHUNK_SIZE" 10
          (commandText data) = none →
      sscanfUnsigned "SET_CHANNEL_MASK" 16
          (commandText data) = none →
        payload = .echo data ∧ after = before

/- A start command is in the table. -/
theorem Command.mem_commandTable_of_starts
    {command : Command}
    (hStarts : command.starts ≠ none) :
    ∃ entry ∈ commandTable, entry.2 = command := by
  cases command with
  | singleCapture =>
      exact ⟨("SINGLE_CAPTURE", _), by decide, rfl⟩
  | captureChainStart =>
      exact ⟨("CAPTURE_CHAIN_START", _), by decide, rfl⟩
  | captureChainAnalysisStart =>
      exact
        ⟨("CAPTURE_CHAIN_ANALYSIS_START", _), by decide, rfl⟩
  | streamStart =>
      exact ⟨("STREAM_START", _), by decide, rfl⟩
  | streamAnalysisStart =>
      exact ⟨("STREAM_ANALYSIS_START", _), by decide, rfl⟩
  | _ => exact absurd rfl hStarts

/- Messages that are start commands. -/
theorem starts_parseCommand_iff (data : List UInt8) :
    (parseCommand data).starts ≠ none ↔
      ∃ entry ∈ commandTable,
        entry.2.starts ≠ none ∧ data = ascii entry.1 := by
  constructor
  · intro hStarts
    rcases Command.mem_commandTable_of_starts hStarts with
      ⟨entry, hMember, hCommand⟩
    refine ⟨entry, hMember, ?_, ?_⟩
    · rw [hCommand]
      exact hStarts
    · exact (parseCommand_eq_iff hMember data).mp hCommand.symm
  · rintro ⟨entry, hMember, hStarts, hData⟩
    rw [(parseCommand_eq_iff hMember data).mpr hData]
    exact hStarts

/- A message without command and setting. -/
theorem parseCommand_eq_unknown
    {data : List UInt8}
    (hCommands : ∀ entry ∈ commandTable, data ≠ ascii entry.1)
    (hFreq :
      sscanfUnsigned "SET_FREQ" 10 (commandText data) = none)
    (hChunk :
      sscanfUnsigned "SET_CHUNK_SIZE" 10
        (commandText data) = none)
    (hMask :
      sscanfUnsigned "SET_CHANNEL_MASK" 16
        (commandText data) = none) :
    parseCommand data = .unknown := by
  have hMatch : matchCommand data = none := by
    rw [matchCommand, Option.map_eq_none_iff,
      List.find?_eq_none]
    intro entry hMember hEq
    exact hCommands entry hMember (eq_of_beq hEq)
  rw [parseCommand, hMatch]
  simp only [parseSetting, hFreq, hChunk, hMask]

variable [CaptureModule] {d : Device} {a : Activity}

/- The confirmation of a start and what it has done. -/
theorem answer_started_iff
    (h : d.Shows a)
    (env : Env)
    (id : Nat)
    (data : List UInt8)
    {command start : Command}
    {text : String}
    (hReply : start.startedReply = some text) :
    a.answer env command = some text ↔
      command = start ∧ isBusy d = false ∧
        (handleCommand env id data d command).1.running
          start = true ∧
        ∀ op, start.starts = some op →
          (handleCommand env id data d command).1.requester
            op = id := by
  have hNext := handleCommand_shows h env id data command
  have hFree : isBusy d = false ↔ a = .idle := by
    simp [h.isBusy]
  rw [Activity.answer_startedReply_iff hReply, hFree]
  constructor
  · rintro ⟨rfl, rfl, hOpens⟩
    refine
      ⟨rfl, rfl, (hNext.running_iff hReply).mpr hOpens, ?_⟩
    intro op hStarts
    exact
      handleCommand_requester_of_open h
        (Command.operation_of_opens hOpens hStarts) id data
  · rintro ⟨rfl, rfl, hRunning, _⟩
    exact ⟨rfl, rfl, (hNext.running_iff hReply).mp hRunning⟩

/-
  Every message is answered by exactly one message to its
  sender, and the answer is truthful.
-/
theorem websocketMessage_truthful
    (hReachable : d.Reachable)
    (env : Env)
    (id : Nat)
    (data : List UInt8) :
    ∃ (setUps : List SetUp) (payload : Payload),
      (websocketMessage env id data d).2 =
          setUps.map Event.setUp ++
            [.sent id payload env.replyAccepted] ∧
        Truthful id data d (websocketMessage env id data d).1
          payload := by
  rcases hReachable.shows with ⟨a, hShows⟩
  rcases handleCommand_payload hShows env id data
      (parseCommand data) with ⟨setUps, hEvents⟩
  have hOpen : isBusy d = true ↔ a ≠ .idle := by
    simp [hShows.isBusy]
  have hBusy :
      a.answer env (parseCommand data) =
          some "CAPTURE_BUSY" ↔
        (parseCommand data).starts ≠ none ∧
          isBusy d = true := by
    rw [Activity.answer_busy_iff, hOpen]
  refine ⟨setUps, _, hEvents, ?_⟩
  constructor
  case started =>
    intro entry hMember text hReply
    rw [Activity.payload_text_iff
        (Command.startedReply_mem_fixed hReply),
      answer_started_iff hShows env id data hReply,
      parseCommand_eq_iff hMember]
    rfl
  case busy =>
    rw [Activity.payload_text_iff (by decide), hBusy,
      starts_parseCommand_iff]
  case refused =>
    rw [Activity.payload_text_iff (by decide), hBusy]
    rintro ⟨hStarts, hHeld⟩
    rw [websocketMessage,
      handleCommand_refused hHeld env id data hStarts]
  case freq =>
    intro value
    rw [Activity.payload_setting_iff (by decide)]
    exact (Command.reported_iff _ _ value).1
  case chunksSize =>
    intro value
    rw [Activity.payload_setting_iff (by decide)]
    exact (Command.reported_iff _ _ value).2.1
  case channelMask =>
    intro value
    rw [Activity.payload_setting_iff (by decide)]
    exact (Command.reported_iff _ _ value).2.2
  case echo =>
    intro hCommands hFreq hChunk hMask
    have hParse :=
      parseCommand_eq_unknown hCommands hFreq hChunk hMask
    rw [websocketMessage, hParse]
    exact ⟨rfl, rfl⟩

end PicoLogicAnalyzer

------------------------------------------------------------
-- A Concrete Message
------------------------------------------------------------

namespace PicoLogicAnalyzer

open Text

section Sample

attribute [local instance] CaptureModule.sample

/- A stream started by connection 7. -/
theorem stream_start_answered_once :
    ∃ setUps : List SetUp,
      (websocketMessage Env.smooth 7 (ascii "STREAM_START")
          (Device.boot CaptureHardware.blank)).2 =
        setUps.map Event.setUp ++
          [.sent 7 (.text "STREAM_STARTED") true] := by
  rcases
    websocketMessage_truthful
      (d := Device.boot CaptureHardware.blank)
      ⟨CaptureHardware.blank, [], rfl⟩ Env.smooth 7
      (ascii "STREAM_START") with
    ⟨setUps, payload, hEvents, hTruthful⟩
  have hText : payload = .text "STREAM_STARTED" := by
    refine
      (hTruthful.started ("STREAM_START", .streamStart)
        (by decide) _ rfl).mpr
        ⟨rfl, rfl, by decide +kernel, ?_⟩
    rintro op ⟨⟩
    decide +kernel
  rw [hText] at hEvents
  exact ⟨setUps, hEvents⟩

end Sample

end PicoLogicAnalyzer
