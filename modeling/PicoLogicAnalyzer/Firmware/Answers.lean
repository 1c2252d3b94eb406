import PicoLogicAnalyzer.Firmware.Events

/-
  The answer to each command.

  A command is answered by one message to its sender, after
  the set-ups it made. Except for settings and echoes, the
  text depends only on the activity and on whether the
  capture module started.

  Key definitions include:
    * `Command.starts`
    * `Operation.setUpKind`
    * `Activity.answer`
    * `Answered`

  Key theorems include:
    * `handleCommand_answered`
-/

------------------------------------------------------------
-- Expected Answers
------------------------------------------------------------

namespace PicoLogicAnalyzer

/- The operation a start command asks for. -/
def Command.starts : Command → Option Operation
| .singleCapture => some .singleCapture
| .captureChainStart => some .captureChain
| .captureChainAnalysisStart => some .captureChainAnalysis
| .streamStart => some .stream
| .streamAnalysisStart => some .stream
| _ => none

/- The place that sets up the captures of an operation. -/
def Operation.setUpKind : Operation → SetUpKind
| .singleCapture => .singleCapture
| .captureChain => .singleCapture
| .captureChainAnalysis => .chunk
| .stream => .stream

/- Activities with captured or capturing hardware. -/
def Activity.holdsData : Activity → Bool
| .single active => active
| .chainCapturing => true
| .chainAnalysis _ => true
| .streaming _ _ => true
| _ => false

/- The fixed text that answers a command, if it has one. -/
def Activity.answer
    (env : Env)
    (a : Activity) :
    Command → Option String
| .status =>
    some "We're all find here now, thank you.. How are you?"
| .pinTest =>
    some (if env.gpio3 then "GPIO:HIGH" else "GPIO:LOW")
| .singleCapture =>
    some
      (if a ≠ .idle then "CAPTURE_BUSY"
      else if env.captureStarted then
        "SINGLE_CAPTURE_STARTED"
      else "SINGLE_CAPTURE_ERROR")
| .captureChainStart =>
    some
      (if a ≠ .idle then "CAPTURE_BUSY"
      else "CAPTURE_CHAIN_STARTED")
| .captureChainStop => some "CAPTURE_CHAIN_STOPPED"
| .captureChainAnalysisStart =>
    some
      (if a ≠ .idle then "CAPTURE_BUSY"
      else if env.chunkStarted then
        "CAPTURE_CHAIN_ANALYSIS_STARTED"
      else "START_ERROR")
| .captureChainAnalysisStop =>
    some "CAPTURE_CHAIN_ANALYSIS_STOPPED"
| .streamStart =>
    some
      (if a ≠ .idle then "CAPTURE_BUSY"
      else "STREAM_STARTED")
| .streamStop => some "STREAM_STOPPED"
| .streamAnalysisStart =>
    some
      (if a ≠ .idle then "CAPTURE_BUSY"
      else "STREAM_ANALYSIS_STARTED")
| .streamAnalysisStop => some "STREAM_ANALYSIS_STOPPED"
| _ => none

/- An open operation refuses every start. -/
theorem Activity.start_refused
    {a : Activity}
    (env : Env)
    {command : Command}
    (hStarts : command.starts ≠ none)
    (hOpen : a ≠ .idle) :
    a.handle env command = a ∧
      a.answer env command = some "CAPTURE_BUSY" := by
  cases command with
  | singleCapture =>
      simp [Activity.handle, Activity.answer, hOpen]
  | captureChainStart =>
      simp [Activity.handle, Activity.answer, hOpen]
  | captureChainAnalysisStart =>
      simp [Activity.handle, Activity.answer, hOpen]
  | streamStart =>
      simp [Activity.handle, Activity.answer, hOpen]
  | streamAnalysisStart =>
      simp [Activity.handle, Activity.answer, hOpen]
  | _ => exact absurd rfl hStarts

/- An idle device never refuses. -/
theorem Activity.idle_answer_ne_busy
    (env : Env)
    (command : Command) :
    Activity.idle.answer env command ≠
      some "CAPTURE_BUSY" := by
  cases command <;> simp [answer] <;> split <;> simp

/- A setting in force, or the message itself. -/
inductive Payload.IsValue : Payload → Prop where
  | freq (value : String) :
      IsValue (.text ("FREQ " ++ value))
  | chunksSize (value : String) :
      IsValue (.text ("CHUNKS_SIZE " ++ value))
  | channelMask (value : String) :
      IsValue (.text ("CHANNEL_MASK " ++ value))
  | echo (data : List UInt8) :
      IsValue (.echo data)

/-
  `events` answer `command`: set-ups of the operation it
  opens, then one message to the sender.
-/
structure Answered
    (env : Env)
    (id : Nat)
    (a : Activity)
    (command : Command)
    (setUps : List SetUp)
    (payload : Payload)
    (events : List Event) : Prop where
  events_eq :
    events =
      setUps.map Event.setUp ++
        [.sent id payload env.replyAccepted]
  text :
    ∀ reply, a.answer env command = some reply →
      payload = .text reply
  value :
    a.answer env command = none → payload.IsValue
  setUps_idle : setUps ≠ [] → a = .idle
  setUps_kind :
    ∀ record ∈ setUps, ∀ op, command.starts = some op →
      record.kind = op.setUpKind
  setUps_started :
    a = .idle → (a.handle env command).holdsData = true →
      ∃ record ∈ setUps, record.started = true

end PicoLogicAnalyzer

------------------------------------------------------------
-- Commands Are Answered As Expected
------------------------------------------------------------

namespace PicoLogicAnalyzer

variable {d : Device} {a : Activity}

/- Answers without a set-up. -/
theorem Answered.of_text
    {env : Env}
    {id : Nat}
    {command : Command}
    {text : String}
    (hText : a.answer env command = some text)
    (hQuiet :
      a = .idle →
        (a.handle env command).holdsData = false) :
    Answered env id a command [] (.text text)
      [reply env id text] where
  events_eq := rfl
  text := by
    intro reply hReply
    cases hText.symm.trans hReply
    rfl
  value := by
    intro hNone
    cases hText.symm.trans hNone
  setUps_idle := fun hSome => absurd rfl hSome
  setUps_kind := List.forall_mem_nil _
  setUps_started := by
    intro hIdle hData
    cases (hQuiet hIdle).symm.trans hData

/- Answers after one set-up. -/
theorem Answered.of_setUp
    {env : Env}
    {id : Nat}
    {command : Command}
    {record : SetUp}
    {text : String}
    (hText : Activity.idle.answer env command = some text)
    (hKind :
      ∀ op, command.starts = some op →
        record.kind = op.setUpKind)
    (hStarted :
      (Activity.idle.handle env command).holdsData = true →
        record.started = true) :
    Answered env id .idle command [record] (.text text)
      [.setUp record, reply env id text] where
  events_eq := rfl
  text := by
    intro reply hReply
    cases hText.symm.trans hReply
    rfl
  value := by
    intro hNone
    cases hText.symm.trans hNone
  setUps_idle := fun _ => rfl
  setUps_kind := by
    intro record' hRecord op hOp
    rw [List.mem_singleton] at hRecord
    subst hRecord
    exact hKind op hOp
  setUps_started := by
    intro _ hData
    exact ⟨record, List.mem_singleton_self _, hStarted hData⟩

theorem startSingleCapture_answered
    (h : d.Shows .idle)
    (env : Env)
    (id : Nat) :
    ∃ setUps payload,
      Answered env id .idle .singleCapture setUps payload
        (startSingleCapture env id d).2 := by
  have hFree : laIsBusy (gpioPullUp d.bridge) = false :=
    h.laIsBusy
  simp only [startSingleCapture, laSingleCaptureStart, hFree]
  cases hStarted : env.captureStarted with
  | false =>
      refine ⟨_, _, Answered.of_setUp ?_ ?_ ?_⟩
      · simp [Activity.answer, hStarted]
      · rintro op ⟨⟩
        rfl
      · intro hData
        simp [Activity.handle, hStarted,
          Activity.holdsData] at hData
  | true =>
      refine ⟨_, _, Answered.of_setUp ?_ ?_ ?_⟩
      · simp [Activity.answer, hStarted]
      · rintro op ⟨⟩
        rfl
      · exact fun _ => rfl

theorem captureChainAnalysisStart_answered
    (h : d.Shows .idle)
    (env : Env)
    (id : Nat) :
    ∃ setUps payload,
      Answered env id .idle .captureChainAnalysisStart
        setUps payload
        (captureChainAnalysisStart env id d).2 := by
  have hBusy : isBusy d = false := h.isBusy
  have hFree : laIsBusy d.bridge = false := h.laIsBusy
  simp only [captureChainAnalysisStart, hBusy,
    laCaptureChainStart, hFree]
  cases hStarted : env.chunkStarted with
  | false =>
      refine ⟨_, _, Answered.of_setUp ?_ ?_ ?_⟩
      · simp [Activity.answer, hStarted]
      · rintro op ⟨⟩
        rfl
      · intro hData
        simp [Activity.handle, hStarted,
          Activity.holdsData] at hData
  | true =>
      refine ⟨_, _, Answered.of_setUp ?_ ?_ ?_⟩
      · simp [Activity.answer, hStarted]
      · rintro op ⟨⟩
        rfl
      · exact fun _ => rfl

/- The family of the two stream start commands. -/
theorem streamStartCommand_answered
    (h : d.Shows .idle)
    (env : Env)
    (id : Nat)
    (mode : StreamMode)
    {started : String}
    {command : Command}
    (hText : Activity.idle.answer env command = some started)
    (hStarts : command.starts = some .stream) :
    ∃ setUps payload,
      Answered env id .idle command setUps payload
        (streamStartCommand env id mode started d).2 := by
  have hBusy : isBusy d = false := h.isBusy
  have hFree : laIsBusy d.bridge = false := h.laIsBusy
  simp only [streamStartCommand, startStream, hBusy,
    laStreamStart, hFree]
  refine ⟨_, _, Answered.of_setUp hText ?_ ?_⟩
  · intro op hOp
    cases hStarts.symm.trans hOp
    rfl
  · exact fun _ => rfl

variable [CaptureModule]

/- A busy device refuses a start without any change. -/
theorem handleCommand_refused
    (hBusy : isBusy d = true)
    (env : Env)
    (id : Nat)
    (data : List UInt8)
    {command : Command}
    (hStarts : command.starts ≠ none) :
    handleCommand env id data d command =
      (d, [reply env id "CAPTURE_BUSY"]) := by
  cases command with
  | singleCapture => simp [handleCommand, hBusy]
  | captureChainStart =>
      simp [handleCommand, captureChainStart, hBusy]
  | captureChainAnalysisStart =>
      simp [handleCommand, captureChainAnalysisStart, hBusy]
  | streamStart =>
      simp [handleCommand, streamStartCommand,
        startStream_of_busy, hBusy]
  | streamAnalysisStart =>
      simp [handleCommand, streamStartCommand,
        startStream_of_busy, hBusy]
  | _ => exact absurd rfl hStarts

/- Every command is answered as the activity predicts. -/
theorem handleCommand_answered
    (h : d.Shows a)
    (env : Env)
    (id : Nat)
    (data : List UInt8)
    (command : Command) :
    ∃ setUps payload,
      Answered env id a command setUps payload
        (handleCommand env id data d command).2 := by
  have hValue :
      ∀ (payload : Payload),
        payload.IsValue →
        a.answer env command = none →
        a.handle env command = a →
        ∃ setUps payload',
          Answered env id a command setUps payload'
            [.sent id payload env.replyAccepted] := by
    intro payload hPayload hNone hSame
    refine ⟨[], payload, rfl, ?_, fun _ => hPayload,
      fun hSome => absurd rfl hSome, List.forall_mem_nil _,
      ?_⟩
    · intro reply hReply
      cases hNone.symm.trans hReply
    · rintro rfl hData
      rw [hSame] at hData
      cases hData
  by_cases hRefused : command.starts ≠ none ∧ a ≠ .idle
  · have hBusy : isBusy d = true := by
      simp [h.isBusy, hRefused.2]
    have hSame :=
      Activity.start_refused env hRefused.1 hRefused.2
    rw [handleCommand_refused hBusy env id data hRefused.1]
    exact
      ⟨_, _, Answered.of_text hSame.2
        (fun hIdle => absurd hIdle hRefused.2)⟩
  have hIdle : command.starts ≠ none → a = .idle := by
    intro hStarts
    by_contra hOpen
    exact hRefused ⟨hStarts, hOpen⟩
  cases command with
  | status =>
      refine ⟨_, _, Answered.of_text rfl ?_⟩
      rintro rfl
      rfl
  | pinTest =>
      refine ⟨_, _, Answered.of_text rfl ?_⟩
      rintro rfl
      rfl
  | captureChainStop =>
      refine ⟨_, _, Answered.of_text rfl ?_⟩
      rintro rfl
      rfl
  | captureChainAnalysisStop =>
      refine ⟨_, _, Answered.of_text rfl ?_⟩
      rintro rfl
      rfl
  | streamStop =>
      refine ⟨_, _, Answered.of_text rfl ?_⟩
      rintro rfl
      rfl
  | streamAnalysisStop =>
      refine ⟨_, _, Answered.of_text rfl ?_⟩
      rintro rfl
      rfl
  | setFreq value => exact hValue _ (.freq _) rfl rfl
  | setChunkSize value =>
      exact hValue _ (.chunksSize _) rfl rfl
  | setChannelMask value =>
      exact hValue _ (.channelMask _) rfl rfl
  | unknown => exact hValue _ (.echo data) rfl rfl
  | singleCapture =>
      cases hIdle (Option.some_ne_none _)
      simpa [handleCommand, h.isBusy] using
        startSingleCapture_answered h env id
  | captureChainStart =>
      cases hIdle (Option.some_ne_none _)
      have hFree : isBusy d = false := h.isBusy
      simp only [handleCommand, captureChainStart, hFree]
      exact ⟨_, _, Answered.of_text rfl (fun _ => rfl)⟩
  | captureChainAnalysisStart =>
      cases hIdle (Option.some_ne_none _)
      exact captureChainAnalysisStart_answered h env id
  | streamStart =>
      cases hIdle (Option.some_ne_none _)
      exact streamStartCommand_answered h env id _ rfl rfl
  | streamAnalysisStart =>
      cases hIdle (Option.some_ne_none _)
      exact streamStartCommand_answered h env id _ rfl rfl

end PicoLogicAnalyzer
