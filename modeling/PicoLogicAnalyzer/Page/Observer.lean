import PicoLogicAnalyzer.Firmware.Dispatch
import PicoLogicAnalyzer.Page.Page

/-
  What a client can know.

  A client that hears every reply can tell from the messages
  alone which operation is open: the confirmations of starts
  and stops, the error of a single capture, and the binary
  message that ends one. It must not send unknown commands,
  whose echo looks like capture data.

  Key definitions include:
    * `listen` and `believed`
    * `Device.openOperation`
    * `Input.IsHeard`

  Key theorems include:
    * `Activity.listen_answer`
    * `client_knows_operation`
-/

------------------------------------------------------------
-- Listening
------------------------------------------------------------

namespace PicoLogicAnalyzer

/- Texts that say that an operation has been opened. -/
def startedTexts : List (String × Operation) :=
  [("SINGLE_CAPTURE_STARTED", .singleCapture),
    ("CAPTURE_CHAIN_STARTED", .captureChain),
    ("CAPTURE_CHAIN_ANALYSIS_STARTED",
      .captureChainAnalysis),
    ("STREAM_STARTED", .stream),
    ("STREAM_ANALYSIS_STARTED", .stream)]

/- Texts after which an operation is not open any more. -/
def endedTexts : List (String × Operation) :=
  [("SINGLE_CAPTURE_ERROR", .singleCapture),
    ("CAPTURE_CHAIN_STOPPED", .captureChain),
    ("CAPTURE_CHAIN_ANALYSIS_STOPPED",
      .captureChainAnalysis),
    ("STREAM_STOPPED", .stream),
    ("STREAM_ANALYSIS_STOPPED", .stream)]

/- The operation a client takes to be open after a message. -/
def listen
    (view : Option Operation) :
    WireMessage → Option Operation
| .text reply =>
    match startedTexts.lookup reply with
    | some op => some op
    | none =>
        if endedTexts.lookup reply = view then none else view
| .binary _ =>
    if view = some .singleCapture then none else view

/- A message that was accepted for sending. -/
def Event.told : Event → Option WireMessage
| .sent _ payload true => some payload.wire
| _ => none

/- What all messages of a trace together make it believe. -/
def believed (trace : List Event) : Option Operation :=
  (trace.filterMap Event.told).foldl listen none

/- The operation that is open according to the flags. -/
def Device.openOperation (d : Device) : Option Operation :=
  if d.singleCapturePending then some .singleCapture
  else if d.captureChainEnabled then some .captureChain
  else if d.captureChainAnalysisEnabled then
    some .captureChainAnalysis
  else if d.streamMode ≠ .stopped then some .stream
  else none

/-
  The client hears the replies and the result of a single
  capture, and it sends no command that is echoed.
-/
def Input.IsHeard : Input → Prop
| .message env _ data =>
    env.replyAccepted = true ∧ parseCommand data ≠ .unknown
| .singleCaptureTasks env =>
    env.replyAccepted = true ∧ env.rawAccepted = true
| _ => True

/- A chain that is being cleaned up has been stopped. -/
def Activity.audible : Activity → Option Operation
| .chainStopping => none
| a => a.operation

theorem Device.Shows.openOperation
    {d : Device}
    {a : Activity}
    (h : d.Shows a) :
    d.openOperation = a.audible := by
  unfold Device.openOperation
  rw [h.singleCapturePending, h.captureChainEnabled,
    h.captureChainAnalysisEnabled, h.streamMode]
  cases a with
  | single active => cases active <;> rfl
  | chainAnalysis phase => cases phase <;> rfl
  | streaming analysis pending => cases analysis <;> rfl
  | _ => rfl

/- The device is busy with it, or with cleaning up. -/
theorem Device.Shows.busy_iff
    {d : Device}
    {a : Activity}
    (h : d.Shows a) :
    PicoLogicAnalyzer.isBusy d = true ↔
      d.openOperation ≠ none ∨ d.captureChainPending = true := by
  rw [h.isBusy, h.openOperation, h.captureChainPending]
  cases a <;> simp [Activity.audible, Activity.operation,
    Activity.flags, Flags.idle]

theorem believed_append
    (trace events : List Event) :
    believed (trace ++ events) =
      (events.filterMap Event.told).foldl listen
        (believed trace) := by
  rw [believed, List.filterMap_append, List.foldl_append]
  rfl

end PicoLogicAnalyzer

------------------------------------------------------------
-- Replies
------------------------------------------------------------

namespace PicoLogicAnalyzer

variable {view : Option Operation} {text : String}

/- A text that confirms no start ends at most one operation. -/
theorem listen_ended
    {op : Operation}
    (hStarted : startedTexts.lookup text = none)
    (hEnded : endedTexts.lookup text = some op)
    (view : Option Operation) :
    listen view (.text text) =
      if view = some op then none else view := by
  simp only [listen, hStarted, hEnded, eq_comm]

theorem listen_silent
    (hStarted : startedTexts.lookup text = none)
    (hEnded : endedTexts.lookup text = none)
    (view : Option Operation) :
    listen view (.text text) = view := by
  simp only [listen, hStarted, hEnded]
  split
  · assumption
  · rfl

/- Texts that are no fixed answer say nothing. -/
theorem listen_foreign
    (hForeign : text ∉ fixedAnswers)
    (view : Option Operation) :
    listen view (.text text) = view := by
  have hKnown :
      ∀ pair ∈ startedTexts ++ endedTexts,
        pair.1 ∈ fixedAnswers := by
    decide
  have hNone :
      ∀ {table : List (String × Operation)},
        (∀ pair ∈ table, pair.1 ∈ fixedAnswers) →
          table.lookup text = none := by
    intro table hTable
    rw [List.lookup_eq_none_iff]
    intro pair hMember
    rw [bne_iff_ne]
    rintro rfl
    exact hForeign (hTable pair hMember)
  rw [List.forall_mem_append] at hKnown
  exact
    listen_silent (hNone hKnown.1) (hNone hKnown.2) view

namespace Activity

variable {env : Env} {a : Activity}

/- A confirmed or refused start. -/
theorem listen_start
    {command : Command}
    (hStarts : command.starts ≠ none)
    (hAnswer : a.answer env command = some text) :
    listen a.audible (.text text) =
      (a.handle env command).audible := by
  by_cases hIdle : a = .idle
  · subst hIdle
    cases command with
    | singleCapture =>
        cases hAnswer
        cases hStarted : env.captureStarted <;>
          simp [hStarted, handle] <;> decide
    | captureChainAnalysisStart =>
        cases hAnswer
        cases hStarted : env.chunkStarted <;>
          simp [hStarted, handle] <;> decide
    | captureChainStart =>
        cases hAnswer
        rfl
    | streamStart =>
        cases hAnswer
        rfl
    | streamAnalysisStart =>
        cases hAnswer
        rfl
    | _ => exact absurd rfl hStarts
  · rcases a.start_refused env hStarts hIdle with
      ⟨hSame, hBusy⟩
    rw [hBusy] at hAnswer
    cases hAnswer
    rw [hSame]
    exact listen_silent (by decide) (by decide) _

theorem audible_stopChain (a : Activity) :
    a.stopChain.audible =
      if a.audible = some .captureChain then none
      else a.audible := by
  cases a <;> rfl

theorem audible_stopAnalysis (a : Activity) :
    a.stopAnalysis.audible =
      if a.audible = some .captureChainAnalysis then none
      else a.audible := by
  cases a <;> rfl

theorem audible_stopStream (a : Activity) :
    a.stopStream.audible =
      if a.audible = some .stream then none
      else a.audible := by
  cases a <;> rfl

/- The fixed answer tells what the command has done. -/
theorem listen_answer
    {command : Command}
    (hAnswer : a.answer env command = some text) :
    listen a.audible (.text text) =
      (a.handle env command).audible := by
  cases command with
  | status =>
      cases hAnswer
      exact listen_silent (by decide) (by decide) _
  | pinTest =>
      cases hAnswer
      cases env.gpio3 <;>
        exact listen_silent (by decide) (by decide) _
  | captureChainStop =>
      cases hAnswer
      exact
        (listen_ended rfl rfl _).trans
          (audible_stopChain a).symm
  | captureChainAnalysisStop =>
      cases hAnswer
      exact
        (listen_ended rfl rfl _).trans
          (audible_stopAnalysis a).symm
  | streamStop =>
      cases hAnswer
      exact
        (listen_ended rfl rfl _).trans
          (audible_stopStream a).symm
  | streamAnalysisStop =>
      cases hAnswer
      exact
        (listen_ended rfl rfl _).trans
          (audible_stopStream a).symm
  | setFreq value => cases hAnswer
  | setChunkSize value => cases hAnswer
  | setChannelMask value => cases hAnswer
  | unknown => cases hAnswer
  | _ =>
      exact listen_start (Option.some_ne_none _) hAnswer

end Activity

end PicoLogicAnalyzer

------------------------------------------------------------
-- Steps
------------------------------------------------------------

namespace PicoLogicAnalyzer

/- What the client believes is what the device is doing. -/
def Informed (trace : List Event) (d : Device) : Prop :=
  ∃ a, d.Shows a ∧ believed trace = a.audible

/- Events that are not heard, or data beside a session that
   data does not end. -/
def Event.IsQuiet (a : Activity) (event : Event) : Prop :=
  event.told = none ∨
    a.audible ≠ some .singleCapture ∧
      ∃ data, event.told = some (.binary data)

theorem believed_quiet
    {a : Activity}
    {events : List Event}
    (hEvents : ∀ event ∈ events, event.IsQuiet a) :
    (events.filterMap Event.told).foldl listen a.audible =
      a.audible := by
  induction events with
  | nil => rfl
  | cons event events ih =>
      rw [List.forall_mem_cons] at hEvents
      have hRest := ih hEvents.2
      rcases hEvents.1 with hNone | ⟨hOther, data, hData⟩
      · rw [List.filterMap_cons, hNone]
        exact hRest
      · rw [List.filterMap_cons, hData, List.foldl_cons,
          listen, if_neg hOther]
        exact hRest

/- A move that the client need not notice. -/
theorem Informed.quiet
    {trace events : List Event}
    {d' : Device}
    {a a' : Activity}
    (hBelieved : believed trace = a.audible)
    (hShows : d'.Shows a')
    (hSame : a'.audible = a.audible)
    (hEvents : ∀ event ∈ events, event.IsQuiet a) :
    Informed (trace ++ events) d' := by
  refine ⟨a', hShows, ?_⟩
  rw [believed_append, hBelieved, hSame]
  exact believed_quiet hEvents

/- Payloads with capture data arrive as binary messages. -/
theorem Payload.wire_of_captureOf
    {payload : Payload}
    {op : Operation}
    (hCapture : payload.captureOf = some op) :
    ∃ data, payload.wire = .binary data := by
  cases payload with
  | text reply => cases hCapture
  | echo data => exact ⟨data, rfl⟩
  | raw op width offset data => exact ⟨data, rfl⟩
  | frame op header offset data => exact ⟨_, rfl⟩

/- Capture data of another operation than a single capture. -/
theorem Event.isQuiet_data
    {a : Activity}
    (hOther : a.audible ≠ some .singleCapture)
    {payload : Payload}
    {op : Operation}
    (hCapture : payload.captureOf = some op)
    (dest : Nat)
    (accepted : Bool) :
    (Event.sent dest payload accepted).IsQuiet a := by
  cases accepted with
  | false => exact Or.inl rfl
  | true =>
      rcases Payload.wire_of_captureOf hCapture with
        ⟨data, hWire⟩
      exact Or.inr ⟨hOther, data, congrArg some hWire⟩

/- Of an answered command the client hears the answer. -/
theorem told_answer
    (id : Nat)
    (data : List UInt8)
    (setUps : List SetUp)
    (payload : Payload) :
    (Event.received id data ::
        (setUps.map Event.setUp ++
          [.sent id payload true])).filterMap Event.told =
      [payload.wire] := by
  have hSilent :
      (setUps.map Event.setUp).filterMap Event.told = [] := by
    rw [List.filterMap_eq_nil_iff]
    intro event hMember
    rcases List.mem_map.mp hMember with ⟨record, _, rfl⟩
    rfl
  rw [List.filterMap_cons, List.filterMap_append, hSilent]
  rfl

/- The answer to a known command tells what it has done. -/
theorem Activity.listen_payload
    {command : Command}
    (hKnown : command ≠ .unknown)
    (env : Env)
    (a : Activity)
    (data : List UInt8)
    (config : LaConfig) :
    listen a.audible
        (a.payload env data config command).wire =
      (a.handle env command).audible := by
  cases hAnswer : a.answer env command with
  | some text =>
      rw [payload_of_answer hAnswer]
      exact listen_answer hAnswer
  | none =>
      have hSetting :
          ∀ pair, command.reported config = some pair →
            listen a.audible
                (a.payload env data config command).wire =
              a.audible := by
        intro pair hReported
        simp only [payload, hAnswer, hReported, Payload.wire]
        apply listen_foreign
        intro hFixed
        exact
          append_ne_of_not_prefix
            (settingLabel_foreign _
              (Command.reported_label hReported) _ hFixed)
            pair.2 rfl
      rcases answer_eq_none hAnswer with
        ⟨value, rfl⟩ | ⟨value, rfl⟩ | ⟨value, rfl⟩ | rfl
      · exact hSetting _ rfl
      · exact hSetting _ rfl
      · exact hSetting _ rfl
      · exact absurd rfl hKnown

namespace Informed

variable {trace : List Event} {d : Device} {env : Env}

theorem captureChainDeliver
    (h : Informed trace d) :
    Informed
      (trace ++ (PicoLogicAnalyzer.captureChainDeliver env
        d).2.1)
      (PicoLogicAnalyzer.captureChainDeliver env d).1 := by
  rcases h with ⟨a, hShows, hBelieved⟩
  have hMove := captureChainDeliver_shows hShows env
  apply Informed.quiet hBelieved hMove
  · split
    · rfl
    · cases a <;> rfl
  · intro event hMember
    rcases mem_captureChainDeliver hMember with
      ⟨hPending, capture, _, rfl⟩
    rw [hShows.captureChainPending] at hPending
    apply Event.isQuiet_data _ rfl
    cases a <;> simp_all [Activity.flags, Flags.idle,
      Activity.audible, Activity.operation]

theorem captureChainRestart
    (h : Informed trace d) :
    Informed
      (trace ++ (PicoLogicAnalyzer.captureChainRestart env
        d).2)
      (PicoLogicAnalyzer.captureChainRestart env d).1 := by
  rcases h with ⟨a, hShows, hBelieved⟩
  have hMove := captureChainRestart_shows hShows env
  apply Informed.quiet hBelieved hMove
  · split
    · cases a <;> first
        | rfl
        | (cases env.captureStarted <;> rfl)
    · rfl
  · intro event hMember
    rcases mem_captureChainRestart hMember with ⟨record, rfl⟩
    exact Or.inl rfl

theorem captureChainTakeBlock
    (h : Informed trace d) :
    Informed
      (trace ++ (PicoLogicAnalyzer.captureChainTakeBlock env
        d).2)
      (PicoLogicAnalyzer.captureChainTakeBlock env d).1 := by
  rcases h with ⟨a, hShows, hBelieved⟩
  have hMove := captureChainTakeBlock_shows hShows env
  apply Informed.quiet hBelieved hMove
  · split
    · rcases a with _ | _ | _ | _ | _ | phase | _
      all_goals first
        | rfl
        | (cases phase <;> rfl)
    · rfl
  · intro event hMember
    rcases mem_captureChainTakeBlock hMember with ⟨block, rfl⟩
    exact Or.inl rfl

theorem captureChainSendBlock
    (h : Informed trace d) :
    Informed
      (trace ++ (PicoLogicAnalyzer.captureChainSendBlock env
        d).2)
      (PicoLogicAnalyzer.captureChainSendBlock env d).1 := by
  rcases h with ⟨a, hShows, hBelieved⟩
  have hMove := captureChainSendBlock_shows hShows env
  apply Informed.quiet hBelieved hMove
  · split
    · rcases a with _ | _ | _ | _ | _ | phase | _
      all_goals first
        | rfl
        | (cases phase <;> rfl)
    · rfl
  · intro event hMember
    rcases mem_captureChainSendBlock hMember with
      ⟨hPending, hFrame | ⟨record, rfl⟩⟩
    · rw [mem_sendAnalysisBlock hFrame]
      rw [hShows.blockPending] at hPending
      apply Event.isQuiet_data _ rfl
      cases a <;> simp_all [Activity.flags, Flags.idle,
        Activity.audible, Activity.operation]
    · exact Or.inl rfl

theorem captureChainTasks
    (h : Informed trace d) :
    Informed
      (trace ++ (PicoLogicAnalyzer.captureChainTasks env d).2)
      (PicoLogicAnalyzer.captureChainTasks env d).1 :=
  captureChainTasks_rule
    (fun _ _ h => h.captureChainDeliver)
    (fun _ _ h => h.captureChainRestart)
    (fun _ _ h => h.captureChainTakeBlock)
    (fun _ _ h => h.captureChainSendBlock) trace h

theorem streamTasksTake
    (h : Informed trace d) :
    Informed
      (trace ++ (PicoLogicAnalyzer.streamTasksTake env d).2)
      (PicoLogicAnalyzer.streamTasksTake env d).1 := by
  rcases h with ⟨a, hShows, hBelieved⟩
  have hMove := streamTasksTake_shows hShows env
  apply Informed.quiet hBelieved hMove
  · split
    · cases a <;> rfl
    · rfl
  · intro event hMember
    rcases mem_streamTasksTake hMember with ⟨_, _, _, rfl⟩
    exact Or.inl rfl

theorem streamTasksSend
    (h : Informed trace d) :
    Informed
      (trace ++ (PicoLogicAnalyzer.streamTasksSend env d).2)
      (PicoLogicAnalyzer.streamTasksSend env d).1 := by
  rcases h with ⟨a, hShows, hBelieved⟩
  have hMove := streamTasksSend_shows hShows env
  apply Informed.quiet hBelieved hMove
  · split
    · cases a <;> rfl
    · rfl
  · intro event hMember
    rcases mem_streamTasksSend hMember with ⟨hPending, hSent⟩
    rcases mem_sendStreamBlock hSent with
      ⟨payload, rfl, hCapture⟩
    rw [hShows.streamBlockPending] at hPending
    apply Event.isQuiet_data _ hCapture
    cases a <;> simp_all [Activity.flags, Flags.idle,
      Activity.audible, Activity.operation]

/- Data or an error ends a single capture. -/
theorem singleCaptureTasks
    (h : Informed trace d)
    (hReply : env.replyAccepted = true)
    (hRaw : env.rawAccepted = true) :
    Informed
      (trace ++ (PicoLogicAnalyzer.singleCaptureTasks env d).2)
      (PicoLogicAnalyzer.singleCaptureTasks env d).1 := by
  rcases h with ⟨a, hShows, hBelieved⟩
  have hMove := singleCaptureTasks_shows hShows env
  have hPending := hShows.singleCapturePending
  by_cases hReady :
      (d.singleCapturePending &&
        !laSingleCaptureIsRunning d.bridge) = true
  · have hDone : laSingleCaptureIsRunning d.bridge = false := by
      simp only [Bool.and_eq_true, Bool.not_eq_true'] at hReady
      exact hReady.2
    rw [hDone, if_neg Bool.false_ne_true] at hMove
    have hSingle : a.audible = some .singleCapture ∧
        a.finishSingle.audible = none := by
      rw [hPending, hDone] at hReady
      cases a <;> simp_all [Activity.flags, Flags.idle,
        Activity.audible, Activity.operation,
        Activity.finishSingle]
    refine ⟨a.finishSingle, hMove, ?_⟩
    rw [believed_append, hBelieved, hSingle.1, hSingle.2]
    simp only [PicoLogicAnalyzer.singleCaptureTasks, hReady,
      if_true]
    cases (laSingleCaptureGetResult d.bridge).2 with
    | none =>
        simp only [hReply]
        rfl
    | some capture =>
        simp only [hRaw]
        rfl
  · have hNothing :
        PicoLogicAnalyzer.singleCaptureTasks env d =
          (d, []) :=
      if_neg hReady
    rw [hNothing, List.append_nil]
    exact ⟨a, hShows, hBelieved⟩

/- Nothing is heard of the activity going on as before. -/
theorem unheard
    {d' : Device}
    {events : List Event}
    (h : Informed trace d)
    (hShows : ∀ a, d.Shows a → d'.Shows a)
    (hSilent : ∀ event ∈ events, event.told = none) :
    Informed (trace ++ events) d' := by
  rcases h with ⟨a, hActivity, hBelieved⟩
  exact
    Informed.quiet hBelieved (hShows a hActivity) rfl
      (fun event hMember => Or.inl (hSilent event hMember))

variable [CaptureModule]

/- The answer to a command tells all that it has done. -/
theorem message
    (h : Informed trace d)
    (id : Nat)
    {data : List UInt8}
    (hReply : env.replyAccepted = true)
    (hKnown : parseCommand data ≠ .unknown) :
    Informed
      (trace ++ (Device.step d (.message env id data)).2)
      (Device.step d (.message env id data)).1 := by
  rcases h with ⟨a, hShows, hBelieved⟩
  have hMove :=
    handleCommand_shows hShows env id data (parseCommand data)
  rcases handleCommand_payload hShows env id data
    (parseCommand data) with ⟨setUps, hEvents⟩
  refine ⟨_, hMove, ?_⟩
  rw [believed_append, hBelieved]
  simp only [Device.step, websocketMessage, hEvents, hReply,
    told_answer, List.foldl_cons, List.foldl_nil]
  exact Activity.listen_payload hKnown env a data _

theorem step
    (h : Informed trace d)
    {i : Input}
    (hHeard : i.IsHeard) :
    Informed (trace ++ (Device.step d i).2)
      (Device.step d i).1 := by
  cases i with
  | message env id data => exact h.message id hHeard.1 hHeard.2
  | connect env id =>
      rcases h with ⟨a, hShows, hBelieved⟩
      refine ⟨a, hShows, ?_⟩
      rw [believed_append, hBelieved]
      simp only [Device.step, reply]
      cases env.replyAccepted with
      | false => rfl
      | true =>
          change
            listen a.audible (.text "connected") = a.audible
          exact listen_silent rfl rfl _
  | disconnect id =>
      exact
        h.unheard (fun _ hShows => hShows)
          (List.forall_mem_nil _)
  | singleCaptureTasks env =>
      exact h.singleCaptureTasks hHeard.1 hHeard.2
  | captureChainTasks env => exact h.captureChainTasks
  | streamTake env => exact h.streamTasksTake
  | streamSend env => exact h.streamTasksSend
  | captureWrite memory =>
      refine h.unheard ?_ (List.forall_mem_nil _)
      intro a hShows
      simp only [Device.step, captureWrite]
      split <;> exact hShows.congr rfl rfl
  | captureDone tail =>
      refine
        h.unheard (fun a hShows => captureDone_shows hShows tail)
          ?_
      intro event hMember
      simp only [Device.step, captureDone] at hMember
      split at hMember
      · rw [List.mem_singleton.mp hMember]
        rfl
      · cases hMember
  | dmaWrite position byte =>
      refine h.unheard ?_ (List.forall_mem_nil _)
      intro a hShows
      simp only [Device.step, dmaWrite]
      split <;> exact hShows.congr rfl rfl
  | dmaInterrupt =>
      refine h.unheard ?_ (List.forall_mem_nil _)
      intro a hShows
      simp only [Device.step, dmaInterrupt]
      split <;> exact hShows.congr rfl rfl

end Informed

/-
  After every run from start-up in which the client hears the
  replies and the single results and sends known commands
  only, the messages alone tell which operation is open; the
  device is busy with that operation, or it is cleaning up a
  capture chain that has been stopped.
-/
theorem client_knows_operation
    [CaptureModule]
    (hw : CaptureHardware)
    {inputs : List Input}
    (hHeard : ∀ i ∈ inputs, i.IsHeard)
    {d : Device}
    {trace : List Event}
    (hRun :
      Device.run (Device.boot hw) inputs = (d, trace)) :
    believed trace = d.openOperation ∧
      (isBusy d = true ↔
        believed trace ≠ none ∨
          d.captureChainPending = true) := by
  have hGuarded :
      Machine.Guarded Device.step (fun _ i => i.IsHeard)
        (Device.boot hw) inputs :=
    Machine.Guarded.of_forall
      (fun i hMember _ => hHeard i hMember) _
  have hStart : Informed [] (Device.boot hw) :=
    ⟨.idle, Device.boot_shows hw, rfl⟩
  have hEnd :=
    hGuarded.trace_invariant (P := Informed)
      (fun _ _ _ h hInput => h.step hInput) hStart
  rw [List.nil_append] at hEnd
  change
    Informed (Device.run (Device.boot hw) inputs).2
      (Device.run (Device.boot hw) inputs).1 at hEnd
  rw [hRun] at hEnd
  rcases hEnd with ⟨a, hShows, hBelieved⟩
  simp only at hShows hBelieved
  have hOpen : believed trace = d.openOperation :=
    hBelieved.trans hShows.openOperation.symm
  refine ⟨hOpen, ?_⟩
  rw [hOpen]
  exact hShows.busy_iff

end PicoLogicAnalyzer

namespace PicoLogicAnalyzer

section Sample

attribute [local instance] CaptureModule.sample

/- A stopped chain is still busy until its task has run. -/
theorem client_knows_chain_stopped :
    ∃ d trace,
      Device.run (Device.boot CaptureHardware.blank)
          [Input.command 1 "CAPTURE_CHAIN_START",
            .captureChainTasks Env.smooth,
            Input.command 1 "CAPTURE_CHAIN_STOP"] =
        (d, trace) ∧
      believed trace = d.openOperation ∧
      believed trace = none ∧
      (isBusy d = true ↔
        believed trace ≠ none ∨
          d.captureChainPending = true) ∧
      isBusy d = true := by
  refine ⟨_, _, rfl, ?_⟩
  have hKnows :=
    client_knows_operation CaptureHardware.blank
      (show
        ∀ i ∈
          [Input.command 1 "CAPTURE_CHAIN_START",
            .captureChainTasks Env.smooth,
            Input.command 1 "CAPTURE_CHAIN_STOP"],
          i.IsHeard from by
        simp only [List.forall_mem_cons, Input.command,
          Input.IsHeard]
        refine
          ⟨⟨rfl, by decide⟩, trivial, ⟨rfl, by decide⟩,
            List.forall_mem_nil _⟩)
      rfl
  exact
    ⟨hKnows.1, by decide +kernel, hKnows.2,
      by decide +kernel⟩

end Sample

end PicoLogicAnalyzer
