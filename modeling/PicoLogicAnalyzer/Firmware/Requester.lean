import PicoLogicAnalyzer.Firmware.Answers
import PicoLogicAnalyzer.Firmware.Exclusivity
import PicoLogicAnalyzer.Firmware.Stops

/-
  Who receives capture data, and for how long.

  A capture message goes to the connection whose start
  command opened the operation in progress, and the captures
  of that operation were set up after that command. After a
  stop has been answered a mode stays silent until one of
  its start commands succeeds.

  Key definitions include:
    * `Event.Confirms`
    * `OpenedBy`
    * `Requested`
    * `Attributed`

  Key theorems include:
    * `Device.step_requested`
    * `captures_reach_requester_until_stop`
-/

------------------------------------------------------------
-- Confirmations
------------------------------------------------------------

namespace PicoLogicAnalyzer

/- Replies that confirm a start of the operation. -/
def Operation.startedReplies : Operation → List String
| .singleCapture => ["SINGLE_CAPTURE_STARTED"]
| .captureChain => ["CAPTURE_CHAIN_STARTED"]
| .captureChainAnalysis => ["CAPTURE_CHAIN_ANALYSIS_STARTED"]
| .stream => ["STREAM_STARTED", "STREAM_ANALYSIS_STARTED"]

/- Replies that confirm a stop of the operation. -/
def Operation.stoppedReplies : Operation → List String
| .singleCapture => []
| .captureChain => ["CAPTURE_CHAIN_STOPPED"]
| .captureChainAnalysis => ["CAPTURE_CHAIN_ANALYSIS_STOPPED"]
| .stream => ["STREAM_STOPPED", "STREAM_ANALYSIS_STOPPED"]

/- The event is a text message from a list of replies. -/
def Event.Confirms (replies : List String) : Event → Prop
| .sent _ (.text text) _ => text ∈ replies
| _ => False

/- The operation whose capture data an event sends. -/
def Event.captureOf : Event → Option Operation
| .sent _ payload _ => payload.captureOf
| _ => none

theorem Event.not_confirms_of_capture
    {event : Event}
    {op : Operation}
    (hCapture : event.captureOf = some op)
    (replies : List String) :
    ¬ event.Confirms replies := by
  cases event with
  | sent dest payload accepted =>
      cases payload with
      | text reply => cases hCapture
      | echo data => exact id
      | raw op' width offset data => exact id
      | frame op' header offset data => exact id
  | _ => cases hCapture

/- A text that starts otherwise is another text. -/
theorem append_ne_of_not_prefix
    {label text : String}
    (hOther : label.toList.isPrefixOf text.toList = false)
    (value : String) :
    label ++ value ≠ text := by
  rintro rfl
  have hPrefix :=
    List.isPrefixOf_iff_prefix.mpr
      (List.prefix_append label.toList value.toList)
  rw [String.toList_append, hPrefix] at hOther
  cases hOther

/- Values and echoes confirm nothing. -/
theorem Payload.IsValue.not_confirms
    {payload : Payload}
    (h : payload.IsValue)
    (id : Nat)
    (accepted : Bool)
    (op : Operation) :
    ¬ (Event.sent id payload accepted).Confirms
        op.startedReplies ∧
      ¬ (Event.sent id payload accepted).Confirms
        op.stoppedReplies := by
  have hOther :
      ∀ label ∈ ["FREQ ", "CHUNKS_SIZE ", "CHANNEL_MASK "],
        ∀ op : Operation,
          ∀ text ∈ op.startedReplies ++ op.stoppedReplies,
            label.toList.isPrefixOf text.toList = false := by
    intro label hLabel op
    cases op <;> revert label <;> decide
  have hText :
      ∀ label ∈ ["FREQ ", "CHUNKS_SIZE ", "CHANNEL_MASK "],
        ∀ value, label ++ value ∉
          op.startedReplies ++ op.stoppedReplies := by
    intro label hLabel value hMember
    exact
      append_ne_of_not_prefix
        (hOther label hLabel op _ hMember) value rfl
  have hBoth :
      ∀ label ∈ ["FREQ ", "CHUNKS_SIZE ", "CHANNEL_MASK "],
        ∀ value, label ++ value ∉ op.startedReplies ∧
          label ++ value ∉ op.stoppedReplies := by
    intro label hLabel value
    have hNone := hText label hLabel value
    rw [List.mem_append, not_or] at hNone
    exact hNone
  cases h with
  | freq value => exact hBoth _ (by simp) value
  | chunksSize value => exact hBoth _ (by simp) value
  | channelMask value => exact hBoth _ (by simp) value
  | echo data => exact ⟨not_false, not_false⟩

/- A start is confirmed exactly when it opens an operation. -/
theorem Activity.answer_started
    {env : Env}
    {a : Activity}
    {command : Command}
    {text : String}
    {op : Operation}
    (hAnswer : a.answer env command = some text)
    (hText : text ∈ op.startedReplies) :
    a = .idle ∧ command.starts = some op ∧
      (a.handle env command).operation = some op := by
  cases command <;>
    simp only [Activity.answer, Option.some.injEq,
      reduceCtorEq] at hAnswer <;>
    subst hAnswer <;>
    cases op <;>
    simp_all [Operation.startedReplies, Command.starts,
      Activity.handle, Activity.operation] <;>
    split_ifs at hText <;>
    simp_all

theorem Activity.answer_stopped
    {env : Env}
    {a : Activity}
    {command : Command}
    {text : String}
    {op : Operation}
    (hAnswer : a.answer env command = some text)
    (hText : text ∈ op.stoppedReplies) :
    command.stops = some op := by
  cases command <;>
    simp only [Activity.answer, Option.some.injEq,
      reduceCtorEq] at hAnswer <;>
    subst hAnswer <;>
    cases op <;>
    simp_all [Operation.stoppedReplies, Command.stops] <;>
    split_ifs at hText <;>
    simp_all

/- Every opened operation is confirmed. -/
theorem Activity.answer_of_handle
    {env : Env}
    {command : Command}
    {op : Operation}
    (hOpens :
      (Activity.idle.handle env command).operation =
        some op) :
    command.starts = some op ∧
      ∃ text ∈ op.startedReplies,
        Activity.idle.answer env command = some text := by
  cases command with
  | singleCapture =>
      cases hStarted : env.captureStarted with
      | false =>
          simp [Activity.handle, hStarted,
            Activity.operation] at hOpens
      | true =>
          simp only [Activity.handle, hStarted, and_self,
            if_true] at hOpens
          cases hOpens
          refine ⟨rfl, _, List.mem_singleton_self _, ?_⟩
          simp [Activity.answer, hStarted]
  | captureChainStart =>
      cases hOpens
      exact ⟨rfl, _, List.mem_singleton_self _, rfl⟩
  | captureChainAnalysisStart =>
      cases hStarted : env.chunkStarted with
      | false =>
          simp [Activity.handle, hStarted,
            Activity.operation] at hOpens
      | true =>
          simp only [Activity.handle, hStarted, and_self,
            if_true] at hOpens
          cases hOpens
          refine ⟨rfl, _, List.mem_singleton_self _, ?_⟩
          simp [Activity.answer, hStarted]
  | streamStart =>
      cases hOpens
      exact ⟨rfl, _, List.mem_cons_self .., rfl⟩
  | streamAnalysisStart =>
      cases hOpens
      refine ⟨rfl, _, ?_, rfl⟩
      exact List.mem_cons_of_mem _ (List.mem_singleton_self _)
  | _ => cases hOpens

end PicoLogicAnalyzer

------------------------------------------------------------
-- Requested Operations
------------------------------------------------------------

namespace PicoLogicAnalyzer

/- The connection the data of an operation is sent to. -/
def Device.requester (d : Device) : Operation → Nat
| .singleCapture => d.singleCaptureConnection
| _ => d.streamConnection

/-
  The last start confirmed in `trace` is a start of `op`
  sent by connection `id`, and every set-up made since that
  command belongs to `op`. With `captured` one of them has
  started; without `stopped` no stop of `op` was confirmed.
-/
def OpenedBy
    (trace : List Event)
    (op : Operation)
    (id : Nat)
    (captured stopped : Bool) : Prop :=
  ∃ (before : List Event) (data : List UInt8)
      (setUps : List SetUp) (text : String)
      (accepted : Bool) (rest : List Event),
    trace =
        before ++ .received id data ::
          (setUps.map Event.setUp ++
            .sent id (.text text) accepted :: rest) ∧
      (parseCommand data).starts = some op ∧
      text ∈ op.startedReplies ∧
      (∀ event ∈ rest, ∀ op' : Operation,
        ¬ event.Confirms op'.startedReplies) ∧
      (∀ record,
        .setUp record ∈ setUps.map Event.setUp ++ rest →
          record.kind = op.setUpKind) ∧
      (captured = true →
        ∃ record,
          .setUp record ∈ setUps.map Event.setUp ++ rest ∧
            record.started = true) ∧
      (stopped = false →
        ∀ event ∈ rest, ¬ event.Confirms op.stoppedReplies)

/- Events of the same operation keep its requester. -/
theorem OpenedBy.extend
    {trace events : List Event}
    {op : Operation}
    {id : Nat}
    {captured captured' stopped stopped' : Bool}
    (h : OpenedBy trace op id captured stopped)
    (hNone :
      ∀ event ∈ events, ∀ op' : Operation,
        ¬ event.Confirms op'.startedReplies)
    (hKind :
      ∀ record, .setUp record ∈ events →
        record.kind = op.setUpKind)
    (hCaptured :
      captured' = true →
        captured = true ∨
          ∃ record, .setUp record ∈ events ∧
            record.started = true)
    (hStopped :
      stopped' = false →
        stopped = false ∧
          ∀ event ∈ events,
            ¬ event.Confirms op.stoppedReplies) :
    OpenedBy (trace ++ events) op id captured' stopped' := by
  rcases h with
    ⟨before, data, setUps, text, accepted, rest, rfl,
      hStarts, hText, hRest, hSetUps, hStarted, hStops⟩
  refine
    ⟨before, data, setUps, text, accepted, rest ++ events,
      by simp, hStarts, hText, ?_, ?_, ?_, ?_⟩
  · intro event hMember
    rcases List.mem_append.mp hMember with hHere | hHere
    · exact hRest event hHere
    · exact hNone event hHere
  · intro record hMember
    rw [← List.append_assoc, List.mem_append] at hMember
    rcases hMember with hHere | hHere
    · exact hSetUps record hHere
    · exact hKind record hHere
  · intro hData
    rcases hCaptured hData with hBefore | ⟨record, hHere, hRun⟩
    · rcases hStarted hBefore with ⟨record, hHere, hRun⟩
      refine ⟨record, ?_, hRun⟩
      rw [← List.append_assoc]
      exact List.mem_append_left events hHere
    · refine ⟨record, ?_, hRun⟩
      rw [← List.append_assoc]
      exact List.mem_append_right _ hHere
  · intro hRunning event hMember
    rcases hStopped hRunning with ⟨hBefore, hNow⟩
    rcases List.mem_append.mp hMember with hHere | hHere
    · exact hStops hBefore event hHere
    · exact hNow event hHere

/- A chain that has been stopped but not cleaned up. -/
def Activity.stopped : Activity → Bool
| .chainStopping => true
| _ => false

/- Activity `a` was opened by the requester of its data. -/
def Requests
    (trace : List Event)
    (d : Device)
    (a : Activity) : Prop :=
  ∀ op, a.operation = some op →
    OpenedBy trace op (d.requester op) a.holdsData a.stopped

/- The operation in progress was opened by its requester. -/
def Requested (trace : List Event) (d : Device) : Prop :=
  ∃ a, d.Shows a ∧ Requests trace d a

/- A step that continues the operation or ends it. -/
theorem Requested.step
    {trace events : List Event}
    {d d' : Device}
    {a a' : Activity}
    (h : Requests trace d a)
    (hShows : d'.Shows a')
    (hContinues : a.Continues a')
    (hRequester : d'.requester = d.requester)
    (hNone :
      ∀ event ∈ events, ∀ op' : Operation,
        ¬ event.Confirms op'.startedReplies)
    (hStops :
      ∀ op, a'.operation = some op → a'.stopped = false →
        a.stopped = false ∧
          ∀ event ∈ events,
            ¬ event.Confirms op.stoppedReplies)
    (hKind :
      ∀ record, .setUp record ∈ events →
        ∀ op, a.operation = some op →
          record.kind = op.setUpKind)
    (hCaptured :
      a'.holdsData = true →
        a.holdsData = true ∨
          ∃ record, .setUp record ∈ events ∧
            record.started = true) :
    Requested (trace ++ events) d' := by
  refine ⟨a', hShows, ?_⟩
  intro op hOp
  rcases hContinues with rfl | ⟨hSame, _⟩
  · cases hOp
  · have hBefore := hOp
    rw [hSame] at hBefore
    rw [hRequester]
    refine (h op hBefore).extend hNone ?_ hCaptured
      (hStops op hOp)
    intro record hMember
    exact hKind record hMember op hBefore

/- The events confirm neither a start nor a stop. -/
def Unconfirming (events : List Event) : Prop :=
  ∀ event ∈ events, ∀ op : Operation,
    ¬ event.Confirms op.startedReplies ∧
      ¬ event.Confirms op.stoppedReplies

/- The same for steps that confirm nothing. -/
theorem Requested.task
    {trace events : List Event}
    {d d' : Device}
    {a a' : Activity}
    (h : Requests trace d a)
    (hShows : d'.Shows a')
    (hContinues : a.Continues a')
    (hRequester : d'.requester = d.requester)
    (hNone : Unconfirming events)
    (hStopped : a'.stopped = false → a.stopped = true → a' = .idle)
    (hKind :
      ∀ record, .setUp record ∈ events →
        ∀ op, a.operation = some op →
          record.kind = op.setUpKind)
    (hCaptured :
      a'.holdsData = true →
        a.holdsData = true ∨
          ∃ record, .setUp record ∈ events ∧
            record.started = true) :
    Requested (trace ++ events) d' := by
  refine Requested.step h hShows hContinues hRequester
    (fun event hMember op => (hNone event hMember op).1)
    ?_ hKind hCaptured
  intro op hOp hRunning
  refine ⟨?_, fun event hMember => (hNone event hMember op).2⟩
  cases hBefore : a.stopped with
  | false => rfl
  | true =>
      rw [hStopped hRunning hBefore] at hOp
      cases hOp

end PicoLogicAnalyzer

------------------------------------------------------------
-- Tasks Keep The Requester
------------------------------------------------------------

namespace PicoLogicAnalyzer

variable {trace : List Event} {d : Device} {a : Activity}
variable {env : Env}

theorem unconfirming_of_capture
    {events : List Event}
    (hCapture :
      ∀ event ∈ events,
        (∃ op, event.captureOf = some op) ∨
          ∀ replies, ¬ event.Confirms replies) :
    Unconfirming events := by
  intro event hMember op
  rcases hCapture event hMember with ⟨op', hOp⟩ | hNone
  · exact ⟨Event.not_confirms_of_capture hOp _,
      Event.not_confirms_of_capture hOp _⟩
  · exact ⟨hNone _, hNone _⟩

theorem singleCaptureTasks_unconfirming :
    Unconfirming (singleCaptureTasks env d).2 := by
  intro event hMember op
  rcases (mem_singleCaptureTasks hMember).2 with
    rfl | ⟨capture, _, rfl⟩
  · cases op <;>
      simp [Event.Confirms, Operation.startedReplies,
        Operation.stoppedReplies]
  · exact ⟨Event.not_confirms_of_capture rfl _,
      Event.not_confirms_of_capture rfl _⟩

theorem singleCaptureTasks_requested
    (hShows : d.Shows a)
    (h : Requests trace d a) :
    Requested (trace ++ (singleCaptureTasks env d).2)
      (singleCaptureTasks env d).1 := by
  refine Requested.task h
    (singleCaptureTasks_shows hShows env) ?_ ?_
    singleCaptureTasks_unconfirming ?_ ?_ ?_
  · split
    · exact Activity.Continues.refl a
    · exact Activity.continues_finishSingle a
  · unfold singleCaptureTasks
    split <;> rfl
  · intro hRunning hBefore
    cases a <;> simp_all [Activity.stopped,
      Activity.finishSingle]
  · intro record hMember
    rcases (mem_singleCaptureTasks hMember).2 with
      hEvent | ⟨_, _, hEvent⟩ <;>
        cases hEvent
  · intro hData
    left
    split at hData
    · exact hData
    · cases a with
      | single active => cases hData
      | _ => exact hData

theorem captureChainDeliver_requested
    (hShows : d.Shows a)
    (h : Requests trace d a) :
    Requested (trace ++ (captureChainDeliver env d).2.1)
      (captureChainDeliver env d).1 := by
  refine Requested.task h
    (captureChainDeliver_shows hShows env) ?_ ?_ ?_ ?_ ?_ ?_
  · split
    · exact Activity.Continues.refl a
    · exact Activity.continues_deliverChain a
  · unfold captureChainDeliver
    split
    · simp only
      split <;> rfl
    · rfl
  · apply unconfirming_of_capture
    intro event hMember
    rcases (mem_captureChainDeliver hMember).2 with
      ⟨capture, _, rfl⟩
    exact Or.inl ⟨_, rfl⟩
  · intro hRunning hBefore
    cases a <;> simp_all [Activity.stopped,
      Activity.deliverChain]
    split at hRunning
    · cases hRunning
    · simp_all
  · intro record hMember
    rcases (mem_captureChainDeliver hMember).2 with
      ⟨_, _, hEvent⟩
    cases hEvent
  · intro hData
    left
    split at hData
    · exact hData
    · cases a with
      | chainCapturing => cases hData
      | chainStopping => cases hData
      | _ => exact hData

/- The restart is what sets up a waiting chain. -/
theorem captureChainRestart_requested
    (hShows : d.Shows a)
    (h : Requests trace d a) :
    Requested (trace ++ (captureChainRestart env d).2)
      (captureChainRestart env d).1 := by
  refine Requested.task h
    (captureChainRestart_shows hShows env) ?_ ?_ ?_ ?_ ?_ ?_
  · exact Activity.continues_if _
      (Activity.continues_restartChain _ a)
  · unfold captureChainRestart
    split <;> rfl
  · apply unconfirming_of_capture
    intro event hMember
    rcases mem_captureChainRestart hMember with ⟨record, rfl⟩
    exact Or.inr (fun _ => not_false)
  · intro hRunning hBefore
    cases a <;> simp_all [Activity.stopped,
      Activity.restartChain]
  · intro record hMember op hOp
    rcases captureChainRestart_record hMember with
      ⟨hEnabled, _, rfl⟩
    rw [hShows.captureChainEnabled] at hEnabled
    cases a with
    | chainWaiting =>
        cases hOp
        rfl
    | chainCapturing =>
        cases hOp
        rfl
    | _ => cases hEnabled
  · intro hData
    split at hData
    · rename_i hDue
      cases a with
      | chainWaiting =>
          right
          rw [captureChainRestart_waiting hShows hDue]
          cases hStarted : env.captureStarted with
          | false =>
              rw [hStarted] at hData
              cases hData
          | true =>
              exact ⟨_, List.mem_singleton_self _, rfl⟩
      | _ => exact Or.inl hData
    · exact Or.inl hData

theorem captureChainTakeBlock_requested
    (hShows : d.Shows a)
    (h : Requests trace d a) :
    Requested (trace ++ (captureChainTakeBlock env d).2)
      (captureChainTakeBlock env d).1 := by
  refine Requested.task h
    (captureChainTakeBlock_shows hShows env)
    ?_ ?_ ?_ ?_ ?_ ?_
  · exact Activity.continues_if _
      (Activity.continues_takeBlock a)
  · unfold captureChainTakeBlock
    split
    · simp only
      split <;> rfl
    · rfl
  · apply unconfirming_of_capture
    intro event hMember
    rcases mem_captureChainTakeBlock hMember with ⟨_, rfl⟩
    exact Or.inr (fun _ => not_false)
  · intro hRunning hBefore
    cases a <;> simp_all [Activity.stopped,
      Activity.takeBlock]
  · intro record hMember
    rcases mem_captureChainTakeBlock hMember with
      ⟨_, hEvent⟩
    cases hEvent
  · intro hData
    left
    split at hData
    · cases a with
      | chainAnalysis phase => rfl
      | _ => exact hData
    · exact hData

theorem captureChainSendBlock_requested
    (hShows : d.Shows a)
    (h : Requests trace d a) :
    Requested (trace ++ (captureChainSendBlock env d).2)
      (captureChainSendBlock env d).1 := by
  refine Requested.task h
    (captureChainSendBlock_shows hShows env)
    ?_ ?_ ?_ ?_ ?_ ?_
  · exact Activity.continues_if _
      (Activity.continues_releaseBlock _ a)
  · unfold captureChainSendBlock
    split
    · simp only
      split <;> rfl
    · rfl
  · apply unconfirming_of_capture
    intro event hMember
    rcases (mem_captureChainSendBlock hMember).2 with
      hSent | ⟨record, rfl⟩
    · rw [mem_sendAnalysisBlock hSent]
      exact Or.inl ⟨_, rfl⟩
    · exact Or.inr (fun _ => not_false)
  · intro hRunning hBefore
    cases a <;> simp_all [Activity.stopped,
      Activity.releaseBlock]
  · intro record hMember op hOp
    rcases captureChainSendBlock_record hMember with
      ⟨hBlock, rfl⟩
    rw [hShows.laBlockOutstanding] at hBlock
    cases a with
    | chainAnalysis phase =>
        cases hOp
        rfl
    | _ => cases hBlock
  · intro hData
    left
    split at hData
    · cases a with
      | chainAnalysis phase => rfl
      | _ => exact hData
    · exact hData

theorem streamTasksTake_requested
    (hShows : d.Shows a)
    (h : Requests trace d a) :
    Requested (trace ++ (streamTasksTake env d).2)
      (streamTasksTake env d).1 := by
  refine Requested.task h
    (streamTasksTake_shows hShows env) ?_ ?_ ?_ ?_ ?_ ?_
  · exact Activity.continues_if _
      (Activity.continues_takeStream a)
  · unfold streamTasksTake
    split
    · simp only
      split <;> rfl
    · rfl
  · apply unconfirming_of_capture
    intro event hMember
    rcases mem_streamTasksTake hMember with ⟨_, _, _, rfl⟩
    exact Or.inr (fun _ => not_false)
  · intro hRunning hBefore
    cases a <;> simp_all [Activity.stopped,
      Activity.takeStream]
  · intro record hMember
    rcases mem_streamTasksTake hMember with
      ⟨_, _, _, hEvent⟩
    cases hEvent
  · intro hData
    left
    split at hData
    · cases a with
      | streaming analysis pending => rfl
      | _ => exact hData
    · exact hData

theorem streamTasksSend_requested
    (hShows : d.Shows a)
    (h : Requests trace d a) :
    Requested (trace ++ (streamTasksSend env d).2)
      (streamTasksSend env d).1 := by
  refine Requested.task h
    (streamTasksSend_shows hShows env) ?_ ?_ ?_ ?_ ?_ ?_
  · exact Activity.continues_if _
      (Activity.continues_releaseStream a)
  · unfold streamTasksSend
    split
    · simp only
      split <;> rfl
    · rfl
  · apply unconfirming_of_capture
    intro event hMember
    rcases mem_sendStreamBlock
      (mem_streamTasksSend hMember).2 with
      ⟨payload, rfl, hCapture⟩
    exact Or.inl ⟨_, hCapture⟩
  · intro hRunning hBefore
    cases a <;> simp_all [Activity.stopped,
      Activity.releaseStream]
  · intro record hMember
    rcases mem_sendStreamBlock
      (mem_streamTasksSend hMember).2 with
      ⟨payload, hEvent, _⟩
    cases hEvent
  · intro hData
    left
    split at hData
    · cases a with
      | streaming analysis pending => rfl
      | _ => exact hData
    · exact hData

end PicoLogicAnalyzer

------------------------------------------------------------
-- Commands And The Requester
------------------------------------------------------------

namespace PicoLogicAnalyzer

/- No command opens a second operation. -/
theorem Activity.handle_continues
    {a : Activity}
    (hOpen : a ≠ .idle)
    (env : Env)
    (command : Command) :
    a.Continues (a.handle env command) ∧
      ((a.handle env command).holdsData = true →
        a.holdsData = true) := by
  have hSame : a.Continues a ∧
      (a.holdsData = true → a.holdsData = true) :=
    ⟨Continues.refl a, id⟩
  cases command with
  | captureChainStop =>
      refine ⟨continues_stopChain a, ?_⟩
      cases a <;> simp [handle, stopChain, holdsData]
  | captureChainAnalysisStop =>
      refine ⟨continues_stopAnalysis a, ?_⟩
      cases a <;> simp [handle, stopAnalysis, holdsData]
  | streamStop =>
      refine ⟨continues_stopStream a, ?_⟩
      cases a <;> simp [handle, stopStream, holdsData]
  | streamAnalysisStop =>
      refine ⟨continues_stopStream a, ?_⟩
      cases a <;> simp [handle, stopStream, holdsData]
  | singleCapture => simpa [handle, hOpen] using hSame
  | captureChainStart => simpa [handle, hOpen] using hSame
  | captureChainAnalysisStart =>
      simpa [handle, hOpen] using hSame
  | streamStart => simpa [handle, hOpen] using hSame
  | streamAnalysisStart => simpa [handle, hOpen] using hSame
  | _ => exact hSame

variable {trace : List Event} {d : Device} {a : Activity}

/- The answer of a busy device confirms no start. -/
theorem Answered.not_started
    {env : Env}
    {id : Nat}
    {command : Command}
    {setUps : List SetUp}
    {payload : Payload}
    {events : List Event}
    (hAnswered :
      Answered env id a command setUps payload events)
    (hOpen : a ≠ .idle)
    (op : Operation) :
    ¬ (Event.sent id payload env.replyAccepted).Confirms
      op.startedReplies := by
  cases hText : a.answer env command with
  | none =>
      exact
        ((hAnswered.value hText).not_confirms id _ op).1
  | some text =>
      rw [hAnswered.text text hText]
      intro hStarted
      exact hOpen (Activity.answer_started hText hStarted).1

/- Only a stop of the operation is confirmed as one. -/
theorem Answered.not_stopped
    {env : Env}
    {id : Nat}
    {command : Command}
    {setUps : List SetUp}
    {payload : Payload}
    {events : List Event}
    (hAnswered :
      Answered env id a command setUps payload events)
    {op : Operation}
    (hForeign : command.stops ≠ some op) :
    ¬ (Event.sent id payload env.replyAccepted).Confirms
      op.stoppedReplies := by
  cases hText : a.answer env command with
  | none =>
      exact
        ((hAnswered.value hText).not_confirms id _ op).2
  | some text =>
      rw [hAnswered.text text hText]
      intro hStopped
      exact hForeign (Activity.answer_stopped hText hStopped)

/- An operation that goes on was not told to stop. -/
theorem Activity.handle_stopped
    {env : Env}
    {command : Command}
    {op : Operation}
    (hOp : (a.handle env command).operation = some op)
    (hRunning : (a.handle env command).stopped = false) :
    a.stopped = false ∧ command.stops ≠ some op := by
  cases command with
  | captureChainStop =>
      cases a <;>
        simp_all [handle, stopChain, operation, stopped,
          Command.stops] <;>
        (subst hOp; simp)
  | captureChainAnalysisStop =>
      cases a <;>
        simp_all [handle, stopAnalysis, operation, stopped,
          Command.stops] <;>
        (subst hOp; simp)
  | streamStop =>
      cases a <;>
        simp_all [handle, stopStream, operation, stopped,
          Command.stops] <;>
        (subst hOp; simp)
  | streamAnalysisStop =>
      cases a <;>
        simp_all [handle, stopStream, operation, stopped,
          Command.stops] <;>
        (subst hOp; simp)
  | _ =>
      cases a <;>
        simp_all [handle, operation, stopped, Command.stops]

variable [CaptureModule]

/- A busy device keeps its connections. -/
theorem handleCommand_requester_of_busy
    (hBusy : isBusy d = true)
    (env : Env)
    (id : Nat)
    (data : List UInt8)
    (command : Command) :
    (handleCommand env id data d command).1.requester =
      d.requester := by
  by_cases hStarts : command.starts ≠ none
  · rw [handleCommand_refused hBusy env id data hStarts]
  · rw [not_not] at hStarts
    cases command <;> first | rfl | cases hStarts

/- An accepted start stores the connection that sent it. -/
theorem handleCommand_requester_of_open
    (h : d.Shows .idle)
    {env : Env}
    {command : Command}
    {op : Operation}
    (hOpens :
      (Activity.idle.handle env command).operation = some op)
    (id : Nat)
    (data : List UInt8) :
    (handleCommand env id data d command).1.requester op =
      id := by
  have hBusy : isBusy d = false := h.isBusy
  have hFree : laIsBusy d.bridge = false := h.laIsBusy
  have hFreeUp : laIsBusy (gpioPullUp d.bridge) = false :=
    h.laIsBusy
  cases command with
  | singleCapture =>
      cases hStarted : env.captureStarted with
      | false =>
          simp [Activity.handle, hStarted,
            Activity.operation] at hOpens
      | true =>
          simp only [Activity.handle, hStarted, and_self,
            if_true] at hOpens
          cases hOpens
          simp only [handleCommand, hBusy,
            startSingleCapture, laSingleCaptureStart,
            hFreeUp, hStarted]
          rfl
  | captureChainStart =>
      cases hOpens
      simp only [handleCommand, captureChainStart, hBusy]
      rfl
  | captureChainAnalysisStart =>
      cases hStarted : env.chunkStarted with
      | false =>
          simp [Activity.handle, hStarted,
            Activity.operation] at hOpens
      | true =>
          simp only [Activity.handle, hStarted, and_self,
            if_true] at hOpens
          cases hOpens
          simp only [handleCommand, hBusy,
            captureChainAnalysisStart, laCaptureChainStart,
            hFree, hStarted]
          rfl
  | streamStart =>
      cases hOpens
      simp only [handleCommand, streamStartCommand_state,
        startStream, hBusy, laStreamStart, hFree]
      rfl
  | streamAnalysisStart =>
      cases hOpens
      simp only [handleCommand, streamStartCommand_state,
        startStream, hBusy, laStreamStart, hFree]
      rfl
  | _ => cases hOpens

theorem handleCommand_requested
    (hShows : d.Shows a)
    (h : Requests trace d a)
    (env : Env)
    (id : Nat)
    (data : List UInt8) :
    Requested
      (trace ++ .received id data ::
        (handleCommand env id data d (parseCommand data)).2)
      (handleCommand env id data d (parseCommand data)).1 := by
  have hNext :=
    handleCommand_shows hShows env id data (parseCommand data)
  rcases handleCommand_answered hShows env id data
    (parseCommand data) with ⟨setUps, payload, hAnswered⟩
  by_cases hIdle : a = .idle
  · -- The command opens an operation or leaves none.
    subst hIdle
    refine ⟨_, hNext, ?_⟩
    intro op hOp
    rcases Activity.answer_of_handle hOp with
      ⟨hStarts, text, hText, hAnswer⟩
    rw [handleCommand_requester_of_open hShows hOp,
      hAnswered.events_eq, hAnswered.text text hAnswer]
    refine
      ⟨trace, data, setUps, text, env.replyAccepted, [],
        rfl, hStarts, hText, List.forall_mem_nil _, ?_, ?_,
        fun _ => List.forall_mem_nil _⟩
    · intro record hMember
      have hRecord : record ∈ setUps := by
        simpa using hMember
      exact hAnswered.setUps_kind record hRecord op hStarts
    · intro hData
      rcases hAnswered.setUps_started rfl hData with
        ⟨record, hMember, hRun⟩
      exact ⟨record, by simpa using hMember, hRun⟩
  · -- A busy device refuses starts; stops only end things.
    have hBusy : isBusy d = true := by
      simp [hShows.isBusy, hIdle]
    have hNoSetUps : setUps = [] := by
      by_contra hSome
      exact hIdle (hAnswered.setUps_idle hSome)
    have hMove :=
      Activity.handle_continues hIdle env (parseCommand data)
    have hEvents := hAnswered.events_eq
    rw [hNoSetUps] at hEvents
    rw [hEvents]
    refine Requested.step h hNext hMove.1
      (handleCommand_requester_of_busy hBusy env id data _)
      ?_ ?_ ?_ (fun hData => Or.inl (hMove.2 hData))
    · intro event hMember op
      simp only [List.map_nil, List.nil_append,
        List.mem_cons, List.not_mem_nil, or_false] at hMember
      rcases hMember with rfl | rfl
      · exact not_false
      · exact hAnswered.not_started hIdle op
    · intro op hOp hRunning
      rcases Activity.handle_stopped hOp hRunning with
        ⟨hBefore, hForeign⟩
      refine ⟨hBefore, ?_⟩
      intro event hMember
      simp only [List.map_nil, List.nil_append,
        List.mem_cons, List.not_mem_nil, or_false] at hMember
      rcases hMember with rfl | rfl
      · exact not_false
      · exact hAnswered.not_stopped hForeign
    · intro record hMember
      simp at hMember

/- Hardware and connection changes confirm nothing. -/
theorem Device.step_outside_not_confirms
    {i : Input}
    (hOutside : i.isOutside = true)
    {event : Event}
    (hMember : event ∈ (Device.step d i).2)
    (op : Operation) :
    ¬ event.Confirms op.startedReplies ∧
      ¬ event.Confirms op.stoppedReplies := by
  rcases Device.mem_step_outside hOutside hMember with
    rfl | ⟨env, id, rfl⟩
  · exact ⟨not_false, not_false⟩
  · cases op <;>
      simp [Event.Confirms, reply, Operation.startedReplies,
        Operation.stoppedReplies]

theorem Device.step_outside_requested
    (hShows : d.Shows a)
    (h : Requests trace d a)
    {i : Input}
    (hOutside : i.isOutside = true) :
    Requested (trace ++ (Device.step d i).2)
      (Device.step d i).1 := by
  refine Requested.task h
    (Device.step_outside_shows hShows hOutside)
    (.refl a) ?_ ?_ ?_ ?_ Or.inl
  · rcases Device.step_outside d hOutside with ⟨b, hStep⟩
    rw [hStep]
    rfl
  · intro event hMember op
    exact Device.step_outside_not_confirms hOutside hMember
      op
  · intro hRunning hBefore
    cases hRunning.symm.trans hBefore
  · intro record hMember
    rcases Device.mem_step_outside hOutside hMember with
      hEvent | ⟨_, _, hEvent⟩ <;>
        cases hEvent

/- Every step keeps the requester of the operation. -/
theorem Device.step_requested
    (h : Requested trace d)
    (i : Input) :
    Requested (trace ++ (Device.step d i).2)
      (Device.step d i).1 := by
  rcases h with ⟨a, hShows, h⟩
  cases i with
  | message env id data =>
      exact handleCommand_requested hShows h env id data
  | singleCaptureTasks env =>
      exact singleCaptureTasks_requested hShows h
  | captureChainTasks env =>
      refine captureChainTasks_rule (P := Requested)
        ?_ ?_ ?_ ?_ trace ⟨a, hShows, h⟩
      · rintro trace d ⟨a, hShows, h⟩
        exact captureChainDeliver_requested hShows h
      · rintro trace d ⟨a, hShows, h⟩
        exact captureChainRestart_requested hShows h
      · rintro trace d ⟨a, hShows, h⟩
        exact captureChainTakeBlock_requested hShows h
      · rintro trace d ⟨a, hShows, h⟩
        exact captureChainSendBlock_requested hShows h
  | streamTake env => exact streamTasksTake_requested hShows h
  | streamSend env => exact streamTasksSend_requested hShows h
  | _ => exact Device.step_outside_requested hShows h rfl

end PicoLogicAnalyzer

------------------------------------------------------------
-- Every Capture Message Is Requested
------------------------------------------------------------

namespace PicoLogicAnalyzer

/-
  An event that sends capture data sends it to the
  connection that opened the operation, and that operation
  has captured and was not stopped.
-/
def Attributed (past : List Event) (event : Event) : Prop :=
  ∀ dest payload accepted op,
    event = .sent dest payload accepted →
      payload.captureOf = some op →
        OpenedBy past op dest true false

theorem attributed_of_no_capture
    {event : Event}
    (hNone : event.captureOf = none)
    (past : List Event) :
    Attributed past event := by
  rintro dest payload accepted op rfl hOp
  cases hNone.symm.trans hOp

/- A message of activity `a` to its requester. -/
theorem Requests.attributed
    {trace : List Event}
    {d : Device}
    {a : Activity}
    (h : Requests trace d a)
    (op : Operation)
    (hOp : a.operation = some op)
    (hData : a.holdsData = true)
    (hRunning : a.stopped = false)
    {payload : Payload}
    (hPayload : payload.captureOf = some op)
    (accepted : Bool) :
    Attributed trace
      (.sent (d.requester op) payload accepted) := by
  rintro dest payload' accepted' op' hEvent hOp'
  cases hEvent
  cases hPayload.symm.trans hOp'
  have hOpened := h op hOp
  rw [hData, hRunning] at hOpened
  exact hOpened

variable {trace : List Event} {d : Device} {a : Activity}
variable {env : Env} {event : Event}

theorem singleCaptureTasks_attributed
    (hShows : d.Shows a)
    (h : Requests trace d a)
    (hMember : event ∈ (singleCaptureTasks env d).2) :
    Attributed trace event := by
  rcases mem_singleCaptureTasks hMember with
    ⟨hPending, rfl | ⟨capture, hResult, rfl⟩⟩
  · exact attributed_of_no_capture rfl trace
  · have hActive := (laSingleCaptureGetResult_some hResult).1
    have hSingle : a = .single true := by
      rw [hShows.singleCapturePending] at hPending
      rw [hShows.laSingleCaptureActive] at hActive
      cases a <;> simp_all [Activity.flags, Flags.idle]
    subst hSingle
    exact h.attributed .singleCapture rfl rfl rfl rfl _

theorem captureChainDeliver_attributed
    (hShows : d.Shows a)
    (h : Requests trace d a)
    (hMember : event ∈ (captureChainDeliver env d).2.1) :
    Attributed trace event := by
  rcases mem_captureChainDeliver hMember with
    ⟨hPending, capture, hResult, rfl⟩
  have hActive := (laSingleCaptureGetResult_some hResult).1
  have hChain : a = .chainCapturing := by
    rw [hShows.captureChainPending] at hPending
    rw [hShows.laSingleCaptureActive] at hActive
    cases a <;> simp_all [Activity.flags, Flags.idle]
  subst hChain
  exact h.attributed .captureChain rfl rfl rfl rfl _

theorem captureChainSendBlock_attributed
    (hShows : d.Shows a)
    (h : Requests trace d a)
    (hMember :
      event ∈
        (sendAnalysisBlock env .captureChainAnalysis d
          d.pendingAnalysisBlock).2)
    (hPending : d.blockPending = true) :
    Attributed trace event := by
  rw [mem_sendAnalysisBlock hMember]
  rw [hShows.blockPending] at hPending
  cases a with
  | chainAnalysis phase =>
      exact
        h.attributed .captureChainAnalysis rfl rfl rfl rfl _
  | _ => cases hPending

theorem streamTasksSend_attributed
    (hShows : d.Shows a)
    (h : Requests trace d a)
    (hMember : event ∈ (streamTasksSend env d).2) :
    Attributed trace event := by
  rcases mem_streamTasksSend hMember with ⟨hPending, hSent⟩
  rcases mem_sendStreamBlock hSent with
    ⟨payload, rfl, hCapture⟩
  rw [hShows.streamBlockPending] at hPending
  cases a with
  | streaming analysis pending =>
      exact h.attributed .stream rfl rfl rfl hCapture _
  | _ => cases hPending

/- At most one event, judged by the trace before it. -/
theorem each_of_length_le_one
    {Q : List Event → Event → Prop}
    {past events : List Event}
    (hLength : events.length ≤ 1)
    (hAll : ∀ event ∈ events, Q past event) :
    Machine.Each Q past events := by
  cases events with
  | nil => trivial
  | cons first rest =>
      cases rest with
      | nil =>
          exact ⟨hAll first (List.mem_cons_self ..), trivial⟩
      | cons second rest => simp at hLength

theorem sendAnalysisBlock_length
    (env : Env)
    (op : Operation)
    (d : Device)
    (block : AnalysisBlock) :
    (sendAnalysisBlock env op d block).2.length ≤ 1 := by
  unfold sendAnalysisBlock
  split <;> simp

theorem streamTasksSend_length
    (env : Env)
    (d : Device) :
    (streamTasksSend env d).2.length ≤ 1 := by
  have hSent :
      (sendStreamBlock env d
        d.pendingAnalysisBlock).2.length ≤ 1 := by
    unfold sendStreamBlock
    split
    · exact sendAnalysisBlock_length ..
    · simp
  unfold streamTasksSend
  split
  · simp only
    split <;> exact hSent
  · simp

theorem captureChainSendBlock_each
    (hShows : d.Shows a)
    (h : Requests trace d a) :
    Machine.Each Attributed trace
      (captureChainSendBlock env d).2 := by
  have hSent :
      d.blockPending = true →
        Machine.Each Attributed trace
          (sendAnalysisBlock env .captureChainAnalysis d
            d.pendingAnalysisBlock).2 := by
    intro hPending
    apply each_of_length_le_one
      (sendAnalysisBlock_length ..)
    intro event hMember
    exact
      captureChainSendBlock_attributed hShows h hMember
        hPending
  unfold captureChainSendBlock
  split
  · rename_i hPending
    simp only
    split
    · rw [Machine.each_append]
      refine ⟨hSent hPending, Machine.each_of_forall ?_⟩
      intro past event hMember
      rcases List.mem_map.mp hMember with ⟨record, _, rfl⟩
      exact attributed_of_no_capture rfl past
    · exact hSent hPending
  · trivial

theorem captureChainTasks_each_attributed
    (h : Requested trace d) :
    Machine.Each Attributed trace
      (captureChainTasks env d).2 := by
  refine (captureChainTasks_each (P := Requested)
    ?_ ?_ ?_ ?_ trace h).2
  · rintro trace d ⟨a, hShows, h⟩
    refine ⟨captureChainDeliver_requested hShows h, ?_⟩
    apply each_of_length_le_one
    · unfold captureChainDeliver
      split
      · simp only
        split <;> simp
      · simp
    · intro event hMember
      exact captureChainDeliver_attributed hShows h hMember
  · rintro trace d ⟨a, hShows, h⟩
    refine ⟨captureChainRestart_requested hShows h,
      Machine.each_of_forall ?_⟩
    intro past event hMember
    rcases mem_captureChainRestart hMember with ⟨record, rfl⟩
    exact attributed_of_no_capture rfl past
  · rintro trace d ⟨a, hShows, h⟩
    refine ⟨captureChainTakeBlock_requested hShows h,
      Machine.each_of_forall ?_⟩
    intro past event hMember
    rcases mem_captureChainTakeBlock hMember with ⟨_, rfl⟩
    exact attributed_of_no_capture rfl past
  · rintro trace d ⟨a, hShows, h⟩
    exact ⟨captureChainSendBlock_requested hShows h,
      captureChainSendBlock_each hShows h⟩

variable [CaptureModule]

theorem Device.step_attributed
    (h : Requested trace d)
    (i : Input) :
    Machine.Each Attributed trace (Device.step d i).2 := by
  rcases h with ⟨a, hShows, h⟩
  cases i with
  | message env id data =>
      refine
        ⟨attributed_of_no_capture rfl trace,
          Machine.each_of_forall ?_⟩
      intro past event hMember
      rcases mem_handleCommand hMember with
        ⟨record, rfl⟩ | ⟨payload, accepted, rfl, hNone⟩
      · exact attributed_of_no_capture rfl past
      · have hEvent :
            (Event.sent id payload accepted).captureOf =
              none :=
          hNone
        exact attributed_of_no_capture hEvent past
  | singleCaptureTasks env =>
      apply each_of_length_le_one
      · simp only [Device.step, singleCaptureTasks]
        split <;> simp
      · intro event hMember
        exact singleCaptureTasks_attributed hShows h hMember
  | captureChainTasks env =>
      exact captureChainTasks_each_attributed ⟨a, hShows, h⟩
  | streamTake env =>
      apply Machine.each_of_forall
      intro past event hMember
      rcases mem_streamTasksTake hMember with ⟨_, _, _, rfl⟩
      exact attributed_of_no_capture rfl past
  | streamSend env =>
      apply each_of_length_le_one (streamTasksSend_length ..)
      intro event hMember
      exact streamTasksSend_attributed hShows h hMember
  | _ =>
      apply Machine.each_of_forall
      intro past event hMember
      rcases Device.mem_step_outside rfl hMember with
        rfl | ⟨_, _, rfl⟩
      · exact attributed_of_no_capture rfl past
      · exact attributed_of_no_capture rfl past

end PicoLogicAnalyzer

------------------------------------------------------------
-- Requester And Stop Guarantees
------------------------------------------------------------

namespace PicoLogicAnalyzer

/-
  A stop confirmed before data of its mode lies before the
  start that opened the operation.
-/
theorem OpenedBy.start_between
    {before between : List Event}
    {stop : Event}
    {op : Operation}
    {id : Nat}
    (h :
      OpenedBy (before ++ stop :: between) op id true false)
    (hStop : stop.Confirms op.stoppedReplies) :
    ∃ event ∈ between, event.Confirms op.startedReplies := by
  rcases h with
    ⟨earlier, data, setUps, text, accepted, rest, hTrace,
      _, hText, _, _, _, hRest⟩
  have hOther :
      stop ≠ .sent id (.text text) accepted := by
    rintro rfl
    have hStopped : text ∈ op.stoppedReplies := hStop
    cases op <;>
      simp_all [Operation.startedReplies,
        Operation.stoppedReplies]
    rcases hText with rfl | rfl <;> simp at hStopped
  have hLate : stop ∉ rest := by
    intro hMember
    exact hRest rfl stop hMember hStop
  have hSplit :
      before ++ stop :: between =
        (earlier ++ .received id data ::
          setUps.map Event.setUp) ++
            .sent id (.text text) accepted :: rest := by
    simpa using hTrace
  rcases List.append_eq_append_iff.mp hSplit with
    ⟨middle, _, hTail⟩ | ⟨middle, _, hTail⟩
  · cases middle with
    | nil => exact absurd (List.cons.inj hTail).1 hOther
    | cons first middle =>
        refine ⟨.sent id (.text text) accepted, ?_, hText⟩
        rw [(List.cons.inj hTail).2]
        simp
  · cases middle with
    | nil =>
        exact absurd (List.cons.inj hTail).1.symm hOther
    | cons first middle =>
        refine absurd ?_ hLate
        rw [(List.cons.inj hTail).2]
        simp

variable [CaptureModule]

theorem Device.run_attributed
    (hw : CaptureHardware)
    (inputs : List Input) :
    Machine.Each Attributed []
      (Device.run (Device.boot hw) inputs).2 := by
  have hInit : Requested [] (Device.boot hw) :=
    ⟨.idle, Device.boot_shows hw, by rintro op ⟨⟩⟩
  refine Machine.run_each ?_ ?_ hInit inputs
  · intro trace d i h
    exact Device.step_requested h i
  · intro trace d i h
    exact Device.step_attributed h i

/-
  In every run capture data goes to the connection whose
  start command opened the operation that captured it; and
  between a confirmed stop of a mode and later data of that
  mode a start of the mode is confirmed.
-/
theorem captures_reach_requester_until_stop
    (hw : CaptureHardware)
    (inputs : List Input) :
    (∀ before dest payload accepted after op,
      (Device.run (Device.boot hw) inputs).2 =
          before ++ .sent dest payload accepted :: after →
        payload.captureOf = some op →
          OpenedBy before op dest true false) ∧
      ∀ before stop between data after op,
        (Device.run (Device.boot hw) inputs).2 =
            before ++ stop :: (between ++ data :: after) →
          stop.Confirms op.stoppedReplies →
            data.captureOf = some op →
              ∃ event ∈ between,
                event.Confirms op.startedReplies := by
  have hEach := Device.run_attributed hw inputs
  refine ⟨?_, ?_⟩
  · intro before dest payload accepted after op hTrace hOp
    rw [hTrace] at hEach
    exact Machine.each_split hEach dest payload accepted op
      rfl hOp
  · intro before stop between data after op hTrace hStop hData
    cases data with
    | sent dest payload accepted =>
        have hSplit :
            before ++ stop ::
                (between ++
                  .sent dest payload accepted :: after) =
              (before ++ stop :: between) ++
                .sent dest payload accepted :: after := by
          simp
        rw [hTrace, hSplit] at hEach
        have hOpened :=
          Machine.each_split hEach dest payload accepted op
            rfl hData
        exact hOpened.start_between hStop
    | _ => cases hData

end PicoLogicAnalyzer

namespace PicoLogicAnalyzer

section Sample

attribute [local instance] CaptureModule.sample

/- A single capture for connection 7. -/
theorem single_capture_reaches_requester :
    OpenedBy
      (Device.run (Device.boot .blank)
        [.command 7 "SINGLE_CAPTURE", .captureDone 100]).2
      .singleCapture 7 true false := by
  have hTrace :
      (Device.run (Device.boot .blank)
          [.command 7 "SINGLE_CAPTURE", .captureDone 100,
            .singleCaptureTasks .smooth]).2 =
        (Device.run (Device.boot .blank)
          [.command 7 "SINGLE_CAPTURE", .captureDone 100]).2 ++
          .sent 7
            (.raw .singleCapture 1 37 (List.replicate 64 0))
            true :: [] := by
    decide +kernel
  have hBoth :=
    captures_reach_requester_until_stop .blank
      [.command 7 "SINGLE_CAPTURE", .captureDone 100,
        .singleCaptureTasks .smooth]
  exact hBoth.1 _ 7 _ true [] .singleCapture hTrace rfl

end Sample

end PicoLogicAnalyzer
