import PicoLogicAnalyzer.Firmware.Answers
import PicoLogicAnalyzer.Firmware.Stops

/-
  What happens beside an open session.

  A session is a chained analysis or a stream. While it is
  open, every input other than its own task, its own hardware
  and its own stop command leaves the device as it is, up to
  the trigger pulls, the buffer and the pass counter, and
  sends no capture data.

  Key definitions include:
    * `Activity.isSession`
    * `Input.ActsOn`
    * `Device.Beside`
    * `Event.IsPlain`

  Key theorems include:
    * `Device.step_beside`
-/

------------------------------------------------------------
-- Inputs Of A Session
------------------------------------------------------------

namespace PicoLogicAnalyzer

/- Activities that deliver numbered blocks. -/
def Activity.isSession : Activity → Bool
| .chainAnalysis _ => true
| .streaming _ _ => true
| _ => false

/- Inputs that move or end the session of an activity. -/
def Input.ActsOn (a : Activity) : Input → Prop
| .message _ _ data =>
    (parseCommand data).stops = a.operation
| .captureChainTasks _ =>
    a.operation = some .captureChainAnalysis
| .captureDone _ =>
    a.operation = some .captureChainAnalysis
| .streamTake _ => a.operation = some .stream
| .streamSend _ => a.operation = some .stream
| _ => False

/- The device has only changed beside its session. -/
def Device.Beside (d d' : Device) : Prop :=
  ∃ pull memory passes,
    d' =
      { d with
        bridge :=
          { d.bridge with
            hw :=
              { d.bridge.hw with
                triggerPull := pull
                captureBuffer := memory }
            laStreamCompletedPasses := passes } }

/- Received commands and messages without capture data. -/
def Event.IsPlain : Event → Prop
| .received _ _ => True
| .sent _ payload _ => payload.captureOf = none
| _ => False

/- The device with other trigger pulls. -/
def Device.withPull (d : Device) (pull : Pull) : Device :=
  { d with bridge.hw.triggerPull := pull }

/- The entries of a log that has grown by one. -/
theorem getElem?_concat_eq_some
    {α : Type}
    {log : List α}
    {entry found : α}
    {i : Nat}
    (hFound : (log ++ [entry])[i]? = some found) :
    log[i]? = some found ∨
      (i = log.length ∧ found = entry) := by
  by_cases hOld : i < log.length
  · left
    rwa [List.getElem?_append_left hOld] at hFound
  · right
    rw [List.getElem?_append_right (by omega)] at hFound
    rcases List.getElem?_eq_some_iff.mp hFound with
      ⟨hIndex, hEntry⟩
    rw [List.length_singleton] at hIndex
    rw [List.getElem_singleton] at hEntry
    exact ⟨by omega, hEntry.symm⟩

theorem Device.Beside.withPull
    (d : Device)
    (pull : Pull) :
    d.Beside (d.withPull pull) :=
  ⟨pull, d.bridge.hw.captureBuffer,
    d.bridge.laStreamCompletedPasses, rfl⟩

theorem Device.Beside.refl (d : Device) : d.Beside d :=
  Device.Beside.withPull d d.bridge.hw.triggerPull

end PicoLogicAnalyzer

------------------------------------------------------------
-- Commands Beside A Session
------------------------------------------------------------

namespace PicoLogicAnalyzer

namespace Device.Shows

variable {d : Device} {a : Activity}

theorem isBusy_of_session
    (h : d.Shows a)
    (hSession : a.isSession = true) :
    PicoLogicAnalyzer.isBusy d = true := by
  rw [h.isBusy]
  cases a with
  | chainAnalysis phase => rfl
  | streaming analysis pending => rfl
  | _ => cases hSession

theorem laIsBusy_of_session
    (h : d.Shows a)
    (hSession : a.isSession = true) :
    PicoLogicAnalyzer.laIsBusy d.bridge = true := by
  rw [h.laIsBusy]
  cases a with
  | chainAnalysis phase => rfl
  | streaming analysis pending => rfl
  | _ => cases hSession

/- Only the operation of the session is in progress. -/
theorem inProgress_of_session
    (h : d.Shows a)
    (hSession : a.isSession = true)
    {op : Operation}
    (hOther : some op ≠ a.operation) :
    d.inProgress op = false := by
  cases a with
  | chainAnalysis phase =>
      cases op with
      | singleCapture => exact h.singleCapturePending
      | captureChain =>
          simp [Device.inProgress, h.captureChainEnabled,
            h.captureChainPending, Activity.flags, Flags.idle]
      | captureChainAnalysis => exact absurd rfl hOther
      | stream =>
          simp [Device.inProgress, h.streamMode,
            Activity.flags, Flags.idle]
  | streaming analysis pending =>
      cases op with
      | singleCapture => exact h.singleCapturePending
      | captureChain =>
          simp [Device.inProgress, h.captureChainEnabled,
            h.captureChainPending, Activity.flags, Flags.idle]
      | captureChainAnalysis =>
          exact h.captureChainAnalysisEnabled
      | stream => exact absurd rfl hOther
  | _ => cases hSession

theorem laSingleCaptureActive_of_session
    (h : d.Shows a)
    (hSession : a.isSession = true) :
    d.bridge.laSingleCaptureActive = false := by
  rw [h.laSingleCaptureActive]
  cases a with
  | chainAnalysis phase => rfl
  | streaming analysis pending => rfl
  | _ => cases hSession

end Device.Shows

variable [CaptureModule] {d : Device} {a : Activity}

/-
  Starts and settings are refused; foreign stops reach the
  trigger pulls at most.
-/
theorem handleCommand_withPull
    (h : d.Shows a)
    (hSession : a.isSession = true)
    {command : Command}
    (hOpen : command.stops ≠ a.operation)
    (env : Env)
    (id : Nat)
    (data : List UInt8) :
    ∃ pull,
      (handleCommand env id data d command).1 =
        d.withPull pull := by
  have hBusy := h.isBusy_of_session hSession
  have hBridge := h.laIsBusy_of_session hSession
  have hSame : ∃ pull, d = d.withPull pull :=
    ⟨d.bridge.hw.triggerPull, rfl⟩
  cases command with
  | status => exact hSame
  | pinTest => exact hSame
  | unknown => exact hSame
  | singleCapture =>
      simpa only [handleCommand, hBusy, if_true] using hSame
  | captureChainStart =>
      simpa only [handleCommand, captureChainStart, hBusy,
        if_true] using hSame
  | captureChainAnalysisStart =>
      simpa only [handleCommand, captureChainAnalysisStart,
        hBusy, if_true] using hSame
  | streamStart =>
      simpa only [handleCommand, streamStartCommand_state,
        startStream_of_busy env id _ hBusy] using hSame
  | streamAnalysisStart =>
      simpa only [handleCommand, streamStartCommand_state,
        startStream_of_busy env id _ hBusy] using hSame
  | setFreq value =>
      simpa [handleCommand, laConfigureFrequency, hBridge]
        using hSame
  | setChunkSize value =>
      simpa [handleCommand, laConfigureChunkBytes, hBridge]
        using hSame
  | setChannelMask value =>
      simpa [handleCommand, laConfigureChannelMask, hBridge]
        using hSame
  | captureChainStop =>
      have hActive := h.laSingleCaptureActive_of_session hSession
      have hForeign := h.inProgress_of_session hSession hOpen
      simp only [handleCommand,
        captureChainStop_foreign hForeign env id,
        laSingleCaptureStop_eq_self hActive]
      exact ⟨.disabled, rfl⟩
  | captureChainAnalysisStop =>
      have hForeign := h.inProgress_of_session hSession hOpen
      simp only [handleCommand,
        captureChainAnalysisStop_foreign h hForeign env id]
      exact ⟨.disabled, rfl⟩
  | streamStop =>
      have hForeign := h.inProgress_of_session hSession hOpen
      simpa only [handleCommand,
        stopStream_foreign h hForeign] using hSame
  | streamAnalysisStop =>
      have hForeign := h.inProgress_of_session hSession hOpen
      simpa only [handleCommand,
        stopStream_foreign h hForeign] using hSame

/- A busy device sets nothing up on behalf of a command. -/
theorem handleCommand_isPlain
    (h : d.Shows a)
    (hBusy : a ≠ .idle)
    {env : Env}
    {id : Nat}
    {data : List UInt8}
    {command : Command}
    {event : Event}
    (hMember :
      event ∈ (handleCommand env id data d command).2) :
    event.IsPlain := by
  rcases handleCommand_answered h env id data command with
    ⟨setUps, payload, hAnswer⟩
  have hNone : setUps = [] := by
    by_contra hSome
    exact hBusy (hAnswer.setUps_idle hSome)
  have hEvent :
      event = .sent id payload env.replyAccepted := by
    rw [hAnswer.events_eq, hNone] at hMember
    simpa using hMember
  rcases mem_handleCommand hMember with
    ⟨record, hSetUp⟩ | ⟨payload', accepted, hSent, hData⟩
  · rw [hEvent] at hSetUp
    cases hSetUp
  · rw [hSent]
    exact hData

end PicoLogicAnalyzer

------------------------------------------------------------
-- Steps Beside A Session
------------------------------------------------------------

namespace PicoLogicAnalyzer

variable {d : Device} {a : Activity}

/- Tasks of operations that are not open do nothing. -/
theorem singleCaptureTasks_of_not_pending
    (env : Env)
    (hPending : d.singleCapturePending = false) :
    singleCaptureTasks env d = (d, []) := by
  unfold singleCaptureTasks
  rw [hPending]
  rfl

/- During chained analysis only the last two blocks act. -/
theorem captureChainTasks_chainAnalysis
    {phase : ChainPhase}
    (env : Env)
    (h : d.Shows (.chainAnalysis phase)) :
    captureChainTasks env d =
      ((captureChainSendBlock env
          (captureChainTakeBlock env d).1).1,
        (captureChainTakeBlock env d).2 ++
          (captureChainSendBlock env
            (captureChainTakeBlock env d).1).2) := by
  have hPending : d.captureChainPending = false :=
    h.captureChainPending
  have hEnabled : d.captureChainEnabled = false :=
    h.captureChainEnabled
  simp [captureChainTasks, captureChainDeliver,
    captureChainContinue, captureChainRestart, hPending,
    hEnabled]

theorem captureChainTasks_of_streaming
    {analysis pending : Bool}
    (env : Env)
    (h : d.Shows (.streaming analysis pending)) :
    captureChainTasks env d = (d, []) := by
  have hPending : d.captureChainPending = false :=
    h.captureChainPending
  have hEnabled : d.captureChainEnabled = false :=
    h.captureChainEnabled
  have hAnalysis : d.captureChainAnalysisEnabled = false :=
    h.captureChainAnalysisEnabled
  have hBlock : d.blockPending = false :=
    h.blockPending
  simp [captureChainTasks, captureChainDeliver,
    captureChainContinue, captureChainRestart,
    captureChainTakeBlock, captureChainSendBlock, hPending,
    hEnabled, hAnalysis, hBlock]

theorem streamTasksTake_of_stopped
    (env : Env)
    (hMode : d.streamMode = .stopped) :
    streamTasksTake env d = (d, []) := by
  unfold streamTasksTake
  rw [hMode]
  rfl

theorem streamTasksSend_of_not_pending
    (env : Env)
    (hPending : d.streamBlockPending = false) :
    streamTasksSend env d = (d, []) := by
  unfold streamTasksSend
  rw [hPending]
  rfl

theorem captureDone_of_streaming
    {analysis pending : Bool}
    (tail : Nat)
    (h : d.Shows (.streaming analysis pending)) :
    captureDone tail d = (d, []) := by
  have hCapturing : d.bridge.hw.capturing = false :=
    h.not_capturing rfl
  unfold captureDone
  rw [hCapturing]
  rfl

theorem Device.step_beside
    [CaptureModule]
    (h : d.Shows a)
    (hSession : a.isSession = true)
    {i : Input}
    (hInput : ¬ i.ActsOn a) :
    d.Beside (Device.step d i).1 ∧
      ∀ event ∈ (Device.step d i).2, event.IsPlain := by
  have hSilent :
      ∀ event ∈ ([] : List Event), event.IsPlain := by
    simp
  have hNothing :
      ∀ {result : Device × List Event},
        result = (d, []) →
        d.Beside result.1 ∧
          ∀ event ∈ result.2, event.IsPlain := by
    rintro result rfl
    exact ⟨Device.Beside.refl d, hSilent⟩
  have hQuiet : a ≠ .idle := by
    rintro rfl
    cases hSession
  cases i with
  | message env id data =>
      rcases handleCommand_withPull h hSession hInput env id
        data with ⟨pull, hState⟩
      have hBeside := Device.Beside.withPull d pull
      rw [← hState] at hBeside
      refine ⟨hBeside, ?_⟩
      intro event hMember
      rcases List.mem_cons.mp hMember with rfl | hReply
      · trivial
      · exact handleCommand_isPlain h hQuiet hReply
  | connect env id =>
      refine ⟨Device.Beside.refl d, ?_⟩
      intro event hMember
      rw [List.mem_singleton.mp hMember]
      rfl
  | disconnect id => exact hNothing rfl
  | singleCaptureTasks env =>
      apply hNothing
      apply singleCaptureTasks_of_not_pending
      rw [h.singleCapturePending]
      cases a with
      | chainAnalysis phase => rfl
      | streaming analysis pending => rfl
      | _ => cases hSession
  | captureChainTasks env =>
      apply hNothing
      cases a with
      | chainAnalysis phase => exact absurd rfl hInput
      | streaming analysis pending =>
          exact captureChainTasks_of_streaming env h
      | _ => cases hSession
  | streamTake env =>
      apply hNothing
      cases a with
      | chainAnalysis phase =>
          exact streamTasksTake_of_stopped env h.streamMode
      | streaming analysis pending => exact absurd rfl hInput
      | _ => cases hSession
  | streamSend env =>
      apply hNothing
      cases a with
      | chainAnalysis phase =>
          exact
            streamTasksSend_of_not_pending env
              h.streamBlockPending
      | streaming analysis pending => exact absurd rfl hInput
      | _ => cases hSession
  | captureDone tail =>
      apply hNothing
      cases a with
      | chainAnalysis phase => exact absurd rfl hInput
      | streaming analysis pending =>
          exact captureDone_of_streaming tail h
      | _ => cases hSession
  | captureWrite memory =>
      refine ⟨?_, hSilent⟩
      simp only [Device.step, captureWrite]
      split
      · exact ⟨_, memory, _, rfl⟩
      · exact Device.Beside.refl d
  | dmaWrite position byte =>
      refine ⟨?_, hSilent⟩
      simp only [Device.step, dmaWrite]
      split
      · exact ⟨_, _, _, rfl⟩
      · exact Device.Beside.refl d
  | dmaInterrupt =>
      refine ⟨?_, hSilent⟩
      simp only [Device.step, dmaInterrupt]
      split
      · exact ⟨_, _, _, rfl⟩
      · exact Device.Beside.refl d

end PicoLogicAnalyzer
