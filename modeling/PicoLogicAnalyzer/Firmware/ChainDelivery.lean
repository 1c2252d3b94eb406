import PicoLogicAnalyzer.Firmware.Coherence
import PicoLogicAnalyzer.Firmware.Events

/-
  Delivery of a finished capture by the two tasks.

  `single_capture_tasks` sends as many bytes as the capture
  has, `capture_chain_tasks` always 32. A chained capture
  has 32 samples, so the two messages agree as long as a
  sample is one byte.

  Key definitions include:
    * `CaptureHardware.IsChained`
    * `rawMessages`
    * `Device.asSingle`
    * `DeliversAlike`

  Key theorems include:
    * `Device.Reachable.chained`
    * `chain_delivers_alike_iff`
-/

------------------------------------------------------------
-- Length Of Chained Captures
------------------------------------------------------------

namespace PicoLogicAnalyzer

/- Lengths and loop count recorded for the latest capture. -/
def CaptureHardware.lengths (hw : CaptureHardware) :
    Nat × Nat × Nat :=
  (hw.lastPreSize, hw.lastPostSize, hw.lastLoopCount)

/- The latest capture was started by `start_capture_chain`. -/
def CaptureHardware.IsChained (hw : CaptureHardware) : Prop :=
  hw.lengths = (0, 32, 0)

/- A chained capture in progress has its length recorded. -/
def Device.Chained (d : Device) : Prop :=
  ∃ a, d.Shows a ∧
    (a = .chainCapturing → d.bridge.hw.IsChained)

variable {d : Device} {a : Activity}

theorem captureChainDeliver_lengths
    (env : Env)
    (d : Device) :
    (captureChainDeliver env d).1.bridge.hw.lengths =
      d.bridge.hw.lengths := by
  rcases laSingleCaptureGetResult_bridge d.bridge with
    ⟨first, hBridge⟩
  simp only [captureChainDeliver, hBridge]
  split
  · split <;> rfl
  · rfl

theorem captureChainTakeBlock_lengths
    (env : Env)
    (d : Device) :
    (captureChainTakeBlock env d).1.bridge.hw.lengths =
      d.bridge.hw.lengths := by
  rcases laCaptureChainTake_bridge env.timeUs d.bridge with
    ⟨first, sequence, nextSample, hBridge⟩
  simp only [captureChainTakeBlock, hBridge]
  split
  · split <;> rfl
  · rfl

theorem singleCaptureTasks_lengths
    (env : Env)
    (d : Device) :
    (singleCaptureTasks env d).1.bridge.hw.lengths =
      d.bridge.hw.lengths := by
  rcases laSingleCaptureGetResult_bridge d.bridge with
    ⟨first, hBridge⟩
  simp only [singleCaptureTasks, hBridge]
  split <;> rfl

/- Delivery ends the capture. -/
theorem captureChainDeliver_chained
    (env : Env)
    (h : d.Chained) :
    (captureChainDeliver env d).1.Chained := by
  rcases h with ⟨a, hShows, hChained⟩
  refine ⟨_, captureChainDeliver_shows hShows env, ?_⟩
  intro hCapturing
  unfold CaptureHardware.IsChained
  rw [captureChainDeliver_lengths]
  apply hChained
  split at hCapturing
  · exact hCapturing
  · cases a <;> cases hCapturing

/- A restart records the length of its capture. -/
theorem captureChainRestart_chained
    (env : Env)
    (h : d.Chained) :
    (captureChainRestart env d).1.Chained := by
  rcases h with ⟨a, hShows, hChained⟩
  refine ⟨_, captureChainRestart_shows hShows env, ?_⟩
  intro hCapturing
  by_cases hSame : a = .chainCapturing
  · have hPending : d.captureChainPending = true := by
      rw [hShows.captureChainPending, hSame]
      rfl
    have hNothing : captureChainRestart env d = (d, []) := by
      simp [captureChainRestart, hPending]
    rw [hNothing]
    exact hChained hSame
  · split at hCapturing
    · rename_i hDue
      have hWaiting : a = .chainWaiting := by
        cases a with
        | chainWaiting => rfl
        | _ => exact absurd hCapturing hSame
      subst hWaiting
      have hStarted : env.captureStarted = true := by
        by_contra hRefused
        rw [Activity.restartChain, if_neg hRefused]
          at hCapturing
        cases hCapturing
      have hFree :
          laIsBusy (gpioPullDown d.bridge) = false :=
        hShows.laIsBusy
      have hEnabled : d.captureChainEnabled = true :=
        hShows.captureChainEnabled
      have hPending : d.captureChainPending = false :=
        hShows.captureChainPending
      simp only [captureChainRestart, hEnabled, hPending, hDue,
        startCaptureChain, laSingleCaptureStart, hFree,
        hStarted, startCaptureSimple, Bool.not_false,
        Bool.and_self, decide_true, if_true,
        Bool.false_eq_true, if_false]
      rfl
    · exact absurd hCapturing hSame

theorem captureChainTakeBlock_chained
    (env : Env)
    (h : d.Chained) :
    (captureChainTakeBlock env d).1.Chained := by
  rcases h with ⟨a, hShows, hChained⟩
  refine ⟨_, captureChainTakeBlock_shows hShows env, ?_⟩
  intro hCapturing
  unfold CaptureHardware.IsChained
  rw [captureChainTakeBlock_lengths]
  apply hChained
  split at hCapturing
  · cases a with
    | chainAnalysis phase => cases phase <;> cases hCapturing
    | _ => exact hCapturing
  · exact hCapturing

/- Analysis blocks are sent outside a chain only. -/
theorem captureChainSendBlock_chained
    (env : Env)
    (h : d.Chained) :
    (captureChainSendBlock env d).1.Chained := by
  rcases h with ⟨a, hShows, hChained⟩
  refine ⟨_, captureChainSendBlock_shows hShows env, ?_⟩
  intro hCapturing
  have hSame : a = .chainCapturing := by
    split at hCapturing
    · cases a with
      | chainAnalysis phase => cases phase <;> cases hCapturing
      | _ => exact hCapturing
    · exact hCapturing
  have hPending : d.blockPending = false := by
    rw [hShows.blockPending, hSame]
    rfl
  have hNothing : captureChainSendBlock env d = (d, []) := by
    simp [captureChainSendBlock, hPending]
  rw [hNothing]
  exact hChained hSame

variable [CaptureModule]

/- A busy device starts no other capture. -/
theorem handleCommand_lengths_of_busy
    (hBusy : isBusy d = true)
    (env : Env)
    (id : Nat)
    (data : List UInt8)
    (command : Command) :
    (handleCommand env id data d
      command).1.bridge.hw.lengths =
        d.bridge.hw.lengths := by
  cases command with
  | status => rfl
  | pinTest => rfl
  | unknown => rfl
  | singleCapture => simp [handleCommand, hBusy]
  | captureChainStart =>
      simp [handleCommand, captureChainStart, hBusy]
  | captureChainAnalysisStart =>
      simp [handleCommand, captureChainAnalysisStart, hBusy]
  | streamStart =>
      simp [handleCommand, streamStartCommand_state,
        startStream_of_busy env id _ hBusy]
  | streamAnalysisStart =>
      simp [handleCommand, streamStartCommand_state,
        startStream_of_busy env id _ hBusy]
  | captureChainStop =>
      simp only [handleCommand, captureChainStop,
        laSingleCaptureStop]
      split <;> rfl
  | captureChainAnalysisStop =>
      simp only [handleCommand, captureChainAnalysisStop,
        laCaptureChainStop]
      split <;> rfl
  | streamStop =>
      simp only [handleCommand, stopStream, laStreamStop]
      split <;> rfl
  | streamAnalysisStop =>
      simp only [handleCommand, stopStream, laStreamStop]
      split <;> rfl
  | setFreq value =>
      rcases laConfigureFrequency_bridge (some value)
        d.bridge with ⟨config, hBridge⟩
      simp only [handleCommand, hBridge]
  | setChunkSize value =>
      rcases laConfigureChunkBytes_bridge (some value)
        d.bridge with ⟨config, hBridge⟩
      simp only [handleCommand, hBridge]
  | setChannelMask value =>
      rcases laConfigureChannelMask_bridge (some value)
        d.bridge with ⟨config, hBridge⟩
      simp only [handleCommand, hBridge]

omit [CaptureModule] in
/- No command starts a chained capture. -/
theorem Activity.eq_chainCapturing_of_handle
    {env : Env}
    {command : Command}
    (hCapturing : a.handle env command = .chainCapturing) :
    a = .chainCapturing := by
  have hCases := a.handle_cases env command
  rw [hCapturing] at hCases
  rcases hCases with hSame | ⟨_, hOpens⟩ | hEnded
  · exact hSame.symm
  · cases command <;> cases hOpens
  · simp at hEnded

theorem Device.step_chained
    (h : d.Chained)
    (i : Input) :
    (Device.step d i).1.Chained := by
  rcases h with ⟨a, hShows, hChained⟩
  have hSame :
      ∀ {a' : Activity}, (Device.step d i).1.Shows a' →
        (a' = .chainCapturing → a = .chainCapturing) →
        (a = .chainCapturing →
          (Device.step d i).1.bridge.hw.lengths =
            d.bridge.hw.lengths) →
        (Device.step d i).1.Chained := by
    intro a' hShows' hBack hLengths
    refine ⟨a', hShows', ?_⟩
    intro hCapturing
    have hBefore := hBack hCapturing
    exact (hLengths hBefore).trans (hChained hBefore)
  cases i with
  | message env id data =>
      apply hSame
        (handleCommand_shows hShows env id data
          (parseCommand data))
        Activity.eq_chainCapturing_of_handle
      intro hCapturing
      apply handleCommand_lengths_of_busy
      rw [hShows.isBusy, hCapturing]
      rfl
  | connect env id => exact ⟨a, hShows, hChained⟩
  | disconnect id => exact ⟨a, hShows, hChained⟩
  | singleCaptureTasks env =>
      apply hSame (singleCaptureTasks_shows hShows env)
      · intro hCapturing
        split at hCapturing
        · exact hCapturing
        · cases a with
          | single active => cases hCapturing
          | _ => exact hCapturing
      · intro _
        exact singleCaptureTasks_lengths env d
  | captureChainTasks env =>
      exact
        captureChainTasks_invariant
          (fun d' => captureChainDeliver_chained env)
          (fun d' => captureChainRestart_chained env)
          (fun d' => captureChainTakeBlock_chained env)
          (fun d' => captureChainSendBlock_chained env)
          ⟨a, hShows, hChained⟩
  | streamTake env =>
      apply hSame (streamTasksTake_shows hShows env)
      · intro hCapturing
        split at hCapturing
        · cases a with
          | streaming analysis pending => cases hCapturing
          | _ => exact hCapturing
        · exact hCapturing
      · rintro rfl
        have hStopped : d.streamMode = .stopped :=
          hShows.streamMode
        simp [Device.step, streamTasksTake, hStopped]
  | streamSend env =>
      apply hSame (streamTasksSend_shows hShows env)
      · intro hCapturing
        split at hCapturing
        · cases a with
          | streaming analysis pending => cases hCapturing
          | _ => exact hCapturing
        · exact hCapturing
      · rintro rfl
        have hNone : d.streamBlockPending = false :=
          hShows.streamBlockPending
        simp [Device.step, streamTasksSend, hNone]
  | captureWrite memory =>
      apply hSame
        (Device.step_outside_shows hShows rfl) id
      intro _
      simp only [Device.step, captureWrite]
      split <;> rfl
  | captureDone tail =>
      apply hSame (captureDone_shows hShows tail) id
      intro _
      simp only [Device.step, captureDone]
      split <;> rfl
  | dmaWrite position byte =>
      apply hSame
        (Device.step_outside_shows hShows rfl) id
      intro _
      simp only [Device.step, dmaWrite]
      split <;> rfl
  | dmaInterrupt =>
      apply hSame
        (Device.step_outside_shows hShows rfl) id
      intro _
      simp only [Device.step, dmaInterrupt]
      split <;> rfl

theorem Device.Reachable.chained
    (hReachable : d.Reachable) :
    d.Chained := by
  apply Device.Reachable.invariant _ _ hReachable
  · intro hw
    refine ⟨.idle, Device.boot_shows hw, ?_⟩
    intro hCapturing
    cases hCapturing
  · intro d i h
    exact Device.step_chained h i

end PicoLogicAnalyzer

------------------------------------------------------------
-- The Two Messages
------------------------------------------------------------

namespace PicoLogicAnalyzer

open Word

/- Bytes of a headerless capture message. -/
def Event.rawMessage : Event → Option (List UInt8)
| .sent _ (.raw _ _ _ data) _ => some data
| _ => none

def rawMessages (events : List Event) : List (List UInt8) :=
  events.filterMap Event.rawMessage

/- The pending capture as one of `SINGLE_CAPTURE`. -/
def Device.asSingle (d : Device) : Device :=
  { d with
    singleCapturePending := true
    singleCaptureConnection := d.streamConnection }

/-
  The chain task sends what the single task would send, and
  that is the whole capture.
-/
structure DeliversAlike
    (env : Env)
    (d : Device)
    (capture : CaptureResult) : Prop where
  same :
    rawMessages (captureChainTasks env d).2 =
      rawMessages (singleCaptureTasks env d.asSingle).2
  whole :
    rawMessages (captureChainTasks env d).2 =
      [d.bridge.hw.read
        (u32 (capture.firstSample * capture.bytesPerSample))
        (capture.samples * capture.bytesPerSample)]

variable {d : Device} {capture : CaptureResult}

/- Reads of different lengths differ. -/
theorem CaptureHardware.read_inj
    {hw : CaptureHardware}
    {offset length length' : Nat} :
    hw.read offset length = hw.read offset length' ↔
      length = length' := by
  constructor
  · intro hRead
    have hLength := congrArg List.length hRead
    simpa using hLength
  · rintro rfl
    rfl

/- The blocks after the delivery send no headerless data. -/
theorem rawMessages_captureChainTasks
    (env : Env)
    (hPending : d.captureChainPending = true)
    (hResult :
      (laSingleCaptureGetResult d.bridge).2 = some capture) :
    rawMessages (captureChainTasks env d).2 =
      [d.bridge.hw.read
        (u32 (capture.firstSample * capture.bytesPerSample))
        32] := by
  have hDone := laSingleCaptureGetResult_some hResult
  have hRunning : laSingleCaptureIsRunning d.bridge = false := by
    simp [laSingleCaptureIsRunning, hDone.2.1]
  have hBuffer :=
    laSingleCaptureGetResult_captureBuffer d.bridge
  have hDelivered :
      rawMessages (captureChainDeliver env d).2.1 =
          [d.bridge.hw.read
            (u32 (capture.firstSample *
              capture.bytesPerSample)) 32] ∧
        (captureChainDeliver env d).2.2 = true := by
    simp only [captureChainDeliver, hPending, hRunning,
      hResult, Bool.not_false, Bool.and_self, if_true]
    simp [rawMessages, Event.rawMessage, rawResult,
      CaptureHardware.read, hBuffer]
  have hQuiet :
      ∀ d', rawMessages (captureChainContinue env d').2 =
        [] := by
    intro d'
    apply List.filterMap_eq_nil_iff.mpr
    intro event hMember
    simp only [captureChainContinue, List.mem_append]
      at hMember
    rcases hMember with (hRestart | hTake) | hSend
    · rcases mem_captureChainRestart hRestart with
        ⟨record, rfl⟩
      rfl
    · rcases mem_captureChainTakeBlock hTake with
        ⟨block, rfl⟩
      rfl
    · rcases mem_captureChainSendBlock hSend with
        ⟨_, hFrame | ⟨record, rfl⟩⟩
      · rw [mem_sendAnalysisBlock hFrame]
        rfl
      · rfl
  simp only [captureChainTasks, hDelivered.2, if_true]
  unfold rawMessages at hDelivered hQuiet ⊢
  rw [List.filterMap_append, hDelivered.1, hQuiet,
    List.append_nil]

theorem rawMessages_singleCaptureTasks
    (env : Env)
    (hResult :
      (laSingleCaptureGetResult d.bridge).2 = some capture) :
    rawMessages (singleCaptureTasks env d.asSingle).2 =
      [d.bridge.hw.read
        (u32 (capture.firstSample * capture.bytesPerSample))
        (u32 (capture.samples * capture.bytesPerSample))] := by
  have hDone := laSingleCaptureGetResult_some hResult
  have hRunning : laSingleCaptureIsRunning d.bridge = false := by
    simp [laSingleCaptureIsRunning, hDone.2.1]
  have hBuffer :=
    laSingleCaptureGetResult_captureBuffer d.bridge
  simp only [singleCaptureTasks, Device.asSingle, hRunning,
    hResult, Bool.not_false, Bool.and_self, if_true]
  simp [rawMessages, Event.rawMessage, rawResult,
    CaptureHardware.read, hBuffer]

variable [CaptureModule]

/- A chained capture: 32 samples of the configured width. -/
theorem Device.Reachable.chained_capture
    (hReachable : d.Reachable)
    (hPending : d.captureChainPending = true)
    (hResult :
      (laSingleCaptureGetResult d.bridge).2 = some capture) :
    capture.samples = 32 ∧
      capture.bytesPerSample =
        d.bridge.laConfig.bytesPerSample := by
  rcases laSingleCaptureGetResult_some hResult with
    ⟨hActive, _, rfl⟩
  rcases hReachable.chained with ⟨a, hShows, hChained⟩
  have hCapturing : a = .chainCapturing := by
    rw [hShows.captureChainPending] at hPending
    rw [hShows.laSingleCaptureActive] at hActive
    cases a with
    | chainCapturing => rfl
    | chainStopping => cases hActive
    | _ => cases hPending
  have hLengths := hChained hCapturing
  have hCoherent := hReachable.coherent
  unfold CaptureHardware.IsChained CaptureHardware.lengths
    at hLengths
  rw [Prod.mk.injEq, Prod.mk.injEq] at hLengths
  rcases hLengths with ⟨hPre, hPost, hLoop⟩
  constructor
  · simp only [laGetRawCapture, hPre, hPost, hLoop]
    rfl
  · rw [hCoherent.config.width_eq, ← hCoherent.single hActive]

/-
  A finished chained capture is delivered like a single one
  exactly when the mask needs one byte for a sample.
-/
theorem chain_delivers_alike_iff
    (hReachable : d.Reachable)
    (hPending : d.captureChainPending = true)
    (hResult :
      (laSingleCaptureGetResult d.bridge).2 = some capture)
    (env : Env) :
    DeliversAlike env d capture ↔
      d.bridge.laConfig.channelMask < 2 ^ 8 := by
  have hConfig := hReachable.coherent.config
  rcases hReachable.chained_capture hPending hResult with
    ⟨hSamples, hWidth⟩
  have hChain :=
    rawMessages_captureChainTasks env hPending hResult
  have hSingle := rawMessages_singleCaptureTasks env hResult
  have hSmall := hConfig.width_le_four
  have hLength :
      u32 (capture.samples * capture.bytesPerSample) =
        32 * d.bridge.laConfig.bytesPerSample := by
    rw [hSamples, hWidth]
    apply u32_of_lt
    omega
  rw [← hConfig.width_eq_one_iff]
  constructor
  · rintro ⟨hSame, _⟩
    rw [hChain, hSingle, List.cons.injEq,
      CaptureHardware.read_inj, hLength] at hSame
    omega
  · intro hOne
    constructor
    · rw [hChain, hSingle, hLength, hOne]
    · rw [hChain, hSamples, hWidth, hOne]

end PicoLogicAnalyzer

namespace PicoLogicAnalyzer

section Sample

attribute [local instance] CaptureModule.sample

/- A chained capture under a mask, finished at position 99. -/
def chainedCapture (text : String) : Device :=
  (Device.run (Device.boot CaptureHardware.blank)
    [Input.command 1 text,
      Input.command 1 "CAPTURE_CHAIN_START",
      .captureChainTasks Env.smooth,
      .captureDone 99]).1

theorem narrow_chain_delivers_alike :
    DeliversAlike Env.smooth
      (chainedCapture "SET_CHANNEL_MASK 81")
      { samples := 32, firstSample := 68,
        bytesPerSample := 1 } := by
  apply (chain_delivers_alike_iff _ _ _ Env.smooth).mpr
  · decide +kernel
  · exact ⟨CaptureHardware.blank, _, rfl⟩
  · decide +kernel
  · decide +kernel

/- With two bytes for a sample half of the capture is lost. -/
theorem wide_chain_message_is_cut :
    (laSingleCaptureGetResult
          (chainedCapture "SET_CHANNEL_MASK 101").bridge).2 =
        some
          { samples := 32, firstSample := 68,
            bytesPerSample := 2 } ∧
      (rawMessages
          (captureChainTasks Env.smooth
            (chainedCapture "SET_CHANNEL_MASK 101")).2).map
        List.length = [32] ∧
      (rawMessages
          (singleCaptureTasks Env.smooth
            (chainedCapture
              "SET_CHANNEL_MASK 101").asSingle).2).map
        List.length = [64] := by
  decide +kernel

end Sample

end PicoLogicAnalyzer
