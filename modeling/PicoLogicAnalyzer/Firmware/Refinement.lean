import PicoLogicAnalyzer.Firmware.Activity

/-
  The firmware refines its activities.

  Each function of the firmware is matched by a move between
  activities: the commands by `Activity.handle`, the tasks
  by the moves of their blocks.

  Key definitions include:
    * `Activity.stopChain`, `stopAnalysis` and `stopStream`
    * `Activity.handle`

  Key theorems include:
    * `Activity.handle_cases`
    * `handleCommand_shows`
    * `Device.step_continues`
    * `Device.Reachable.shows`
-/

------------------------------------------------------------
-- Moves Of The Stop Commands
------------------------------------------------------------

namespace PicoLogicAnalyzer

/- A chain stop also aborts a single capture. -/
def Activity.stopChain : Activity → Activity
| .single _ => .single false
| .chainWaiting => .idle
| .chainCapturing => .chainStopping
| a => a

def Activity.stopAnalysis : Activity → Activity
| .chainAnalysis _ => .idle
| a => a

def Activity.stopStream : Activity → Activity
| .streaming _ _ => .idle
| a => a

theorem Activity.flags_stopChain (a : Activity) :
    a.stopChain.flags =
      { a.flags with
        captureChainEnabled := false
        laSingleCaptureActive := false } := by
  cases a <;> rfl

theorem Activity.flags_stopAnalysis (a : Activity) :
    a.stopAnalysis.flags =
      { a.flags with
        laRunning := false
        laCaptureActive := false
        laBlockOutstanding := false
        captureChainAnalysisEnabled := false
        blockPending := false } := by
  cases a <;> rfl

theorem Activity.flags_stopStream (a : Activity) :
    a.stopStream.flags =
      { a.flags with
        laStreamRunning := false
        laStreamBlockOutstanding := false
        streamMode := .stopped
        streamBlockPending := false } := by
  cases a <;> rfl

variable {d : Device} {a : Activity}

theorem captureChainStop_shows
    (h : d.Shows a)
    (env : Env)
    (id : Nat) :
    (captureChainStop env id d).1.Shows a.stopChain := by
  have hOwned := h.owned
  refine ⟨?_, ?_⟩
  · rw [Activity.flags_stopChain, ← h.flags]
    unfold captureChainStop laSingleCaptureStop
    split <;> rfl
  · simp only [captureChainStop, laSingleCaptureStop,
      laSingleCaptureRelease, gpioDisablePulls]
    cases hActive : d.bridge.laSingleCaptureActive <;>
      cases hCapturing : d.bridge.hw.capturing <;>
        simp_all [Device.flags, Flags.ownsCapture,
          stopCapture]

theorem captureChainAnalysisStop_shows
    (h : d.Shows a)
    (env : Env)
    (id : Nat) :
    (captureChainAnalysisStop env id d).1.Shows
      a.stopAnalysis := by
  have hOwned := h.owned
  refine ⟨?_, ?_⟩
  · rw [Activity.flags_stopAnalysis, ← h.flags]
    unfold captureChainAnalysisStop laCaptureChainStop
    split <;> rfl
  · simp only [captureChainAnalysisStop, laCaptureChainStop,
      gpioDisablePulls]
    cases hActive : d.bridge.laCaptureActive <;>
      cases hCapturing : d.bridge.hw.capturing <;>
        simp_all [Device.flags, Flags.ownsCapture,
          stopCapture]

/- Without a running stream its other flags are down too. -/
theorem stopStream_shows
    (h : d.Shows a) :
    (stopStream d).Shows a.stopStream := by
  have hRunning := h.laStreamRunning
  have hOutstanding := h.laStreamBlockOutstanding
  refine ⟨?_, ?_⟩
  · rw [Activity.flags_stopStream, ← h.flags]
    unfold stopStream laStreamStop
    cases a <;>
      simp_all [Device.flags, Activity.flags, Flags.idle]
  · unfold stopStream laStreamStop
    have hOwned := h.owned
    split <;> exact hOwned

end PicoLogicAnalyzer

------------------------------------------------------------
-- Moves Of The Start Commands
------------------------------------------------------------

namespace PicoLogicAnalyzer

variable {d : Device}

theorem startSingleCapture_shows
    (h : d.Shows .idle)
    (env : Env)
    (id : Nat) :
    (startSingleCapture env id d).1.Shows
      (if env.captureStarted then .single true else .idle) := by
  have hBusy := h.laIsBusy
  have hFlags := h.flags
  have hFree := h.not_capturing rfl
  cases hStarted : env.captureStarted <;>
    refine ⟨?_, ?_⟩ <;>
      simp_all [startSingleCapture, laSingleCaptureStart,
        laIsBusy, gpioPullUp, gpioPullDown, Device.flags,
        Activity.flags, Flags.idle, Flags.ownsCapture,
        startCaptureSimple]

theorem captureChainStart_shows
    (h : d.Shows .idle)
    (env : Env)
    (id : Nat) :
    (captureChainStart env id d).1.Shows .chainWaiting := by
  have hBusy := h.isBusy
  have hFlags := h.flags
  have hFree := h.not_capturing rfl
  refine ⟨?_, ?_⟩ <;>
    simp_all [captureChainStart, Device.flags,
      Activity.flags, Flags.idle]

theorem captureChainAnalysisStart_shows
    (h : d.Shows .idle)
    (env : Env)
    (id : Nat) :
    (captureChainAnalysisStart env id d).1.Shows
      (if env.chunkStarted then .chainAnalysis .capturing
        else .idle) := by
  have hBusy := h.isBusy
  have hLaBusy := h.laIsBusy
  have hFlags := h.flags
  have hFree := h.not_capturing rfl
  cases hStarted : env.chunkStarted <;>
    refine ⟨?_, ?_⟩ <;>
      simp_all [captureChainAnalysisStart,
        laCaptureChainStart, laStartChunk, gpioPullUp,
        gpioPullDown, Device.flags, Activity.flags,
        Flags.idle, Flags.ownsCapture, startCaptureSimple]

theorem startStream_shows
    (h : d.Shows .idle)
    (env : Env)
    (id : Nat)
    (analysis : Bool) :
    (startStream env id
        (if analysis then .analysis else .raw) d).1.Shows
      (.streaming analysis false) := by
  have hBusy := h.isBusy
  have hLaBusy := h.laIsBusy
  have hFlags := h.flags
  have hFree := h.not_capturing rfl
  refine ⟨?_, ?_⟩ <;>
    simp_all [startStream, laStreamStart, Device.flags,
      Activity.flags, Flags.idle]

end PicoLogicAnalyzer

------------------------------------------------------------
-- Moves Of The Tasks
------------------------------------------------------------

namespace PicoLogicAnalyzer

/- A single capture is delivered, or reported as failed. -/
def Activity.finishSingle : Activity → Activity
| .single _ => .idle
| a => a

/- A chained capture is delivered, or cleaned up. -/
def Activity.deliverChain : Activity → Activity
| .chainCapturing => .chainWaiting
| .chainStopping => .idle
| a => a

def Activity.restartChain
    (started : Bool) :
    Activity → Activity
| .chainWaiting =>
    if started then .chainCapturing else .chainWaiting
| a => a

def Activity.takeBlock : Activity → Activity
| .chainAnalysis .capturing => .chainAnalysis .outstanding
| a => a

def Activity.releaseBlock
    (started : Bool) :
    Activity → Activity
| .chainAnalysis .outstanding =>
    .chainAnalysis (if started then .capturing else .stalled)
| a => a

def Activity.takeStream : Activity → Activity
| .streaming analysis _ => .streaming analysis true
| a => a

def Activity.releaseStream : Activity → Activity
| .streaming analysis _ => .streaming analysis false
| a => a

namespace Activity

theorem continues_stopChain (a : Activity) :
    a.Continues a.stopChain := by
  cases a <;> simp [Continues, stopChain, operation,
    sendsFrames]

theorem continues_stopAnalysis (a : Activity) :
    a.Continues a.stopAnalysis := by
  cases a <;> simp [Continues, stopAnalysis]

theorem continues_stopStream (a : Activity) :
    a.Continues a.stopStream := by
  cases a <;> simp [Continues, stopStream]

theorem continues_finishSingle (a : Activity) :
    a.Continues a.finishSingle := by
  cases a <;> simp [Continues, finishSingle]

theorem continues_deliverChain (a : Activity) :
    a.Continues a.deliverChain := by
  cases a <;> simp [Continues, deliverChain, operation,
    sendsFrames]

theorem continues_restartChain
    (started : Bool)
    (a : Activity) :
    a.Continues (a.restartChain started) := by
  cases started <;> cases a <;>
    simp [Continues, restartChain, operation, sendsFrames]

theorem continues_takeBlock (a : Activity) :
    a.Continues a.takeBlock := by
  cases a with
  | chainAnalysis phase =>
      cases phase <;>
        simp [Continues, takeBlock, operation, sendsFrames]
  | _ => exact Continues.refl _

theorem continues_releaseBlock
    (started : Bool)
    (a : Activity) :
    a.Continues (a.releaseBlock started) := by
  cases a with
  | chainAnalysis phase =>
      cases phase <;>
        simp [Continues, releaseBlock, operation,
          sendsFrames]
  | _ => exact Continues.refl _

theorem continues_takeStream (a : Activity) :
    a.Continues a.takeStream := by
  cases a <;> simp [Continues, takeStream, operation,
    sendsFrames]

theorem continues_releaseStream (a : Activity) :
    a.Continues a.releaseStream := by
  cases a <;> simp [Continues, releaseStream, operation,
    sendsFrames]

end Activity

variable {d : Device} {a : Activity}

/- Reading a result only records where the capture starts. -/
theorem laSingleCaptureGetResult_bridge
    (b : Bridge) :
    ∃ first,
      (laSingleCaptureGetResult b).1 =
        { b with hw.lastStartPosition := first } := by
  unfold laSingleCaptureGetResult
  split
  · exact ⟨b.hw.lastStartPosition, rfl⟩
  · exact ⟨(laGetRawCapture b.hw).first, rfl⟩

theorem singleCaptureTasks_shows
    (h : d.Shows a)
    (env : Env) :
    (singleCaptureTasks env d).1.Shows
      (if laSingleCaptureIsRunning d.bridge then a
        else a.finishSingle) := by
  rcases laSingleCaptureGetResult_bridge d.bridge with
    ⟨first, hBridge⟩
  have hPending := h.singleCapturePending
  unfold singleCaptureTasks
  cases hRunning : laSingleCaptureIsRunning d.bridge with
  | true => simpa using h
  | false =>
      cases a with
      | single active =>
          have hFlags := h.flags
          have hDone :=
            h.not_capturing_of_not_running rfl hRunning
          simp only [Activity.flags] at hPending
          simp only [hPending, hBridge]
          refine ⟨?_, ?_⟩ <;>
            simp_all [Device.flags, Activity.flags,
              Flags.idle, laSingleCaptureRelease,
              gpioDisablePulls, Activity.finishSingle]
      | _ =>
          simp_all [Activity.flags, Flags.idle,
            Activity.finishSingle]

theorem captureChainDeliver_shows
    (h : d.Shows a)
    (env : Env) :
    (captureChainDeliver env d).1.Shows
      (if laSingleCaptureIsRunning d.bridge then a
        else a.deliverChain) := by
  rcases laSingleCaptureGetResult_bridge d.bridge with
    ⟨first, hBridge⟩
  have hPending := h.captureChainPending
  unfold captureChainDeliver
  cases hRunning : laSingleCaptureIsRunning d.bridge with
  | true => simpa using h
  | false =>
      -- Only a pending chained capture is looked at.
      by_cases hChain :
          a = .chainCapturing ∨ a = .chainStopping
      · have hFlags := h.flags
        have hDone :
            d.bridge.hw.capturing = false := by
          apply h.not_capturing_of_not_running _ hRunning
          rcases hChain with rfl | rfl <;> rfl
        rcases hChain with rfl | rfl <;>
          cases hResult : (laSingleCaptureGetResult d.bridge).2 <;>
            refine ⟨?_, ?_⟩ <;>
              simp_all [Device.flags, Activity.flags,
                Flags.idle, laSingleCaptureRelease,
                Activity.deliverChain]
      · have hIdle : d.captureChainPending = false := by
          rw [hPending]
          cases a <;> simp_all [Activity.flags, Flags.idle]
        have hSame : a.deliverChain = a := by
          cases a <;> simp_all [Activity.deliverChain]
        simpa [hIdle, hSame] using h

theorem captureChainRestart_shows
    (h : d.Shows a)
    (env : Env) :
    (captureChainRestart env d).1.Shows
      (if d.nextStreamMs ≤ env.nowMs then
        a.restartChain env.captureStarted else a) := by
  have hEnabled := h.captureChainEnabled
  have hPending := h.captureChainPending
  unfold captureChainRestart
  by_cases hDue : d.nextStreamMs ≤ env.nowMs
  · by_cases hChain : a = .chainWaiting
    · subst hChain
      have hFlags := h.flags
      have hBusy := h.laIsBusy
      have hFree := h.not_capturing rfl
      cases hStarted : env.captureStarted <;>
        refine ⟨?_, ?_⟩ <;>
          simp_all [Device.flags, Activity.flags, Flags.idle,
            startCaptureChain, laSingleCaptureStart,
            gpioPullDown, gpioPullUp, laIsBusy,
            startCaptureSimple, Activity.restartChain,
            Flags.ownsCapture]
    · have hSkip :
          (d.captureChainEnabled &&
            !d.captureChainPending) = false := by
        rw [hEnabled, hPending]
        cases a <;> simp_all [Activity.flags, Flags.idle]
      have hSame :
          a.restartChain env.captureStarted = a := by
        cases a <;> simp_all [Activity.restartChain]
      simpa [hSkip, hSame] using h
  · simpa [hDue] using h

/- A taken chain block changes the handshake flags only. -/
theorem laCaptureChainTake_bridge
    (timeUs : Nat)
    (b : Bridge) :
    ∃ first sequence nextSample,
      (laCaptureChainTake timeUs b).1 =
        { b with
          hw.lastStartPosition := first
          laSequence := sequence
          laNextSample := nextSample
          laCaptureActive :=
            b.laCaptureActive &&
              (laCaptureChainTake timeUs b).2.isNone
          laBlockOutstanding :=
            b.laBlockOutstanding ||
              (laCaptureChainTake timeUs b).2.isSome } := by
  unfold laCaptureChainTake
  split
  · exact
      ⟨b.hw.lastStartPosition, b.laSequence,
        b.laNextSample, by simp⟩
  · split
    · exact
        ⟨b.hw.lastStartPosition, b.laSequence,
          b.laNextSample, by simp⟩
    · simp only
      split
      · exact
          ⟨(laGetRawCapture b.hw).first, b.laSequence,
            b.laNextSample, by simp⟩
      · exact
          ⟨(laGetRawCapture b.hw).first,
            Word.u32 (b.laSequence + 1),
            Word.u64 (b.laNextSample +
              (laGetRawCapture b.hw).samples),
            by simp⟩

/- Blocks are only taken from a finished capture. -/
theorem laCaptureChainTake_isSome
    {timeUs : Nat}
    {b : Bridge}
    (hTaken : (laCaptureChainTake timeUs b).2.isSome) :
    b.laRunning = true ∧ b.laBlockOutstanding = false ∧
      b.laCaptureActive = true ∧ b.hw.capturing = false := by
  unfold laCaptureChainTake at hTaken
  split at hTaken
  · simp at hTaken
  · split at hTaken
    · simp at hTaken
    · simp_all

theorem captureChainTakeBlock_shows
    (h : d.Shows a)
    (env : Env) :
    (captureChainTakeBlock env d).1.Shows
      (if (laCaptureChainTake env.timeUs d.bridge).2.isSome
        then a.takeBlock else a) := by
  rcases laCaptureChainTake_bridge env.timeUs d.bridge with
    ⟨first, sequence, nextSample, hBridge⟩
  have hFlags := h.flags
  have hOwned := h.owned
  unfold captureChainTakeBlock
  cases hTaken : (laCaptureChainTake env.timeUs d.bridge).2 with
  | none =>
      -- Nothing was taken, so no flag has moved.
      have hPending := h.blockPending
      simp only [Option.isSome_none, Bool.false_eq_true,
        if_false]
      split
      · simp only [hTaken, Option.isNone_none,
          Option.isSome_none, Bool.and_true,
          Bool.or_false] at hBridge
        apply h.congr
        · simp_all [Device.flags]
        · simp [hTaken, hBridge]
      · exact h
  | some block =>
      have hSome :=
        laCaptureChainTake_isSome
          (Option.isSome_iff_exists.mpr ⟨block, hTaken⟩)
      simp only [hTaken, Option.isNone_some,
        Option.isSome_some, Bool.and_false,
        Bool.or_true] at hBridge
      rcases hSome with ⟨hRun, hFree, hActive, hDone⟩
      have hPhase : a = .chainAnalysis .capturing := by
        rw [h.laCaptureActive] at hActive
        cases a with
        | chainAnalysis phase => cases phase <;> simp_all [Activity.flags]
        | _ => simp [Activity.flags, Flags.idle] at hActive
      subst hPhase
      refine ⟨?_, ?_⟩ <;>
        simp_all [Device.flags, Activity.flags, Flags.idle,
          Activity.takeBlock]

theorem captureChainSendBlock_shows
    (h : d.Shows a)
    (env : Env) :
    (captureChainSendBlock env d).1.Shows
      (if (sendAnalysisBlock env .captureChainAnalysis d
          d.pendingAnalysisBlock).1 then
        a.releaseBlock env.chunkStarted else a) := by
  have hPending := h.blockPending
  unfold captureChainSendBlock
  cases hSent :
      (sendAnalysisBlock env .captureChainAnalysis d
        d.pendingAnalysisBlock).1 with
  | false =>
      simp only [hSent, Bool.false_eq_true, if_false]
      split <;> exact h
  | true =>
      by_cases hPhase : a = .chainAnalysis .outstanding
      · subst hPhase
        have hFlags := h.flags
        have hFree := h.not_capturing rfl
        cases hStarted : env.chunkStarted <;>
          refine ⟨?_, ?_⟩ <;>
            simp_all [Device.flags, Activity.flags,
              Flags.idle, laCaptureChainRelease,
              laStartChunk, gpioPullDown, gpioPullUp,
              startCaptureSimple, Activity.releaseBlock,
              Flags.ownsCapture]
      · have hNone : d.blockPending = false := by
          rw [hPending]
          cases a with
          | chainAnalysis phase => cases phase <;> simp_all [Activity.flags]
          | _ => rfl
        have hSame :
            a.releaseBlock env.chunkStarted = a := by
          cases a with
          | chainAnalysis phase => cases phase <;> simp_all [Activity.releaseBlock]
          | _ => rfl
        simpa [hNone, hSame] using h

theorem captureChainContinue_shows
    (h : d.Shows a)
    (env : Env) :
    ∃ a', (captureChainContinue env d).1.Shows a' ∧
      a.Continues a' := by
  have hRestart := captureChainRestart_shows h env
  have hTake := captureChainTakeBlock_shows hRestart env
  have hSend := captureChainSendBlock_shows hTake env
  refine ⟨_, hSend, ?_⟩
  have hFirst :=
    Activity.continues_if (d.nextStreamMs ≤ env.nowMs)
      (Activity.continues_restartChain env.captureStarted a)
  exact (hFirst.trans
    (Activity.continues_if _
      (Activity.continues_takeBlock _))).trans
    (Activity.continues_if _
      (Activity.continues_releaseBlock _ _))

theorem captureChainTasks_shows
    (h : d.Shows a)
    (env : Env) :
    ∃ a', (captureChainTasks env d).1.Shows a' ∧
      a.Continues a' := by
  have hDeliver := captureChainDeliver_shows h env
  have hFirst :
      a.Continues
        (if laSingleCaptureIsRunning d.bridge then a
          else a.deliverChain) := by
    split
    · exact Activity.Continues.refl _
    · exact Activity.continues_deliverChain _
  rcases captureChainContinue_shows hDeliver env with
    ⟨a', hShows, hRest⟩
  simp only [captureChainTasks]
  cases (captureChainDeliver env d).2.2 with
  | false => exact ⟨_, hDeliver, hFirst⟩
  | true => exact ⟨a', hShows, hFirst.trans hRest⟩

/- Taking a stream block moves the stream counters only. -/
theorem laStreamTake_bridge
    (reads : DmaReads)
    (timeUs : Nat)
    (b : Bridge) :
    ∃ next produced overruns,
      (laStreamTake reads timeUs b).1 =
        { b with
          laStreamNextChunk := next
          laStreamLastProducedBytes := produced
          laStreamOverruns := overruns
          laStreamBlockOutstanding :=
            b.laStreamBlockOutstanding ||
              (laStreamTake reads timeUs b).2.isSome } := by
  rcases laStreamTake_cases reads timeUs b with
    ⟨produced, hNone⟩ |
      ⟨_, hFree, next, produced, overruns, hTaken⟩
  · refine
      ⟨b.laStreamNextChunk, produced, b.laStreamOverruns, ?_⟩
    simp [hNone]
  · refine ⟨Word.u64 (next + 1), produced, overruns, ?_⟩
    simp [hTaken, hFree]

theorem laStreamTake_isSome
    {reads : DmaReads}
    {timeUs : Nat}
    {b : Bridge}
    (hSome : (laStreamTake reads timeUs b).2.isSome = true) :
    b.laStreamRunning = true ∧
      b.laStreamBlockOutstanding = false := by
  rcases laStreamTake_cases reads timeUs b with
    ⟨produced, hNone⟩ | ⟨hRunning, hFree, _⟩
  · rw [hNone] at hSome
    cases hSome
  · exact ⟨hRunning, hFree⟩

theorem streamTasksTake_shows
    (h : d.Shows a)
    (env : Env) :
    (streamTasksTake env d).1.Shows
      (if (laStreamTake env.reads env.timeUs
          d.bridge).2.isSome then
        a.takeStream else a) := by
  rcases laStreamTake_bridge env.reads env.timeUs d.bridge
    with ⟨next, produced, overruns, hBridge⟩
  have hFlags := h.flags
  have hPending := h.streamBlockPending
  unfold streamTasksTake
  cases hTaken :
      (laStreamTake env.reads env.timeUs d.bridge).2 with
  | none =>
      simp only [Option.isSome_none, Bool.false_eq_true,
        if_false]
      split
      · simp only [hTaken, Option.isSome_none,
          Bool.or_false] at hBridge
        apply h.congr
        · simp_all [Device.flags]
        · simp [hTaken, hBridge]
      · exact h
  | some block =>
      have hSome :=
        laStreamTake_isSome
          (Option.isSome_iff_exists.mpr ⟨block, hTaken⟩)
      simp only [hTaken, Option.isSome_some,
        Bool.or_true] at hBridge
      rcases hSome with ⟨hRun, hFree⟩
      rw [h.laStreamRunning] at hRun
      cases a with
      | streaming analysis pending =>
          have hOwned := h.owned
          rw [h.laStreamBlockOutstanding] at hFree
          refine ⟨?_, ?_⟩ <;>
            cases analysis <;>
              simp_all [Device.flags, Activity.flags,
                Flags.idle, Activity.takeStream,
                Flags.ownsCapture]
      | _ => cases hRun

theorem streamTasksSend_shows
    (h : d.Shows a)
    (env : Env) :
    (streamTasksSend env d).1.Shows
      (if (sendStreamBlock env d
          d.pendingAnalysisBlock).1 then
        a.releaseStream else a) := by
  have hPending := h.streamBlockPending
  unfold streamTasksSend
  cases hSent :
      (sendStreamBlock env d d.pendingAnalysisBlock).1 with
  | false =>
      simp only [hSent, Bool.false_eq_true, if_false]
      split <;> exact h
  | true =>
      cases a with
      | streaming analysis pending =>
          have hFlags := h.flags
          have hFree := h.not_capturing rfl
          refine ⟨?_, ?_⟩ <;>
            cases pending <;>
              simp_all [Device.flags, Activity.flags,
                Flags.idle, Activity.releaseStream,
                laStreamRelease]
      | _ =>
          simp only [Activity.flags, Flags.idle] at hPending
          simpa [hPending, Activity.releaseStream] using h

end PicoLogicAnalyzer

------------------------------------------------------------
-- The Refinement
------------------------------------------------------------

namespace PicoLogicAnalyzer

/- Configuration commands touch the configuration only. -/
theorem laConfigureFrequency_bridge
    [CaptureModule]
    (freq : Option Nat)
    (b : Bridge) :
    ∃ config,
      (laConfigureFrequency freq b).1 =
        { b with laConfig := config } := by
  unfold laConfigureFrequency
  cases freq with
  | none => exact ⟨_, rfl⟩
  | some freq =>
      simp only
      split <;> exact ⟨_, rfl⟩

theorem laConfigureChunkBytes_bridge
    (chunkBytes : Option Nat)
    (b : Bridge) :
    ∃ config,
      (laConfigureChunkBytes chunkBytes b).1 =
        { b with laConfig := config } := by
  unfold laConfigureChunkBytes
  cases chunkBytes with
  | none => exact ⟨_, rfl⟩
  | some chunkBytes =>
      simp only
      split <;> exact ⟨_, rfl⟩

theorem laConfigureChannelMask_bridge
    (channelMask : Option Nat)
    (b : Bridge) :
    ∃ config,
      (laConfigureChannelMask channelMask b).1 =
        { b with laConfig := config } := by
  unfold laConfigureChannelMask
  cases channelMask with
  | none => exact ⟨_, rfl⟩
  | some channelMask =>
      simp only
      split <;> exact ⟨_, rfl⟩

/- The move a command makes. -/
def Activity.handle
    (env : Env)
    (a : Activity) :
    Command → Activity
| .singleCapture =>
    if a = .idle ∧ env.captureStarted then .single true
    else a
| .captureChainStart =>
    if a = .idle then .chainWaiting else a
| .captureChainStop => a.stopChain
| .captureChainAnalysisStart =>
    if a = .idle ∧ env.chunkStarted then
      .chainAnalysis .capturing
    else a
| .captureChainAnalysisStop => a.stopAnalysis
| .streamStart =>
    if a = .idle then .streaming false false else a
| .streamAnalysisStart =>
    if a = .idle then .streaming true false else a
| .streamStop => a.stopStream
| .streamAnalysisStop => a.stopStream
| _ => a

/- The activity a start command opens. -/
def Command.opens : Command → Option Activity
| .singleCapture => some (.single true)
| .captureChainStart => some .chainWaiting
| .captureChainAnalysisStart =>
    some (.chainAnalysis .capturing)
| .streamStart => some (.streaming false false)
| .streamAnalysisStart => some (.streaming true false)
| _ => none

/-
  All a command can do: nothing, open the operation it asks
  for, or end one, perhaps for its task to clean up.
-/
theorem Activity.handle_cases
    (env : Env)
    (a : Activity)
    (command : Command) :
    a.handle env command = a ∨
      (a = .idle ∧
        command.opens = some (a.handle env command)) ∨
      a.handle env command ∈
        [.idle, .single false, .chainStopping] := by
  have hStart :
      ∀ {p : Prop} [Decidable p] {opened : Activity},
        (p → a = .idle) →
        command.opens = some opened →
        a.handle env command = (if p then opened else a) →
          a.handle env command = a ∨
            (a = .idle ∧
              command.opens =
                some (a.handle env command)) := by
    intro p _ opened hIdle hOpens hHandle
    split at hHandle
    · rename_i hOpen
      rw [hHandle]
      exact Or.inr ⟨hIdle hOpen, hOpens⟩
    · exact Or.inl hHandle
  rw [← or_assoc]
  cases command with
  | singleCapture => exact Or.inl (hStart And.left rfl rfl)
  | captureChainStart => exact Or.inl (hStart id rfl rfl)
  | captureChainAnalysisStart =>
      exact Or.inl (hStart And.left rfl rfl)
  | streamStart => exact Or.inl (hStart id rfl rfl)
  | streamAnalysisStart => exact Or.inl (hStart id rfl rfl)
  | captureChainStop =>
      cases a <;> simp [handle, stopChain]
  | captureChainAnalysisStop =>
      cases a <;> simp [handle, stopAnalysis]
  | streamStop => cases a <;> simp [handle, stopStream]
  | streamAnalysisStop =>
      cases a <;> simp [handle, stopStream]
  | _ => exact Or.inl (Or.inl rfl)

variable {d : Device} {a : Activity}

/- A busy device refuses every start command. -/
theorem startStream_of_busy
    (env : Env)
    (id : Nat)
    (mode : StreamMode)
    (hBusy : isBusy d = true) :
    startStream env id mode d =
      (d, [reply env id "CAPTURE_BUSY"], false) := by
  unfold startStream
  rw [if_pos hBusy]

theorem streamStartCommand_state
    (env : Env)
    (id : Nat)
    (mode : StreamMode)
    (started : String)
    (d : Device) :
    (streamStartCommand env id mode started d).1 =
      (startStream env id mode d).1 := by
  unfold streamStartCommand
  simp only
  split <;> rfl

theorem streamStartCommand_shows
    (h : d.Shows a)
    (env : Env)
    (id : Nat)
    (analysis : Bool)
    (started : String) :
    (streamStartCommand env id
        (if analysis then .analysis else .raw) started
        d).1.Shows
      (if a = .idle then .streaming analysis false
        else a) := by
  rw [streamStartCommand_state]
  by_cases hIdle : a = .idle
  · subst hIdle
    simpa using startStream_shows h env id analysis
  · have hBusy : isBusy d = true := by
      simp [h.isBusy, hIdle]
    simpa [startStream_of_busy _ _ _ hBusy, hIdle] using h

/- A capture that completes stays with its owner. -/
theorem captureDone_shows
    (h : d.Shows a)
    (tail : Nat) :
    (captureDone tail d).1.Shows a := by
  unfold captureDone
  split
  · refine ⟨h.flags, ?_⟩
    intro hCapturing
    cases hCapturing
  · exact h

theorem Device.boot_shows (hw : CaptureHardware) :
    (Device.boot hw).Shows .idle where
  flags := rfl
  owned := by
    intro hCapturing
    cases hCapturing

variable [CaptureModule]

theorem handleCommand_shows
    (h : d.Shows a)
    (env : Env)
    (id : Nat)
    (data : List UInt8)
    (command : Command) :
    (handleCommand env id data d command).1.Shows
      (a.handle env command) := by
  have hConfig :
      ∀ b config,
        b = { d.bridge with laConfig := config } →
          Device.Shows { d with bridge := b } a := by
    rintro b config rfl
    exact h.congr rfl rfl
  have hBusy : a ≠ .idle → isBusy d = true := by
    intro hOpen
    simp [h.isBusy, hOpen]
  cases command with
  | status => exact h
  | pinTest => exact h
  | unknown => exact h
  | captureChainStop => exact captureChainStop_shows h env id
  | captureChainAnalysisStop =>
      exact captureChainAnalysisStop_shows h env id
  | streamStop => exact stopStream_shows h
  | streamAnalysisStop => exact stopStream_shows h
  | streamStart =>
      exact streamStartCommand_shows h env id false _
  | streamAnalysisStart =>
      exact streamStartCommand_shows h env id true _
  | setFreq value =>
      rcases laConfigureFrequency_bridge (some value)
        d.bridge with ⟨config, hBridge⟩
      exact hConfig _ config hBridge
  | setChunkSize value =>
      rcases laConfigureChunkBytes_bridge (some value)
        d.bridge with ⟨config, hBridge⟩
      exact hConfig _ config hBridge
  | setChannelMask value =>
      rcases laConfigureChannelMask_bridge (some value)
        d.bridge with ⟨config, hBridge⟩
      exact hConfig _ config hBridge
  | singleCapture =>
      by_cases hIdle : a = .idle
      · subst hIdle
        simpa [handleCommand, h.isBusy, Activity.handle]
          using startSingleCapture_shows h env id
      · simpa [handleCommand, hBusy hIdle,
          Activity.handle, hIdle] using h
  | captureChainStart =>
      by_cases hIdle : a = .idle
      · subst hIdle
        simpa [handleCommand, Activity.handle]
          using captureChainStart_shows h env id
      · simpa [handleCommand, captureChainStart,
          hBusy hIdle, Activity.handle, hIdle] using h
  | captureChainAnalysisStart =>
      by_cases hIdle : a = .idle
      · subst hIdle
        simpa [handleCommand, Activity.handle]
          using captureChainAnalysisStart_shows h env id
      · simpa [handleCommand, captureChainAnalysisStart,
          hBusy hIdle, Activity.handle, hIdle] using h

/- Apart from commands, nothing opens an operation. -/
theorem Device.step_continues
    (h : d.Shows a)
    {i : Input}
    (hTask : ∀ env id data, i ≠ .message env id data) :
    ∃ a', (Device.step d i).1.Shows a' ∧ a.Continues a' := by
  cases i with
  | message env id data =>
      exact absurd rfl (hTask env id data)
  | connect env id =>
      exact ⟨a, h, Activity.Continues.refl a⟩
  | disconnect id =>
      exact ⟨a, h, Activity.Continues.refl a⟩
  | singleCaptureTasks env =>
      refine ⟨_, singleCaptureTasks_shows h env, ?_⟩
      split
      · exact Activity.Continues.refl a
      · exact Activity.continues_finishSingle a
  | captureChainTasks env =>
      exact captureChainTasks_shows h env
  | streamTake env =>
      exact ⟨_, streamTasksTake_shows h env,
        Activity.continues_if _
          (Activity.continues_takeStream a)⟩
  | streamSend env =>
      exact ⟨_, streamTasksSend_shows h env,
        Activity.continues_if _
          (Activity.continues_releaseStream a)⟩
  | captureWrite memory =>
      refine ⟨a, ?_, Activity.Continues.refl a⟩
      simp only [Device.step, captureWrite]
      split <;> exact h.congr rfl rfl
  | captureDone tail =>
      exact ⟨a, captureDone_shows h tail,
        Activity.Continues.refl a⟩
  | dmaWrite position byte =>
      refine ⟨a, ?_, Activity.Continues.refl a⟩
      simp only [Device.step, dmaWrite]
      split <;> exact h.congr rfl rfl
  | dmaInterrupt =>
      refine ⟨a, ?_, Activity.Continues.refl a⟩
      simp only [Device.step, dmaInterrupt]
      split <;> exact h.congr rfl rfl

/- Every step of the firmware is a move of the activity. -/
theorem Device.step_shows
    (h : d.Shows a)
    (i : Input) :
    ∃ a', (Device.step d i).1.Shows a' := by
  by_cases hTask : ∀ env id data, i ≠ .message env id data
  · rcases Device.step_continues h hTask with
      ⟨a', hShows, _⟩
    exact ⟨a', hShows⟩
  · push Not at hTask
    rcases hTask with ⟨env, id, data, rfl⟩
    exact ⟨_, handleCommand_shows h env id data _⟩

/- Every reachable device is in some activity. -/
theorem Device.Reachable.shows
    (hReachable : d.Reachable) :
    ∃ a, d.Shows a := by
  refine Device.Reachable.invariant
    (P := fun d => ∃ a, d.Shows a) ?_ ?_ hReachable
  · intro hw
    exact ⟨.idle, Device.boot_shows hw⟩
  · rintro d i ⟨a, h⟩
    exact Device.step_shows h i

end PicoLogicAnalyzer
