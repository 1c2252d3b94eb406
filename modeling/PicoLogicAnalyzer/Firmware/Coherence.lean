import PicoLogicAnalyzer.Firmware.Events
import PicoLogicAnalyzer.Firmware.Frame

/-
  The configuration and what was captured under it.

  Settings are only accepted while `la_is_busy` is false, so
  a capture in progress, a running stream and a pending
  block always have the width and length the configuration
  in force prescribes.

  Key definitions include:
    * `LaConfig.chunkSamples`
    * `Device.Coherent`

  Key theorems include:
    * `Device.step_coherent`
    * `Device.Reachable.coherent`
-/

------------------------------------------------------------
-- Coherent States
------------------------------------------------------------

namespace PicoLogicAnalyzer

open Word

/- Samples of one chunk. -/
def LaConfig.chunkSamples (config : LaConfig) : Nat :=
  config.chunkBytes / config.bytesPerSample

theorem LaConfig.WellFormed.chunkSamples_mul
    {config : LaConfig}
    (hConfig : config.WellFormed) :
    config.chunkSamples * config.bytesPerSample =
      config.chunkBytes :=
  Nat.div_mul_cancel hConfig.width_dvd_chunk

/- A chunk holds at least one sample. -/
theorem LaConfig.WellFormed.chunkSamples_pos
    {config : LaConfig}
    (hConfig : config.WellFormed) :
    0 < config.chunkSamples := by
  have hSamples := hConfig.chunkSamples_mul
  apply Nat.pos_of_ne_zero
  intro hZero
  rw [hZero, Nat.zero_mul] at hSamples
  exact hConfig.chunk_pos.ne hSamples

theorem LaConfig.WellFormed.chunkBytes_lt
    {config : LaConfig}
    (hConfig : config.WellFormed) :
    config.chunkBytes < 2 ^ 32 := by
  have hBound := hConfig.chunk_le
  unfold laMaxChunkBytes at hBound
  omega

theorem LaConfig.WellFormed.chunkSamples_lt
    {config : LaConfig}
    (hConfig : config.WellFormed) :
    config.chunkSamples < 2 ^ 32 :=
  (Nat.div_le_self _ _).trans_lt hConfig.chunkBytes_lt

/- The latest finite capture is one chunk of `config`. -/
structure CaptureHardware.IsChunk
    (hw : CaptureHardware)
    (config : LaConfig) : Prop where
  mode : hw.lastCaptureMode = config.mode
  preSize : hw.lastPreSize = 0
  postSize : hw.lastPostSize = config.chunkSamples
  loopCount : hw.lastLoopCount = 0

/- Only the recorded arguments matter. -/
theorem CaptureHardware.IsChunk.keep
    {hw hw' : CaptureHardware}
    {config : LaConfig}
    (h : hw.IsChunk config)
    (hMode : hw'.lastCaptureMode = hw.lastCaptureMode)
    (hPre : hw'.lastPreSize = hw.lastPreSize)
    (hPost : hw'.lastPostSize = hw.lastPostSize)
    (hLoop : hw'.lastLoopCount = hw.lastLoopCount) :
    hw'.IsChunk config :=
  ⟨hMode.trans h.mode, hPre.trans h.preSize,
    hPost.trans h.postSize, hLoop.trans h.loopCount⟩

/- Such a capture is exactly one chunk long. -/
theorem CaptureHardware.IsChunk.samples
    {hw : CaptureHardware}
    {config : LaConfig}
    (h : hw.IsChunk config)
    (hConfig : config.WellFormed) :
    (laGetRawCapture hw).samples = config.chunkSamples := by
  simp only [laGetRawCapture, h.preSize, h.postSize,
    h.loopCount, Nat.zero_add, Nat.mul_one]
  exact u32_of_lt hConfig.chunkSamples_lt

/- The block is one chunk of `config`. -/
structure AnalysisBlock.IsChunk
    (block : AnalysisBlock)
    (config : LaConfig) : Prop where
  bytes : block.bytes = config.chunkBytes
  samples : block.samples = config.chunkSamples

structure Device.Coherent (d : Device) : Prop where
  config : d.bridge.laConfig.WellFormed
  single :
    d.bridge.laSingleCaptureActive = true →
      d.bridge.hw.lastCaptureMode = d.bridge.laConfig.mode
  chunk :
    d.bridge.laCaptureActive = true →
      d.bridge.hw.IsChunk d.bridge.laConfig
  stream :
    d.bridge.laStreamRunning = true →
      d.bridge.hw.dmaMode = d.bridge.laConfig.mode
  pending :
    d.blockPending = true ∨ d.streamBlockPending = true →
      d.pendingAnalysisBlock.IsChunk d.bridge.laConfig

/- A pending block is small enough to be handed over. -/
theorem Device.Coherent.pending_le
    {d : Device}
    (h : d.Coherent)
    (hPending :
      d.blockPending = true ∨ d.streamBlockPending = true) :
    d.pendingAnalysisBlock.bytes ≤ laMaxChunkBytes := by
  rw [(h.pending hPending).bytes]
  exact h.config.chunk_le

theorem Device.boot_coherent (hw : CaptureHardware) :
    (Device.boot hw).Coherent where
  config := LaConfig.initial_wellFormed
  single := (absurd · Bool.false_ne_true)
  chunk := (absurd · Bool.false_ne_true)
  stream := (absurd · Bool.false_ne_true)
  pending := by
    intro hPending
    rcases hPending with hPending | hPending <;>
      cases hPending

/- With the bridge free only the configuration matters. -/
theorem Device.Shows.coherent_of_not_busy
    {d : Device}
    {a : Activity}
    (h : d.Shows a)
    (hFree : PicoLogicAnalyzer.laIsBusy d.bridge = false)
    (hConfig : d.bridge.laConfig.WellFormed) :
    d.Coherent := by
  rw [h.laIsBusy] at hFree
  refine ⟨hConfig, ?_, ?_, ?_, ?_⟩
  · intro hActive
    rw [h.laSingleCaptureActive] at hActive
    simp [hActive] at hFree
  · intro hActive
    rw [h.laCaptureActive] at hActive
    cases a <;> simp_all [Activity.flags, Flags.idle]
  · intro hRunning
    rw [h.laStreamRunning] at hRunning
    simp [hRunning] at hFree
  · intro hPending
    rw [h.blockPending, h.streamBlockPending] at hPending
    cases a <;> simp_all [Activity.flags, Flags.idle]

end PicoLogicAnalyzer

------------------------------------------------------------
-- Tasks Keep Coherence
------------------------------------------------------------

namespace PicoLogicAnalyzer

open Word

variable {d : Device} {a : Activity}

theorem singleCaptureTasks_coherent
    (h : d.Coherent)
    (env : Env) :
    (singleCaptureTasks env d).1.Coherent := by
  rcases laSingleCaptureGetResult_bridge d.bridge with
    ⟨first, hBridge⟩
  unfold singleCaptureTasks
  split
  · simp only [hBridge]
    refine
      ⟨h.config, (absurd · Bool.false_ne_true),
        ?_, h.stream, h.pending⟩
    intro hActive
    exact (h.chunk hActive).keep rfl rfl rfl rfl
  · exact h

theorem captureChainDeliver_coherent
    (h : d.Coherent)
    (env : Env) :
    (captureChainDeliver env d).1.Coherent := by
  rcases laSingleCaptureGetResult_bridge d.bridge with
    ⟨first, hBridge⟩
  have hChunk :
      d.bridge.laCaptureActive = true →
        CaptureHardware.IsChunk
          { d.bridge.hw with lastStartPosition := first }
          d.bridge.laConfig := by
    intro hActive
    exact (h.chunk hActive).keep rfl rfl rfl rfl
  unfold captureChainDeliver
  split
  · simp only [hBridge]
    split
    · exact
        ⟨h.config, (absurd · Bool.false_ne_true),
          hChunk, h.stream, h.pending⟩
    · exact
        ⟨h.config, (absurd · Bool.false_ne_true),
          hChunk, h.stream, h.pending⟩
  · exact h

/- The next chained capture replaces the recorded one. -/
theorem captureChainRestart_coherent
    (hShows : d.Shows a)
    (h : d.Coherent)
    (env : Env) :
    (captureChainRestart env d).1.Coherent := by
  unfold captureChainRestart
  split
  · rename_i hDue
    have hWaiting : a = .chainWaiting := by
      simp only [Bool.and_eq_true,
        hShows.captureChainEnabled,
        hShows.captureChainPending] at hDue
      cases a <;> simp_all [Activity.flags, Flags.idle]
    subst hWaiting
    have hFree : laIsBusy d.bridge = false := hShows.laIsBusy
    cases hStarted : env.captureStarted with
    | false =>
        simp only [startCaptureChain, laSingleCaptureStart,
          startCaptureSimple, gpioPullDown, laIsBusy]
          at hFree ⊢
        simp only [hFree]
        refine
          ⟨h.config, (absurd · Bool.false_ne_true),
            ?_, h.stream, h.pending⟩
        intro hActive
        exact (h.chunk hActive).keep rfl rfl rfl rfl
    | true =>
        simp only [startCaptureChain, laSingleCaptureStart,
          startCaptureSimple, gpioPullDown, gpioPullUp,
          laIsBusy] at hFree ⊢
        simp only [hFree]
        refine ⟨h.config, fun _ => rfl, ?_, h.stream,
          h.pending⟩
        intro hActive
        cases hShows.laCaptureActive.symm.trans hActive
  · exact h

/- A block taken from a chunk capture is one chunk. -/
theorem laCaptureChainTake_isChunk
    {b : Bridge}
    {timeUs : Nat}
    {block : AnalysisBlock}
    (hConfig : b.laConfig.WellFormed)
    (hChunk :
      b.laCaptureActive = true → b.hw.IsChunk b.laConfig)
    (hTaken : (laCaptureChainTake timeUs b).2 = some block) :
    block.IsChunk b.laConfig := by
  have hActive : b.laCaptureActive = true := by
    have hSome :=
      laCaptureChainTake_isSome
        (Option.isSome_iff_exists.mpr ⟨block, hTaken⟩)
    exact hSome.2.2.1
  have hSamples := (hChunk hActive).samples hConfig
  unfold laCaptureChainTake at hTaken
  split at hTaken
  · cases hTaken
  · split at hTaken
    · cases hTaken
    · simp only at hTaken
      split at hTaken
      · cases hTaken
      · cases hTaken
        refine ⟨?_, hSamples⟩
        simp only [hSamples, hConfig.chunkSamples_mul]
        exact u32_of_lt hConfig.chunkBytes_lt

theorem captureChainTakeBlock_coherent
    (h : d.Coherent)
    (env : Env) :
    (captureChainTakeBlock env d).1.Coherent := by
  rcases laCaptureChainTake_bridge env.timeUs d.bridge with
    ⟨first, sequence, nextSample, hBridge⟩
  have hChunk :
      (d.bridge.laCaptureActive &&
          (laCaptureChainTake env.timeUs
            d.bridge).2.isNone) = true →
        CaptureHardware.IsChunk
          { d.bridge.hw with lastStartPosition := first }
          d.bridge.laConfig := by
    intro hActive
    rw [Bool.and_eq_true] at hActive
    exact (h.chunk hActive.1).keep rfl rfl rfl rfl
  unfold captureChainTakeBlock
  split
  · simp only
    split
    · rw [hBridge]
      refine ⟨h.config, h.single, hChunk, h.stream, ?_⟩
      intro hPending
      rcases hPending with hChain | hStream
      · cases hChain
      · exact h.pending (Or.inr hStream)
    · rename_i block hTaken
      have hBlock : block.IsChunk d.bridge.laConfig :=
        laCaptureChainTake_isChunk h.config h.chunk hTaken
      rw [hBridge]
      exact
        ⟨h.config, h.single, hChunk, h.stream,
          fun _ => hBlock⟩
  · exact h

theorem laCaptureChainRelease_outstanding
    {started : Bool}
    {b : Bridge}
    (hRunning : b.laRunning = true)
    (hBlock : b.laBlockOutstanding = true) :
    laCaptureChainRelease started b =
      laStartChunk started
        { b with laBlockOutstanding := false } := by
  unfold laCaptureChainRelease
  rw [hRunning, hBlock]
  rfl

theorem captureChainSendBlock_coherent
    (hShows : d.Shows a)
    (h : d.Coherent)
    (env : Env) :
    (captureChainSendBlock env d).1.Coherent := by
  unfold captureChainSendBlock
  split
  · rename_i hPending
    have hPhase : a = .chainAnalysis .outstanding := by
      rw [hShows.blockPending] at hPending
      cases a with
      | chainAnalysis phase =>
          cases phase <;>
            simp_all [Activity.flags, Flags.idle]
      | _ => cases hPending
    subst hPhase
    simp only
    split
    · have hStream : d.streamBlockPending = false :=
        hShows.streamBlockPending
      have hFree : d.bridge.laCaptureActive = false :=
        hShows.laCaptureActive
      have hNone :
          false = true ∨ d.streamBlockPending = true →
            d.pendingAnalysisBlock.IsChunk
              d.bridge.laConfig := by
        intro hPending
        rcases hPending with hChain | hStream'
        · cases hChain
        · cases hStream.symm.trans hStream'
      have hSingle :
          d.bridge.laSingleCaptureActive = false :=
        hShows.laSingleCaptureActive
      rw [laCaptureChainRelease_outstanding hShows.laRunning
        hShows.laBlockOutstanding]
      cases env.chunkStarted with
      | false =>
          refine ⟨h.config, h.single, ?_, h.stream, hNone⟩
          intro hActive
          cases hFree.symm.trans hActive
      | true =>
          refine ⟨h.config, ?_, fun _ => ⟨rfl, rfl, rfl, rfl⟩,
            h.stream, hNone⟩
          intro hActive
          cases hSingle.symm.trans hActive
    · exact h
  · exact h

/- States inside a task that was called in `d`. -/
structure Device.Follows
    (d : Device)
    (a : Activity)
    (d' : Device) : Prop where
  shows : ∃ a', d'.Shows a' ∧ a.Continues a'
  coherent : d'.Coherent
  config_eq : d'.bridge.laConfig = d.bridge.laConfig

theorem Device.Follows.refl
    (hShows : d.Shows a)
    (h : d.Coherent) :
    d.Follows a d where
  shows := ⟨a, hShows, Activity.Continues.refl a⟩
  coherent := h
  config_eq := rfl

/-
  What the task sends: data when it delivers a capture and
  when it sends a block, each time in a state that follows.
-/
theorem captureChainTasks_follows
    {Q : Event → Prop}
    (hShows : d.Shows a)
    (h : d.Coherent)
    (env : Env)
    (hDeliver :
      ∀ d', d.Follows a d' →
        ∀ event ∈ (captureChainDeliver env d').2.1, Q event)
    (hSetUp : ∀ record, Q (.setUp record))
    (hTaken : ∀ block, Q (.chainTaken block))
    (hSend :
      ∀ d', d.Follows a d' →
        ∀ event ∈ (captureChainSendBlock env d').2,
          Q event) :
    d.Follows a (captureChainTasks env d).1 ∧
      ∀ event ∈ (captureChainTasks env d).2, Q event := by
  let P : List Event → Device → Prop := fun trace d' =>
    d.Follows a d' ∧ ∀ event ∈ trace, Q event
  have hBlock :
      ∀ {trace events : List Event} {d' d'' : Device}
          {a' a'' : Activity},
        P trace d' → a.Continues a' →
        d''.Shows a'' → a'.Continues a'' → d''.Coherent →
        d''.bridge.laConfig = d'.bridge.laConfig →
        (∀ event ∈ events, Q event) →
        P (trace ++ events) d'' := by
    intro trace events d' d'' a' a'' hPast hFirst hShows'
      hNext hCoherent hConfig hEvents
    exact
      ⟨⟨⟨a'', hShows', hFirst.trans hNext⟩, hCoherent,
          hConfig.trans hPast.1.config_eq⟩,
        List.forall_mem_append.mpr ⟨hPast.2, hEvents⟩⟩
  have hTask :
      P ([] ++ (captureChainTasks env d).2)
        (captureChainTasks env d).1 := by
    refine captureChainTasks_rule (P := P) ?_ ?_ ?_ ?_ []
      ⟨Device.Follows.refl hShows h, List.forall_mem_nil _⟩
    · intro trace d' hPast
      rcases hPast.1.shows with ⟨a', hShows', hFirst⟩
      refine hBlock hPast hFirst
        (captureChainDeliver_shows hShows' env) ?_
        (captureChainDeliver_coherent hPast.1.coherent env)
        (captureChainDeliver_laConfig env d')
        (hDeliver d' hPast.1)
      split
      · exact Activity.Continues.refl a'
      · exact Activity.continues_deliverChain a'
    · intro trace d' hPast
      rcases hPast.1.shows with ⟨a', hShows', hFirst⟩
      refine hBlock hPast hFirst
        (captureChainRestart_shows hShows' env)
        (Activity.continues_if _
          (Activity.continues_restartChain _ a'))
        (captureChainRestart_coherent hShows'
          hPast.1.coherent env)
        (captureChainRestart_laConfig env d') ?_
      intro event hMember
      rcases mem_captureChainRestart hMember with
        ⟨record, rfl⟩
      exact hSetUp record
    · intro trace d' hPast
      rcases hPast.1.shows with ⟨a', hShows', hFirst⟩
      refine hBlock hPast hFirst
        (captureChainTakeBlock_shows hShows' env)
        (Activity.continues_if _
          (Activity.continues_takeBlock a'))
        (captureChainTakeBlock_coherent hPast.1.coherent env)
        (captureChainTakeBlock_laConfig env d') ?_
      intro event hMember
      rcases mem_captureChainTakeBlock hMember with
        ⟨block, rfl⟩
      exact hTaken block
    · intro trace d' hPast
      rcases hPast.1.shows with ⟨a', hShows', hFirst⟩
      exact hBlock hPast hFirst
        (captureChainSendBlock_shows hShows' env)
        (Activity.continues_if _
          (Activity.continues_releaseBlock _ a'))
        (captureChainSendBlock_coherent hShows'
          hPast.1.coherent env)
        (captureChainSendBlock_laConfig env d')
        (hSend d' hPast.1)
  exact hTask

theorem captureChainTasks_coherent
    (hShows : d.Shows a)
    (h : d.Coherent)
    (env : Env) :
    (captureChainTasks env d).1.Coherent := by
  have hTask :=
    captureChainTasks_follows (Q := fun _ => True) hShows h
      env (fun _ _ _ _ => trivial)
      (fun _ => trivial) (fun _ => trivial)
      (fun _ _ _ _ => trivial)
  exact hTask.1.coherent

theorem laStreamTake_isChunk
    {reads : DmaReads}
    {timeUs : Nat}
    {b : Bridge}
    {block : AnalysisBlock}
    (hTaken : (laStreamTake reads timeUs b).2 = some block) :
    block.IsChunk b.laConfig := by
  rcases laStreamTake_cases reads timeUs b with
    ⟨produced, hNone⟩ |
      ⟨_, _, next, produced, overruns, hBlock⟩
  · rw [hNone] at hTaken
    cases hTaken
  · rw [hBlock] at hTaken
    cases hTaken
    exact ⟨rfl, rfl⟩

theorem streamTasksTake_coherent
    (h : d.Coherent)
    (env : Env) :
    (streamTasksTake env d).1.Coherent := by
  rcases laStreamTake_bridge env.reads env.timeUs d.bridge
    with ⟨next, produced, overruns, hBridge⟩
  unfold streamTasksTake
  split
  · simp only
    split
    · rw [hBridge]
      refine ⟨h.config, h.single, h.chunk, h.stream, ?_⟩
      intro hPending
      rcases hPending with hChain | hStream
      · exact h.pending (Or.inl hChain)
      · cases hStream
    · rename_i block hTaken
      have hBlock : block.IsChunk d.bridge.laConfig :=
        laStreamTake_isChunk hTaken
      rw [hBridge]
      exact
        ⟨h.config, h.single, h.chunk, h.stream,
          fun _ => hBlock⟩
  · exact h

theorem streamTasksSend_coherent
    (h : d.Coherent)
    (env : Env) :
    (streamTasksSend env d).1.Coherent := by
  unfold streamTasksSend
  split
  · simp only
    split
    · refine ⟨h.config, h.single, h.chunk, h.stream, ?_⟩
      intro hPending
      rcases hPending with hChain | hStream
      · exact h.pending (Or.inl hChain)
      · cases hStream
    · exact h
  · exact h

end PicoLogicAnalyzer

------------------------------------------------------------
-- Commands Keep Coherence
------------------------------------------------------------

namespace PicoLogicAnalyzer

variable {d : Device} {a : Activity}

theorem startSingleCapture_coherent
    (hShows : d.Shows .idle)
    (h : d.Coherent)
    (env : Env)
    (id : Nat) :
    (startSingleCapture env id d).1.Coherent := by
  have hFree : laIsBusy (gpioPullUp d.bridge) = false :=
    hShows.laIsBusy
  have hChunk : d.bridge.laCaptureActive = false :=
    hShows.laCaptureActive
  simp only [startSingleCapture, laSingleCaptureStart, hFree]
  cases env.captureStarted with
  | false =>
      refine
        ⟨h.config, (absurd · Bool.false_ne_true),
          ?_, h.stream, h.pending⟩
      intro hActive
      cases hChunk.symm.trans hActive
  | true =>
      refine ⟨h.config, fun _ => rfl, ?_, h.stream,
        h.pending⟩
      intro hActive
      cases hChunk.symm.trans hActive

theorem captureChainAnalysisStart_coherent
    (hShows : d.Shows .idle)
    (h : d.Coherent)
    (env : Env)
    (id : Nat) :
    (captureChainAnalysisStart env id d).1.Coherent := by
  have hBusy : isBusy d = false := hShows.isBusy
  have hFree : laIsBusy d.bridge = false := hShows.laIsBusy
  have hSingle : d.bridge.laSingleCaptureActive = false :=
    hShows.laSingleCaptureActive
  have hStream : d.streamBlockPending = false :=
    hShows.streamBlockPending
  simp only [captureChainAnalysisStart, hBusy,
    laCaptureChainStart, hFree]
  cases env.chunkStarted with
  | false =>
      refine
        ⟨h.config, ?_, (absurd · Bool.false_ne_true),
          h.stream, h.pending⟩
      intro hActive
      cases hSingle.symm.trans hActive
  | true =>
      refine ⟨h.config, ?_, fun _ => ⟨rfl, rfl, rfl, rfl⟩,
        h.stream, ?_⟩
      · intro hActive
        cases hSingle.symm.trans hActive
      · intro hPending
        rcases hPending with hChain | hStream'
        · cases hChain
        · cases hStream.symm.trans hStream'

theorem startStream_coherent
    (hShows : d.Shows .idle)
    (h : d.Coherent)
    (env : Env)
    (id : Nat)
    (mode : StreamMode) :
    (startStream env id mode d).1.Coherent := by
  have hBusy : isBusy d = false := hShows.isBusy
  have hFree : laIsBusy d.bridge = false := hShows.laIsBusy
  have hSingle : d.bridge.laSingleCaptureActive = false :=
    hShows.laSingleCaptureActive
  have hChunk : d.bridge.laCaptureActive = false :=
    hShows.laCaptureActive
  have hChain : d.blockPending = false := hShows.blockPending
  simp only [startStream, hBusy, laStreamStart, hFree]
  refine ⟨h.config, ?_, ?_, fun _ => rfl, ?_⟩
  · intro hActive
    cases hSingle.symm.trans hActive
  · intro hActive
    cases hChunk.symm.trans hActive
  · intro hPending
    rcases hPending with hChain' | hStream
    · cases hChain.symm.trans hChain'
    · cases hStream

theorem captureChainStop_coherent
    (h : d.Coherent)
    (env : Env)
    (id : Nat) :
    (captureChainStop env id d).1.Coherent := by
  simp only [captureChainStop, laSingleCaptureStop]
  split
  · refine
      ⟨h.config, (absurd · Bool.false_ne_true),
        ?_, h.stream, h.pending⟩
    intro hActive
    exact (h.chunk hActive).keep rfl rfl rfl rfl
  · refine
      ⟨h.config, (absurd · Bool.false_ne_true),
        ?_, h.stream, h.pending⟩
    intro hActive
    exact (h.chunk hActive).keep rfl rfl rfl rfl

theorem captureChainAnalysisStop_coherent
    (h : d.Coherent)
    (env : Env)
    (id : Nat) :
    (captureChainAnalysisStop env id d).1.Coherent := by
  have hPending :
      false = true ∨ d.streamBlockPending = true →
        d.pendingAnalysisBlock.IsChunk d.bridge.laConfig := by
    intro hPending
    rcases hPending with hChain | hStream
    · cases hChain
    · exact h.pending (Or.inr hStream)
  simp only [captureChainAnalysisStop, laCaptureChainStop]
  split
  · exact
      ⟨h.config, h.single, (absurd · Bool.false_ne_true),
        h.stream, hPending⟩
  · exact
      ⟨h.config, h.single, (absurd · Bool.false_ne_true),
        h.stream, hPending⟩

theorem stopStream_coherent
    (h : d.Coherent) :
    (stopStream d).Coherent := by
  have hPending :
      d.blockPending = true ∨ false = true →
        d.pendingAnalysisBlock.IsChunk d.bridge.laConfig := by
    intro hPending
    rcases hPending with hChain | hStream
    · exact h.pending (Or.inl hChain)
    · cases hStream
  simp only [stopStream, laStreamStop]
  split
  · exact ⟨h.config, h.single, h.chunk, h.stream, hPending⟩
  · exact
      ⟨h.config, h.single, h.chunk, (absurd · Bool.false_ne_true),
        hPending⟩

/- Settings are refused unless nothing depends on them. -/
theorem setting_coherent
    (hShows : d.Shows a)
    (h : d.Coherent)
    {b : Bridge}
    (hBridge : ∃ config, b = { d.bridge with laConfig := config })
    (hBusy : laIsBusy d.bridge = true → b = d.bridge)
    (hConfig : b.laConfig.WellFormed) :
    Device.Coherent { d with bridge := b } := by
  cases hFree : laIsBusy d.bridge with
  | true =>
      rw [hBusy hFree]
      exact h
  | false =>
      rcases hBridge with ⟨config, rfl⟩
      have hNext :
          Device.Shows
            { d with
              bridge :=
                { d.bridge with laConfig := config } } a :=
        hShows.congr rfl rfl
      exact hNext.coherent_of_not_busy hFree hConfig

variable [CaptureModule]

theorem handleCommand_coherent
    (hShows : d.Shows a)
    (h : d.Coherent)
    (env : Env)
    (id : Nat)
    (data : List UInt8) :
    (handleCommand env id data d
      (parseCommand data)).1.Coherent := by
  have hIdle : isBusy d = false → d.Shows .idle := by
    intro hFree
    rw [← hShows.eq_idle_of_not_busy hFree]
    exact hShows
  have hConfig :
      ∀ command, parseCommand data = command →
        (handleCommand env id data d
          command).1.bridge.laConfig.WellFormed := by
    rintro _ rfl
    exact
      (handleCommand_changes env id data d).wellFormed
        h.config
  cases hCommand : parseCommand data with
  | status => exact h
  | pinTest => exact h
  | unknown => exact h
  | singleCapture =>
      simp only [handleCommand]
      split
      · exact h
      · rename_i hFree
        exact
          startSingleCapture_coherent
            (hIdle (by simpa using hFree)) h env id
  | captureChainStart =>
      simp only [handleCommand, captureChainStart]
      split
      · exact h
      · exact
          ⟨h.config, h.single, h.chunk, h.stream, h.pending⟩
  | captureChainStop => exact captureChainStop_coherent h env id
  | captureChainAnalysisStart =>
      by_cases hFree : isBusy d = true
      · simp only [handleCommand, captureChainAnalysisStart,
          hFree, if_true]
        exact h
      · exact
          captureChainAnalysisStart_coherent
            (hIdle (by simpa using hFree)) h env id
  | captureChainAnalysisStop =>
      exact captureChainAnalysisStop_coherent h env id
  | streamStart =>
      simp only [handleCommand, streamStartCommand_state]
      by_cases hFree : isBusy d = true
      · rw [startStream_of_busy env id _ hFree]
        exact h
      · exact
          startStream_coherent
            (hIdle (by simpa using hFree)) h env id _
  | streamAnalysisStart =>
      simp only [handleCommand, streamStartCommand_state]
      by_cases hFree : isBusy d = true
      · rw [startStream_of_busy env id _ hFree]
        exact h
      · exact
          startStream_coherent
            (hIdle (by simpa using hFree)) h env id _
  | streamStop => exact stopStream_coherent h
  | streamAnalysisStop => exact stopStream_coherent h
  | setFreq value =>
      apply setting_coherent hShows h
        (laConfigureFrequency_bridge (some value) d.bridge)
      · intro hBusy
        simp [laConfigureFrequency, hBusy]
      · exact hConfig _ hCommand
  | setChunkSize value =>
      apply setting_coherent hShows h
        (laConfigureChunkBytes_bridge (some value) d.bridge)
      · intro hBusy
        simp [laConfigureChunkBytes, hBusy]
      · exact hConfig _ hCommand
  | setChannelMask value =>
      apply setting_coherent hShows h
        (laConfigureChannelMask_bridge (some value) d.bridge)
      · intro hBusy
        simp [laConfigureChannelMask, hBusy]
      · exact hConfig _ hCommand

end PicoLogicAnalyzer

------------------------------------------------------------
-- Coherence Of Reachable States
------------------------------------------------------------

namespace PicoLogicAnalyzer

variable [CaptureModule] {d : Device} {a : Activity}

theorem Device.step_coherent
    (hShows : d.Shows a)
    (h : d.Coherent)
    (i : Input) :
    (Device.step d i).1.Coherent := by
  cases i with
  | message env id data =>
      exact handleCommand_coherent hShows h env id data
  | connect env id => exact h
  | disconnect id => exact h
  | singleCaptureTasks env =>
      exact singleCaptureTasks_coherent h env
  | captureChainTasks env =>
      exact captureChainTasks_coherent hShows h env
  | streamTake env => exact streamTasksTake_coherent h env
  | streamSend env => exact streamTasksSend_coherent h env
  | captureWrite memory =>
      simp only [Device.step, captureWrite]
      split
      · refine ⟨h.config, h.single, ?_, h.stream, h.pending⟩
        intro hActive
        exact (h.chunk hActive).keep rfl rfl rfl rfl
      · exact h
  | captureDone tail =>
      simp only [Device.step, captureDone]
      split
      · refine ⟨h.config, h.single, ?_, h.stream, h.pending⟩
        intro hActive
        exact (h.chunk hActive).keep rfl rfl rfl rfl
      · exact h
  | dmaWrite position byte =>
      simp only [Device.step, dmaWrite]
      split
      · refine ⟨h.config, h.single, ?_, h.stream, h.pending⟩
        intro hActive
        exact (h.chunk hActive).keep rfl rfl rfl rfl
      · exact h
  | dmaInterrupt =>
      simp only [Device.step, dmaInterrupt]
      split
      · exact ⟨h.config, h.single, h.chunk, h.stream, h.pending⟩
      · exact h

theorem Device.Reachable.coherent
    (hReachable : d.Reachable) :
    d.Coherent := by
  have hBoth : (∃ a, d.Shows a) ∧ d.Coherent := by
    refine Device.Reachable.invariant
      (P := fun d => (∃ a, d.Shows a) ∧ d.Coherent)
      ?_ ?_ hReachable
    · intro hw
      exact ⟨⟨.idle, Device.boot_shows hw⟩,
        Device.boot_coherent hw⟩
    · rintro d i ⟨⟨a, hShows⟩, h⟩
      exact ⟨Device.step_shows hShows i,
        Device.step_coherent hShows h i⟩
  exact hBoth.2

end PicoLogicAnalyzer
