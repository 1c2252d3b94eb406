import PicoLogicAnalyzer.Firmware.StreamSystem

/-
  The invariant of a stream and its DMA.

  Whatever the DMA, its interrupt and the main loop do, the
  ring holds the latest input, the counters of the bridge do
  not run ahead of the writer, and a block in hand stands for
  a complete chunk.

  Key definitions include:
    * `AnalysisBlock.IsChunkOf`
    * `StreamSystem.Sound`
    * `StreamInput.KeepsOpen`

  Key theorems include:
    * `StreamSystem.Sound.produced_le_transferred`
    * `StreamSystem.Sound.step`
    * `StreamSystem.run_sound`
-/

------------------------------------------------------------
-- Sound States
------------------------------------------------------------

namespace PicoLogicAnalyzer

open Word

/- The block stands for chunk `n` of the input. -/
structure AnalysisBlock.IsChunkOf
    (block : AnalysisBlock)
    (config : LaConfig)
    (n : Nat) : Prop where
  data :
    block.data =
      n % (captureBufferSize / config.chunkBytes) *
        config.chunkBytes
  bytes : block.bytes = config.chunkBytes
  firstSample : block.firstSample = n * config.chunkSamples

/-
  The buffer holds the latest input, the counters of the
  bridge do not run ahead of the DMA, and a block in hand is
  a complete chunk.
-/
structure StreamSystem.Sound
    (input : Nat → UInt8)
    (config : LaConfig)
    (s : StreamSystem) : Prop where
  session :
    ∃ analysis pending trace,
      StreamSession config analysis pending trace s.device
  holds :
    Ring.Holds captureBufferSize
      s.device.bridge.hw.captureBuffer input s.written
  produced_le :
    s.device.bridge.laStreamLastProducedBytes ≤
      s.transferred config.bytesPerSample
  serviced_le : s.serviced ≤ s.passes
  passes_eq :
    s.device.bridge.laStreamCompletedPasses = u32 s.serviced
  pending :
    s.device.streamBlockPending = true →
      ∃ n,
        s.device.pendingAnalysisBlock.IsChunkOf config n ∧
          (n + 1) * config.chunkBytes ≤ s.written

namespace StreamSystem.Sound

variable {input : Nat → UInt8} {config : LaConfig}
variable {s : StreamSystem}

theorem running (h : s.Sound input config) :
    s.device.bridge.laStreamRunning = true := by
  rcases h.session with ⟨analysis, pending, trace, hSession⟩
  exact hSession.shows.laStreamRunning

theorem config_eq (h : s.Sound input config) :
    s.device.bridge.laConfig = config := by
  rcases h.session with ⟨analysis, pending, trace, hSession⟩
  exact hSession.config_eq

theorem wellFormed (h : s.Sound input config) :
    config.WellFormed := by
  rcases h.session with ⟨analysis, pending, trace, hSession⟩
  have hConfig := hSession.coherent.config
  rwa [hSession.config_eq] at hConfig

/- The DMA transfers samples of the configured width. -/
theorem dmaWidth (h : s.Sound input config) :
    laBytesPerSampleMode s.device.bridge.hw.dmaMode =
      config.bytesPerSample := by
  rcases h.session with ⟨analysis, pending, trace, hSession⟩
  have hMode := hSession.coherent.stream h.running
  rw [hMode, hSession.config_eq, h.wellFormed.width_eq]

theorem counted_le (h : s.Sound input config) :
    s.device.bridge.laStreamCompletedPasses ≤ s.passes := by
  rw [h.passes_eq]
  exact (u32_le _).trans h.serviced_le

end StreamSystem.Sound

end PicoLogicAnalyzer

------------------------------------------------------------
-- Hardware Activity
------------------------------------------------------------

namespace PicoLogicAnalyzer

open Word

namespace StreamSystem.Sound

variable {input : Nat → UInt8} {config : LaConfig}
variable {s : StreamSystem}

/- A device input that keeps the session open. -/
theorem session_step
    [CaptureModule]
    (h : s.Sound input config)
    {i : Input}
    (hKeeps : i.KeepsStream) :
    ∃ analysis pending trace,
      StreamSession config analysis pending trace
        (Device.step s.device i).1 := by
  rcases h.session with ⟨analysis, pending, trace, hSession⟩
  rcases hSession.step hKeeps with ⟨pending', hNext⟩
  exact ⟨analysis, pending', _, hNext⟩

theorem act
    [CaptureModule]
    (h : s.Sound input config)
    (action : DmaAction) :
    (s.act input action).Sound input config := by
  have hRunning := h.running
  cases action with
  | write =>
      have hSession :
          ∃ analysis pending trace,
            StreamSession config analysis pending trace
              (dmaWrite (s.written % captureBufferSize)
                (input s.written) s.device) :=
        h.session_step
          (i := .dmaWrite (s.written % captureBufferSize)
            (input s.written)) trivial
      have hWrite :=
        dmaWrite_of_running hRunning s.written
          (input s.written)
      simp only [StreamSystem.act]
      split
      · rw [hWrite] at hSession ⊢
        refine
          ⟨hSession, h.holds.write, ?_, ?_, h.passes_eq, ?_⟩
        · exact
            h.produced_le.trans
              (Nat.mul_le_mul_right _
                (Nat.div_le_div_right (Nat.le_succ _)))
        · exact
            h.serviced_le.trans
              (Nat.div_le_div_right (Nat.le_succ _))
        · intro hPending
          rcases h.pending hPending with ⟨n, hChunk, hDone⟩
          exact ⟨n, hChunk, hDone.trans (Nat.le_succ _)⟩
      · exact h
  | handOver =>
      exact
        ⟨h.session, h.holds, h.produced_le, h.serviced_le,
          h.passes_eq, h.pending⟩
  | interrupt =>
      have hSession :
          ∃ analysis pending trace,
            StreamSession config analysis pending trace
              (dmaInterrupt s.device) :=
        h.session_step (i := .dmaInterrupt) trivial
      have hService := dmaInterrupt_of_running hRunning
      simp only [StreamSystem.act]
      split
      · rename_i hDue
        rw [hService] at hSession ⊢
        refine
          ⟨hSession, h.holds, h.produced_le, hDue, ?_,
            h.pending⟩
        simp only [laStreamDmaHandler, h.passes_eq]
        exact u32_u32_add s.serviced 1
      · exact h

theorem acts
    [CaptureModule]
    (h : s.Sound input config)
    (actions : List DmaAction) :
    (s.acts input actions).Sound input config :=
  StreamSystem.acts_invariant
    (fun _ action hSound => hSound.act action) h actions

theorem sample
    [CaptureModule]
    (h : s.Sound input config)
    (timing : ReadTiming) :
    (s.sample input timing).1.Sound input config :=
  (((h.acts timing.beforeBusy0).acts
    timing.beforeCount0).acts
      timing.beforeBusy1).acts timing.beforeCount1

end StreamSystem.Sound

end PicoLogicAnalyzer

------------------------------------------------------------
-- The Task
------------------------------------------------------------

namespace PicoLogicAnalyzer

open Word

/- Inputs that leave the session open. -/
def StreamInput.KeepsOpen : StreamInput → Prop
| .other i => i.IsElsewhere
| _ => True

namespace StreamSystem.Sound

variable {input : Nat → UInt8} {config : LaConfig}
variable {s : StreamSystem}

/- One call of `la_stream_produced_bytes` in a session. -/
theorem produced_le_transferred
    [CaptureModule]
    (h : s.Sound input config)
    (timing : ReadTiming) :
    (laStreamProducedBytes (s.sample input timing).2
        (s.sample input timing).1.device.bridge).2 ≤
      (s.sample input timing).1.transferred
        config.bytesPerSample := by
  have hSampled := h.sample timing
  have hProduced :=
    StreamSystem.produced_le_transferred
      (s := s) (b := (s.sample input timing).1.device.bridge)
      (by rw [h.dmaWidth, hSampled.config_eq])
      (by
        rw [hSampled.config_eq]
        exact h.wellFormed.width_dvd_buffer)
      h.counted_le input timing
      (by
        rw [hSampled.config_eq]
        exact hSampled.produced_le)
  rwa [hSampled.config_eq] at hProduced

/- The take half of the task. -/
theorem take
    [CaptureModule]
    (h : s.Sound input config)
    (env : Env)
    (timing : ReadTiming) :
    (s.step input (.take env timing)).1.Sound input config := by
  have hSampled := h.sample timing
  have hProduced := h.produced_le_transferred timing
  have hSession :=
    hSampled.session_step
      (i :=
        .streamTake
          { env with reads := (s.sample input timing).2 })
      trivial
  simp only [StreamSystem.step]
  simp only [Device.step] at hSession
  rcases hSampled.session with
    ⟨analysis, pending, trace, hOpen⟩
  cases pending with
  | true =>
      have hPending :
          (s.sample input timing).1.device.streamBlockPending =
            true :=
        hOpen.shows.streamBlockPending
      have hNothing :
          streamTasksTake
              { env with reads := (s.sample input timing).2 }
              (s.sample input timing).1.device =
            ((s.sample input timing).1.device, []) := by
        simp [streamTasksTake, hPending]
      rw [hNothing]
      exact hSampled
  | false =>
      rcases streamTasksTake_spec hOpen.shows
        hOpen.coherent.config hOpen.bound hOpen.overruns_lt
        { env with reads := (s.sample input timing).2 } with
        ⟨produced, hResult, hCount, _, _, _⟩ |
          ⟨n, produced, overruns, block, b', hResult, _,
            hCount, hTaken⟩
      · rw [hResult] at hSession ⊢
        rw [hCount] at hProduced
        exact
          ⟨hSession, hSampled.holds, hProduced,
            hSampled.serviced_le, hSampled.passes_eq,
            hSampled.pending⟩
      · have hBridge := hTaken.bridge
        have hConfig := hSampled.config_eq
        have hComplete := hTaken.complete
        rw [hResult] at hSession ⊢
        rw [hCount] at hProduced
        subst hBridge
        refine
          ⟨hSession, hSampled.holds, hProduced,
            hSampled.serviced_le, hSampled.passes_eq, ?_⟩
        intro _
        rw [hConfig] at hComplete
        refine
          ⟨n, ⟨?_, ?_, ?_⟩,
            hComplete.trans
              (hProduced.trans
                (StreamSystem.transferred_le _ _))⟩
        · rw [← hConfig]
          exact hTaken.data
        · rw [← hConfig]
          exact hTaken.bytes
        · rw [← hConfig]
          exact hTaken.firstSample

/- The send half of the task. -/
theorem send
    [CaptureModule]
    (h : s.Sound input config)
    (env : Env) :
    (s.step input (.send env)).1.Sound input config := by
  have hSession :=
    h.session_step (i := .streamSend env) trivial
  simp only [Device.step] at hSession
  simp only [StreamSystem.step]
  rcases h.session with ⟨analysis, pending, trace, hOpen⟩
  cases pending with
  | false =>
      rw [streamTasksSend_of_not_pending env
        hOpen.shows.streamBlockPending]
      exact h
  | true =>
      have hPending : s.device.streamBlockPending = true :=
        hOpen.shows.streamBlockPending
      have hSmall := hOpen.coherent.pending_le (Or.inr hPending)
      rw [streamTasksSend_spec hPending hSmall env]
        at hSession ⊢
      cases hAccepted : env.blockAccepted with
      | false =>
          simp only [Bool.false_eq_true, if_false]
          exact h
      | true =>
          rw [hAccepted] at hSession
          simp only [if_true] at hSession ⊢
          refine
            ⟨hSession, h.holds, h.produced_le, h.serviced_le,
              h.passes_eq, ?_⟩
          intro hStill
          cases hStill

/- One input of the system. -/
theorem step
    [CaptureModule]
    (h : s.Sound input config)
    {i : StreamInput}
    (hOpen : i.KeepsOpen) :
    (s.step input i).1.Sound input config := by
  cases i with
  | dma action => exact h.act action
  | take env timing => exact h.take env timing
  | send env => exact h.send env
  | other i =>
      have hKeeps : i.KeepsStream := by
        cases i with
        | message env id data => exact hOpen
        | _ => trivial
      have hSession := h.session_step hKeeps
      rcases h.session with ⟨analysis, pending, trace, hShown⟩
      rcases Device.step_elsewhere hShown.shows hOpen with
        ⟨pull, hState⟩
      simp only [StreamSystem.step]
      rw [hState] at hSession ⊢
      exact
        ⟨hSession, h.holds, h.produced_le, h.serviced_le,
          h.passes_eq, h.pending⟩

end StreamSystem.Sound

/- A session starts with nothing written. -/
theorem StreamSystem.start_sound
    [CaptureModule]
    {d : Device}
    (hShows : d.Shows .idle)
    (hCoherent : d.Coherent)
    {analysis : Bool}
    (env : Env)
    (id : Nat)
    {data : List UInt8}
    (hCommand :
      parseCommand data = Command.startsStream analysis)
    (input : Nat → UInt8) :
    (StreamSystem.start
        (Device.step d (.message env id data)).1).Sound
      input d.bridge.laConfig := by
  have hSession :=
    StreamSession.start hShows hCoherent env id hCommand
  rcases StreamSession.start_result hShows env id hCommand with
    ⟨mode, record, text, hResult⟩
  rw [hResult] at hSession ⊢
  exact
    ⟨⟨analysis, false, _, hSession⟩, Ring.holds_zero _ _ _,
      Nat.zero_le _, Nat.zero_le _, rfl,
      (absurd · Bool.false_ne_true)⟩

/- Every state of a session is sound. -/
theorem StreamSystem.run_sound
    [CaptureModule]
    (input : Nat → UInt8)
    {d : Device}
    (hReachable : d.Reachable)
    (hFree : isBusy d = false)
    {analysis : Bool}
    (env : Env)
    (id : Nat)
    {data : List UInt8}
    (hCommand :
      parseCommand data = Command.startsStream analysis)
    {inputs : List StreamInput}
    (hOpen : ∀ i ∈ inputs, i.KeepsOpen) :
    (Machine.run (StreamSystem.step input)
        (StreamSystem.start
          (Device.step d (.message env id data)).1)
        inputs).1.Sound input d.bridge.laConfig := by
  rcases hReachable.shows with ⟨a, hShows⟩
  cases hShows.eq_idle_of_not_busy hFree
  have hStart :=
    StreamSystem.start_sound hShows hReachable.coherent env id
      hCommand input
  have hGuarded :
      Machine.Guarded (StreamSystem.step input)
        (fun _ i => i.KeepsOpen)
        (StreamSystem.start
          (Device.step d (.message env id data)).1)
        inputs :=
    Machine.Guarded.of_forall
      (fun i hMember _ => hOpen i hMember) _
  exact
    hGuarded.invariant
      (P := StreamSystem.Sound input d.bridge.laConfig)
      (fun _ _ h hInput => h.step hInput) hStart

end PicoLogicAnalyzer
