import PicoLogicAnalyzer.Firmware.Progress
import PicoLogicAnalyzer.Lib.Backlog

/-
  Streams that keep up with their input.

  A turn of the main loop offers `stream_tasks` one take and
  one send, so at most one chunk leaves the buffer in it. The
  buffer absorbs what comes in beyond that for a while; as
  long as it is not exhausted the stream delivers its input
  without a gap.

  Key definitions include:
    * `StreamRound` and `StreamSystem.round`
    * `StreamSystem.OnTrack`
    * `Lossless`

  Key theorems include:
    * `StreamSystem.OnTrack.round`
    * `stream_lossless`
-/

------------------------------------------------------------
-- Turns Of The Main Loop
------------------------------------------------------------

namespace PicoLogicAnalyzer

/- Hardware activity and inputs of other parts. -/
def StreamInput.IsBackground : StreamInput → Prop
| .dma _ => True
| .other i => i.IsElsewhere
| _ => False

/-
  One turn of the main loop: `stream_tasks` takes and then
  sends; anything else may go on before and in between.
-/
structure StreamRound where
  before : List StreamInput
  takeEnv : Env
  timing : ReadTiming
  between : List StreamInput
  sendEnv : Env

namespace StreamRound

def inputs (r : StreamRound) : List StreamInput :=
  r.before ++ .take r.takeEnv r.timing ::
    (r.between ++ [.send r.sendEnv])

def IsBackground (r : StreamRound) : Prop :=
  (∀ i ∈ r.before, i.IsBackground) ∧
    ∀ i ∈ r.between, i.IsBackground

end StreamRound

def ReadTiming.isImmediate (timing : ReadTiming) : Bool :=
  timing.beforeBusy0.isEmpty &&
    timing.beforeCount0.isEmpty &&
    timing.beforeBusy1.isEmpty &&
    timing.beforeCount1.isEmpty

theorem ReadTiming.eq_immediate
    {timing : ReadTiming}
    (h : timing.isImmediate = true) :
    timing = ReadTiming.immediate := by
  cases timing with
  | mk busy0 count0 busy1 count1 =>
      simp only [ReadTiming.isImmediate, Bool.and_eq_true,
        List.isEmpty_iff] at h
      rcases h with ⟨⟨⟨rfl, rfl⟩, rfl⟩, rfl⟩
      rfl

namespace StreamSystem

/- All complete passes are counted and a channel runs. -/
def settled (s : StreamSystem) : Bool :=
  s.serviced == s.passes && s.active

/-
  A turn with the load it puts on the stream: the bytes that
  came in, and whether the reads of its take were undisturbed
  and its send could succeed.
-/
def round
    [CaptureModule]
    (input : Nat → UInt8)
    (s : StreamSystem)
    (r : StreamRound) :
    StreamSystem × List (Backlog.Load × List Delivery) :=
  let atTake := (Machine.run (step input) s r.before).1
  let result := Machine.run (step input) s r.inputs
  (result.1,
    [({ arrived := result.1.written - s.written
        served :=
          atTake.settled && r.timing.isImmediate &&
            r.sendEnv.blockAccepted },
      result.2)])

end StreamSystem

end PicoLogicAnalyzer

------------------------------------------------------------
-- Streams On Track
------------------------------------------------------------

namespace PicoLogicAnalyzer

open Word

/-
  The first `delivered` chunks have left the buffer, none has
  been skipped, and the block in hand is the next one.
-/
structure StreamSystem.OnTrack
    (input : Nat → UInt8)
    (config : LaConfig)
    (delivered : Nat)
    (s : StreamSystem) : Prop where
  sound : s.Sound input config
  overruns : s.device.bridge.laStreamOverruns = 0
  next :
    s.device.bridge.laStreamNextChunk =
      delivered + s.device.streamBlockPending.toNat
  stored : delivered * config.chunkBytes ≤ s.written
  block :
    s.device.streamBlockPending = true →
      s.device.pendingAnalysisBlock.IsChunkOf config
          delivered ∧
        (delivered + 1) * config.chunkBytes ≤ s.written

/- Hardware activity does not touch the session itself. -/
theorem StreamSystem.Sound.act_beside
    [CaptureModule]
    {input : Nat → UInt8}
    {config : LaConfig}
    {s : StreamSystem}
    (h : s.Sound input config)
    (action : DmaAction) :
    s.device.Beside (s.act input action).device := by
  rcases h.session with ⟨analysis, pending, trace, hSession⟩
  cases action with
  | write =>
      simp only [StreamSystem.act]
      split
      · exact
          (Device.step_beside hSession.shows rfl
            (i := .dmaWrite (s.written % captureBufferSize)
              (input s.written)) id).1
      · exact Device.Beside.refl _
  | handOver => exact Device.Beside.refl _
  | interrupt =>
      simp only [StreamSystem.act]
      split
      · exact
          (Device.step_beside hSession.shows rfl
            (i := .dmaInterrupt) id).1
      · exact Device.Beside.refl _

namespace StreamSystem

variable (input : Nat → UInt8)

/- Invariant rule for the reads of one call. -/
theorem sample_invariant
    {P : StreamSystem → Prop}
    (hAct : ∀ s action, P s → P (s.act input action))
    {s : StreamSystem}
    (h : P s)
    (timing : ReadTiming) :
    P (s.sample input timing).1 := by
  apply acts_invariant hAct
  apply acts_invariant hAct
  apply acts_invariant hAct
  exact acts_invariant hAct h timing.beforeBusy0

theorem written_le_sample
    (timing : ReadTiming)
    (s : StreamSystem) :
    s.written ≤ (s.sample input timing).1.written := by
  rcases sample_spec input timing s with
    ⟨s1, s2, s3, hFirst, hSecond, hThird, hFourth, _⟩
  exact
    (((hFirst.trans hSecond).trans hThird).trans
      hFourth).written_le

variable [CaptureModule]

/- Stored bytes are never taken back. -/
theorem written_le_step
    (s : StreamSystem)
    (i : StreamInput) :
    s.written ≤ (s.step input i).1.written := by
  cases i with
  | dma action => exact (later_act input s action).written_le
  | take env timing => exact written_le_sample input timing s
  | send env => exact Nat.le_refl _
  | other i => exact Nat.le_refl _

theorem written_le_run
    (s : StreamSystem)
    (inputs : List StreamInput) :
    s.written ≤
      (Machine.run (step input) s inputs).1.written :=
  Machine.run_invariant
    (P := fun s' => s.written ≤ s'.written)
    (fun s' i h => h.trans (written_le_step input s' i))
    (Nat.le_refl _) inputs

end StreamSystem

namespace StreamSystem.OnTrack

variable {input : Nat → UInt8} {config : LaConfig}
variable {delivered : Nat} {s s' : StreamSystem}

/- Nothing but the surroundings of the session has changed. -/
theorem beside
    (h : s.OnTrack input config delivered)
    (hSound : s'.Sound input config)
    (hBeside : s.device.Beside s'.device)
    (hWritten : s.written ≤ s'.written) :
    s'.OnTrack input config delivered ∧
      s'.device.streamBlockPending =
        s.device.streamBlockPending := by
  rcases hBeside with ⟨pull, memory, passes, hState⟩
  have hPending :
      s'.device.streamBlockPending =
        s.device.streamBlockPending := by
    rw [hState]
  have hBlock :
      s'.device.pendingAnalysisBlock =
        s.device.pendingAnalysisBlock := by
    rw [hState]
  have hNext :
      s'.device.bridge.laStreamNextChunk =
        s.device.bridge.laStreamNextChunk := by
    rw [hState]
  have hOverruns :
      s'.device.bridge.laStreamOverruns =
        s.device.bridge.laStreamOverruns := by
    rw [hState]
  refine ⟨⟨hSound, ?_, ?_, ?_, ?_⟩, hPending⟩
  · rw [hOverruns, h.overruns]
  · rw [hNext, hPending, h.next]
  · exact h.stored.trans hWritten
  · rw [hPending, hBlock]
    intro hHeld
    rcases h.block hHeld with ⟨hChunk, hDone⟩
    exact ⟨hChunk, hDone.trans hWritten⟩

variable [CaptureModule]

/- Hardware activity. -/
theorem act
    (h : s.OnTrack input config delivered)
    (action : DmaAction) :
    (s.act input action).OnTrack input config delivered ∧
      (s.act input action).device.streamBlockPending =
        s.device.streamBlockPending :=
  h.beside (h.sound.act action) (h.sound.act_beside action)
    (StreamSystem.later_act input s action).written_le

theorem sample
    (h : s.OnTrack input config delivered)
    (timing : ReadTiming) :
    (s.sample input timing).1.OnTrack input config
        delivered ∧
      (s.sample input timing).1.device.streamBlockPending =
        s.device.streamBlockPending := by
  apply StreamSystem.sample_invariant
    (P := fun s' =>
      s'.OnTrack input config delivered ∧
        s'.device.streamBlockPending =
          s.device.streamBlockPending)
  · rintro s' action ⟨hTrack, hSame⟩
    rcases hTrack.act action with ⟨hTrack', hSame'⟩
    exact ⟨hTrack', hSame'.trans hSame⟩
  · exact ⟨h, rfl⟩

/- Background inputs deliver nothing. -/
theorem background
    (h : s.OnTrack input config delivered)
    {i : StreamInput}
    (hInput : i.IsBackground) :
    ((s.step input i).1.OnTrack input config delivered ∧
        (s.step input i).1.device.streamBlockPending =
          s.device.streamBlockPending) ∧
      (s.step input i).2 = [] := by
  cases i with
  | dma action => exact ⟨h.act action, rfl⟩
  | other i =>
      have hSound :=
        h.sound.step (i := .other i) hInput
      rcases h.sound.session with
        ⟨analysis, pending, trace, hSession⟩
      rcases Device.step_elsewhere hSession.shows hInput with
        ⟨pull, hState⟩
      refine ⟨h.beside hSound ?_ (Nat.le_refl _), rfl⟩
      simp only [StreamSystem.step, hState]
      exact Device.Beside.withPull _ _
  | take env timing => exact hInput.elim
  | send env => exact hInput.elim

theorem run_background
    (h : s.OnTrack input config delivered)
    {inputs : List StreamInput}
    (hInputs : ∀ i ∈ inputs, i.IsBackground) :
    ∃ s',
      Machine.run (StreamSystem.step input) s inputs =
          (s', []) ∧
        s'.OnTrack input config delivered ∧
        s'.device.streamBlockPending =
          s.device.streamBlockPending := by
  induction inputs generalizing s with
  | nil => exact ⟨s, rfl, h, rfl⟩
  | cons i inputs ih =>
      rcases h.background (hInputs i List.mem_cons_self) with
        ⟨⟨hTrack, hSame⟩, hNothing⟩
      rcases ih hTrack
        (fun j hMember =>
          hInputs j (List.mem_cons_of_mem i hMember)) with
        ⟨s', hRun, hEnd, hRest⟩
      refine ⟨s', ?_, hEnd, hRest.trans hSame⟩
      rw [Machine.run_cons, hNothing, hRun]
      rfl

end StreamSystem.OnTrack

end PicoLogicAnalyzer

------------------------------------------------------------
-- Taking And Sending On Track
------------------------------------------------------------

namespace PicoLogicAnalyzer

open Word

namespace StreamSystem.OnTrack

variable {input : Nat → UInt8} {config : LaConfig}
variable {delivered : Nat} {s : StreamSystem}

/- With room left in the buffer a take skips nothing. -/
theorem taken_eq
    (h : s.OnTrack input config delivered)
    (hFree : s.device.streamBlockPending = false)
    (hRoom :
      s.written <
        delivered * config.chunkBytes + captureBufferSize)
    {n produced overruns : Nat}
    {block : AnalysisBlock}
    {b' : Bridge}
    (hProduced : produced ≤ s.written)
    (hTaken :
      StreamTaken s.device.bridge n produced overruns block
        b') :
    n = delivered := by
  have hConfig := h.sound.wellFormed
  have hNext :
      s.device.bridge.laStreamNextChunk = delivered := by
    rw [h.next, hFree]
    rfl
  have hFrom := hTaken.next_le
  rw [hNext] at hFrom
  by_contra hOther
  have hSkip :=
    hTaken.skipped delivered hNext.le
      (lt_of_le_of_ne hFrom (Ne.symm hOther))
  rw [h.sound.config_eq,
    Nat.le_div_iff_mul_le hConfig.chunk_pos, Nat.add_mul,
    Nat.div_mul_cancel hConfig.chunk_dvd] at hSkip
  omega

/- The next chunk is taken. -/
theorem taken
    (h : s.OnTrack input config delivered)
    (hFree : s.device.streamBlockPending = false)
    (hRoom :
      s.written <
        delivered * config.chunkBytes + captureBufferSize)
    {n produced overruns : Nat}
    {block : AnalysisBlock}
    {b' : Bridge}
    (hProduced : produced ≤ s.written)
    (hTaken :
      StreamTaken s.device.bridge n produced overruns block b')
    {s' : StreamSystem}
    (hSound : s'.Sound input config)
    (hDevice :
      s'.device =
        { s.device with
          bridge := b'
          streamBlockPending := true
          pendingAnalysisBlock := block })
    (hWritten : s'.written = s.written) :
    s'.OnTrack input config delivered := by
  have hChunk :=
    h.taken_eq hFree hRoom hProduced hTaken
  have hConfig := h.sound.config_eq
  have hNext := h.next
  have hCount := hTaken.overruns_eq
  have hComplete := hTaken.complete
  rw [hFree] at hNext
  rw [hConfig, hChunk] at hComplete
  rw [h.overruns, hNext, hChunk] at hCount
  refine ⟨hSound, ?_, ?_, ?_, ?_⟩
  · rw [hDevice, hTaken.bridge]
    simpa [u32] using hCount
  · rw [hDevice, hTaken.bridge, ← hChunk]
    rfl
  · rw [hWritten]
    exact h.stored
  · intro _
    rw [hDevice, hWritten]
    refine ⟨⟨?_, ?_, ?_⟩, hComplete.trans hProduced⟩
    · rw [← hConfig, ← hChunk]
      exact hTaken.data
    · rw [← hConfig]
      exact hTaken.bytes
    · rw [← hConfig, ← hChunk]
      exact hTaken.firstSample

variable [CaptureModule]

/- A take keeps the block in hand or takes the next chunk. -/
theorem take
    (h : s.OnTrack input config delivered)
    (env : Env)
    (timing : ReadTiming)
    {s' : StreamSystem}
    (hState : (s.step input (.take env timing)).1 = s')
    (hRoom :
      s'.written <
        delivered * config.chunkBytes + captureBufferSize) :
    s'.OnTrack input config delivered ∧
      (s.device.streamBlockPending = true →
        s'.device.streamBlockPending = true) := by
  have hSound := h.sound.take env timing
  have hBound := h.sound.produced_le_transferred timing
  rcases h.sample timing with ⟨hSampled, hPending⟩
  rw [hState] at hSound
  simp only [StreamSystem.step] at hState
  generalize s.sample input timing = sampled at *
  rcases hSampled.sound.session with
    ⟨analysis, pending, trace, hOpen⟩
  have hFlag :
      sampled.1.device.streamBlockPending = pending :=
    hOpen.shows.streamBlockPending
  have hWritten : s'.written = sampled.1.written := by
    rw [← hState]
  rw [hWritten] at hRoom
  cases pending with
  | true =>
      have hNothing :
          streamTasksTake { env with reads := sampled.2 }
              sampled.1.device =
            (sampled.1.device, []) := by
        simp [streamTasksTake, hFlag]
      rw [hNothing] at hState
      subst hState
      exact ⟨hSampled, fun _ => hFlag⟩
  | false =>
      refine ⟨?_, ?_⟩
      · rcases streamTasksTake_spec hOpen.shows
          hOpen.coherent.config hOpen.bound hOpen.overruns_lt
          { env with reads := sampled.2 } with
          ⟨produced, hResult, _, _, _, _⟩ |
            ⟨n, produced, overruns, block, b', hResult, _,
              hCount, hTaken⟩
        · rw [hResult] at hState
          subst hState
          exact
            ⟨hSound, hSampled.overruns, hSampled.next,
              hSampled.stored, hSampled.block⟩
        · have hProduced :=
            hBound.trans (StreamSystem.transferred_le _ _)
          rw [hCount] at hProduced
          apply
            hSampled.taken hFlag hRoom hProduced hTaken hSound
              _ hWritten
          rw [← hState, hResult]
      · rw [← hPending, hFlag]
        exact (absurd · Bool.false_ne_true)

/- An undisturbed take gets a chunk that is complete. -/
theorem take_progress
    (h : s.OnTrack input config delivered)
    (hSettled : s.settled = true)
    (hLimit : s.written < 2 ^ 49)
    (hComplete :
      (delivered + 1) * config.chunkBytes ≤ s.written)
    (env : Env) :
    (s.step input
        (.take env
          ReadTiming.immediate)).1.device.streamBlockPending =
      true := by
  have hConfig := h.sound.wellFormed
  simp only [StreamSystem.settled, Bool.and_eq_true,
    beq_iff_eq] at hSettled
  have hExact :=
    (h.sound.quiet_exact_iff hSettled.1 hSettled.2).mpr
      (Or.inl hLimit)
  have hWhole :
      (delivered + 1) * config.chunkBytes ≤
        s.transferred config.bytesPerSample :=
    StreamSystem.le_transferred
      (hConfig.width_dvd_chunk.mul_left _) hComplete
  rcases h.sound.session with
    ⟨analysis, pending, trace, hOpen⟩
  have hFlag : s.device.streamBlockPending = pending :=
    hOpen.shows.streamBlockPending
  change
    (streamTasksTake
        { env with
          reads := (s.sample input ReadTiming.immediate).2 }
        s.device).1.streamBlockPending =
      true
  cases pending with
  | true => simp [streamTasksTake, hFlag]
  | false =>
      rcases streamTasksTake_spec hOpen.shows
        hOpen.coherent.config hOpen.bound hOpen.overruns_lt
        { env with
          reads := (s.sample input ReadTiming.immediate).2 }
        with
        ⟨produced, hResult, hCount, hEarly, _, _⟩ |
          ⟨n, produced, overruns, block, b', hResult, _, _, _⟩
      · -- The exact report covers the chunk.
        have hNext := h.next
        have hReady :
            delivered + 1 ≤ produced / config.chunkBytes := by
          rw [Nat.le_div_iff_mul_le hConfig.chunk_pos,
            ← hCount]
          exact hWhole.trans hExact.ge
        rw [hFlag] at hNext
        rw [h.sound.config_eq, hNext] at hEarly
        exact
          absurd hReady
            (Nat.not_le.mpr (Nat.lt_succ_of_le hEarly))
      · rw [hResult]

/- Nothing is sent without a block or against a refusal. -/
theorem send_nothing
    (h : s.OnTrack input config delivered)
    (env : Env)
    (hNothing :
      (s.device.streamBlockPending && env.blockAccepted) =
        false) :
    s.step input (.send env) = (s, []) := by
  rcases h.sound.session with
    ⟨analysis, pending, trace, hOpen⟩
  have hFlag : s.device.streamBlockPending = pending :=
    hOpen.shows.streamBlockPending
  simp only [StreamSystem.step]
  cases pending with
  | false =>
      rw [streamTasksSend_of_not_pending env hFlag]
      rfl
  | true =>
      rw [hFlag, Bool.true_and] at hNothing
      have hSmall := hOpen.coherent.pending_le (Or.inr hFlag)
      rw [streamTasksSend_spec hFlag hSmall env, hNothing]
      simp [Event.delivery_refused]

/- An accepted block carries the next chunk of the input. -/
theorem send_block
    (h : s.OnTrack input config delivered)
    (env : Env)
    (hBlock : s.device.streamBlockPending = true)
    (hAccepted : env.blockAccepted = true)
    (hRoom :
      s.written ≤
        delivered * config.chunkBytes + captureBufferSize) :
    ∃ s' delivery,
      s.step input (.send env) = (s', [delivery]) ∧
        s'.OnTrack input config (delivered + 1) ∧
        delivery.data =
          (List.range config.chunkBytes).map
            (fun j =>
              input (delivered * config.chunkBytes + j)) := by
  have hSound := h.sound.send env
  rcases h.sound.session with
    ⟨analysis, pending, trace, hOpen⟩
  have hSmall := hOpen.coherent.pending_le (Or.inr hBlock)
  rcases h.block hBlock with ⟨hChunk, hDone⟩
  have hStart :
      s.device.pendingAnalysisBlock.firstSample *
          config.bytesPerSample =
        delivered * config.chunkBytes := by
    rw [hChunk.firstSample, Nat.mul_assoc,
      h.sound.wellFormed.chunkSamples_mul]
  have hRead :=
    h.sound.read_eq hChunk hDone (by rw [hStart]; exact hRoom)
  have hNext := h.next
  rw [hBlock] at hNext
  simp only [StreamSystem.step] at hSound ⊢
  rw [streamTasksSend_spec hBlock hSmall env, hAccepted]
    at hSound ⊢
  simp only [if_true, List.filterMap_cons, List.filterMap_nil,
    Event.delivery_streamPayload] at hSound ⊢
  refine
    ⟨_, _, rfl, ⟨hSound, h.overruns, hNext, hDone, ?_⟩, ?_⟩
  · exact (absurd · Bool.false_ne_true)
  · simp only
    rw [hRead, hStart, hChunk.bytes]

end StreamSystem.OnTrack

end PicoLogicAnalyzer

------------------------------------------------------------
-- One Turn
------------------------------------------------------------

namespace PicoLogicAnalyzer

open Backlog

/-
  What a turn does to a stream on track: it delivers the next
  chunk or nothing, and unless it finds less than a chunk it
  delivers one when it can.
-/
structure RoundSpec
    (input : Nat → UInt8)
    (config : LaConfig)
    (delivered : Nat)
    (s s' : StreamSystem)
    (load : Load)
    (deliveries : List Delivery) : Prop where
  onTrack :
    s'.OnTrack input config (delivered + deliveries.length)
  data :
    deliveries.flatMap Delivery.data =
      (List.range (deliveries.length * config.chunkBytes)).map
        (fun j => input (delivered * config.chunkBytes + j))
  arrived : s'.written = s.written + load.arrived
  level :
    s'.written -
          (delivered + deliveries.length) * config.chunkBytes +
        load.room config.chunkBytes ≤
      s.written - delivered * config.chunkBytes +
        load.arrived ∨
    s'.written -
        (delivered + deliveries.length) * config.chunkBytes <
      config.chunkBytes + load.arrived

namespace StreamSystem.OnTrack

variable [CaptureModule]
variable {input : Nat → UInt8} {config : LaConfig}
variable {delivered : Nat} {s : StreamSystem}

/- Only an accepted send of a block in hand delivers. -/
theorem send
    (h : s.OnTrack input config delivered)
    (env : Env)
    (hRoom :
      s.written <
        delivered * config.chunkBytes + captureBufferSize) :
    ∃ s' deliveries,
      s.step input (.send env) = (s', deliveries) ∧
        s'.OnTrack input config
          (delivered + deliveries.length) ∧
        deliveries.length =
          (s.device.streamBlockPending &&
            env.blockAccepted).toNat ∧
        deliveries.flatMap Delivery.data =
          (List.range
              (deliveries.length * config.chunkBytes)).map
            (fun j =>
              input (delivered * config.chunkBytes + j)) := by
  cases hSends :
      (s.device.streamBlockPending && env.blockAccepted) with
  | false =>
      refine
        ⟨s, [], h.send_nothing env hSends, h, rfl, ?_⟩
      simp
  | true =>
      rw [Bool.and_eq_true] at hSends
      rcases h.send_block env hSends.1 hSends.2 hRoom.le with
        ⟨s', delivery, hStep, hTrack, hData⟩
      refine ⟨s', [delivery], hStep, hTrack, rfl, ?_⟩
      simp [hData]

/- An undisturbed take leaves a block in hand if it can. -/
theorem take_pending
    (h : s.OnTrack input config delivered)
    {env : Env}
    {timing : ReadTiming}
    {s' : StreamSystem}
    (hState : (s.step input (.take env timing)).1 = s')
    (hRoom :
      s'.written <
        delivered * config.chunkBytes + captureBufferSize)
    (hLimit : s.written < 2 ^ 49)
    (hSettled : s.settled = true)
    (hImmediate : timing.isImmediate = true)
    (hWork :
      s.device.streamBlockPending = true ∨
        (delivered + 1) * config.chunkBytes ≤ s.written) :
    s'.device.streamBlockPending = true := by
  rcases hWork with hHeld | hComplete
  · exact (h.take env timing hState hRoom).2 hHeld
  · cases ReadTiming.eq_immediate hImmediate
    rw [← hState]
    exact h.take_progress hSettled hLimit hComplete env

/- One turn of the main loop. -/
theorem round
    (h : s.OnTrack input config delivered)
    {r : StreamRound}
    (hBackground : r.IsBackground)
    {s' : StreamSystem}
    (hState : (s.round input r).1 = s')
    (hRoom :
      s'.written <
        delivered * config.chunkBytes + captureBufferSize)
    (hLimit : s'.written < 2 ^ 49) :
    ∃ load deliveries,
      (s.round input r).2 = [(load, deliveries)] ∧
        RoundSpec input config delivered s s' load
          deliveries := by
  rcases h.run_background hBackground.1 with
    ⟨s1, hBefore, hTrack1, _⟩
  have hGrow1 : s.written ≤ s1.written := by
    have hGrow := s.written_le_run input r.before
    rwa [hBefore] at hGrow
  have hGrow2 :=
    s1.written_le_step input (.take r.takeEnv r.timing)
  generalize hTake :
    (s1.step input (.take r.takeEnv r.timing)).1 = s2 at hGrow2
  have hInputs :
      Machine.run (StreamSystem.step input) s r.inputs =
        Machine.run (StreamSystem.step input) s2
          (r.between ++ [.send r.sendEnv]) := by
    rw [StreamRound.inputs, Machine.run_append, hBefore,
      Machine.run_cons, hTake]
    rfl
  have hGrow3 : s2.written ≤ s'.written := by
    rw [← hState, StreamSystem.round, hInputs]
    exact s2.written_le_run input _
  have hRoom2 := hGrow3.trans_lt hRoom
  have hLimit1 := (hGrow2.trans hGrow3).trans_lt hLimit
  have hTrack2 :=
    (hTrack1.take r.takeEnv r.timing hTake hRoom2).1
  rcases hTrack2.run_background hBackground.2 with
    ⟨s3, hBetween, hTrack3, hPending3⟩
  have hEnd :
      Machine.run (StreamSystem.step input) s r.inputs =
        s3.step input (.send r.sendEnv) := by
    rw [hInputs, Machine.run_append, hBetween,
      Machine.run_cons]
    simp
  rw [StreamSystem.round, hEnd] at hState
  have hWritten3 : s'.written = s3.written := by
    rw [← hState]
    rfl
  rw [hWritten3] at hRoom
  rcases hTrack3.send r.sendEnv hRoom with
    ⟨s4, deliveries, hSend, hTrack4, hLength, hData⟩
  rw [hSend] at hState hEnd
  simp only at hState
  subst hState
  simp only [StreamSystem.round, hEnd, hBefore]
  have hStored := hTrack4.stored
  have hOwn := h.stored
  have hArrived := (hGrow1.trans hGrow2).trans hGrow3
  rw [hPending3] at hLength
  refine
    ⟨_, deliveries, rfl, hTrack4, hData,
      (Nat.add_sub_cancel' hArrived).symm, ?_⟩
  rw [Nat.add_mul] at hStored ⊢
  generalize hServed :
    (s1.settled && r.timing.isImmediate &&
      r.sendEnv.blockAccepted) = served
  cases served with
  | false =>
      left
      simp only [Load.room, Bool.false_eq_true, if_false]
      omega
  | true =>
      simp only [Bool.and_eq_true] at hServed
      by_cases hWork :
          s1.device.streamBlockPending = true ∨
            (delivered + 1) * config.chunkBytes ≤ s1.written
      · left
        have hHeld :=
          hTrack1.take_pending hTake hRoom2 hLimit1
            hServed.1.1 hServed.1.2 hWork
        rw [hHeld, hServed.2] at hLength
        rw [hLength] at hStored ⊢
        simp only [Load.room, Bool.and_self, Bool.toNat_true,
          if_true, Nat.one_mul] at hStored ⊢
        omega
      · right
        rw [not_or, Nat.not_le, Nat.add_mul] at hWork
        change _ < config.chunkBytes + (s4.written - s.written)
        omega

end StreamSystem.OnTrack

end PicoLogicAnalyzer

------------------------------------------------------------
-- Whole Sessions
------------------------------------------------------------

namespace PicoLogicAnalyzer

open Backlog

/- The bytes delivered by the turns of a run. -/
def deliveredBytes
    (trace : List (Load × List Delivery)) :
    List UInt8 :=
  (trace.flatMap Prod.snd).flatMap Delivery.data

/-
  Everything delivered is the input from its first byte on
  without a gap; no chunk has been skipped, and what is not
  yet delivered is still in the buffer.
-/
structure Lossless
    (input : Nat → UInt8)
    (s : StreamSystem)
    (trace : List (Load × List Delivery)) : Prop where
  gapless :
    deliveredBytes trace =
      (List.range (deliveredBytes trace).length).map input
  overruns : s.device.bridge.laStreamOverruns = 0
  held :
    s.written <
      (deliveredBytes trace).length + captureBufferSize

/- The buffer holds three chunks of any size. -/
theorem LaConfig.WellFormed.three_mul_chunk_le
    {config : LaConfig}
    (h : config.WellFormed) :
    3 * config.chunkBytes ≤ captureBufferSize := by
  have hChunk := h.chunk_le
  unfold laMaxChunkBytes at hChunk
  unfold captureBufferSize
  omega

/- A run of turns so far. -/
structure Flowing
    (input : Nat → UInt8)
    (config : LaConfig)
    (delivered : Nat)
    (trace : List (Load × List Delivery))
    (s : StreamSystem) : Prop where
  onTrack : s.OnTrack input config delivered
  bytes :
    deliveredBytes trace =
      (List.range (delivered * config.chunkBytes)).map input
  level :
    Level config.chunkBytes (trace.map Prod.fst)
      (s.written - delivered * config.chunkBytes)

namespace Flowing

variable [CaptureModule]
variable {input : Nat → UInt8} {config : LaConfig}
variable {delivered : Nat} {s : StreamSystem}
variable {trace : List (Load × List Delivery)}

/- One more turn. -/
theorem round
    (h : Flowing input config delivered trace s)
    {r : StreamRound}
    (hBackground : r.IsBackground)
    (hLimit : (s.round input r).1.written < 2 ^ 49)
    (hBursty :
      Bursty config.chunkBytes
        (captureBufferSize - 3 * config.chunkBytes)
        ((trace ++ (s.round input r).2).map Prod.fst)) :
    ∃ delivered',
      Flowing input config delivered'
        (trace ++ (s.round input r).2)
        (s.round input r).1 := by
  have hSmall := h.onTrack.sound.wellFormed.three_mul_chunk_le
  have hGrow : s.written ≤ (s.round input r).1.written :=
    s.written_le_run input r.inputs
  have hStored := h.onTrack.stored
  -- The load of the turn bounds what it can have brought in.
  have hBound := hBursty
  rw [List.map_append] at hBound
  have hRoom := h.level.bound hBound
  rw [Nat.add_sub_cancel' hSmall] at hRoom
  change _ + ((s.round input r).1.written - s.written) < _
    at hRoom
  rcases h.onTrack.round hBackground rfl (by omega) hLimit with
    ⟨load, deliveries, hOutput, hSpec⟩
  rw [hOutput]
  refine
    ⟨delivered + deliveries.length, hSpec.onTrack, ?_, ?_⟩
  · rw [Nat.add_mul, List.range_add, List.map_append,
      List.map_map, ← h.bytes]
    simp only [deliveredBytes, List.flatMap_append,
      List.flatMap_cons, List.flatMap_nil, List.append_nil]
    rw [hSpec.data]
    rfl
  · rw [List.map_append]
    rcases hSpec.level with hBusy | hRest
    · exact h.level.busy hBusy
    · exact Level.rest hRest _

/- Any number of turns. -/
theorem run
    (h : Flowing input config delivered trace s)
    {rounds : List StreamRound}
    (hBackground : ∀ r ∈ rounds, r.IsBackground)
    (hLimit :
      (Machine.run (StreamSystem.round input) s
        rounds).1.written < 2 ^ 49)
    (hBursty :
      Bursty config.chunkBytes
        (captureBufferSize - 3 * config.chunkBytes)
        ((trace ++
          (Machine.run (StreamSystem.round input) s
            rounds).2).map Prod.fst)) :
    ∃ delivered',
      Flowing input config delivered'
        (trace ++
          (Machine.run (StreamSystem.round input) s rounds).2)
        (Machine.run (StreamSystem.round input) s
          rounds).1 := by
  induction rounds generalizing delivered trace s with
  | nil =>
      rw [Machine.run_nil, List.append_nil]
      exact ⟨delivered, h⟩
  | cons r rounds ih =>
      rw [Machine.run_cons] at hLimit hBursty ⊢
      simp only at hLimit hBursty ⊢
      rw [← List.append_assoc] at hBursty ⊢
      have hRest :
          (s.round input r).1.written ≤
            (Machine.run (StreamSystem.round input)
              (s.round input r).1 rounds).1.written :=
        Machine.run_invariant
          (P := fun s' : StreamSystem =>
            (s.round input r).1.written ≤ s'.written)
          (fun s' r' hBelow =>
            hBelow.trans (s'.written_le_run input r'.inputs))
          (Nat.le_refl _) rounds
      have hFirst :
          Bursty config.chunkBytes
            (captureBufferSize - 3 * config.chunkBytes)
            ((trace ++ (s.round input r).2).map Prod.fst) := by
        rw [List.map_append] at hBursty
        exact hBursty.left
      rcases h.round (hBackground r List.mem_cons_self)
        (hRest.trans_lt hLimit) hFirst with
        ⟨delivered', hNext⟩
      exact
        ih hNext
          (fun r' hMember =>
            hBackground r' (List.mem_cons_of_mem r hMember))
          hLimit hBursty

end Flowing

/-
  In every run of a session in which no window of consecutive
  turns brings in more than one chunk for each of its served
  turns and a burst of the buffer size less three chunks, the
  stream loses nothing, whatever the order of transfers,
  interrupts, register reads and refused sends, until the
  32-bit pass counter has gone round.
-/
theorem stream_lossless
    [CaptureModule]
    (input : Nat → UInt8)
    {d : Device}
    (hReachable : d.Reachable)
    (hFree : isBusy d = false)
    {analysis : Bool}
    (env : Env)
    (id : Nat)
    {data : List UInt8}
    (hCommand :
      parseCommand data = Command.startsStream analysis)
    {rounds : List StreamRound}
    (hBackground : ∀ r ∈ rounds, r.IsBackground)
    {s : StreamSystem}
    {trace : List (Load × List Delivery)}
    (hRun :
      Machine.run (StreamSystem.round input)
          (StreamSystem.start
            (Device.step d (.message env id data)).1)
          rounds =
        (s, trace))
    (hLimit : s.written < 2 ^ 49)
    (hBursty :
      Bursty d.bridge.laConfig.chunkBytes
        (captureBufferSize - 3 * d.bridge.laConfig.chunkBytes)
        (trace.map Prod.fst)) :
    Lossless input s trace := by
  rcases hReachable.shows with ⟨a, hShows⟩
  cases hShows.eq_idle_of_not_busy hFree
  have hSound :=
    StreamSystem.start_sound hShows hReachable.coherent env id
      hCommand input
  rcases StreamSession.start_result hShows env id hCommand with
    ⟨mode, record, text, hResult⟩
  have hStart :
      Flowing input d.bridge.laConfig 0 []
        (StreamSystem.start
          (Device.step d (.message env id data)).1) := by
    refine ⟨⟨hSound, ?_, ?_, ?_, ?_⟩, ?_, ?_⟩
    · rw [hResult]
      rfl
    · rw [hResult]
      rfl
    · rw [Nat.zero_mul]
      exact Nat.zero_le _
    · rw [hResult]
      exact (absurd · Bool.false_ne_true)
    · rw [Nat.zero_mul]
      rfl
    · rw [Nat.zero_mul]
      exact Level.start hSound.wellFormed.chunk_pos
  have hEnd :=
    hStart.run hBackground (by rwa [hRun]) (by rwa [hRun])
  rw [hRun, List.nil_append] at hEnd
  rcases hEnd with ⟨delivered, hFlow⟩
  simp only at hFlow
  have hLength :
      (deliveredBytes trace).length =
        delivered * d.bridge.laConfig.chunkBytes := by
    rw [hFlow.bytes, List.length_map, List.length_range]
  refine ⟨?_, hFlow.onTrack.overruns, ?_⟩
  · rw [hLength]
    exact hFlow.bytes
  · have hBelow := hFlow.level.lt hBursty
    have hStored := hFlow.onTrack.stored
    have hSmall := hSound.wellFormed.three_mul_chunk_le
    rw [hLength]
    omega

end PicoLogicAnalyzer

namespace PicoLogicAnalyzer

open Backlog

section Sample

attribute [local instance] CaptureModule.sample

/- A turn in which 256 bytes come in. -/
def sampleRound (accepted : Bool) : StreamRound where
  before := List.replicate 256 (.dma .write)
  takeEnv := Env.smooth
  timing := ReadTiming.immediate
  between := []
  sendEnv := { Env.smooth with blockAccepted := accepted }

theorem sampleRound_isBackground (accepted : Bool) :
    (sampleRound accepted).IsBackground := by
  refine ⟨?_, List.forall_mem_nil _⟩
  intro i hMember
  rw [List.eq_of_mem_replicate hMember]
  trivial

/- A turn, given what its writes and its take lead to. -/
theorem sampleRound_eq
    {input memory : Nat → UInt8}
    {s : StreamSystem}
    {start d : Device}
    {written : Nat}
    (hFill :
      Machine.run (StreamSystem.step input) s
          (List.replicate 256 (.dma .write)) =
        (StreamSystem.inPass start memory written 0 true, []))
    (hTake :
      StreamSystem.step input
          (StreamSystem.inPass start memory written 0 true)
          (.take Env.smooth ReadTiming.immediate) =
        (StreamSystem.inPass d memory written 0 true, []))
    (hArrived : written - s.written = 256)
    (hPass : written < captureBufferSize)
    {accepted : Bool}
    {sent : StreamSystem × List Delivery}
    (hSend :
      StreamSystem.step input
          (StreamSystem.inPass d memory written 0 true)
          (.send
            { Env.smooth with blockAccepted := accepted }) =
        sent) :
    s.round input (sampleRound accepted) =
        (sent.1, [(⟨256, accepted⟩, sent.2)]) ∧
      sent.1.written = written := by
  have hInputs :
      Machine.run (StreamSystem.step input) s
          (sampleRound accepted).inputs =
        sent := by
    rw [StreamRound.inputs, Machine.run_append]
    simp only [sampleRound, hFill, hTake, hSend,
      Machine.run_cons, Machine.run_nil, List.nil_append,
      List.append_nil]
  have hWritten : sent.1.written = written := by
    rw [← hSend]
    rfl
  have hSettled :
      (StreamSystem.inPass start memory written 0
        true).settled = true := by
    simp [StreamSystem.settled, StreamSystem.passes,
      StreamSystem.inPass, Nat.div_eq_of_lt hPass]
  refine ⟨?_, hWritten⟩
  simp only [StreamSystem.round, hInputs, hWritten, hArrived]
  simp only [sampleRound, hFill, hSettled, Bool.true_and]
  rfl

/- A take leaves the block in hand alone. -/
theorem Device.HoldsFirst.kept
    {d : Device}
    (h : d.HoldsFirst)
    (memory input : Nat → UInt8)
    (written : Nat) :
    StreamSystem.step input
        (StreamSystem.inPass d memory written 0 true)
        (.take Env.smooth ReadTiming.immediate) =
      (StreamSystem.inPass d memory written 0 true, []) := by
  have hPending :
      (d.withBuffer memory).streamBlockPending = true :=
    h.pending
  simp [StreamSystem.step, StreamSystem.sample,
    StreamSystem.acts, StreamSystem.inPass,
    ReadTiming.immediate, streamTasksTake, hPending]

/-
  Three turns bring in a chunk each. Two sends are refused,
  so the first chunk is in hand until the third turn.
-/
theorem stream_lossless_after_refusals :
    ∃ s delivery,
      let trace : List (Load × List Delivery) :=
        [(⟨256, false⟩, []), (⟨256, false⟩, []),
          (⟨256, true⟩, [delivery])]
      Machine.run (StreamSystem.round UInt8.ofNat)
          (StreamSystem.start sampleStream)
          [sampleRound false, sampleRound false,
            sampleRound true] =
        (s, trace) ∧
      s.written = 768 ∧
      (deliveredBytes trace).length = 256 ∧
      Lossless UInt8.ofNat s trace := by
  -- The first turn takes chunk 0 and keeps it.
  rcases sampleStream_fill UInt8.ofNat with ⟨memory, hFill⟩
  rcases sampleStream_take memory UInt8.ofNat with
    ⟨d, hTake, hHolds⟩
  have hFirst :=
    (sampleRound_eq hFill hTake rfl (by decide)
      (hHolds.refused memory UInt8.ofNat 256)).1
  -- The other two find it in hand.
  have hWrites :
      ∀ memory written,
        written + 256 < captureBufferSize →
        ∃ memory',
          Machine.run (StreamSystem.step UInt8.ofNat)
              (StreamSystem.inPass d memory written 0 true)
              (List.replicate 256 (.dma .write)) =
            (StreamSystem.inPass d memory' (written + 256) 0
              true, []) := by
    intro memory written hRoom
    apply StreamSystem.inPass_writes hHolds.running _ _ _ rfl
    rw [Nat.mod_eq_of_lt (by omega)]
    exact hRoom
  rcases hWrites memory 256 (by decide) with
    ⟨memory2, hFill2⟩
  have hSecond :=
    (sampleRound_eq hFill2 (hHolds.kept memory2 _ 512) rfl
      (by decide) (hHolds.refused memory2 _ 512)).1
  rcases hWrites memory2 512 (by decide) with
    ⟨memory3, hFill3⟩
  have hThird :
      ∃ s delivery,
        (StreamSystem.inPass d memory2 512 0 true).round
            UInt8.ofNat (sampleRound true) =
          (s, [(⟨256, true⟩, [delivery])]) ∧
        s.written = 768 ∧ delivery.data.length = 256 := by
    rcases
      sampleRound_eq hFill3 (hHolds.kept memory3 _ 768) rfl
        (by decide) rfl with
      ⟨hRound, hWritten⟩
    rw [hHolds.accepted memory3 _ 768] at hRound
    exact
      ⟨_, _, hRound, hWritten,
        CaptureHardware.length_read _ _ _⟩
  rcases hThird with
    ⟨s, delivery, hThird, hWritten, hLength⟩
  have hRun :
      Machine.run (StreamSystem.round UInt8.ofNat)
          (StreamSystem.start sampleStream)
          [sampleRound false, sampleRound false,
            sampleRound true] =
        (s,
          [(⟨256, false⟩, []), (⟨256, false⟩, []),
            (⟨256, true⟩, [delivery])]) := by
    rw [Machine.run_cons, hFirst, Machine.run_cons, hSecond,
      Machine.run_cons, hThird]
    rfl
  refine ⟨s, delivery, hRun, hWritten, ?_, ?_⟩
  · simp [deliveredBytes, hLength]
  · apply
      stream_lossless UInt8.ofNat
        (d := Device.boot CaptureHardware.blank)
        ⟨CaptureHardware.blank, [], rfl⟩ rfl Env.smooth 1
        sampleCommand _ hRun
    · rw [hWritten]
      decide
    · have hArrivals :
          arrivals
              [⟨256, false⟩, ⟨256, false⟩, ⟨256, true⟩] ≤
            captureBufferSize - 3 * 256 := by
        decide
      exact bursty_of_arrivals_le hArrivals _
    · simp only [List.forall_mem_cons,
        sampleRound_isBackground, true_and]
      exact List.forall_mem_nil _

end Sample

end PicoLogicAnalyzer
