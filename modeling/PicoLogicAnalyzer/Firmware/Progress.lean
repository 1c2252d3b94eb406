import PicoLogicAnalyzer.Firmware.Fidelity

/-
  What `la_stream_produced_bytes` reports.

  Its five register reads race with the two channels and with
  the interrupt that counts passes. A report never exceeds
  what is stored and never falls; with nothing moving it is
  exact until the 32-bit pass counter wraps, and from then on
  the clamp hides all further progress.

  Key definitions include:
    * `Report`
    * `StreamSystem.observe`
    * `StreamSystem.Visible`

  Key theorems include:
    * `reports_sound`
    * `quiet_report_exact_iff`
-/

------------------------------------------------------------
-- Reports
------------------------------------------------------------

namespace PicoLogicAnalyzer

/- A value returned, and the bytes stored at the return. -/
structure Report where
  produced : Nat
  written : Nat
deriving DecidableEq, Repr

/- `stream_tasks` gets as far as `la_stream_produced_bytes`. -/
def Device.asksProgress (d : Device) : Bool :=
  d.streamMode != .stopped && !d.streamBlockPending &&
    d.bridge.laStreamRunning &&
    !d.bridge.laStreamBlockOutstanding

namespace StreamSystem

/- The call made during one input, if any. -/
def reports
    (input : Nat → UInt8)
    (s : StreamSystem) :
    StreamInput → List Report
| .take _ timing =>
    let sampled := s.sample input timing
    if sampled.1.device.asksProgress then
      [{ produced :=
          (laStreamProducedBytes sampled.2
            sampled.1.device.bridge).2
         written := sampled.1.written }]
    else
      []
| _ => []

/- The system as seen through its reports. -/
def observe
    [CaptureModule]
    (input : Nat → UInt8)
    (s : StreamSystem)
    (i : StreamInput) :
    StreamSystem × List Report :=
  ((s.step input i).1, s.reports input i)

end StreamSystem

/-
  The reports so far are bounded and ordered, and the bridge
  remembers a value no smaller than any of them.
-/
structure ReportLog
    (reports : List Report)
    (last : Nat) : Prop where
  bounded : ∀ r ∈ reports, r.produced ≤ r.written
  ordered :
    (reports.map Report.produced).Pairwise (· ≤ ·)
  remembered : ∀ r ∈ reports, r.produced ≤ last

namespace ReportLog

variable {reports : List Report} {last last' : Nat}

theorem advance
    (h : ReportLog reports last)
    (hLast : last ≤ last') :
    ReportLog reports last' := by
  refine ⟨h.bounded, h.ordered, ?_⟩
  intro r hMember
  exact (h.remembered r hMember).trans hLast

theorem report
    (h : ReportLog reports last)
    {r : Report}
    (hBound : r.produced ≤ r.written)
    (hLast : last ≤ r.produced) :
    ReportLog (reports ++ [r]) r.produced := by
  have hSplit :
      ∀ r' ∈ reports ++ [r], r' ∈ reports ∨ r' = r := by
    intro r' hMember
    rcases List.mem_append.mp hMember with hOld | hNew
    · exact Or.inl hOld
    · exact Or.inr (List.mem_singleton.mp hNew)
  refine ⟨?_, ?_, ?_⟩
  · intro r' hMember
    rcases hSplit r' hMember with hOld | rfl
    · exact h.bounded r' hOld
    · exact hBound
  · rw [List.map_append, List.pairwise_append]
    refine ⟨h.ordered, List.pairwise_singleton _ _, ?_⟩
    intro a hOld b hNew
    rcases List.mem_map.mp hOld with ⟨r', hMember, rfl⟩
    rw [List.mem_singleton.mp hNew]
    exact (h.remembered r' hMember).trans hLast
  · intro r' hMember
    rcases hSplit r' hMember with hOld | rfl
    · exact (h.remembered r' hOld).trans hLast
    · exact Nat.le_refl _

end ReportLog

end PicoLogicAnalyzer

------------------------------------------------------------
-- Reports Of A Run
------------------------------------------------------------

namespace PicoLogicAnalyzer

open Word

variable {input : Nat → UInt8} {config : LaConfig}
variable {s : StreamSystem}

/- Hardware activity leaves the flags and the memory alone. -/
theorem StreamSystem.acts_lastProduced
    (input : Nat → UInt8)
    (s : StreamSystem)
    (actions : List DmaAction) :
    (s.acts input
        actions).device.bridge.laStreamLastProducedBytes =
      s.device.bridge.laStreamLastProducedBytes := by
  apply StreamSystem.acts_invariant
    (P := fun s' =>
      s'.device.bridge.laStreamLastProducedBytes =
        s.device.bridge.laStreamLastProducedBytes)
  · intro s' action hSame
    rw [← hSame]
    cases action with
    | write =>
        simp only [StreamSystem.act, dmaWrite]
        split
        · split <;> rfl
        · rfl
    | handOver => rfl
    | interrupt =>
        simp only [StreamSystem.act, dmaInterrupt]
        split
        · split <;> rfl
        · rfl
  · rfl

theorem StreamSystem.sample_lastProduced
    (input : Nat → UInt8)
    (timing : ReadTiming)
    (s : StreamSystem) :
    (s.sample input
        timing).1.device.bridge.laStreamLastProducedBytes =
      s.device.bridge.laStreamLastProducedBytes := by
  simp only [StreamSystem.sample,
    StreamSystem.acts_lastProduced]

/- Sending does not touch the remembered value. -/
theorem streamTasksSend_lastProduced
    (env : Env)
    (d : Device) :
    (streamTasksSend env
        d).1.bridge.laStreamLastProducedBytes =
      d.bridge.laStreamLastProducedBytes := by
  unfold streamTasksSend
  split
  · simp only
    split <;> rfl
  · rfl

variable [CaptureModule]

/- One take: the value reported is the value remembered. -/
theorem ReportLog.take
    {trace : List Report}
    (h : s.Sound input config)
    (hLog :
      ReportLog trace
        s.device.bridge.laStreamLastProducedBytes)
    (env : Env)
    (timing : ReadTiming) :
    ReportLog
      (trace ++ s.reports input (.take env timing))
      (s.step input
        (.take env
          timing)).1.device.bridge.laStreamLastProducedBytes := by
  have hSampled := h.sample timing
  have hBound := h.produced_le_transferred timing
  have hLast := s.sample_lastProduced input timing
  rcases hSampled.session with
    ⟨analysis, pending, events, hOpen⟩
  simp only [StreamSystem.step, StreamSystem.reports]
  rw [← hLast] at hLog
  generalize s.sample input timing = sampled at *
  cases pending with
  | true =>
      have hPending :
          sampled.1.device.streamBlockPending = true :=
        hOpen.shows.streamBlockPending
      have hShut : sampled.1.device.asksProgress = false := by
        simp [Device.asksProgress, hPending]
      have hNothing :
          streamTasksTake { env with reads := sampled.2 }
              sampled.1.device =
            (sampled.1.device, []) := by
        simp [streamTasksTake, hPending]
      rw [hNothing, hShut, if_neg Bool.false_ne_true,
        List.append_nil]
      exact hLog
  | false =>
      have hAsks : sampled.1.device.asksProgress = true := by
        simp only [Device.asksProgress, hOpen.shows.streamMode,
          hOpen.shows.streamBlockPending,
          hOpen.shows.laStreamRunning,
          hOpen.shows.laStreamBlockOutstanding]
        cases analysis <;> rfl
      rw [if_pos hAsks]
      have hWritten :=
        hBound.trans (StreamSystem.transferred_le _ _)
      rcases streamTasksTake_spec hOpen.shows
        hOpen.coherent.config hOpen.bound hOpen.overruns_lt
        { env with reads := sampled.2 } with
        ⟨produced, hResult, hCount, _, hAdvance, _⟩ |
          ⟨n, produced, overruns, block, b', hResult, _,
            hCount, hTaken⟩
      · simp only at hCount
        rw [hResult, hCount]
        rw [hCount] at hWritten
        exact
          hLog.report
            (r := ⟨produced, sampled.1.written⟩) hWritten
            hAdvance
      · have hAdvance := hTaken.progress
        simp only at hCount
        rw [hResult, hCount, hTaken.bridge]
        rw [hCount] at hWritten
        exact
          hLog.report
            (r := ⟨produced, sampled.1.written⟩) hWritten
            hAdvance

/- One input of the observed system. -/
theorem ReportLog.step
    {trace : List Report}
    (h : s.Sound input config)
    (hLog :
      ReportLog trace
        s.device.bridge.laStreamLastProducedBytes)
    {i : StreamInput}
    (hOpen : i.KeepsOpen) :
    ReportLog (trace ++ (s.observe input i).2)
      (s.observe input
        i).1.device.bridge.laStreamLastProducedBytes := by
  cases i with
  | take env timing => exact hLog.take h env timing
  | dma action =>
      have hSame := s.acts_lastProduced input [action]
      apply (List.append_nil trace).symm ▸ hLog.advance
      exact hSame.ge
  | send env =>
      have hSame := streamTasksSend_lastProduced env s.device
      apply (List.append_nil trace).symm ▸ hLog.advance
      exact hSame.ge
  | other i =>
      rcases h.session with
        ⟨analysis, pending, events, hSession⟩
      rcases Device.step_elsewhere hSession.shows hOpen with
        ⟨pull, hState⟩
      have hSame :=
        congrArg
          (fun d : Device =>
            d.bridge.laStreamLastProducedBytes) hState
      apply (List.append_nil trace).symm ▸ hLog.advance
      exact hSame.ge

/-
  In every run of a session, with DMA transfers, hand-overs
  and interrupts between any two register reads, no report
  exceeds the bytes stored when it is made, and no report is
  smaller than an earlier one.
-/
theorem reports_sound
    (input : Nat → UInt8)
    {d : Device}
    (hReachable : d.Reachable)
    (hFree : isBusy d = false)
    {analysis : Bool}
    (env : Env)
    (id : Nat)
    {data : List UInt8}
    (hCommand :
      parseCommand data = Command.startsStream analysis)
    {inputs : List StreamInput}
    (hOpen : ∀ i ∈ inputs, i.KeepsOpen) :
    let reports :=
      (Machine.run (StreamSystem.observe input)
        (StreamSystem.start
          (Device.step d (.message env id data)).1)
        inputs).2
    (∀ r ∈ reports, r.produced ≤ r.written) ∧
      (reports.map Report.produced).Pairwise (· ≤ ·) := by
  rcases hReachable.shows with ⟨a, hShows⟩
  cases hShows.eq_idle_of_not_busy hFree
  have hStart :=
    StreamSystem.start_sound hShows hReachable.coherent env id
      hCommand input
  have hEmpty :
      ReportLog []
        (Device.step d
          (.message env id
            data)).1.bridge.laStreamLastProducedBytes :=
    ⟨by simp, List.Pairwise.nil, by simp⟩
  have hGuarded :
      Machine.Guarded (StreamSystem.observe input)
        (fun _ i => i.KeepsOpen)
        (StreamSystem.start
          (Device.step d (.message env id data)).1)
        inputs :=
    Machine.Guarded.of_forall
      (fun i hMember _ => hOpen i hMember) _
  have hEnd :=
    hGuarded.trace_invariant
      (P := fun trace s =>
        s.Sound input d.bridge.laConfig ∧
          ReportLog trace
            s.device.bridge.laStreamLastProducedBytes)
      (fun trace s i h hInput =>
        ⟨h.1.step hInput, h.2.step h.1 hInput⟩)
      ⟨hStart, hEmpty⟩
  rw [List.nil_append] at hEnd
  exact ⟨hEnd.2.bounded, hEnd.2.ordered⟩

end PicoLogicAnalyzer

namespace PicoLogicAnalyzer

section Sample

attribute [local instance] CaptureModule.sample

/- Two reports with writes between the reads of the second. -/
theorem reports_sound_two_takes :
    let reports :=
      (Machine.run (StreamSystem.observe lateInput)
        (StreamSystem.start sampleStream)
        [.take Env.smooth ReadTiming.immediate,
          .dma .write,
          .take Env.smooth
            { ReadTiming.immediate with
              beforeCount0 := [.write, .write] }]).2
    (∀ r ∈ reports, r.produced ≤ r.written) ∧
      (reports.map Report.produced).Pairwise (· ≤ ·) :=
  reports_sound lateInput
    (d := Device.boot CaptureHardware.blank)
    ⟨CaptureHardware.blank, [], rfl⟩ rfl Env.smooth 1
    sampleCommand
    (by simp [StreamInput.KeepsOpen])

end Sample

end PicoLogicAnalyzer

------------------------------------------------------------
-- Quiet Calls
------------------------------------------------------------

namespace PicoLogicAnalyzer

open Word

/- The value returned is the larger of count and memory. -/
theorem laStreamProducedBytes_of_remaining
    {reads : DmaReads}
    {remaining : Nat}
    (hRemaining : reads.remaining = some remaining)
    (b : Bridge) :
    (laStreamProducedBytes reads b).2 =
      max b.laStreamLastProducedBytes
        (producedFrom b.laConfig.bytesPerSample reads.passes
          remaining) := by
  unfold laStreamProducedBytes
  rw [hRemaining]
  simp only
  split
  · rename_i hBehind
    exact (Nat.max_eq_left hBehind.le).symm
  · rename_i hAhead
    exact (Nat.max_eq_right (Nat.not_lt.mp hAhead)).symm

namespace StreamSystem

variable {s : StreamSystem} {width : Nat}

/- With a channel busy its remaining transfers are read. -/
theorem quiet_remaining
    (hActive : s.active = true)
    (passes width : Nat) :
    DmaReads.remaining
        { passes := passes
          busy0 := s.busy 0
          count0 := s.transferCount width 0
          busy1 := s.busy 1
          count1 := s.transferCount width 1 } =
      some
        (captureBufferSize / width -
          s.written % captureBufferSize / width) := by
  have hSmall :
      captureBufferSize / width -
          s.written % captureBufferSize / width <
        2 ^ 32 := by
    have hSize : captureBufferSize / width ≤ 131072 :=
      Nat.div_le_self _ _
    exact (Nat.sub_le _ _).trans_lt (by omega)
  rcases Nat.mod_two_eq_zero_or_one s.passes with
    hEven | hOdd
  · simp [DmaReads.remaining, transferCount, busy, hActive,
      hEven, u32_of_lt hSmall]
  · simp [DmaReads.remaining, transferCount, busy, hActive,
      hOdd, u32_of_lt hSmall]

/- The count those transfers stand for. -/
theorem producedFrom_quiet
    (hWidth : width ∣ captureBufferSize)
    (passes written : Nat) :
    producedFrom width passes
        (captureBufferSize / width -
          written % captureBufferSize / width) =
      u32 passes * captureBufferSize +
        written % captureBufferSize / width * width := by
  have hInside :
      written % captureBufferSize / width ≤
        captureBufferSize / width :=
    Nat.div_le_div_right (Nat.mod_lt _ (by decide)).le
  have hSize : captureBufferSize / width ≤ 131072 :=
    Nat.div_le_self _ _
  have hBytes :
      written % captureBufferSize / width * width ≤
        captureBufferSize :=
    (Nat.mul_le_mul_right _ hInside).trans
      (Nat.div_mul_cancel hWidth).le
  have hPasses := u32_lt passes
  simp only [producedFrom]
  rw [sub32_of_le (Nat.sub_le _ _) (by omega),
    Nat.sub_sub_self hInside]
  apply u64_of_lt
  unfold captureBufferSize at hBytes ⊢
  omega

/- Complete passes and the transfers of the current one. -/
theorem transferred_eq
    (hWidth : width ∣ captureBufferSize)
    (s : StreamSystem) :
    s.transferred width =
      s.passes * captureBufferSize +
        s.written % captureBufferSize / width * width := by
  rcases hWidth with ⟨transfers, hTransfers⟩
  have hPos : 0 < width := by
    rcases Nat.eq_zero_or_pos width with rfl | hPos
    · simp [captureBufferSize] at hTransfers
    · exact hPos
  have hSplit :
      s.written =
        width * (transfers * s.passes) +
          s.written % captureBufferSize := by
    have hDivision :=
      Nat.div_add_mod s.written captureBufferSize
    rw [← Nat.mul_assoc, ← hTransfers]
    exact hDivision.symm
  have hCount :
      s.written / width =
        transfers * s.passes +
          s.written % captureBufferSize / width := by
    conv_lhs => rw [hSplit]
    exact Nat.mul_add_div hPos _ _
  rw [transferred, hCount, Nat.add_mul, hTransfers]
  congr 1
  ring

end StreamSystem

end PicoLogicAnalyzer

------------------------------------------------------------
-- Exactness
------------------------------------------------------------

namespace PicoLogicAnalyzer

open Word

/- An unread complete chunk is taken if nothing moves now. -/
def StreamSystem.Visible
    (input : Nat → UInt8)
    (s : StreamSystem) : Prop :=
  s.device.bridge.laStreamBlockOutstanding = false →
    (s.device.bridge.laStreamNextChunk + 1) *
        s.device.bridge.laConfig.chunkBytes ≤ s.written →
      ∀ timeUs,
        (laStreamTake
          (s.sample input ReadTiming.immediate).2 timeUs
          s.device.bridge).2.isSome = true

namespace StreamSystem.Sound

variable {input : Nat → UInt8} {config : LaConfig}
variable {s : StreamSystem}

/- A quiet call, all complete passes being counted. -/
theorem quiet_report
    (h : s.Sound input config)
    (hCounted : s.serviced = s.passes)
    (hActive : s.active = true) :
    (laStreamProducedBytes
        (s.sample input ReadTiming.immediate).2
        s.device.bridge).2 =
      max s.device.bridge.laStreamLastProducedBytes
        (u32 s.passes * captureBufferSize +
          s.written % captureBufferSize /
              config.bytesPerSample *
            config.bytesPerSample) := by
  have hRemaining :=
    StreamSystem.quiet_remaining hActive
      s.device.bridge.laStreamCompletedPasses
      (laBytesPerSampleMode s.device.bridge.hw.dmaMode)
  have hWord : u32 (u32 s.passes) = u32 s.passes :=
    u32_of_lt (u32_lt _)
  simp only [StreamSystem.sample, ReadTiming.immediate,
    StreamSystem.acts, List.foldl_nil]
  rw [laStreamProducedBytes_of_remaining hRemaining,
    h.config_eq, h.dmaWidth,
    StreamSystem.producedFrom_quiet
      h.wellFormed.width_dvd_buffer, h.passes_eq, hCounted,
    hWord]

/- The exact report is seen by `la_stream_take`. -/
theorem visible_of_exact
    (h : s.Sound input config)
    (hExact :
      (laStreamProducedBytes
          (s.sample input ReadTiming.immediate).2
          s.device.bridge).2 =
        s.transferred config.bytesPerSample) :
    s.Visible input := by
  intro hFree hComplete timeUs
  rcases h.session with ⟨analysis, pending, trace, hSession⟩
  have hConfig := hSession.coherent.config
  rcases laStreamTake_spec hConfig hSession.bound
    hSession.overruns_lt h.running hFree
    (s.sample input ReadTiming.immediate).2 timeUs with
    ⟨_, produced, _, hCount, hEarly, _, _⟩ |
      ⟨n, produced, overruns, block, b', hTake, _, _⟩
  · -- A complete chunk would have been found.
    exfalso
    have hWhole :
        config.bytesPerSample ∣
          (s.device.bridge.laStreamNextChunk + 1) *
            s.device.bridge.laConfig.chunkBytes := by
      rw [h.config_eq]
      exact h.wellFormed.width_dvd_chunk.mul_left _
    have hStored :=
      StreamSystem.le_transferred hWhole hComplete
    rw [← hExact, hCount,
      ← Nat.le_div_iff_mul_le hConfig.chunk_pos] at hStored
    omega
  · rw [hTake]
    rfl

/- Where nothing is reported, a complete chunk is missed. -/
theorem not_visible_of_zero
    (h : s.Sound input config)
    (hFree :
      s.device.bridge.laStreamBlockOutstanding = false)
    (hComplete :
      (s.device.bridge.laStreamNextChunk + 1) *
        s.device.bridge.laConfig.chunkBytes ≤ s.written)
    (hReport :
      (laStreamProducedBytes
        (s.sample input ReadTiming.immediate).2
        s.device.bridge).2 = 0) :
    ¬ s.Visible input := by
  intro hVisible
  have hTaken := hVisible hFree hComplete 0
  rcases h.session with ⟨analysis, pending, trace, hSession⟩
  rcases laStreamTake_spec hSession.coherent.config
    hSession.bound hSession.overruns_lt h.running hFree
    (s.sample input ReadTiming.immediate).2 0 with
    ⟨hNone, _⟩ |
      ⟨n, produced, overruns, block, b', _, hCount, hBlock⟩
  · rw [hNone] at hTaken
    cases hTaken
  · have hProduced := hBlock.complete
    have hChunk := hSession.coherent.config.chunk_pos
    rw [← hCount, hReport] at hProduced
    exact
      absurd hProduced
        (Nat.not_le.mpr (Nat.mul_pos (Nat.succ_pos n) hChunk))

/-
  The report is exact until the pass counter wraps; after
  that it only repeats what it has said before.
-/
theorem quiet_exact_iff
    (h : s.Sound input config)
    (hCounted : s.serviced = s.passes)
    (hActive : s.active = true) :
    (laStreamProducedBytes
          (s.sample input ReadTiming.immediate).2
          s.device.bridge).2 =
        s.transferred config.bytesPerSample ↔
      s.written < 2 ^ 49 ∨
        s.device.bridge.laStreamLastProducedBytes =
          s.transferred config.bytesPerSample := by
  have hLast := h.produced_le
  have hTransferred :=
    StreamSystem.transferred_eq h.wellFormed.width_dvd_buffer s
  rw [h.quiet_report hCounted hActive]
  by_cases hWrapped : s.passes < 2 ^ 32
  · have hExact :
        u32 s.passes * captureBufferSize +
            s.written % captureBufferSize /
                config.bytesPerSample *
              config.bytesPerSample =
          s.transferred config.bytesPerSample := by
      rw [u32_of_lt hWrapped, hTransferred]
    have hEarly : s.written < 2 ^ 49 := by
      unfold StreamSystem.passes captureBufferSize at hWrapped
      omega
    rw [hExact, Nat.max_eq_right hLast]
    exact iff_of_true rfl (Or.inl hEarly)
  · have hLate : ¬ s.written < 2 ^ 49 := by
      unfold StreamSystem.passes captureBufferSize at hWrapped
      omega
    have hLost :
        u32 s.passes * captureBufferSize +
            s.written % captureBufferSize /
                config.bytesPerSample *
              config.bytesPerSample <
          s.transferred config.bytesPerSample := by
      have hCounter := u32_lt s.passes
      rw [hTransferred]
      apply Nat.add_lt_add_right
      apply Nat.mul_lt_mul_of_pos_right _ (by decide)
      omega
    constructor
    · intro hExact
      right
      rcases Nat.le_total
          s.device.bridge.laStreamLastProducedBytes
          (u32 s.passes * captureBufferSize +
            s.written % captureBufferSize /
                config.bytesPerSample *
              config.bytesPerSample) with hBehind | hAhead
      · rw [Nat.max_eq_right hBehind] at hExact
        omega
      · rwa [Nat.max_eq_left hAhead] at hExact
    · intro hEither
      rcases hEither with hEarly | hSaid
      · exact absurd hEarly hLate
      · rw [hSaid]
        exact Nat.max_eq_left hLost.le

end StreamSystem.Sound

/-
  In every state of every run of a session in which all
  complete passes are counted and a channel is busy, a call
  during which nothing moves returns the bytes of all
  transfers made, and a complete unread chunk is then taken,
  exactly while fewer than 2^49 bytes have been written or
  that very value has been returned before.
-/
theorem quiet_report_exact_iff
    [CaptureModule]
    (input : Nat → UInt8)
    {d : Device}
    (hReachable : d.Reachable)
    (hFree : isBusy d = false)
    {analysis : Bool}
    (env : Env)
    (id : Nat)
    {data : List UInt8}
    (hCommand :
      parseCommand data = Command.startsStream analysis)
    {inputs : List StreamInput}
    (hOpen : ∀ i ∈ inputs, i.KeepsOpen)
    {s : StreamSystem}
    (hState :
      (Machine.run (StreamSystem.step input)
        (StreamSystem.start
          (Device.step d (.message env id data)).1)
        inputs).1 = s)
    (hCounted : s.serviced = s.passes)
    (hActive : s.active = true) :
    ((laStreamProducedBytes
          (s.sample input ReadTiming.immediate).2
          s.device.bridge).2 =
        s.transferred
          s.device.bridge.laConfig.bytesPerSample ∧
        s.Visible input) ↔
      s.written < 2 ^ 49 ∨
        s.device.bridge.laStreamLastProducedBytes =
          s.transferred
            s.device.bridge.laConfig.bytesPerSample := by
  have hSound : s.Sound input d.bridge.laConfig := by
    rw [← hState]
    exact
      StreamSystem.run_sound input hReachable hFree env id
        hCommand hOpen
  rw [hSound.config_eq,
    ← hSound.quiet_exact_iff hCounted hActive]
  constructor
  · intro hBoth
    exact hBoth.1
  · intro hExact
    exact ⟨hExact, hSound.visible_of_exact hExact⟩

end PicoLogicAnalyzer

------------------------------------------------------------
-- Whole Passes
------------------------------------------------------------

namespace PicoLogicAnalyzer

open Word

/- One pass, the hand-over and the interrupt that counts it. -/
def onePass : List StreamInput :=
  List.replicate 131071 (StreamInput.dma .write) ++
    [.dma .write, .dma .handOver, .dma .interrupt]

def wholePasses (count : Nat) : List StreamInput :=
  (List.replicate count onePass).flatten

/- The device with another pass counter. -/
def Device.withPasses (d : Device) (passes : Nat) : Device :=
  { d with bridge.laStreamCompletedPasses := u32 passes }

/- A stream after `passes` counted passes. -/
def StreamSystem.lapped
    (d : Device)
    (memory : Nat → UInt8)
    (passes : Nat) :
    StreamSystem :=
  inPass (d.withPasses passes) memory
    (passes * captureBufferSize) passes true

theorem wholePasses_keepsOpen
    (count : Nat) :
    ∀ i ∈ wholePasses count, i.KeepsOpen := by
  intro i hMember
  rcases List.mem_flatten.mp hMember with
    ⟨inputs, hPass, hInput⟩
  rw [List.eq_of_mem_replicate hPass] at hInput
  rcases List.mem_append.mp hInput with hWrite | hEnd
  · rw [List.eq_of_mem_replicate hWrite]
    trivial
  · simp only [List.mem_cons, List.not_mem_nil, or_false]
      at hEnd
    rcases hEnd with rfl | rfl | rfl <;> trivial

namespace StreamSystem

variable {d : Device}

theorem lapped_passes
    (d : Device)
    (memory : Nat → UInt8)
    (passes : Nat) :
    (lapped d memory passes).passes = passes :=
  Nat.mul_div_cancel _ (by decide)

/- With the counter at zero again nothing is reported. -/
theorem Sound.lapped_report
    {input memory : Nat → UInt8}
    {config : LaConfig}
    {passes : Nat}
    (h : (lapped d memory passes).Sound input config)
    (hWrapped : u32 passes = 0)
    (hLast : d.bridge.laStreamLastProducedBytes = 0) :
    (laStreamProducedBytes
        ((lapped d memory passes).sample input
          ReadTiming.immediate).2
        (lapped d memory passes).device.bridge).2 = 0 := by
  have hCounted := lapped_passes d memory passes
  have hMemory :
      (lapped d memory
          passes).device.bridge.laStreamLastProducedBytes =
        0 :=
    hLast
  have hBoundary :
      (lapped d memory passes).written %
        captureBufferSize = 0 :=
    Nat.mul_mod_left _ _
  rw [h.quiet_report hCounted.symm rfl, hMemory, hCounted,
    hWrapped, hBoundary]
  simp

/- A stream starts with no pass made. -/
theorem start_eq_lapped
    (hPasses : d.bridge.laStreamCompletedPasses = 0) :
    start d = lapped d d.bridge.hw.captureBuffer 0 := by
  have hSame : d.withPasses 0 = d := by
    unfold Device.withPasses
    rw [show u32 0 = d.bridge.laStreamCompletedPasses from
      hPasses.symm]
  rw [lapped, hSame, Nat.zero_mul]
  rfl

variable [CaptureModule]

/- The interrupt counts a pass that is complete. -/
theorem inPass_interrupt
    (hRunning : d.bridge.laStreamRunning = true)
    (input memory : Nat → UInt8)
    (passes : Nat) :
    StreamSystem.step input
        (inPass (d.withPasses passes) memory
          ((passes + 1) * captureBufferSize) passes true)
        (.dma .interrupt) =
      (lapped d memory (passes + 1), []) := by
  have hDue :
      (inPass (d.withPasses passes) memory
          ((passes + 1) * captureBufferSize) passes
          true).serviced <
        (inPass (d.withPasses passes) memory
          ((passes + 1) * captureBufferSize) passes
          true).passes := by
    simp only [inPass, StreamSystem.passes]
    rw [Nat.mul_div_cancel _ (by decide)]
    exact Nat.lt_succ_self _
  have hRunning' :
      (inPass (d.withPasses passes) memory
          ((passes + 1) * captureBufferSize) passes
          true).device.bridge.laStreamRunning = true :=
    hRunning
  rw [step, act, if_pos hDue,
    dmaInterrupt_of_running hRunning']
  simp only [lapped, inPass, laStreamDmaHandler,
    Device.withPasses, Device.withBuffer,
    ← u32_u32_add passes 1]

theorem run_onePass
    (hRunning : d.bridge.laStreamRunning = true)
    (input memory : Nat → UInt8)
    (passes : Nat) :
    ∃ memory',
      Machine.run (StreamSystem.step input)
          (lapped d memory passes) onePass =
        (lapped d memory' (passes + 1), []) := by
  have hRunning' :
      (d.withPasses passes).bridge.laStreamRunning = true :=
    hRunning
  have hRoom :
      passes * captureBufferSize % captureBufferSize +
          131071 < captureBufferSize := by
    rw [Nat.mul_mod_left]
    decide
  have hEnd :
      passes * captureBufferSize + 131071 + 1 =
        (passes + 1) * captureBufferSize := by
    unfold captureBufferSize
    omega
  have hBoundary :
      ((passes + 1) * captureBufferSize % captureBufferSize !=
        0) = false := by
    rw [Nat.mul_mod_left]
    decide
  rcases inPass_writes hRunning' input memory passes rfl hRoom
    with ⟨memory2, hWrites⟩
  have hLast :=
    inPass_write hRunning' input memory2 passes hEnd hBoundary
  have hHandOver :
      ∀ memory,
        StreamSystem.step input
            (inPass (d.withPasses passes) memory
              ((passes + 1) * captureBufferSize) passes false)
            (.dma .handOver) =
          (inPass (d.withPasses passes) memory
            ((passes + 1) * captureBufferSize) passes true,
            []) :=
    fun _ => rfl
  refine
    ⟨Ring.write captureBufferSize memory2
      (passes * captureBufferSize + 131071)
      (input (passes * captureBufferSize + 131071)), ?_⟩
  rw [onePass, lapped, Machine.run_append, hWrites,
    Machine.run_cons, hLast, Machine.run_cons, hHandOver,
    Machine.run_cons, inPass_interrupt hRunning,
    Machine.run_nil]
  rfl

/- Any number of passes. -/
theorem run_wholePasses
    (hRunning : d.bridge.laStreamRunning = true)
    (input memory : Nat → UInt8)
    (count passes : Nat) :
    ∃ memory',
      Machine.run (StreamSystem.step input)
          (lapped d memory passes) (wholePasses count) =
        (lapped d memory' (passes + count), []) := by
  induction count generalizing memory passes with
  | zero => exact ⟨memory, rfl⟩
  | succ count ih =>
      rcases run_onePass hRunning input memory passes with
        ⟨memory2, hFirst⟩
      rcases ih memory2 (passes + 1) with ⟨memory3, hRest⟩
      refine ⟨memory3, ?_⟩
      rw [wholePasses, List.replicate_succ, List.flatten_cons,
        Machine.run_append, hFirst, ← wholePasses, hRest,
        Nat.add_assoc, Nat.add_comm 1 count]
      rfl

end StreamSystem

end PicoLogicAnalyzer

namespace PicoLogicAnalyzer

section Sample

attribute [local instance] CaptureModule.sample

/- With one chunk stored the report is exact. -/
theorem first_chunk_is_reported :
    ∃ s,
      (Machine.run (StreamSystem.step lateInput)
          (StreamSystem.start sampleStream)
          (List.replicate 256 (.dma .write))).1 = s ∧
        s.written = 256 ∧
        (laStreamProducedBytes
            (s.sample lateInput ReadTiming.immediate).2
            s.device.bridge).2 =
          s.transferred
            s.device.bridge.laConfig.bytesPerSample ∧
        s.Visible lateInput := by
  rcases sampleStream_fill lateInput with ⟨memory, hFill⟩
  have hKeeps :
      ∀ i ∈ List.replicate 256 (StreamInput.dma .write),
        i.KeepsOpen := by
    intro i hMember
    rw [List.eq_of_mem_replicate hMember]
    trivial
  have hExact :=
    (quiet_report_exact_iff lateInput
      (d := Device.boot CaptureHardware.blank)
      ⟨CaptureHardware.blank, [], rfl⟩ rfl Env.smooth 1
      sampleCommand hKeeps (congrArg Prod.fst hFill)
      (by
        simp [StreamSystem.inPass, StreamSystem.passes,
          captureBufferSize])
      rfl).mpr
      (Or.inl (by decide : 256 < 2 ^ 49))
  exact
    ⟨_, congrArg Prod.fst hFill, rfl, hExact.1, hExact.2⟩

/-
  After 2^32 passes, all of them counted, the counter is zero
  again: nothing is reported and no chunk is taken, although
  all of them are complete.
-/
theorem wrapped_counter_hides_stream :
    ∃ s,
      (Machine.run (StreamSystem.step lateInput)
          (StreamSystem.start sampleStream)
          (wholePasses (2 ^ 32))).1 = s ∧
        s.serviced = s.passes ∧
        s.active = true ∧
        s.written = 2 ^ 49 ∧
        (laStreamProducedBytes
            (s.sample lateInput ReadTiming.immediate).2
            s.device.bridge).2 = 0 ∧
        ¬ s.Visible lateInput := by
  have hShows := sampleStream_session.shows
  rcases sampleStream_fields with
    ⟨hPasses, _, hNext, hLast⟩
  rcases StreamSystem.run_wholePasses hShows.laStreamRunning
    lateInput sampleStream.bridge.hw.captureBuffer (2 ^ 32) 0
    with ⟨memory, hRun⟩
  rw [← StreamSystem.start_eq_lapped hPasses, Nat.zero_add]
    at hRun
  have hSound :=
    StreamSystem.run_sound lateInput
      (d := Device.boot CaptureHardware.blank)
      ⟨CaptureHardware.blank, [], rfl⟩ rfl Env.smooth 1
      sampleCommand (wholePasses_keepsOpen (2 ^ 32))
  have hState :
      (Machine.run (StreamSystem.step lateInput)
          (StreamSystem.start sampleStream)
          (wholePasses (2 ^ 32))).1 =
        StreamSystem.lapped sampleStream memory (2 ^ 32) :=
    congrArg Prod.fst hRun
  have hCounted :=
    StreamSystem.lapped_passes sampleStream memory (2 ^ 32)
  have hSound' :
      (StreamSystem.lapped sampleStream memory
        (2 ^ 32)).Sound lateInput LaConfig.initial := by
    rw [← hState]
    exact hSound
  have hReport :=
    hSound'.lapped_report (Nat.mod_self _) hLast
  refine ⟨_, hState, hCounted.symm, rfl, ?_, hReport, ?_⟩
  · have hBytes : 2 ^ 32 * captureBufferSize = 2 ^ 49 := by
      norm_num [captureBufferSize]
    exact hBytes
  · have hFirst :
        (StreamSystem.lapped sampleStream memory
            (2 ^ 32)).device.bridge.laStreamNextChunk = 0 :=
      hNext
    apply
      hSound'.not_visible_of_zero
        hShows.laStreamBlockOutstanding _ hReport
    rw [hFirst, hSound'.config_eq]
    exact
      (by decide : 256 ≤ captureBufferSize).trans
        (Nat.le_mul_of_pos_left _ (by decide))

end Sample

end PicoLogicAnalyzer
