import PicoLogicAnalyzer.Firmware.Coherence
import PicoLogicAnalyzer.Firmware.Sessions
import PicoLogicAnalyzer.Lib.Ring

/-
  Delivery of finite captures from the ring.

  A finite capture ends at ring position `lastTail` and may
  have wrapped past the end of the buffer.
  `la_get_raw_capture` finds the position of its oldest
  sample modulo the ring, but both senders then read one
  contiguous range from there.

  Key definitions include:
    * `CaptureHardware.Captured`
    * `InOrder`
    * `Event.InOrder`

  Key theorems include:
    * `laGetRawCapture_first`
    * `inOrder_iff`
    * `finite_capture_inOrder_iff`
-/

------------------------------------------------------------
-- Captured Windows
------------------------------------------------------------

namespace PicoLogicAnalyzer

open Word

/- Bytes per sample of the latest finite capture. -/
def CaptureHardware.width (hw : CaptureHardware) : Nat :=
  laBytesPerSampleMode hw.lastCaptureMode

/- Samples the buffer can hold at that width. -/
def CaptureHardware.capacity (hw : CaptureHardware) : Nat :=
  captureBufferSize / hw.width

/- Position of the oldest of `samples` samples, one ring up. -/
def CaptureHardware.oldest
    (hw : CaptureHardware)
    (samples : Nat) :
    Nat :=
  hw.lastTail + hw.capacity + 1 - samples

/-
  The latest capture consists of `samples` samples that end
  at ring position `lastTail`.
-/
structure CaptureHardware.Captured
    (hw : CaptureHardware)
    (samples : Nat) : Prop where
  recorded :
    hw.lastPreSize +
      hw.lastPostSize * (hw.lastLoopCount + 1) = samples
  pos : 0 < samples
  le : samples ≤ hw.capacity
  tail : hw.lastTail < hw.capacity

theorem CaptureHardware.width_pos (hw : CaptureHardware) :
    0 < hw.width :=
  laBytesPerSampleMode_pos hw.lastCaptureMode

theorem CaptureHardware.capacity_mul_width
    (hw : CaptureHardware) :
    hw.capacity * hw.width = captureBufferSize := by
  unfold capacity width
  cases hw.lastCaptureMode <;> rfl

theorem CaptureHardware.capacity_le
    (hw : CaptureHardware) :
    hw.capacity ≤ captureBufferSize :=
  Nat.div_le_self _ _

theorem CaptureHardware.Captured.mul_width_le
    {hw : CaptureHardware}
    {samples : Nat}
    (h : hw.Captured samples) :
    samples * hw.width ≤ captureBufferSize := by
  rw [← hw.capacity_mul_width]
  exact Nat.mul_le_mul_right hw.width h.le

/-
  The start of a captured window in the arithmetic of the
  source, which wraps in one branch and not in the other.
-/
theorem windowStart_eq
    {capacity samples tail : Nat}
    (hSize : capacity ≤ captureBufferSize)
    (hPos : 0 < samples)
    (hLe : samples ≤ capacity)
    (hTail : tail < capacity) :
    (if tail < sub32 samples 1 then
        u32 (sub32 capacity samples + tail + 1)
      else u32 (sub32 tail samples + 1)) =
      (tail + capacity + 1 - samples) % capacity := by
  unfold captureBufferSize at hSize
  rw [sub32_of_le hPos (by omega)]
  split
  · rw [sub32_of_le hLe (by omega), u32_of_lt (by omega),
      Nat.mod_eq_of_lt (by omega)]
    omega
  · have hSplit :
        tail + capacity + 1 - samples =
          (tail + 1 - samples) + capacity := by
      omega
    rw [hSplit, Nat.add_mod_right,
      Nat.mod_eq_of_lt (by omega)]
    unfold sub32 u32
    omega

/- The start for the truncated number of samples. -/
theorem laGetRawCapture_first_eq
    {hw : CaptureHardware}
    {samples : Nat}
    (hSamples :
      u32 (hw.lastPreSize +
        hw.lastPostSize * (hw.lastLoopCount + 1)) = samples)
    (hPos : 0 < samples)
    (hLe : samples ≤ hw.capacity)
    (hTail : hw.lastTail < hw.capacity) :
    (laGetRawCapture hw).first =
      hw.oldest samples % hw.capacity := by
  unfold CaptureHardware.oldest
  rw [← windowStart_eq hw.capacity_le hPos hLe hTail]
  conv_lhs =>
    simp only [laGetRawCapture, hSamples]
  rfl

/-
  Despite the truncated arithmetic the source finds the
  oldest sample.
-/
theorem laGetRawCapture_first
    {hw : CaptureHardware}
    {samples : Nat}
    (h : hw.Captured samples) :
    (laGetRawCapture hw).samples = samples ∧
      (laGetRawCapture hw).first =
        hw.oldest samples % hw.capacity := by
  have hSize := hw.capacity_le
  have hLe := h.le
  have hSamples :
      u32 (hw.lastPreSize +
        hw.lastPostSize * (hw.lastLoopCount + 1)) =
        samples := by
    unfold captureBufferSize at hSize
    rw [h.recorded]
    exact u32_of_lt (by omega)
  exact ⟨hSamples,
    laGetRawCapture_first_eq hSamples h.pos hLe h.tail⟩

end PicoLogicAnalyzer

------------------------------------------------------------
-- Ranges In Capture Order
------------------------------------------------------------

namespace PicoLogicAnalyzer

open Word

/-
  The bytes read at `offset` stay inside the buffer and are
  the captured samples from the oldest to the latest.
-/
structure InOrder
    (hw : CaptureHardware)
    (samples offset : Nat)
    (data : List UInt8) : Prop where
  inside : offset + data.length ≤ captureBufferSize
  length : data.length = samples * hw.width
  sample :
    ∀ i < samples, ∀ j < hw.width,
      data[i * hw.width + j]? =
        some
          (hw.captureBuffer
            ((hw.oldest samples + i) % hw.capacity *
              hw.width + j))

/- Every capture message of the event is in capture order. -/
def Event.InOrder
    (hw : CaptureHardware)
    (samples : Nat) :
    Event → Prop
| .sent _ (.raw _ _ offset data) _ =>
    PicoLogicAnalyzer.InOrder hw samples offset data
| .sent _ (.frame _ _ offset data) _ =>
    PicoLogicAnalyzer.InOrder hw samples offset data
| _ => True

/- Byte `j` of sample `i` lies inside `samples` samples. -/
theorem sample_index_lt
    {width samples i j : Nat}
    (hSample : i < samples)
    (hByte : j < width) :
    i * width + j < samples * width := by
  have hNext : (i + 1) * width ≤ samples * width :=
    Nat.mul_le_mul_right width hSample
  rw [Nat.add_mul, Nat.one_mul] at hNext
  omega

/- The source's first position does not wrap with its tail. -/
theorem CaptureHardware.Captured.fits_iff
    {hw : CaptureHardware}
    {samples : Nat}
    (h : hw.Captured samples) :
    hw.oldest samples % hw.capacity + samples ≤ hw.capacity ↔
      samples ≤ hw.lastTail + 1 := by
  have hLe := h.le
  have hTail := h.tail
  unfold CaptureHardware.oldest
  by_cases hWraps : samples ≤ hw.lastTail + 1
  · have hSplit :
        hw.lastTail + hw.capacity + 1 - samples =
          (hw.lastTail + 1 - samples) + hw.capacity := by
      omega
    have hPos := h.pos
    rw [hSplit, Nat.add_mod_right,
      Nat.mod_eq_of_lt (by omega)]
    omega
  · rw [Nat.mod_eq_of_lt (by omega)]
    omega

/-
  One contiguous read from the oldest sample is in order
  exactly when the captured window does not wrap.
-/
theorem inOrder_iff
    {hw : CaptureHardware}
    {samples offset length : Nat}
    (h : hw.Captured samples)
    (hOffset :
      offset = hw.oldest samples % hw.capacity * hw.width)
    (hLength : length = samples * hw.width) :
    InOrder hw samples offset (hw.read offset length) ↔
      samples ≤ hw.lastTail + 1 := by
  rw [← h.fits_iff]
  subst hOffset hLength
  constructor
  · intro hOrder
    have hInside := hOrder.inside
    rw [CaptureHardware.length_read, ← Nat.add_mul,
      ← hw.capacity_mul_width] at hInside
    exact Nat.le_of_mul_le_mul_right hInside hw.width_pos
  · intro hFits
    refine ⟨?_, CaptureHardware.length_read .., ?_⟩
    · rw [CaptureHardware.length_read, ← Nat.add_mul,
        ← hw.capacity_mul_width]
      exact Nat.mul_le_mul_right hw.width hFits
    · intro i hSample j hByte
      rw [hw.getElem?_read (sample_index_lt hSample hByte),
        Ring.mod_add_of_le hFits hSample, Nat.add_mul,
        Nat.add_assoc]

end PicoLogicAnalyzer

------------------------------------------------------------
-- The Two Delivery Paths
------------------------------------------------------------

namespace PicoLogicAnalyzer

open Word

variable {d : Device} {samples : Nat}

/- Offset and length of a capture fit the 32-bit arithmetic. -/
theorem CaptureHardware.Captured.offset_eq
    {hw : CaptureHardware}
    (h : hw.Captured samples) :
    u32 ((laGetRawCapture hw).first * hw.width) =
      hw.oldest samples % hw.capacity * hw.width := by
  rw [(laGetRawCapture_first h).2]
  apply u32_of_lt
  have hCapacity : 0 < hw.capacity :=
    h.pos.trans_le h.le
  have hFirst :
      hw.oldest samples % hw.capacity < hw.capacity :=
    Nat.mod_lt _ hCapacity
  have hBound :=
    Nat.mul_le_mul_right hw.width hFirst.le
  rw [hw.capacity_mul_width] at hBound
  unfold captureBufferSize at hBound
  omega

theorem CaptureHardware.Captured.length_eq
    {hw : CaptureHardware}
    (h : hw.Captured samples) :
    u32 ((laGetRawCapture hw).samples * hw.width) =
      samples * hw.width := by
  rw [(laGetRawCapture_first h).1]
  apply u32_of_lt
  have hBound := h.mul_width_le
  unfold captureBufferSize at hBound
  omega

/- A finished single capture is sent from its oldest sample. -/
theorem singleCaptureTasks_sends
    (env : Env)
    (hPending : d.singleCapturePending = true)
    (hActive : d.bridge.laSingleCaptureActive = true)
    (hDone : d.bridge.hw.capturing = false)
    (h : d.bridge.hw.Captured samples) :
    (singleCaptureTasks env d).2 =
      [.sent d.singleCaptureConnection
        (.raw .singleCapture d.bridge.hw.width
          (d.bridge.hw.oldest samples %
            d.bridge.hw.capacity * d.bridge.hw.width)
          (d.bridge.hw.read
            (d.bridge.hw.oldest samples %
              d.bridge.hw.capacity * d.bridge.hw.width)
            (samples * d.bridge.hw.width)))
        env.rawAccepted] := by
  have hResult :
      laSingleCaptureGetResult d.bridge =
        ({ d.bridge with
            hw.lastStartPosition :=
              (laGetRawCapture d.bridge.hw).first },
          some
            { samples := (laGetRawCapture d.bridge.hw).samples
              firstSample :=
                (laGetRawCapture d.bridge.hw).first
              bytesPerSample := d.bridge.hw.width }) := by
    simp [laSingleCaptureGetResult, hActive, hDone,
      laGetRawCapture, CaptureHardware.width]
  simp only [singleCaptureTasks, laSingleCaptureIsRunning,
    hPending, hDone, Bool.and_false, Bool.not_false,
    Bool.and_self, if_true, hResult, rawResult,
    h.offset_eq, h.length_eq]
  rfl

/- The block of an analysis capture starts at its oldest sample. -/
theorem finishedBlock_range
    {b : Bridge}
    (timeUs : Nat)
    (hConfig : b.laConfig.WellFormed)
    (hMode : b.hw.lastCaptureMode = b.laConfig.mode)
    (h : b.hw.Captured samples) :
    (finishedBlock timeUs b).data =
        b.hw.oldest samples % b.hw.capacity * b.hw.width ∧
      (finishedBlock timeUs b).bytes =
        samples * b.hw.width := by
  have hWidth : b.laConfig.bytesPerSample = b.hw.width := by
    rw [hConfig.width_eq, ← hMode]
    rfl
  unfold finishedBlock
  rw [hWidth]
  exact ⟨h.offset_eq, h.length_eq⟩

/- What the analysis path hands over for a finished capture. -/
theorem captureChainAnalysis_sends
    (env : Env)
    (hEnabled : d.captureChainAnalysisEnabled = true)
    (hPending : d.blockPending = false)
    (hRunning : d.bridge.laRunning = true)
    (hFree : d.bridge.laBlockOutstanding = false)
    (hActive : d.bridge.laCaptureActive = true)
    (hDone : d.bridge.hw.capturing = false)
    (hMode :
      d.bridge.hw.lastCaptureMode = d.bridge.laConfig.mode) :
    (captureChainTakeBlock env d).1.blockPending = true ∧
      (captureChainTakeBlock env d).1.pendingAnalysisBlock =
        finishedBlock env.timeUs d.bridge ∧
      (captureChainTakeBlock env d).1.bridge.hw.captureBuffer =
        d.bridge.hw.captureBuffer := by
  simp only [captureChainTakeBlock, hEnabled, hPending,
    laCaptureChainTake_ready env.timeUs hRunning hFree hActive
      hDone hMode, Bool.not_false, Bool.and_self, if_true,
    and_self]

end PicoLogicAnalyzer

------------------------------------------------------------
-- Delivery Of A Finished Capture
------------------------------------------------------------

namespace PicoLogicAnalyzer

/-
  Activity `a` waits for a capture of `samples` samples that
  has completed in the configured mode.
-/
structure Device.Finished
    (d : Device)
    (a : Activity)
    (samples : Nat) : Prop where
  shows : d.Shows a
  done : d.bridge.hw.capturing = false
  config : d.bridge.laConfig.WellFormed
  mode : d.bridge.hw.lastCaptureMode = d.bridge.laConfig.mode
  captured : d.bridge.hw.Captured samples

variable {d : Device} {samples : Nat}

theorem singleCaptureTasks_inOrder_iff
    (env : Env)
    (h : d.Finished (.single true) samples) :
    (∀ event ∈ (singleCaptureTasks env d).2,
        event.InOrder d.bridge.hw samples) ↔
      samples ≤ d.bridge.hw.lastTail + 1 := by
  rw [singleCaptureTasks_sends env
    h.shows.singleCapturePending
    h.shows.laSingleCaptureActive h.done h.captured]
  simp only [List.mem_singleton, forall_eq, Event.InOrder]
  exact inOrder_iff h.captured rfl rfl

/- The analysis path hands over the range of its block. -/
theorem captureChainSendBlock_inOrder_iff
    (env : Env)
    (hw : CaptureHardware)
    (samples : Nat)
    (hPending : d.blockPending = true) :
    (∀ event ∈ (captureChainSendBlock env d).2,
        event.InOrder hw samples) ↔
      (d.pendingAnalysisBlock.bytes ≤ laMaxChunkBytes →
        InOrder hw samples d.pendingAnalysisBlock.data
          (d.bridge.hw.read d.pendingAnalysisBlock.data
            d.pendingAnalysisBlock.bytes)) := by
  constructor
  · intro hAll hSmall
    have hMessage :
        Event.sent d.streamConnection
            (.frame .captureChainAnalysis
              (d.headerOf d.pendingAnalysisBlock)
              d.pendingAnalysisBlock.data
              (d.bridge.hw.read d.pendingAnalysisBlock.data
                d.pendingAnalysisBlock.bytes))
            env.blockAccepted ∈
          (captureChainSendBlock env d).2 := by
      rw [captureChainSendBlock_spec hPending hSmall]
      cases env.blockAccepted <;> simp
    exact hAll _ hMessage
  · intro hOrder event hMember
    rcases (mem_captureChainSendBlock hMember).2 with
      hSent | ⟨record, rfl⟩
    · have hSmall :
          d.pendingAnalysisBlock.bytes ≤ laMaxChunkBytes := by
        by_contra hLarge
        rw [sendAnalysisBlock, if_pos (Nat.not_le.mp hLarge)]
          at hSent
        cases hSent
      rw [mem_sendAnalysisBlock hSent]
      exact hOrder hSmall
    · trivial

theorem captureChainTasks_inOrder_iff
    (env : Env)
    (h : d.Finished (.chainAnalysis .capturing) samples) :
    (∀ event ∈ (captureChainTasks env d).2,
        event.InOrder d.bridge.hw samples) ↔
      samples ≤ d.bridge.hw.lastTail + 1 ∨
        laMaxChunkBytes < samples * d.bridge.hw.width := by
  have hBlock :=
    finishedBlock_range env.timeUs h.config h.mode h.captured
  rcases captureChainAnalysis_sends env
    h.shows.captureChainAnalysisEnabled h.shows.blockPending
    h.shows.laRunning h.shows.laBlockOutstanding
    h.shows.laCaptureActive h.done h.mode with
    ⟨hPending, hStored, hBuffer⟩
  have hRead :
      (captureChainTakeBlock env d).1.bridge.hw.read =
        d.bridge.hw.read := by
    unfold CaptureHardware.read
    rw [hBuffer]
  have hTaken :
      ∀ event ∈ (captureChainTakeBlock env d).2,
        event.InOrder d.bridge.hw samples := by
    intro event hMember
    rcases mem_captureChainTakeBlock hMember with ⟨block, rfl⟩
    trivial
  have hSent :=
    captureChainSendBlock_inOrder_iff env d.bridge.hw samples
      hPending
  rw [hStored, hRead, hBlock.1, hBlock.2,
    inOrder_iff h.captured rfl rfl] at hSent
  rw [captureChainTasks_chainAnalysis env h.shows]
  rw [List.forall_mem_append, and_iff_right hTaken, hSent]
  omega

/-
  Both paths deliver a finished capture inside the buffer and
  in capture order exactly when its window does not wrap; an
  analysis block above the frame limit is not delivered.
-/
theorem finite_capture_inOrder_iff
    (env : Env)
    (d : Device)
    (samples : Nat) :
    (d.Finished (.single true) samples →
        ((∀ event ∈ (singleCaptureTasks env d).2,
            event.InOrder d.bridge.hw samples) ↔
          samples ≤ d.bridge.hw.lastTail + 1)) ∧
      (d.Finished (.chainAnalysis .capturing) samples →
        ((∀ event ∈ (captureChainTasks env d).2,
            event.InOrder d.bridge.hw samples) ↔
          samples ≤ d.bridge.hw.lastTail + 1 ∨
            laMaxChunkBytes <
              samples * d.bridge.hw.width)) :=
  ⟨singleCaptureTasks_inOrder_iff env,
    captureChainTasks_inOrder_iff env⟩

end PicoLogicAnalyzer

namespace PicoLogicAnalyzer

section Sample

attribute [local instance] CaptureModule.sample

/- A capture that ended at the given ring position. -/
def sampleCapture
    (command : String)
    (tail : Nat) :
    Device :=
  (Device.run (Device.boot CaptureHardware.blank)
    [Input.command 1 command, .captureDone tail]).1

theorem sampleCapture_single
    {tail : Nat}
    (hTail : tail < captureBufferSize) :
    (sampleCapture "SINGLE_CAPTURE" tail).Finished
      (.single true) 64 := by
  have hCapacity :
      (sampleCapture "SINGLE_CAPTURE"
        tail).bridge.hw.capacity = captureBufferSize :=
    Nat.div_one captureBufferSize
  refine
    ⟨⟨rfl, (absurd · Bool.false_ne_true)⟩, rfl,
      LaConfig.initial_wellFormed, rfl,
      ⟨rfl, by decide, ?_, ?_⟩⟩
  · rw [hCapacity]
    decide
  · rw [hCapacity]
    exact hTail

theorem sampleCapture_chunk
    {tail : Nat}
    (hTail : tail < captureBufferSize) :
    (sampleCapture "CAPTURE_CHAIN_ANALYSIS_START"
      tail).Finished (.chainAnalysis .capturing) 256 := by
  have hCapacity :
      (sampleCapture "CAPTURE_CHAIN_ANALYSIS_START"
        tail).bridge.hw.capacity = captureBufferSize :=
    Nat.div_one captureBufferSize
  refine
    ⟨⟨rfl, (absurd · Bool.false_ne_true)⟩, rfl,
      LaConfig.initial_wellFormed, rfl,
      ⟨?_, by decide, ?_, ?_⟩⟩
  · show 0 + 256 / 1 * (0 + 1) = 256
    norm_num
  · rw [hCapacity]
    decide
  · rw [hCapacity]
    exact hTail

/- Captures that end late enough in the buffer are in order. -/
theorem unwrapped_captures_inOrder :
    (∀ event ∈
        (singleCaptureTasks Env.smooth
          (sampleCapture "SINGLE_CAPTURE" 63)).2,
      event.InOrder
        (sampleCapture "SINGLE_CAPTURE" 63).bridge.hw 64) ∧
    ∀ event ∈
        (captureChainTasks Env.smooth
          (sampleCapture "CAPTURE_CHAIN_ANALYSIS_START"
            255)).2,
      event.InOrder
        (sampleCapture "CAPTURE_CHAIN_ANALYSIS_START"
          255).bridge.hw 256 := by
  have hSingle :=
    sampleCapture_single (by decide : 63 < captureBufferSize)
  have hChunk :
      (sampleCapture "CAPTURE_CHAIN_ANALYSIS_START"
        255).Finished (.chainAnalysis .capturing) 256 :=
    sampleCapture_chunk (by decide)
  constructor
  · apply ((finite_capture_inOrder_iff _ _ _).1 hSingle).mpr
    exact Nat.le_refl 64
  · apply ((finite_capture_inOrder_iff _ _ _).2 hChunk).mpr
    exact Or.inl (Nat.le_refl 256)

/-
  A capture that wrapped is sent from just below the end of
  the buffer, and the message runs past that end.
-/
theorem wrapped_capture_leaves_buffer :
    (sampleCapture "SINGLE_CAPTURE" 0).Finished
        (.single true) 64 ∧
      (singleCaptureTasks Env.smooth
          (sampleCapture "SINGLE_CAPTURE" 0)).2 =
        [.sent 1
          (.raw .singleCapture 1 131009
            (List.replicate 64 0)) true] ∧
      captureBufferSize < 131009 + 64 := by
  refine ⟨sampleCapture_single (by decide), ?_⟩
  decide +kernel

end Sample

end PicoLogicAnalyzer
