import PicoLogicAnalyzer.Firmware.Delivery

/-
  The captured window of a finite capture.

  `la_get_raw_capture` and `la_raw_high_count` compute the
  start of the window separately. Both find the oldest
  sample, and the loop of the second reads every sample of
  the window once.

  Key definitions include:
    * `CaptureHardware.sample`
    * `HighScan.Counted`

  Key theorems include:
    * `HighScan.Counted.run`
    * `captured_window`
-/

------------------------------------------------------------
-- Samples Of The Window
------------------------------------------------------------

namespace PicoLogicAnalyzer

open Word

/- Value of the sample stored at a ring position. -/
def CaptureHardware.sampleAt
    (hw : CaptureHardware)
    (position : Nat) :
    Nat :=
  ofLittleEndian (hw.read (position * hw.width) hw.width)

/- Captured sample `i` of `samples`, from the oldest on. -/
def CaptureHardware.sample
    (hw : CaptureHardware)
    (samples i : Nat) :
    Nat :=
  hw.sampleAt ((hw.oldest samples + i) % hw.capacity)

/- The typed buffer accesses of the source. -/
theorem CaptureHardware.word_width
    (hw : CaptureHardware)
    (position : Nat) :
    hw.word hw.width position = hw.sampleAt position := by
  unfold word sampleAt width
  cases hw.lastCaptureMode with
  | mode8Channel =>
      simp [laBytesPerSampleMode, CaptureHardware.read,
        ofLittleEndian]
  | mode16Channel => rfl
  | mode24Channel => rfl

/- The latest sample of the window is at the tail. -/
theorem CaptureHardware.oldest_add
    {hw : CaptureHardware}
    {samples : Nat}
    (hPos : 0 < samples)
    (hLe : samples ≤ hw.capacity)
    (hTail : hw.lastTail < hw.capacity) :
    (hw.oldest samples % hw.capacity + samples - 1) %
        hw.capacity =
      hw.lastTail := by
  have hLatest :
      hw.oldest samples + (samples - 1) =
        hw.lastTail + hw.capacity := by
    unfold oldest
    omega
  rw [Nat.add_sub_assoc hPos, Nat.mod_add_mod, hLatest,
    Nat.add_mod_right, Nat.mod_eq_of_lt hTail]

/- A mask of one bit tests that bit. -/
theorem and_mask_ne_zero_iff
    (value bit : Nat) :
    value &&& 2 ^ bit ≠ 0 ↔ value.testBit bit = true := by
  rw [Nat.and_two_pow]
  cases value.testBit bit <;> simp

end PicoLogicAnalyzer

------------------------------------------------------------
-- The Counting Loop
------------------------------------------------------------

namespace PicoLogicAnalyzer

open Word

variable {hw : CaptureHardware} {samples : Nat}

/-
  After `n` iterations the loop has read the first `n`
  positions of the window and counted their samples with
  the bit of the pin.
-/
structure HighScan.Counted
    (hw : CaptureHardware)
    (pin : InputPin)
    (samples : Nat)
    (n : Nat)
    (scan : HighScan) : Prop where
  visited :
    scan.visited =
      Ring.window hw.capacity (hw.oldest samples) n
  count :
    scan.count =
      (List.range n).countP
        (fun i => (hw.sample samples i).testBit pin.bit)

/- One iteration; neither the index nor the count wraps. -/
theorem HighScan.Counted.visit
    {pin : InputPin}
    {n : Nat}
    {scan : HighScan}
    (h : HighScan.Counted hw pin samples n scan)
    (hIndex : n < samples)
    (hLe : samples ≤ hw.capacity) :
    HighScan.Counted hw pin samples (n + 1)
      (HighScan.visit hw hw.width hw.capacity
        (hw.oldest samples % hw.capacity) (2 ^ pin.bit)
        scan n) := by
  have hSize := hw.capacity_le
  unfold captureBufferSize at hSize
  have hFirst :
      hw.oldest samples % hw.capacity < hw.capacity :=
    Nat.mod_lt _ (by omega)
  have hPosition :
      u32 (hw.oldest samples % hw.capacity + n) %
          hw.capacity =
        (hw.oldest samples + n) % hw.capacity := by
    rw [u32_of_lt (by omega), Nat.mod_add_mod]
  have hCount : scan.count ≤ n := by
    rw [h.count]
    exact List.countP_le_length.trans
      (List.length_range).le
  constructor
  · simp only [HighScan.visit, hPosition, h.visited,
      Ring.window_succ]
  · simp only [HighScan.visit, hPosition, hw.word_width,
      and_mask_ne_zero_iff, List.range_succ,
      List.countP_append, List.countP_singleton, ← h.count]
    rw [u32_of_lt (by omega)]
    unfold CaptureHardware.sample
    split <;> rfl

/- The whole loop. -/
theorem HighScan.Counted.run
    (pin : InputPin)
    (hLe : samples ≤ hw.capacity)
    {n : Nat}
    (hCount : n ≤ samples) :
    HighScan.Counted hw pin samples n
      ((List.range n).foldl
        (HighScan.visit hw hw.width hw.capacity
          (hw.oldest samples % hw.capacity) (2 ^ pin.bit))
        { count := 0, visited := [] }) := by
  induction n with
  | zero => exact ⟨rfl, rfl⟩
  | succ n ih =>
      rw [List.range_succ, List.foldl_append]
      exact (ih (Nat.le_of_succ_le hCount)).visit hCount hLe

/- Start and mask of the source's loop. -/
theorem laRawHighScan_eq
    (pin : InputPin)
    (hSamples :
      u32 (hw.lastPreSize +
        hw.lastPostSize * (hw.lastLoopCount + 1)) = samples)
    (hPos : 0 < samples)
    (hLe : samples ≤ hw.capacity)
    (hTail : hw.lastTail < hw.capacity) :
    laRawHighScan pin hw =
      (List.range samples).foldl
        (HighScan.visit hw hw.width hw.capacity
          (hw.oldest samples % hw.capacity) (2 ^ pin.bit))
        { count := 0, visited := [] } := by
  have hMask : u32 (1 <<< pin.bit) = 2 ^ pin.bit := by
    rw [Nat.one_shiftLeft]
    exact u32_of_lt
      (Nat.pow_lt_pow_right (by decide) pin.bit_lt)
  unfold CaptureHardware.oldest
  rw [← windowStart_eq hw.capacity_le hPos hLe hTail,
    ← hMask]
  conv_lhs =>
    simp only [laRawHighScan, hSamples]
  rfl

end PicoLogicAnalyzer

------------------------------------------------------------
-- Window Arithmetic
------------------------------------------------------------

namespace PicoLogicAnalyzer

open Word

/-
  For a capture whose length fits the buffer both functions
  of the source agree on its window, and the high count is
  the number of captured samples with the pin's bit.
-/
theorem captured_window
    (hw : CaptureHardware)
    (pin : InputPin)
    (samples : Nat)
    (hSamples :
      u32 (hw.lastPreSize +
        hw.lastPostSize * (hw.lastLoopCount + 1)) = samples)
    (hPos : 1 ≤ samples)
    (hLe : samples ≤ hw.capacity)
    (hTail : hw.lastTail < hw.capacity) :
    (laGetRawCapture hw).samples = samples ∧
      (laGetRawCapture hw).first < hw.capacity ∧
      ((laGetRawCapture hw).first + samples - 1) %
          hw.capacity = hw.lastTail ∧
      (laRawHighScan pin hw).visited =
        Ring.window hw.capacity (laGetRawCapture hw).first
          samples ∧
      (laRawHighScan pin hw).visited.length = samples ∧
      (laRawHighScan pin hw).visited.Nodup ∧
      laRawHighCount pin hw =
        (List.range samples).countP
          (fun i =>
            (hw.sample samples i).testBit pin.bit) := by
  have hFirst :=
    laGetRawCapture_first_eq hSamples hPos hLe hTail
  have hScan :=
    HighScan.Counted.run pin hLe (Nat.le_refl samples)
  rw [← laRawHighScan_eq pin hSamples hPos hLe hTail]
    at hScan
  refine ⟨hSamples, ?_, ?_, ?_, ?_, ?_, hScan.count⟩
  · rw [hFirst]
    exact Nat.mod_lt _ (hPos.trans hLe)
  · rw [hFirst]
    exact CaptureHardware.oldest_add hPos hLe hTail
  · rw [hFirst, Ring.window_mod]
    exact hScan.visited
  · rw [hScan.visited]
    simp [Ring.window]
  · rw [hScan.visited]
    exact Ring.nodup_window _ hLe

/- Four samples around the end of the ring. -/
def CaptureHardware.wrapped : CaptureHardware :=
  { CaptureHardware.blank with
    lastPostSize := 4
    lastTail := 1
    captureBuffer := fun position => UInt8.ofNat position }

/- Of the values 254, 255, 0 and 1 two are odd. -/
theorem wrapped_capture_window :
    (laGetRawCapture .wrapped).first = 131070 ∧
      (laRawHighScan ⟨2, by decide, by decide⟩
        .wrapped).visited = [131070, 131071, 0, 1] ∧
      laRawHighCount ⟨2, by decide, by decide⟩
        .wrapped = 2 := by
  rcases captured_window .wrapped
      ⟨2, by decide, by decide⟩ 4 (by decide) (by decide)
      (by decide) (by decide) with
    ⟨_, _, _, hVisited, _, _, hCount⟩
  have hFirst :
      (laGetRawCapture .wrapped).first = 131070 := by
    decide +kernel
  rw [hVisited, hCount, hFirst]
  decide +kernel

end PicoLogicAnalyzer
