import PicoLogicAnalyzer.Firmware.StreamSession
import PicoLogicAnalyzer.Lib.Ring

/-
  The overrun policy of `la_stream_take`.

  The reader takes the oldest chunk whose slot the writer has
  not reached, counts the chunks it passes over, and leaves
  out the slot that is being written.

  Key definitions include:
    * `Bridge.slots`
    * `TakesChunk`
    * `TakePolicy`

  Key theorems include:
    * `stream_take_policy`
-/

------------------------------------------------------------
-- The Policy
------------------------------------------------------------

namespace PicoLogicAnalyzer

open Word

/- Chunks the capture buffer holds. -/
def Bridge.slots (b : Bridge) : Nat :=
  captureBufferSize / b.laConfig.chunkBytes

/-
  Chunk `m` is the one to take when `produced` bytes have
  been reported: the first from the cursor on whose slot the
  writer has not reached. `b'` is the bridge afterwards.
-/
structure TakesChunk
    (b : Bridge)
    (produced m : Nat)
    (block : AnalysisBlock)
    (b' : Bridge) : Prop where
  from_next : b.laStreamNextChunk ≤ m
  intact :
    produced < (m + b.slots) * b.laConfig.chunkBytes
  least :
    ∀ c, b.laStreamNextChunk ≤ c →
      produced < (c + b.slots) * b.laConfig.chunkBytes →
        m ≤ c
  reached :
    ∀ c, b.laStreamNextChunk ≤ c → c < m →
      (c + b.slots) * b.laConfig.chunkBytes ≤ produced
  counted :
    b'.laStreamOverruns =
      u32 (b.laStreamOverruns + (m - b.laStreamNextChunk))
  next : b'.laStreamNextChunk = m + 1
  sequence : block.sequence = u32 m
  firstSample : block.firstSample = m * block.samples
  overruns : block.overruns = b'.laStreamOverruns
  bytes : block.bytes = b.laConfig.chunkBytes
  offset :
    block.data =
      m * b.laConfig.chunkBytes % captureBufferSize
  inside : block.data + block.bytes ≤ captureBufferSize
  undisturbed :
    ∀ a,
      produced / b.laConfig.chunkBytes *
          b.laConfig.chunkBytes ≤ a →
        a ≤ produced →
          a % captureBufferSize < block.data ∨
            block.data + block.bytes ≤ a % captureBufferSize

/- What one call does, whatever has been produced. -/
structure TakePolicy
    (b : Bridge)
    (produced : Nat)
    (result : Bridge × Option AnalysisBlock) : Prop where
  succeeds_iff :
    result.2.isSome = true ↔
      (b.laStreamNextChunk + 1) * b.laConfig.chunkBytes ≤
        produced
  takes :
    ∀ block, result.2 = some block →
      ∃ m, TakesChunk b produced m block result.1

end PicoLogicAnalyzer

------------------------------------------------------------
-- The Policy Is Kept
------------------------------------------------------------

namespace PicoLogicAnalyzer

open Word

variable {b b' : Bridge} {n produced overruns : Nat}
variable {block : AnalysisBlock}

/- Positions of the chunk that is being written. -/
theorem StreamTaken.undisturbed
    (hConfig : b.laConfig.WellFormed)
    (h : StreamTaken b n produced overruns block b')
    {a : Nat}
    (hFrom :
      produced / b.laConfig.chunkBytes *
        b.laConfig.chunkBytes ≤ a)
    (hTo : a ≤ produced) :
    a % captureBufferSize < block.data ∨
      block.data + block.bytes ≤ a % captureBufferSize := by
  have hChunk := hConfig.chunk_pos
  have hLater : n < produced / b.laConfig.chunkBytes :=
    (Nat.le_div_iff_mul_le hChunk).mpr h.complete
  have hSplit :
      produced / b.laConfig.chunkBytes *
            b.laConfig.chunkBytes +
          (a -
            produced / b.laConfig.chunkBytes *
              b.laConfig.chunkBytes) = a :=
    Nat.add_sub_of_le hFrom
  have hInside :
      a - produced / b.laConfig.chunkBytes *
          b.laConfig.chunkBytes <
        b.laConfig.chunkBytes := by
    have hMod :=
      Nat.mod_lt produced hChunk
    have hDivision :=
      Nat.div_add_mod produced b.laConfig.chunkBytes
    rw [Nat.mul_comm] at hDivision
    omega
  have hApart :=
    Ring.slot_disjoint (by decide) hConfig.chunk_dvd hLater
      h.recent hInside
  rw [hSplit] at hApart
  rw [h.data, h.bytes]
  exact hApart

/- A taken chunk is the one the policy asks for. -/
theorem StreamTaken.takesChunk
    (hConfig : b.laConfig.WellFormed)
    (h : StreamTaken b n produced overruns block b') :
    TakesChunk b produced n block b' := by
  have hChunk := hConfig.chunk_pos
  have hReached :
      ∀ c, b.laStreamNextChunk ≤ c → c < n →
        (c + b.slots) * b.laConfig.chunkBytes ≤ produced := by
    intro c hFrom hBelow
    exact
      (Nat.le_div_iff_mul_le hChunk).mp
        (h.skipped c hFrom hBelow)
  have hOffset :
      block.data =
        n * b.laConfig.chunkBytes % captureBufferSize := by
    rw [h.data, Ring.slot_mul hConfig.chunk_dvd]
  constructor
  · exact h.next_le
  · exact (Nat.div_lt_iff_lt_mul hChunk).mp h.recent
  · intro c hFrom hIntact
    by_contra hBelow
    have hEarly := hReached c hFrom (Nat.not_le.mp hBelow)
    omega
  · exact hReached
  · rw [h.bridge]
    exact h.overruns_eq
  · rw [h.bridge]
  · exact h.sequence
  · rw [h.samples]
    exact h.firstSample
  · rw [h.bridge]
    exact h.overruns
  · exact h.bytes
  · exact hOffset
  · rw [hOffset, h.bytes]
    exact Ring.slot_fits (by decide) hConfig.chunk_dvd n
  · intro a hFrom hTo
    exact h.undisturbed hConfig hFrom hTo

/-
  The policy for every reachable configuration and running
  state without an outstanding block, whatever the registers
  of the DMA show.
-/
theorem stream_take_policy
    [CaptureModule]
    {d : Device}
    (hReachable : d.Reachable)
    (hRunning : d.bridge.laStreamRunning = true)
    (hFree : d.bridge.laStreamBlockOutstanding = false)
    (reads : DmaReads)
    (timeUs : Nat) :
    TakePolicy d.bridge
      (laStreamProducedBytes reads d.bridge).2
      (laStreamTake reads timeUs d.bridge) := by
  rcases hReachable.inStreamSession hRunning with
    ⟨config, analysis, pending, trace, hSession⟩
  have hConfig := hSession.coherent.config
  have hChunk := hConfig.chunk_pos
  rcases laStreamTake_spec hConfig hSession.bound
    hSession.overruns_lt hRunning hFree reads timeUs with
    ⟨hNone, produced, _, hCount, hEarly, _, _⟩ |
      ⟨n, produced, overruns, block, b', hTake, hCount,
        hTaken⟩
  · rw [hCount]
    constructor
    · rw [hNone, ← Nat.le_div_iff_mul_le hChunk]
      constructor
      · intro hSome
        cases hSome
      · intro hReady
        omega
    · intro block hSome
      rw [hNone] at hSome
      cases hSome
  · rw [hCount, hTake]
    constructor
    · have hReady :
          (d.bridge.laStreamNextChunk + 1) *
              d.bridge.laConfig.chunkBytes ≤ produced :=
        (Nat.mul_le_mul_right _
          (Nat.succ_le_succ hTaken.next_le)).trans
          hTaken.complete
      exact iff_of_true rfl hReady
    · intro block' hSome
      cases hSome
      exact ⟨n, hTaken.takesChunk hConfig⟩

end PicoLogicAnalyzer

namespace PicoLogicAnalyzer

section Sample

attribute [local instance] CaptureModule.sample

/- A reader one lap and five chunks behind the writer. -/
theorem stream_take_policy_after_lap :
    TakePolicy
      (Device.run (Device.boot CaptureHardware.blank)
        [Input.command 1 "STREAM_START"]).1.bridge
      (131072 + 1280)
      (laStreamTake
        { passes := 1, busy0 := false, count0 := 0,
          busy1 := true, count1 := 131072 - 1280 }
        0
        (Device.run (Device.boot CaptureHardware.blank)
          [Input.command 1 "STREAM_START"]).1.bridge) := by
  have hProduced :
      (laStreamProducedBytes
        { passes := 1, busy0 := false, count0 := 0,
          busy1 := true, count1 := 131072 - 1280 }
        (Device.run (Device.boot CaptureHardware.blank)
          [Input.command 1 "STREAM_START"]).1.bridge).2 =
        131072 + 1280 := by
    decide +kernel
  rw [← hProduced]
  apply stream_take_policy
    ⟨CaptureHardware.blank,
      [Input.command 1 "STREAM_START"], rfl⟩
  · decide +kernel
  · decide +kernel

end Sample

end PicoLogicAnalyzer
