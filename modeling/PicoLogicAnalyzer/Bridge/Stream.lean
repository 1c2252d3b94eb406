import PicoLogicAnalyzer.Bridge.State

/-
  Continuous streaming of `logic_analyzer_bridge.c`.

  The reads that `la_stream_produced_bytes` makes of the pass
  counter and of the two ping-pong channels are arguments:
  the DMA and its interrupt run between any two of them.

  Key definitions include:
    * `DmaReads`
    * `laStreamDmaHandler`
    * `laStreamProducedBytes`
    * `laStreamStart`
    * `laStreamTake`
    * `laStreamRelease`
    * `laStreamStop`
    * `StreamTaken`

  Key theorems include:
    * `laStreamTake_spec`
-/

------------------------------------------------------------
-- Progress Of The Ping-Pong Channels
------------------------------------------------------------

namespace PicoLogicAnalyzer

open Word

/- Values read by one call of `la_stream_produced_bytes`. -/
structure DmaReads where
  passes : Nat
  busy0 : Bool
  count0 : Nat
  busy1 : Bool
  count1 : Nat
deriving DecidableEq, Repr

/-
  Transfers left in the pass of the busy channel. The second
  channel is only consulted when the first is idle.
-/
def DmaReads.remaining (reads : DmaReads) : Option Nat :=
  if reads.busy0 then some (u32 reads.count0)
  else if reads.busy1 then some (u32 reads.count1)
  else none

/- The completion interrupt of one pass. -/
def laStreamDmaHandler (b : Bridge) : Bridge :=
  { b with
    laStreamCompletedPasses :=
      u32 (b.laStreamCompletedPasses + 1) }

/- The byte count the reads stand for, before the clamp. -/
def producedFrom
    (bytesPerSample passes remaining : Nat) :
    Nat :=
  let transfersPerPass := captureBufferSize / bytesPerSample
  u64 (u32 passes * captureBufferSize +
    sub32 transfersPerPass remaining * bytesPerSample)

def laStreamProducedBytes
    (reads : DmaReads)
    (b : Bridge) :
    Bridge × Nat :=
  match reads.remaining with
  | none => (b, b.laStreamLastProducedBytes)
  | some remaining =>
      let produced :=
        producedFrom b.laConfig.bytesPerSample reads.passes
          remaining
      -- The next DMA pass may run before its interrupt.
      if produced < b.laStreamLastProducedBytes then
        (b, b.laStreamLastProducedBytes)
      else
        ({ b with laStreamLastProducedBytes := produced },
          produced)

end PicoLogicAnalyzer

------------------------------------------------------------
-- Stream Sessions
------------------------------------------------------------

namespace PicoLogicAnalyzer

open Word

/- `memset` over the whole of `captureBuffer`. -/
def clearedBuffer
    (memory : Nat → UInt8) :
    Nat → UInt8 :=
  fun offset =>
    if offset < captureBufferSize then 0 else memory offset

def laStreamStart (b : Bridge) : Started :=
  if laIsBusy b then
    { bridge := b, started := false, setUps := [] }
  else
    { bridge :=
        { b with
          hw :=
            { b.hw with
              captureBuffer :=
                clearedBuffer b.hw.captureBuffer
              dmaMode := b.laConfig.mode }
          laStreamCompletedPasses := 0
          laStreamNextChunk := 0
          laStreamLastProducedBytes := 0
          laStreamOverruns := 0
          laStreamBlockOutstanding := false
          laStreamRunning := true }
      started := true
      setUps := [b.setUp .stream true] }

/-
  Skip the chunks whose slots the writer has reached. The
  test leaves one slot for the chunk being written.
-/
def skipOverwritten
    (completedChunks slotCount : Nat)
    (b : Bridge) :
    Bridge :=
  if slotCount ≤ completedChunks - b.laStreamNextChunk then
    let oldestAvailable := completedChunks - slotCount + 1
    { b with
      laStreamOverruns :=
        u32 (b.laStreamOverruns +
          u32 (oldestAvailable - b.laStreamNextChunk))
      laStreamNextChunk := oldestAvailable }
  else
    b

/- The block describing chunk `la_stream_next_chunk`. -/
def nextChunkBlock
    (timeUs : Nat)
    (b : Bridge) :
    AnalysisBlock :=
  let chunkBytes := b.laConfig.chunkBytes
  let slotCount := captureBufferSize / chunkBytes
  let samples := chunkBytes / b.laConfig.bytesPerSample
  { data := u32 (b.laStreamNextChunk % slotCount * chunkBytes)
    bytes := chunkBytes
    samples := samples
    sequence := u32 b.laStreamNextChunk
    overruns := b.laStreamOverruns
    firstSample := u64 (b.laStreamNextChunk * samples)
    deviceTimeUs := timeUs
    slot := 0 }

def laStreamTake
    (reads : DmaReads)
    (timeUs : Nat)
    (b : Bridge) :
    Bridge × Option AnalysisBlock :=
  if !b.laStreamRunning || b.laStreamBlockOutstanding then
    (b, none)
  else
    let progress := laStreamProducedBytes reads b
    let b := progress.1
    let completedChunks :=
      progress.2 / b.laConfig.chunkBytes
    if completedChunks ≤ b.laStreamNextChunk then
      (b, none)
    else
      let slotCount :=
        captureBufferSize / b.laConfig.chunkBytes
      let b := skipOverwritten completedChunks slotCount b
      ({ b with
          laStreamNextChunk := u64 (b.laStreamNextChunk + 1)
          laStreamBlockOutstanding := true },
        some (nextChunkBlock timeUs b))

def laStreamRelease (b : Bridge) : Bridge :=
  { b with laStreamBlockOutstanding := false }

/- Stopping the hardware leaves the buffer as it is. -/
def laStreamStop (b : Bridge) : Bridge :=
  if !b.laStreamRunning then
    b
  else
    { b with
      laStreamRunning := false
      laStreamBlockOutstanding := false }

end PicoLogicAnalyzer

------------------------------------------------------------
-- What A Take Does
------------------------------------------------------------

namespace PicoLogicAnalyzer

open Word

/- Reading the progress moves one counter. -/
theorem laStreamProducedBytes_eq
    (reads : DmaReads)
    (b : Bridge) :
    ∃ produced,
      laStreamProducedBytes reads b =
        ({ b with laStreamLastProducedBytes := produced },
          produced) := by
  unfold laStreamProducedBytes
  split
  · exact ⟨b.laStreamLastProducedBytes, rfl⟩
  · simp only
    split
    · exact ⟨b.laStreamLastProducedBytes, rfl⟩
    · exact ⟨_, rfl⟩

theorem skipOverwritten_eq
    (completedChunks slotCount : Nat)
    (b : Bridge) :
    ∃ next overruns,
      skipOverwritten completedChunks slotCount b =
        { b with
          laStreamOverruns := overruns
          laStreamNextChunk := next } := by
  unfold skipOverwritten
  split
  · exact ⟨_, _, rfl⟩
  · exact ⟨b.laStreamNextChunk, b.laStreamOverruns, rfl⟩

/-
  All a take can do: move the progress counter, or hand out
  the block of a chunk and move the other counters past it.
-/
theorem laStreamTake_cases
    (reads : DmaReads)
    (timeUs : Nat)
    (b : Bridge) :
    (∃ produced,
        laStreamTake reads timeUs b =
          ({ b with laStreamLastProducedBytes := produced },
            none)) ∨
      (b.laStreamRunning = true ∧
        b.laStreamBlockOutstanding = false ∧
        ∃ next produced overruns,
          laStreamTake reads timeUs b =
            ({ b with
                laStreamLastProducedBytes := produced
                laStreamOverruns := overruns
                laStreamNextChunk := u64 (next + 1)
                laStreamBlockOutstanding := true },
              some
                (nextChunkBlock timeUs
                  { b with
                    laStreamLastProducedBytes := produced
                    laStreamOverruns := overruns
                    laStreamNextChunk := next }))) := by
  rcases laStreamProducedBytes_eq reads b with
    ⟨produced, hProduced⟩
  unfold laStreamTake
  split
  · exact Or.inl ⟨b.laStreamLastProducedBytes, rfl⟩
  · rename_i hOpen
    simp only [Bool.or_eq_true, Bool.not_eq_true', not_or,
      Bool.not_eq_false, Bool.not_eq_true] at hOpen
    simp only [hProduced]
    split
    · exact Or.inl ⟨produced, rfl⟩
    · rcases skipOverwritten_eq
        (produced / b.laConfig.chunkBytes)
        (captureBufferSize / b.laConfig.chunkBytes)
        { b with laStreamLastProducedBytes := produced } with
        ⟨next, overruns, hSkip⟩
      rw [hSkip]
      exact
        Or.inr
          ⟨hOpen.1, hOpen.2, next, produced, overruns, rfl⟩

/- The counter only advances and stays a 64-bit word. -/
theorem laStreamProducedBytes_spec
    {b : Bridge}
    (hLast : b.laStreamLastProducedBytes < 2 ^ 64)
    (reads : DmaReads) :
    ∃ produced,
      laStreamProducedBytes reads b =
          ({ b with laStreamLastProducedBytes := produced },
            produced) ∧
        b.laStreamLastProducedBytes ≤ produced ∧
        produced < 2 ^ 64 := by
  unfold laStreamProducedBytes
  split
  · exact
      ⟨b.laStreamLastProducedBytes, rfl, Nat.le_refl _, hLast⟩
  · simp only
    split
    · exact
        ⟨b.laStreamLastProducedBytes, rfl, Nat.le_refl _,
          hLast⟩
    · rename_i hAdvance
      exact ⟨_, rfl, Nat.not_lt.mp hAdvance, u64_lt _⟩

/- The chunk taken once overwritten chunks are skipped. -/
theorem skipOverwritten_spec
    {completedChunks slotCount : Nat}
    {b : Bridge}
    (hSlots : 1 < slotCount)
    (hReady : b.laStreamNextChunk < completedChunks)
    (hOverruns : b.laStreamOverruns < 2 ^ 32) :
    ∃ n overruns,
      skipOverwritten completedChunks slotCount b =
          { b with
            laStreamOverruns := overruns
            laStreamNextChunk := n } ∧
        overruns =
          u32 (b.laStreamOverruns +
            (n - b.laStreamNextChunk)) ∧
        b.laStreamNextChunk ≤ n ∧
        n < completedChunks ∧
        completedChunks < n + slotCount ∧
        ∀ c, b.laStreamNextChunk ≤ c → c < n →
          c + slotCount ≤ completedChunks := by
  unfold skipOverwritten
  split
  · refine ⟨_, _, rfl, u32_add_u32 _ _, ?_, ?_, ?_, ?_⟩
    · omega
    · omega
    · omega
    · intro c _ hSkipped
      omega
  · refine
      ⟨b.laStreamNextChunk, b.laStreamOverruns, rfl, ?_,
        Nat.le_refl _, hReady, by omega, ?_⟩
    · rw [Nat.sub_self, Nat.add_zero, u32_of_lt hOverruns]
    · intro c hFrom hBelow
      omega

/-
  Chunk `n` was taken: it is complete, its slot is not the
  one being written, the writer has reached the slots of the
  chunks before it, and the block describes it.
-/
structure StreamTaken
    (b : Bridge)
    (n produced overruns : Nat)
    (block : AnalysisBlock)
    (b' : Bridge) : Prop where
  next_le : b.laStreamNextChunk ≤ n
  complete : (n + 1) * b.laConfig.chunkBytes ≤ produced
  recent :
    produced / b.laConfig.chunkBytes <
      n + captureBufferSize / b.laConfig.chunkBytes
  skipped :
    ∀ c, b.laStreamNextChunk ≤ c → c < n →
      c + captureBufferSize / b.laConfig.chunkBytes ≤
        produced / b.laConfig.chunkBytes
  progress : b.laStreamLastProducedBytes ≤ produced
  bound : produced < 2 ^ 64
  overruns_eq :
    overruns =
      u32 (b.laStreamOverruns + (n - b.laStreamNextChunk))
  bridge :
    b' =
      { b with
        laStreamLastProducedBytes := produced
        laStreamOverruns := overruns
        laStreamNextChunk := n + 1
        laStreamBlockOutstanding := true }
  data :
    block.data =
      n % (captureBufferSize / b.laConfig.chunkBytes) *
        b.laConfig.chunkBytes
  bytes : block.bytes = b.laConfig.chunkBytes
  samples :
    block.samples =
      b.laConfig.chunkBytes / b.laConfig.bytesPerSample
  sequence : block.sequence = u32 n
  overruns : block.overruns = overruns
  firstSample :
    block.firstSample =
      n * (b.laConfig.chunkBytes / b.laConfig.bytesPerSample)

theorem LaConfig.WellFormed.one_lt_slots
    {config : LaConfig}
    (hConfig : config.WellFormed) :
    1 < captureBufferSize / config.chunkBytes := by
  have hLe := hConfig.chunk_le
  have hPos := hConfig.chunk_pos
  rw [Nat.lt_div_iff_mul_lt hPos]
  unfold laMaxChunkBytes at hLe
  unfold captureBufferSize
  omega

theorem nextChunkBlock_spec
    {b : Bridge}
    {produced : Nat}
    (hConfig : b.laConfig.WellFormed)
    (hComplete :
      b.laStreamNextChunk * b.laConfig.chunkBytes ≤ produced)
    (hBound : produced < 2 ^ 64)
    (timeUs : Nat) :
    (nextChunkBlock timeUs b).data =
        b.laStreamNextChunk %
            (captureBufferSize / b.laConfig.chunkBytes) *
          b.laConfig.chunkBytes ∧
      (nextChunkBlock timeUs b).firstSample =
        b.laStreamNextChunk *
          (b.laConfig.chunkBytes /
            b.laConfig.bytesPerSample) := by
  have hSlots := hConfig.one_lt_slots
  constructor
  · apply u32_of_lt
    have hSlot :
        b.laStreamNextChunk %
            (captureBufferSize / b.laConfig.chunkBytes) ≤
          captureBufferSize / b.laConfig.chunkBytes :=
      (Nat.mod_lt _ (by omega)).le
    have hOffset :=
      (Nat.mul_le_mul_right b.laConfig.chunkBytes hSlot).trans
        (Nat.div_mul_le_self _ _)
    unfold captureBufferSize at hOffset ⊢
    omega
  · apply u64_of_lt
    have hSamples :
        b.laConfig.chunkBytes / b.laConfig.bytesPerSample ≤
          b.laConfig.chunkBytes :=
      Nat.div_le_self _ _
    have hFirst :=
      Nat.mul_le_mul_left b.laStreamNextChunk hSamples
    omega

/- One call of `la_stream_take` on a running stream. -/
theorem laStreamTake_spec
    {b : Bridge}
    (hConfig : b.laConfig.WellFormed)
    (hLast : b.laStreamLastProducedBytes < 2 ^ 64)
    (hOverruns : b.laStreamOverruns < 2 ^ 32)
    (hRunning : b.laStreamRunning = true)
    (hFree : b.laStreamBlockOutstanding = false)
    (reads : DmaReads)
    (timeUs : Nat) :
    ((laStreamTake reads timeUs b).2 = none ∧
        ∃ produced,
          (laStreamTake reads timeUs b).1 =
              { b with
                laStreamLastProducedBytes := produced } ∧
            (laStreamProducedBytes reads b).2 = produced ∧
            produced / b.laConfig.chunkBytes ≤
              b.laStreamNextChunk ∧
            b.laStreamLastProducedBytes ≤ produced ∧
            produced < 2 ^ 64) ∨
      ∃ n produced overruns block b',
        laStreamTake reads timeUs b = (b', some block) ∧
          (laStreamProducedBytes reads b).2 = produced ∧
          StreamTaken b n produced overruns block b' := by
  rcases laStreamProducedBytes_spec hLast reads with
    ⟨produced, hProduced, hProgress, hBound⟩
  have hOpen :
      ¬ (!b.laStreamRunning ||
        b.laStreamBlockOutstanding) = true := by
    simp [hRunning, hFree]
  unfold laStreamTake
  rw [if_neg hOpen]
  simp only [hProduced]
  split
  · rename_i hNone
    exact
      Or.inl
        ⟨rfl, produced, rfl, rfl, hNone, hProgress, hBound⟩
  · rename_i hReady
    right
    have hChunk := hConfig.chunk_pos
    rcases skipOverwritten_spec
        (b := { b with laStreamLastProducedBytes := produced })
        hConfig.one_lt_slots (Nat.not_le.mp hReady) hOverruns
      with
      ⟨n, overruns, hSkip, hCount, hNext, hBelow, hRecent,
        hSkipped⟩
    have hComplete :
        (n + 1) * b.laConfig.chunkBytes ≤ produced :=
      (Nat.le_div_iff_mul_le hChunk).mp hBelow
    have hStart :
        n * b.laConfig.chunkBytes ≤ produced :=
      (Nat.mul_le_mul_right _ (Nat.le_succ n)).trans hComplete
    have hWord : n + 1 ≤ produced :=
      (Nat.le_mul_of_pos_right _ hChunk).trans hComplete
    rw [hSkip]
    have hBlock :=
      nextChunkBlock_spec
        (b :=
          { b with
            laStreamLastProducedBytes := produced
            laStreamOverruns := overruns
            laStreamNextChunk := n })
        hConfig hStart hBound timeUs
    refine
      ⟨n, produced, overruns, _, _, rfl, rfl, hNext, hComplete,
        hRecent, hSkipped, hProgress, hBound, hCount, ?_,
        hBlock.1, rfl, rfl, rfl, rfl, hBlock.2⟩
    rw [u64_of_lt (n := n + 1) (by omega)]

end PicoLogicAnalyzer
