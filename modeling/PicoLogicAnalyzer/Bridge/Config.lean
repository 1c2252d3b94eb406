import Mathlib.Data.Nat.Bitwise
import Mathlib.Tactic.IntervalCases
import PicoLogicAnalyzer.Lib.Word

/-
  The capture configuration of the bridge.

  `LaConfig` is the file-level record of the same name; the
  channel array is rebuilt in place from the mask over its
  previous contents.

  Key definitions include:
    * `captureBufferSize`
    * `InputPin`
    * `ChannelMode`
    * `LaConfig`
    * `laUpdateChannelConfig`
    * `acceptsFrequency`
    * `acceptsChunkBytes`
    * `acceptsChannelMask`
    * `LaConfig.WellFormed`

  The rebuild of the channel array is specified by:
    * `laUpdateChannelConfig_channels`
    * `laUpdateChannelConfig_wellFormed`
-/

------------------------------------------------------------
-- Constants And Modes
------------------------------------------------------------

namespace PicoLogicAnalyzer

/-
  What the capture submodule fixes at build time and this
  repository only names.
-/
class CaptureModule where
  maxFreq : Nat

/- Bytes of the circular capture buffer, 128 KiB. -/
def captureBufferSize : Nat := 128 * 1024

def laMaxChannels : Nat := 24

def laMaxChunkBytes : Nat := 8 * 1024

/- The GPIO whose level is bit 0 of a raw sample. -/
def inputPinBase : Nat := 2

/- A GPIO whose level has a bit in the raw sample word. -/
structure InputPin where
  gpio : Nat
  base_le : inputPinBase ≤ gpio
  lt : gpio < inputPinBase + 32
deriving DecidableEq, Repr

/- Raw sample bit of a pin. -/
def InputPin.bit (pin : InputPin) : Nat :=
  pin.gpio - inputPinBase

theorem InputPin.bit_lt (pin : InputPin) : pin.bit < 32 := by
  have hLt := pin.lt
  unfold bit inputPinBase at *
  omega

/- Storage modes of the capture engine. -/
inductive ChannelMode where
  | mode8Channel
  | mode16Channel
  | mode24Channel
deriving DecidableEq, Repr

/- Bytes one raw sample occupies in a mode. -/
def laBytesPerSampleMode : ChannelMode → Nat
| .mode8Channel => 1
| .mode16Channel => 2
| .mode24Channel => 4

/- The smallest mode that stores channel `highest`. -/
def modeForHighest (highest : Nat) : ChannelMode :=
  if highest < 8 then .mode8Channel
  else if highest < 16 then .mode16Channel
  else .mode24Channel

/- Every width divides the word the chunk sizes are made of. -/
theorem laBytesPerSampleMode_dvd_four
    (mode : ChannelMode) :
    laBytesPerSampleMode mode ∣ 4 := by
  cases mode <;> decide

theorem laBytesPerSampleMode_pos
    (mode : ChannelMode) :
    0 < laBytesPerSampleMode mode := by
  cases mode <;> decide

theorem laBytesPerSampleMode_le_four
    (mode : ChannelMode) :
    laBytesPerSampleMode mode ≤ 4 :=
  Nat.le_of_dvd (by decide)
    (laBytesPerSampleMode_dvd_four mode)

end PicoLogicAnalyzer

------------------------------------------------------------
-- Configuration Record
------------------------------------------------------------

namespace PicoLogicAnalyzer

structure LaConfig where
  frequency : Nat
  chunkBytes : Nat
  channelMask : Nat
  channelCount : Nat
  channels : List Nat
  mode : ChannelMode
  bytesPerSample : Nat
deriving DecidableEq, Repr

/- The static initial value. -/
def LaConfig.initial : LaConfig where
  frequency := 1000
  chunkBytes := 256
  channelMask := 1
  channelCount := 1
  channels := List.replicate laMaxChannels 0
  mode := .mode8Channel
  bytesPerSample := 1

/- Loop state of the channel scan. -/
structure ChannelScan where
  channelCount : Nat
  channels : List Nat
  highest : Nat

/- One iteration of the channel scan. -/
def ChannelScan.visit
    (mask : Nat)
    (scan : ChannelScan)
    (channel : Nat) :
    ChannelScan :=
  if mask.testBit channel then
    { channelCount := scan.channelCount + 1
      channels := scan.channels.set scan.channelCount channel
      highest := channel }
  else
    scan

/- The scan over every channel number. -/
def ChannelScan.run
    (mask : Nat)
    (channels : List Nat) :
    ChannelScan :=
  (List.range laMaxChannels).foldl
    (ChannelScan.visit mask)
    { channelCount := 0, channels := channels, highest := 0 }

def laUpdateChannelConfig (config : LaConfig) : LaConfig :=
  let scan :=
    ChannelScan.run config.channelMask config.channels
  let mode := modeForHighest scan.highest
  { config with
    channelCount := scan.channelCount
    channels := scan.channels
    mode := mode
    bytesPerSample := laBytesPerSampleMode mode }

/- Acceptance test of `la_configure_frequency`. -/
def acceptsFrequency
    [CaptureModule]
    (freq : Nat) : Bool :=
  0 < freq && freq ≤ CaptureModule.maxFreq

/- Acceptance test of `la_configure_chunk_bytes`. -/
def acceptsChunkBytes (chunkBytes : Nat) : Bool :=
  0 < chunkBytes && chunkBytes ≤ laMaxChunkBytes &&
    captureBufferSize % chunkBytes == 0 &&
    chunkBytes % 4 == 0

/-
  Acceptance test of `la_configure_channel_mask`: the mask
  is not empty and has no bit outside the analyzer channels.
-/
def acceptsChannelMask (channelMask : Nat) : Bool :=
  channelMask != 0 && (channelMask &&& 0xFF000000) == 0

end PicoLogicAnalyzer

------------------------------------------------------------
-- Channel Scan
------------------------------------------------------------

namespace PicoLogicAnalyzer

/- The channels below `bound` that a mask enables. -/
def enabledBelow (mask bound : Nat) : List Nat :=
  (List.range bound).filter mask.testBit

/- The channels a mask enables, in increasing order. -/
def enabledChannels (mask : Nat) : List Nat :=
  enabledBelow mask laMaxChannels

theorem enabledBelow_succ
    (mask bound : Nat) :
    enabledBelow mask (bound + 1) =
      if mask.testBit bound then
        enabledBelow mask bound ++ [bound]
      else
        enabledBelow mask bound := by
  unfold enabledBelow
  rw [List.range_succ, List.filter_append]
  by_cases hBit : mask.testBit bound
  · simp [hBit]
  · simp [hBit]

theorem length_enabledBelow_le
    (mask bound : Nat) :
    (enabledBelow mask bound).length ≤ bound := by
  unfold enabledBelow
  have hLength := List.length_filter_le mask.testBit
    (List.range bound)
  simpa using hLength

/-
  Invariant of the channel scan after the channels below
  `bound`. The array keeps its length, so later entries are
  whatever an earlier mask left there.
-/
theorem channelScan_foldl
    (mask : Nat)
    (channels : List Nat)
    (bound : Nat)
    (hBound : bound ≤ channels.length) :
    let scan :=
      (List.range bound).foldl (ChannelScan.visit mask)
        { channelCount := 0
          channels := channels
          highest := 0 }
    scan.channelCount = (enabledBelow mask bound).length ∧
      scan.channels.take scan.channelCount =
        enabledBelow mask bound ∧
      scan.channels.length = channels.length ∧
      scan.highest =
        (enabledBelow mask bound).getLastD 0 ∧
      scan.channels.drop scan.channelCount =
        channels.drop scan.channelCount := by
  induction bound with
  | zero => simp [enabledBelow]
  | succ bound ih =>
      rcases ih (by omega) with
        ⟨hCount, hTake, hLength, hHighest, hRest⟩
      have hSmall := length_enabledBelow_le mask bound
      rw [List.range_succ, List.foldl_append]
      generalize
        (List.range bound).foldl (ChannelScan.visit mask)
          { channelCount := 0
            channels := channels
            highest := 0 } = scan at *
      simp only [List.foldl_cons, List.foldl_nil,
        ChannelScan.visit, enabledBelow_succ]
      by_cases hBit : mask.testBit bound
      · have hRoom :
            scan.channelCount < scan.channels.length := by
          omega
        have hSet :
            (scan.channels.set scan.channelCount bound).take
                (scan.channelCount + 1) =
              enabledBelow mask bound ++ [bound] := by
          rw [List.take_set, List.take_add_one,
            hTake, List.getElem?_eq_getElem hRoom]
          simp [hCount]
        simp only [hBit, if_true]
        refine ⟨?_, hSet, ?_, ?_, ?_⟩
        · simp [hCount]
        · simp [hLength]
        · simp
        · rw [List.drop_set_of_lt (Nat.lt_add_one _)]
          have hNext := congrArg (List.drop 1) hRest
          simpa [List.drop_drop] using hNext
      · simp only [hBit, Bool.false_eq_true, if_false]
        exact ⟨hCount, hTake, hLength, hHighest, hRest⟩

/- The rebuilt array starts with exactly the set bits. -/
theorem laUpdateChannelConfig_channels
    (config : LaConfig)
    (hLength : config.channels.length = laMaxChannels) :
    let updated := laUpdateChannelConfig config
    updated.channels.take updated.channelCount =
        enabledChannels config.channelMask ∧
      updated.channelCount =
        (enabledChannels config.channelMask).length ∧
      updated.channels.length = laMaxChannels ∧
      updated.mode =
        modeForHighest
          ((enabledChannels config.channelMask).getLastD
            0) := by
  rcases channelScan_foldl config.channelMask config.channels
      laMaxChannels hLength.ge with
    ⟨hCount, hTake, hLen, hHighest, _⟩
  refine ⟨hTake, hCount, hLen.trans hLength, ?_⟩
  exact congrArg modeForHighest hHighest

end PicoLogicAnalyzer

------------------------------------------------------------
-- Well-Formed Configurations
------------------------------------------------------------

namespace PicoLogicAnalyzer

/-
  Representation invariant of the configuration: the mask
  selects analyzer channels, the derived fields follow from
  the mask, and the chunk size tiles the capture buffer.
-/
structure LaConfig.WellFormed (config : LaConfig) : Prop where
  mask_pos : 0 < config.channelMask
  mask_lt : config.channelMask < 2 ^ laMaxChannels
  channels_length : config.channels.length = laMaxChannels
  channels_take :
    config.channels.take config.channelCount =
      enabledChannels config.channelMask
  channelCount_eq :
    config.channelCount =
      (enabledChannels config.channelMask).length
  mode_eq :
    config.mode =
      modeForHighest
        ((enabledChannels config.channelMask).getLastD 0)
  width_eq :
    config.bytesPerSample = laBytesPerSampleMode config.mode
  chunk_pos : 0 < config.chunkBytes
  chunk_le : config.chunkBytes ≤ laMaxChunkBytes
  chunk_dvd : config.chunkBytes ∣ captureBufferSize
  four_dvd : 4 ∣ config.chunkBytes

namespace LaConfig.WellFormed

variable {config : LaConfig}

theorem width_pos
    (hConfig : config.WellFormed) :
    0 < config.bytesPerSample := by
  rw [hConfig.width_eq]
  exact laBytesPerSampleMode_pos config.mode

theorem width_le_four
    (hConfig : config.WellFormed) :
    config.bytesPerSample ≤ 4 := by
  rw [hConfig.width_eq]
  exact laBytesPerSampleMode_le_four config.mode

/- Chunks hold a whole number of samples. -/
theorem width_dvd_chunk
    (hConfig : config.WellFormed) :
    config.bytesPerSample ∣ config.chunkBytes := by
  rw [hConfig.width_eq]
  exact (laBytesPerSampleMode_dvd_four config.mode).trans
    hConfig.four_dvd

theorem width_dvd_buffer
    (hConfig : config.WellFormed) :
    config.bytesPerSample ∣ captureBufferSize :=
  hConfig.width_dvd_chunk.trans hConfig.chunk_dvd

end LaConfig.WellFormed

theorem LaConfig.initial_wellFormed :
    LaConfig.initial.WellFormed where
  mask_pos := by decide
  mask_lt := by decide
  channels_length := by decide
  channels_take := by decide
  channelCount_eq := by decide
  mode_eq := by decide
  width_eq := by decide
  chunk_pos := by decide
  chunk_le := by decide
  chunk_dvd := by decide
  four_dvd := by decide

/- Accepted masks are the non-empty 24-bit ones. -/
theorem acceptsChannelMask_iff
    {channelMask : Nat}
    (hBound : channelMask < 2 ^ 32) :
    acceptsChannelMask channelMask = true ↔
      0 < channelMask ∧ channelMask < 2 ^ laMaxChannels := by
  have hHigh :
      channelMask &&& 0xFF000000 = 0 ↔
        channelMask < 2 ^ laMaxChannels := by
    constructor
    · intro hZero
      apply Nat.lt_pow_two_of_testBit
      intro bit hBit
      by_cases hWord : bit < 32
      · have hMask : Nat.testBit 0xFF000000 bit = true := by
          simp only [laMaxChannels] at hBit
          interval_cases bit <;> decide
        have hBoth :
            (channelMask &&& 0xFF000000).testBit bit =
              false := by
          rw [hZero, Nat.zero_testBit]
        rw [Nat.testBit_and, hMask, Bool.and_true] at hBoth
        exact hBoth
      · apply Nat.testBit_lt_two_pow
        exact hBound.trans_le
          (Nat.pow_le_pow_right (by decide) (by omega))
    · intro hLow
      apply Nat.eq_of_testBit_eq
      intro bit
      rw [Nat.testBit_and, Nat.zero_testBit]
      by_cases hBit : bit < laMaxChannels
      · have hMask :
            Nat.testBit 0xFF000000 bit = false := by
          simp only [laMaxChannels] at hBit
          interval_cases bit <;> decide
        rw [hMask, Bool.and_false]
      · rw [Nat.testBit_lt_two_pow, Bool.false_and]
        exact hLow.trans_le
          (Nat.pow_le_pow_right (by decide) (by omega))
  simp [acceptsChannelMask, hHigh, Nat.pos_iff_ne_zero]

theorem acceptsChunkBytes_iff
    (chunkBytes : Nat) :
    acceptsChunkBytes chunkBytes = true ↔
      0 < chunkBytes ∧ chunkBytes ≤ laMaxChunkBytes ∧
        chunkBytes ∣ captureBufferSize ∧
        4 ∣ chunkBytes := by
  simp [acceptsChunkBytes, Nat.dvd_iff_mod_eq_zero,
    and_assoc]

/- Rebuilding the channels of an accepted mask is sound. -/
theorem laUpdateChannelConfig_wellFormed
    {config : LaConfig}
    (hConfig : config.WellFormed)
    {channelMask : Nat}
    (hPos : 0 < channelMask)
    (hBound : channelMask < 2 ^ laMaxChannels) :
    (laUpdateChannelConfig
      { config with channelMask := channelMask }).WellFormed := by
  rcases laUpdateChannelConfig_channels
      { config with channelMask := channelMask }
      hConfig.channels_length with
    ⟨hTake, hCount, hLength, hMode⟩
  exact
    { mask_pos := hPos
      mask_lt := hBound
      channels_length := hLength
      channels_take := hTake
      channelCount_eq := hCount
      mode_eq := hMode
      width_eq := rfl
      chunk_pos := hConfig.chunk_pos
      chunk_le := hConfig.chunk_le
      chunk_dvd := hConfig.chunk_dvd
      four_dvd := hConfig.four_dvd }

/- Selecting the mask in force again changes nothing. -/
theorem laUpdateChannelConfig_self
    {config : LaConfig}
    (hConfig : config.WellFormed) :
    laUpdateChannelConfig config = config := by
  rcases channelScan_foldl config.channelMask config.channels
      laMaxChannels hConfig.channels_length.ge with
    ⟨hCount, hTake, _, hHighest, hRest⟩
  have hCount' :
      (ChannelScan.run config.channelMask
        config.channels).channelCount =
          config.channelCount :=
    hCount.trans hConfig.channelCount_eq.symm
  have hChannels :
      (ChannelScan.run config.channelMask
        config.channels).channels = config.channels := by
    rw [← List.take_append_drop
      (ChannelScan.run config.channelMask
        config.channels).channelCount
      (ChannelScan.run config.channelMask
        config.channels).channels]
    refine (congrArg₂ (· ++ ·) hTake hRest).trans ?_
    have hPrefix := hConfig.channels_take
    unfold enabledChannels at hPrefix
    rw [← hPrefix]
    change
      config.channels.take config.channelCount ++
          config.channels.drop
            (ChannelScan.run config.channelMask
              config.channels).channelCount =
        config.channels
    rw [hCount', List.take_append_drop]
  have hMode :
      modeForHighest
          (ChannelScan.run config.channelMask
            config.channels).highest =
        config.mode :=
    (congrArg modeForHighest hHighest).trans
      hConfig.mode_eq.symm
  unfold laUpdateChannelConfig
  simp only [hChannels, hCount', hMode, ← hConfig.width_eq]

end PicoLogicAnalyzer
