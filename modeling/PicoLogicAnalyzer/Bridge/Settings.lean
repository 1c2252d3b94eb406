import Mathlib.Data.Nat.Prime.Basic
import PicoLogicAnalyzer.Bridge.State

/-
  The three functions that change the configuration.

  `LaConfig.Changes` says once how the configuration can
  move; everything that holds of every configuration in
  force is shown closed under it.

  Key definitions include:
    * `LaConfig.Changes`
    * `SetterSpec`
    * `LaConfig.Valid`

  Key theorems include:
    * `LaConfig.Changes.wellFormed`
    * `acceptsChunkBytes_iff_pow`
    * `LaConfig.WellFormed.valid`
-/

------------------------------------------------------------
-- Changes Of The Configuration
------------------------------------------------------------

namespace PicoLogicAnalyzer

/- One setting, accepted or not, with a 32-bit value. -/
inductive LaConfig.Changes
    [CaptureModule] :
    LaConfig → LaConfig → Prop where
  | same (config : LaConfig) : Changes config config
  | frequency
      (config : LaConfig)
      {freq : Nat}
      (hWord : freq < 2 ^ 32)
      (hAccepted : acceptsFrequency freq = true) :
      Changes config { config with frequency := freq }
  | chunkBytes
      (config : LaConfig)
      {chunkBytes : Nat}
      (hAccepted : acceptsChunkBytes chunkBytes = true) :
      Changes config { config with chunkBytes := chunkBytes }
  | channelMask
      (config : LaConfig)
      {channelMask : Nat}
      (hWord : channelMask < 2 ^ 32)
      (hAccepted : acceptsChannelMask channelMask = true) :
      Changes config
        (laUpdateChannelConfig
          { config with channelMask := channelMask })

/- An argument of the setters: a 32-bit word or `NULL`. -/
def IsWordArg (arg : Option Nat) : Prop :=
  ∀ value, arg = some value → value < 2 ^ 32

theorem isWordArg_some
    {value : Nat}
    (hWord : value < 2 ^ 32) :
    IsWordArg (some value) := by
  rintro _ ⟨⟩
  exact hWord

variable [CaptureModule]

theorem laConfigureFrequency_changes
    {freq : Option Nat}
    (hWord : IsWordArg freq)
    (b : Bridge) :
    b.laConfig.Changes
      (laConfigureFrequency freq b).1.laConfig := by
  cases freq with
  | none => exact .same _
  | some freq =>
      simp only [laConfigureFrequency]
      split
      · rename_i hAccepted
        rw [Bool.and_eq_true] at hAccepted
        exact .frequency _ (hWord freq rfl) hAccepted.2
      · exact .same _

theorem laConfigureChunkBytes_changes
    (chunkBytes : Option Nat)
    (b : Bridge) :
    b.laConfig.Changes
      (laConfigureChunkBytes chunkBytes b).1.laConfig := by
  cases chunkBytes with
  | none => exact .same _
  | some chunkBytes =>
      simp only [laConfigureChunkBytes]
      split
      · rename_i hAccepted
        rw [Bool.and_eq_true] at hAccepted
        exact .chunkBytes _ hAccepted.2
      · exact .same _

theorem laConfigureChannelMask_changes
    {channelMask : Option Nat}
    (hWord : IsWordArg channelMask)
    (b : Bridge) :
    b.laConfig.Changes
      (laConfigureChannelMask channelMask b).1.laConfig := by
  cases channelMask with
  | none => exact .same _
  | some channelMask =>
      simp only [laConfigureChannelMask]
      split
      · rename_i hAccepted
        rw [Bool.and_eq_true] at hAccepted
        exact
          .channelMask _ (hWord channelMask rfl) hAccepted.2
      · exact .same _

/- The representation invariant survives every setting. -/
theorem LaConfig.Changes.wellFormed
    {config config' : LaConfig}
    (hChanges : config.Changes config')
    (hConfig : config.WellFormed) :
    config'.WellFormed := by
  cases hChanges with
  | same => exact hConfig
  | frequency hWord hAccepted => exact { hConfig with }
  | chunkBytes hAccepted =>
      rw [acceptsChunkBytes_iff] at hAccepted
      rcases hAccepted with ⟨hPos, hLe, hDvd, hFour⟩
      exact
        { hConfig with
          chunk_pos := hPos
          chunk_le := hLe
          chunk_dvd := hDvd
          four_dvd := hFour }
  | channelMask hWord hAccepted =>
      rw [acceptsChannelMask_iff hWord] at hAccepted
      exact
        laUpdateChannelConfig_wellFormed hConfig
          hAccepted.1 hAccepted.2

/- The frequency stays a 32-bit word. -/
theorem LaConfig.Changes.frequency_lt
    {config config' : LaConfig}
    (hChanges : config.Changes config')
    (hFreq : config.frequency < 2 ^ 32) :
    config'.frequency < 2 ^ 32 := by
  cases hChanges with
  | same => exact hFreq
  | frequency hWord hAccepted => exact hWord
  | chunkBytes hAccepted => exact hFreq
  | channelMask hWord hAccepted => exact hFreq

end PicoLogicAnalyzer

------------------------------------------------------------
-- What A Setter Returns
------------------------------------------------------------

namespace PicoLogicAnalyzer

/-
  A setter called with `arg` in bridge `b`: it returns the
  value of its field that is then in force, stores an
  accepted value, and changes nothing when it refuses.
-/
structure SetterSpec
    (field : LaConfig → Nat)
    (accepts : Nat → Bool)
    (b : Bridge)
    (arg : Option Nat)
    (result : Bridge × Nat) : Prop where
  returned : result.2 = field result.1.laConfig
  stored :
    ∀ value, arg = some value → laIsBusy b = false →
      accepts value = true →
        field result.1.laConfig = value
  refused :
    (∀ value, arg = some value →
      laIsBusy b = true ∨ accepts value = false) →
      result.1 = b

theorem laConfigureFrequency_spec
    [CaptureModule]
    (freq : Option Nat)
    (b : Bridge) :
    SetterSpec LaConfig.frequency acceptsFrequency b freq
      (laConfigureFrequency freq b) where
  returned := rfl
  stored := by
    rintro value rfl hFree hAccepted
    simp [laConfigureFrequency, hFree, hAccepted]
  refused := by
    intro hRefused
    cases freq with
    | none => rfl
    | some value =>
        rcases hRefused value rfl with hBusy | hBad
        · simp [laConfigureFrequency, hBusy]
        · simp [laConfigureFrequency, hBad]

theorem laConfigureChunkBytes_spec
    (chunkBytes : Option Nat)
    (b : Bridge) :
    SetterSpec LaConfig.chunkBytes acceptsChunkBytes b
      chunkBytes (laConfigureChunkBytes chunkBytes b) where
  returned := rfl
  stored := by
    rintro value rfl hFree hAccepted
    simp [laConfigureChunkBytes, hFree, hAccepted]
  refused := by
    intro hRefused
    cases chunkBytes with
    | none => rfl
    | some value =>
        rcases hRefused value rfl with hBusy | hBad
        · simp [laConfigureChunkBytes, hBusy]
        · simp [laConfigureChunkBytes, hBad]

theorem laConfigureChannelMask_spec
    (channelMask : Option Nat)
    (b : Bridge) :
    SetterSpec LaConfig.channelMask acceptsChannelMask b
      channelMask (laConfigureChannelMask channelMask b) where
  returned := rfl
  stored := by
    rintro value rfl hFree hAccepted
    simp [laConfigureChannelMask, hFree, hAccepted,
      laUpdateChannelConfig]
  refused := by
    intro hRefused
    cases channelMask with
    | none => rfl
    | some value =>
        rcases hRefused value rfl with hBusy | hBad
        · simp [laConfigureChannelMask, hBusy]
        · simp [laConfigureChannelMask, hBad]

end PicoLogicAnalyzer

------------------------------------------------------------
-- Valid Configurations
------------------------------------------------------------

namespace PicoLogicAnalyzer

/- The storage a mask needs, by its highest channel. -/
def storageFor (channelMask : Nat) : ChannelMode × Nat :=
  if channelMask.log2 < 8 then (.mode8Channel, 1)
  else if channelMask.log2 < 16 then (.mode16Channel, 2)
  else (.mode24Channel, 4)

/-
  The configuration in its users' terms: channels are the
  set bits of the mask, storage follows its highest bit, and
  the chunk size is a power of two that tiles the buffer.
-/
structure LaConfig.Valid
    [CaptureModule]
    (config : LaConfig) : Prop where
  mask_ne_zero : config.channelMask ≠ 0
  mask_lt : config.channelMask < 2 ^ 24
  count_le : config.channelCount ≤ config.channels.length
  channels_sorted :
    (config.channels.take config.channelCount).Pairwise
      (· < ·)
  mem_channels :
    ∀ channel,
      channel ∈ config.channels.take config.channelCount ↔
        config.channelMask.testBit channel = true
  storage :
    (config.mode, config.bytesPerSample) =
      storageFor config.channelMask
  frequency_pos : 0 < config.frequency
  frequency_le : config.frequency ≤ CaptureModule.maxFreq
  four_dvd : 4 ∣ config.chunkBytes
  width_dvd : config.bytesPerSample ∣ config.chunkBytes
  chunk_dvd : config.chunkBytes ∣ 128 * 1024
  chunk_le : config.chunkBytes ≤ 8192

/- Accepted chunk sizes are the powers of two up to 8 KiB. -/
theorem acceptsChunkBytes_iff_pow
    (chunkBytes : Nat) :
    acceptsChunkBytes chunkBytes = true ↔
      ∃ k, 2 ≤ k ∧ k ≤ 13 ∧ chunkBytes = 2 ^ k := by
  rw [acceptsChunkBytes_iff]
  constructor
  · rintro ⟨_, hLe, hDvd, hFour⟩
    have hSize : captureBufferSize = 2 ^ 17 := by decide
    have hMax : laMaxChunkBytes = 2 ^ 13 := by decide
    rw [hSize, Nat.dvd_prime_pow Nat.prime_two] at hDvd
    rcases hDvd with ⟨k, _, rfl⟩
    refine ⟨k, ?_, ?_, rfl⟩
    · exact
        (Nat.pow_dvd_pow_iff_le_right (by decide)).mp hFour
    · rw [hMax] at hLe
      exact (Nat.pow_le_pow_iff_right (by decide)).mp hLe
  · rintro ⟨k, hLow, hHigh, rfl⟩
    interval_cases k <;> decide

/- The last enabled channel is the highest bit. -/
theorem getLastD_enabledBelow
    {mask bound : Nat}
    (hPos : 0 < mask)
    (hBound : mask < 2 ^ bound) :
    (enabledBelow mask bound).getLastD 0 = mask.log2 := by
  induction bound with
  | zero => omega
  | succ bound ih =>
      rw [enabledBelow_succ]
      split
      · rename_i hBit
        have hLog : mask.log2 = bound :=
          (Nat.log2_eq_iff hPos.ne').mpr
            ⟨Nat.ge_two_pow_of_testBit hBit, hBound⟩
        simp [hLog]
      · rename_i hBit
        apply ih
        apply Nat.lt_pow_two_of_testBit
        intro bit hAbove
        rcases Nat.eq_or_lt_of_le hAbove with rfl | hAbove
        · simpa using hBit
        · apply Nat.testBit_lt_two_pow
          exact hBound.trans_le
            (Nat.pow_le_pow_right (by decide) hAbove)

theorem storageFor_eq
    {mask : Nat}
    (hPos : 0 < mask)
    (hBound : mask < 2 ^ laMaxChannels) :
    storageFor mask =
      (modeForHighest ((enabledChannels mask).getLastD 0),
        laBytesPerSampleMode
          (modeForHighest
            ((enabledChannels mask).getLastD 0))) := by
  rw [enabledChannels, getLastD_enabledBelow hPos hBound]
  unfold storageFor modeForHighest
  split
  · rfl
  · split <;> rfl

theorem mem_enabledChannels
    {mask : Nat}
    (hBound : mask < 2 ^ laMaxChannels)
    (channel : Nat) :
    channel ∈ enabledChannels mask ↔
      mask.testBit channel = true := by
  unfold enabledChannels enabledBelow
  rw [List.mem_filter, List.mem_range, and_iff_right_iff_imp]
  intro hBit
  have hBelow := Nat.ge_two_pow_of_testBit hBit
  exact
    (Nat.pow_lt_pow_iff_right (by decide)).mp
      (hBelow.trans_lt hBound)

theorem enabledChannels_sorted (mask : Nat) :
    (enabledChannels mask).Pairwise (· < ·) :=
  List.pairwise_lt_range.filter _

/- Samples are single bytes for the first eight channels. -/
theorem LaConfig.WellFormed.width_eq_one_iff
    {config : LaConfig}
    (hConfig : config.WellFormed) :
    config.bytesPerSample = 1 ↔ config.channelMask < 2 ^ 8 := by
  have hStorage :=
    storageFor_eq hConfig.mask_pos hConfig.mask_lt
  rw [← hConfig.mode_eq, ← hConfig.width_eq] at hStorage
  have hWidth := congrArg Prod.snd hStorage
  simp only [storageFor] at hWidth
  have hLog : config.channelMask.log2 < 8 ↔ _ :=
    Nat.log2_lt hConfig.mask_pos.ne'
  rw [← hLog, ← hWidth]
  split
  · simp_all
  · split
    · simp_all
    · simp_all

variable [CaptureModule] {config config' : LaConfig}

/- Well-formed with a frequency in range is valid. -/
theorem LaConfig.WellFormed.valid
    (hConfig : config.WellFormed)
    (hFreq : acceptsFrequency config.frequency = true) :
    config.Valid := by
  simp only [acceptsFrequency, Bool.and_eq_true,
    decide_eq_true_eq] at hFreq
  have hCount := hConfig.channelCount_eq
  have hLength := hConfig.channels_length
  have hSmall :=
    length_enabledBelow_le config.channelMask laMaxChannels
  constructor
  · exact hConfig.mask_pos.ne'
  · exact hConfig.mask_lt
  · rw [hCount, hLength]
    exact hSmall
  · rw [hConfig.channels_take]
    exact enabledChannels_sorted config.channelMask
  · rw [hConfig.channels_take]
    exact mem_enabledChannels hConfig.mask_lt
  · rw [storageFor_eq hConfig.mask_pos hConfig.mask_lt,
      hConfig.width_eq, hConfig.mode_eq]
  · exact hFreq.1
  · exact hFreq.2
  · exact hConfig.four_dvd
  · exact hConfig.width_dvd_chunk
  · exact hConfig.chunk_dvd
  · exact hConfig.chunk_le

/- An accepted frequency stays in force or is replaced. -/
theorem LaConfig.Changes.acceptsFrequency
    (hChanges : config.Changes config')
    (hFreq :
      PicoLogicAnalyzer.acceptsFrequency config.frequency =
        true) :
    PicoLogicAnalyzer.acceptsFrequency config'.frequency =
      true := by
  cases hChanges with
  | same => exact hFreq
  | frequency hWord hAccepted => exact hAccepted
  | chunkBytes hAccepted => exact hFreq
  | channelMask hWord hAccepted => exact hFreq

end PicoLogicAnalyzer
