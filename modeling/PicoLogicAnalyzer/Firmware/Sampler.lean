import PicoLogicAnalyzer.Firmware.Blocks
import PicoLogicAnalyzer.Firmware.StreamSession
import PicoLogicAnalyzer.Lib.FixedPoint

/-
  The sampling rate of a stream.

  `la_stream_start` divides the system clock by twice the
  configured frequency, and the sampler takes one sample
  every two divided cycles. The divider is a register with
  16 integer and 8 fraction bits.

  Key definitions include:
    * `clkSys`
    * `streamClkdiv`
    * `streamRate`
    * `Device.Realises`
    * `Event.ReportsRate`

  Key theorems include:
    * `LaConfig.realises_iff`
    * `stream_realises_iff`
-/

------------------------------------------------------------
-- Divider And Rate
------------------------------------------------------------

namespace PicoLogicAnalyzer

open Word

/- The system clock in Hz, as the chip starts. -/
def clkSys : Nat := 125000000

/-
  The divider `la_stream_start` computes, with the 32-bit
  product of the source and without the rounding of `float`.
-/
def streamClkdiv (config : LaConfig) : ℚ :=
  clkSys / u32 (config.frequency * 2)

/- Samples per second with the divider in its register. -/
def streamRate (config : LaConfig) : ℚ :=
  clkSys / (2 * FixedPoint.value 16 8 (streamClkdiv config))

/-
  The divider is in the range of the register, and the rate
  is `rate` up to the part of the divider that was cut off.
-/
structure LaConfig.Realises
    (config : LaConfig)
    (rate : ℚ) : Prop where
  one_le : 1 ≤ streamClkdiv config
  lt : streamClkdiv config < 65536
  rate_le : rate ≤ streamRate config
  lt_rate :
    streamRate config <
      rate *
        (1 + 1 /
          (256 * FixedPoint.value 16 8 (streamClkdiv config)))

/- The rate is the one in the header of every frame. -/
def Device.Realises (d : Device) : Prop :=
  ∀ block,
    d.bridge.laConfig.Realises (d.headerOf block).sampleRate

/- The divider of a frequency that is doubled exactly. -/
theorem streamClkdiv_eq
    {config : LaConfig}
    (hSmall : config.frequency < 2 ^ 31) :
    streamClkdiv config =
      clkSys / (2 * (config.frequency : ℚ)) := by
  rw [streamClkdiv, u32_of_lt (by omega)]
  push_cast
  rw [mul_comm]

/- The two ends of the range. -/
theorem streamClkdiv_range_iff
    {config : LaConfig}
    (hSmall : config.frequency < 2 ^ 31) :
    1 ≤ streamClkdiv config ∧ streamClkdiv config < 65536 ↔
      954 ≤ config.frequency ∧
        config.frequency ≤ 62500000 := by
  rcases Nat.eq_zero_or_pos config.frequency with
    hZero | hPos
  · rw [streamClkdiv_eq hSmall, hZero]
    norm_num
  · have hDouble : (0 : ℚ) < 2 * config.frequency := by
      positivity
    rw [streamClkdiv_eq hSmall, le_div_iff₀ hDouble,
      div_lt_iff₀ hDouble]
    unfold clkSys
    constructor
    · rintro ⟨hLow, hHigh⟩
      norm_cast at hLow hHigh
      omega
    · rintro ⟨hLow, hHigh⟩
      norm_cast
      omega

/- The register keeps a divider in range from below. -/
theorem one_le_clkdiv_value
    {config : LaConfig}
    (hLow : 1 ≤ streamClkdiv config)
    (hHigh : streamClkdiv config < 65536) :
    1 ≤ FixedPoint.value 16 8 (streamClkdiv config) := by
  have hWhole :
      ((1 : Nat) : ℚ) ≤
        FixedPoint.value 16 8 (streamClkdiv config) := by
    apply FixedPoint.natCast_le_value
    · norm_num
      exact hHigh
    · push_cast
      exact hLow
  exact_mod_cast hWhole

/- No rate above half the clock is ever sampled. -/
theorem streamRate_le
    {config : LaConfig}
    (hLow : 1 ≤ streamClkdiv config)
    (hHigh : streamClkdiv config < 65536) :
    streamRate config ≤ 62500000 := by
  have hOne := one_le_clkdiv_value hLow hHigh
  rw [streamRate, div_le_iff₀ (by linarith)]
  unfold clkSys
  push_cast
  linarith

/- The rate is off by the cut-off part of the divider only. -/
theorem streamRate_bounds
    {config : LaConfig}
    (hPos : 0 < config.frequency)
    (hSmall : config.frequency < 2 ^ 31)
    (hLow : 1 ≤ streamClkdiv config)
    (hHigh : streamClkdiv config < 65536) :
    config.frequency ≤ streamRate config ∧
      streamRate config <
        config.frequency *
          (1 + 1 /
            (256 *
              FixedPoint.value 16 8
                (streamClkdiv config))) := by
  have hOne := one_le_clkdiv_value hLow hHigh
  have hZero : 0 ≤ streamClkdiv config := by linarith
  have hRange : streamClkdiv config < 2 ^ 16 := by
    norm_num
    exact hHigh
  have hBelow :
      FixedPoint.value 16 8 (streamClkdiv config) ≤
        streamClkdiv config :=
    FixedPoint.value_le hZero hRange
  have hAbove :
      streamClkdiv config <
        FixedPoint.value 16 8 (streamClkdiv config) +
          1 / 2 ^ 8 :=
    FixedPoint.lt_value_add hZero hRange
  have hFrequency : (0 : ℚ) < config.frequency := by
    exact_mod_cast hPos
  have hClock :
      (clkSys : ℚ) =
        streamClkdiv config * (2 * config.frequency) := by
    rw [streamClkdiv_eq hSmall]
    field_simp
  rw [streamRate, hClock]
  generalize FixedPoint.value 16 8 (streamClkdiv config) =
    v at *
  have hValue : 0 < v := by linarith
  constructor
  · rw [le_div_iff₀ (by positivity)]
    nlinarith
  · have hSplit :
        (config.frequency : ℚ) * (1 + 1 / (256 * v)) =
          config.frequency * (2 * (v + 1 / 256)) /
            (2 * v) := by
      field_simp
    rw [hSplit, div_lt_div_iff_of_pos_right (by positivity)]
    norm_num at hAbove ⊢
    nlinarith

/- The configurations whose frequency is sampled. -/
theorem LaConfig.realises_iff
    {config : LaConfig} :
    config.Realises config.frequency ↔
      954 ≤ config.frequency ∧
        config.frequency ≤ 62500000 := by
  constructor
  · intro h
    have hRate := streamRate_le h.one_le h.lt
    have hFrequency := h.rate_le.trans hRate
    have hSmall : config.frequency ≤ 62500000 := by
      exact_mod_cast hFrequency
    exact
      (streamClkdiv_range_iff (by omega)).mp ⟨h.one_le, h.lt⟩
  · intro hRange
    have hSmall : config.frequency < 2 ^ 31 := by omega
    rcases (streamClkdiv_range_iff hSmall).mpr hRange with
      ⟨hLow, hHigh⟩
    rcases streamRate_bounds (by omega) hSmall hLow hHigh with
      ⟨hRate, hNear⟩
    exact ⟨hLow, hHigh, hRate, hNear⟩

/- Headers report the configured frequency. -/
theorem Device.realises_iff {d : Device} :
    d.Realises ↔
      954 ≤ d.bridge.laConfig.frequency ∧
        d.bridge.laConfig.frequency ≤ 62500000 := by
  rw [← LaConfig.realises_iff]
  constructor
  · intro h
    exact h d.pendingAnalysisBlock
  · intro h _
    exact h

end PicoLogicAnalyzer

------------------------------------------------------------
-- Streams At An Accepted Frequency
------------------------------------------------------------

namespace PicoLogicAnalyzer

open Text

/- A frame reports the sampling rate `rate`. -/
def Event.ReportsRate (rate : Nat) : Event → Prop
| .sent _ (.frame _ header _ _) _ => header.sampleRate = rate
| _ => True

theorem Event.FrameOf.reportsRate
    {config : LaConfig}
    {event : Event}
    (h : event.FrameOf config) :
    event.ReportsRate config.frequency := by
  cases event with
  | sent dest payload accepted =>
      cases payload with
      | frame op header offset data => exact h.2.2.1
      | _ => trivial
  | _ => trivial

variable [CaptureModule] {d : Device}

/- An idle device stores an accepted frequency. -/
theorem setFreq_stored
    (h : d.Shows .idle)
    {freq : Nat}
    (hAccepted : acceptsFrequency freq = true)
    (env : Env)
    (id : Nat)
    (data : List UInt8) :
    (handleCommand env id data d
          (.setFreq freq)).1.Shows .idle ∧
      (handleCommand env id data d
          (.setFreq freq)).1.bridge.laConfig.frequency =
        freq := by
  refine ⟨handleCommand_shows h env id data _, ?_⟩
  exact
    (laConfigureFrequency_spec (some freq) d.bridge).stored
      freq rfl h.laIsBusy hAccepted

/- The stream commands. -/
def streamStarts : List Command :=
  [.streamStart, .streamAnalysisStart]

/- A stream of an idle device starts as configured. -/
theorem streamStart_config
    (h : d.Shows .idle)
    {command : Command}
    (hStream : command ∈ streamStarts)
    (env : Env)
    (id : Nat)
    (data : List UInt8) :
    (handleCommand env id data d
          command).1.bridge.laStreamRunning = true ∧
      (handleCommand env id data d command).1.inProgress
          .stream = true ∧
      (handleCommand env id data d
          command).1.bridge.laConfig =
        d.bridge.laConfig := by
  have hNext := handleCommand_shows h env id data command
  simp only [streamStarts, List.mem_cons, List.not_mem_nil,
    or_false] at hStream
  rw [Device.inProgress, hNext.streamMode]
  rcases hStream with rfl | rfl
  · exact
      ⟨hNext.laStreamRunning, rfl,
        handleCommand_laConfig env id data d rfl⟩
  · exact
      ⟨hNext.laStreamRunning, rfl,
        handleCommand_laConfig env id data d rfl⟩

/-
  A stream started after an accepted frequency reports that
  frequency in every frame until it is stopped, and samples
  at the rate of its frame headers exactly when the
  frequency is between 954 Hz and half the system clock.
-/
theorem stream_realises_iff
    (hReachable : d.Reachable)
    (hIdle : isBusy d = false)
    {freq : Nat}
    (hAccepted : acceptsFrequency freq = true)
    {setting start : List UInt8}
    (hSetting : parseCommand setting = .setFreq freq)
    (hStart : parseCommand start ∈ streamStarts)
    (env env' : Env)
    (id id' : Nat) :
    let streaming :=
      (Device.run d
        [.message env id setting,
          .message env' id' start]).1
    streaming.bridge.laStreamRunning = true ∧
      (∀ inputs : List Input,
        (∀ i ∈ inputs, i.LeavesOpen .stream) →
          ∀ event ∈ (Device.run streaming inputs).2,
            event.ReportsRate freq) ∧
      (streaming.Realises ↔
        954 ≤ freq ∧ freq ≤ 62500000) := by
  rcases hReachable.shows with ⟨a, hShows⟩
  have hActivity := hShows.eq_idle_of_not_busy hIdle
  subst hActivity
  intro streaming
  rcases setFreq_stored hShows hAccepted env id setting with
    ⟨hNext, hFrequency⟩
  rcases streamStart_config hNext hStart env' id' start with
    ⟨hRunning, hProgress, hConfig⟩
  have hStreaming :
      streaming =
        (handleCommand env' id' start
          (handleCommand env id setting d
            (.setFreq freq)).1
          (parseCommand start)).1 := by
    simp only [streaming, Device.run, Machine.run_cons,
      Machine.run_nil, Device.step, websocketMessage,
      hSetting]
  have hReached : streaming.Reachable := hReachable.run _
  rw [hStreaming] at hReached ⊢
  refine ⟨hRunning, ?_, ?_⟩
  · intro inputs hOpen event hEvent
    have hFrame :=
      (hReached.openSession (Or.inr rfl)
        hProgress).run_frameOf hOpen event hEvent
    rw [← hFrequency, ← hConfig]
    exact hFrame.reportsRate
  · rw [Device.realises_iff, hConfig, hFrequency]

end PicoLogicAnalyzer

------------------------------------------------------------
-- Concrete Rates
------------------------------------------------------------

namespace PicoLogicAnalyzer

open Text

section Sample

attribute [local instance] CaptureModule.sample

/- 100 kHz is sampled as reported, in every frame. -/
theorem stream_at_100_kHz :
    let streaming :=
      (Device.run (Device.boot CaptureHardware.blank)
        [.command 1 "SET_FREQ 100000",
          .command 1 "STREAM_ANALYSIS_START"]).1
    let sent :=
      (Device.run streaming
        [.streamTake Env.fiveChunks,
          .streamSend Env.fiveChunks]).2
    streaming.Realises ∧
      (∀ event ∈ sent, event.ReportsRate 100000) ∧
      (sent.filterMap Event.streamHeader).length = 1 := by
  intro streaming sent
  have hStream :=
    stream_realises_iff
      (d := Device.boot CaptureHardware.blank)
      ⟨CaptureHardware.blank, [], rfl⟩ rfl
      (show acceptsFrequency 100000 = true by decide)
      (show parseCommand (ascii "SET_FREQ 100000") =
          .setFreq 100000 by decide +kernel)
      (show parseCommand (ascii "STREAM_ANALYSIS_START") ∈
          streamStarts by decide +kernel)
      Env.smooth Env.smooth 1 1
  refine ⟨?_, ?_, by decide +kernel⟩
  · exact hStream.2.2.mpr ⟨by decide, by decide⟩
  · exact hStream.2.1 _ (by simp [Input.LeavesOpen])

/-
  1 Hz is accepted, but its divider does not fit: the frames
  report 1 sample per second while the divider is 62500000.
-/
theorem stream_at_1_Hz_out_of_range :
    let streaming :=
      (Device.run (Device.boot CaptureHardware.blank)
        [.command 1 "SET_FREQ 1",
          .command 1 "STREAM_ANALYSIS_START"]).1
    streaming.bridge.laStreamRunning = true ∧
      streaming.bridge.laConfig.frequency = 1 ∧
      streamClkdiv streaming.bridge.laConfig = 62500000 ∧
      ¬ streaming.Realises := by
  intro streaming
  have hFrequency :
      streaming.bridge.laConfig.frequency = 1 := by
    decide +kernel
  have hDivider :
      streamClkdiv streaming.bridge.laConfig =
        62500000 := by
    rw [streamClkdiv, hFrequency]
    norm_num [clkSys, Word.u32]
  refine ⟨by decide +kernel, hFrequency, hDivider, ?_⟩
  intro hRealises
  have hRange :=
    (hRealises streaming.pendingAnalysisBlock).lt
  rw [hDivider] at hRange
  norm_num at hRange

end Sample

end PicoLogicAnalyzer
