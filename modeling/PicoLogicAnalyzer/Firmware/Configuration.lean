import PicoLogicAnalyzer.Firmware.Frame

/-
  The configuration over whole histories.

  The setters are called directly, with any words or with
  `NULL`, between any inputs of the firmware.

  Key definitions include:
    * `ConfigCall`
    * `Device.call`
    * `Device.ConfigSound`

  Key theorems include:
    * `configuration_valid`
-/

------------------------------------------------------------
-- Setter Calls
------------------------------------------------------------

namespace PicoLogicAnalyzer

/- A call of a setter, or an input of the firmware. -/
inductive ConfigCall where
  | frequency (freq : Option Nat)
  | chunkBytes (chunkBytes : Option Nat)
  | channelMask (channelMask : Option Nat)
  | operation (i : Input)

/- Arguments are 32-bit words or `NULL`. -/
def ConfigCall.IsWord : ConfigCall → Prop
| .frequency arg => IsWordArg arg
| .chunkBytes arg => IsWordArg arg
| .channelMask arg => IsWordArg arg
| .operation _ => True

variable [CaptureModule]

/- The state after a call, and what a setter returned. -/
def Device.call
    (d : Device) :
    ConfigCall → Device × List Nat
| .frequency freq =>
    let result := laConfigureFrequency freq d.bridge
    ({ d with bridge := result.1 }, [result.2])
| .chunkBytes chunkBytes =>
    let result := laConfigureChunkBytes chunkBytes d.bridge
    ({ d with bridge := result.1 }, [result.2])
| .channelMask channelMask =>
    let result := laConfigureChannelMask channelMask d.bridge
    ({ d with bridge := result.1 }, [result.2])
| .operation i => ((Device.step d i).1, [])

theorem Device.call_changes
    (d : Device)
    {call : ConfigCall}
    (hWord : call.IsWord) :
    d.bridge.laConfig.Changes
      (Device.call d call).1.bridge.laConfig := by
  cases call with
  | frequency freq =>
      exact laConfigureFrequency_changes hWord d.bridge
  | chunkBytes chunkBytes =>
      exact laConfigureChunkBytes_changes chunkBytes d.bridge
  | channelMask channelMask =>
      exact laConfigureChannelMask_changes hWord d.bridge
  | operation i => exact Device.step_changes d i

end PicoLogicAnalyzer

------------------------------------------------------------
-- Every Configuration Is Valid
------------------------------------------------------------

namespace PicoLogicAnalyzer

variable [CaptureModule]

/-
  The configuration in force is valid, and so is the answer
  of each setter to whatever it is called with next.
-/
structure Device.ConfigSound (d : Device) : Prop where
  valid : d.bridge.laConfig.Valid
  accepted_chunk :
    ∀ chunkBytes,
      acceptsChunkBytes chunkBytes = true ↔
        ∃ k, 2 ≤ k ∧ k ≤ 13 ∧ chunkBytes = 2 ^ k
  frequency :
    ∀ freq,
      SetterSpec LaConfig.frequency acceptsFrequency d.bridge
        freq (laConfigureFrequency freq d.bridge)
  chunkBytes :
    ∀ chunkBytes,
      SetterSpec LaConfig.chunkBytes acceptsChunkBytes
        d.bridge chunkBytes
        (laConfigureChunkBytes chunkBytes d.bridge)
  channelMask :
    ∀ channelMask,
      SetterSpec LaConfig.channelMask acceptsChannelMask
        d.bridge channelMask
        (laConfigureChannelMask channelMask d.bridge)

/-
  The static initial frequency has to be one the setter
  would accept; the limit comes with the capture module.
-/
theorem configuration_valid
    (hInitial :
      LaConfig.initial.frequency ≤ CaptureModule.maxFreq)
    (hw : CaptureHardware)
    {calls : List ConfigCall}
    (hWords : ∀ call ∈ calls, call.IsWord) :
    (Machine.run Device.call (Device.boot hw)
      calls).1.ConfigSound := by
  have hGuarded :
      Machine.Guarded Device.call
        (fun _ call => call.IsWord) (Device.boot hw)
        calls := by
    apply Machine.Guarded.of_forall
    intro call hCall _
    exact hWords call hCall
  have hInForce :
      (Machine.run Device.call (Device.boot hw)
          calls).1.bridge.laConfig.WellFormed ∧
        acceptsFrequency
          (Machine.run Device.call (Device.boot hw)
            calls).1.bridge.laConfig.frequency = true := by
    apply Machine.Guarded.invariant
      (P := fun d : Device =>
        d.bridge.laConfig.WellFormed ∧
          acceptsFrequency d.bridge.laConfig.frequency = true)
      _ _ hGuarded
    · rintro d call ⟨hConfig, hFreq⟩ hWord
      have hChanges := Device.call_changes d hWord
      exact
        ⟨hChanges.wellFormed hConfig,
          hChanges.acceptsFrequency hFreq⟩
    · refine ⟨LaConfig.initial_wellFormed, ?_⟩
      simp only [acceptsFrequency, Bool.and_eq_true,
        decide_eq_true_eq]
      exact ⟨(by decide : 0 < 1000), hInitial⟩
  constructor
  · exact hInForce.1.valid hInForce.2
  · exact acceptsChunkBytes_iff_pow
  · intro freq
    exact laConfigureFrequency_spec freq _
  · intro chunkBytes
    exact laConfigureChunkBytes_spec chunkBytes _
  · intro channelMask
    exact laConfigureChannelMask_spec channelMask _

end PicoLogicAnalyzer

namespace PicoLogicAnalyzer

section Sample

attribute [local instance] CaptureModule.sample

/- Probes 1 and 24, a refused chunk size, a busy device. -/
theorem configuration_valid_mixed_calls :
    (Machine.run Device.call
      (Device.boot CaptureHardware.blank)
      [.channelMask (some 0x800001),
        .chunkBytes (some 300),
        .operation (Input.command 1 "SINGLE_CAPTURE"),
        .frequency (some 2000),
        .frequency none]).1.ConfigSound := by
  apply configuration_valid
  · decide
  · intro call hCall
    simp only [List.mem_cons, List.not_mem_nil, or_false]
      at hCall
    rcases hCall with rfl | rfl | rfl | rfl | rfl
    · exact isWordArg_some (by decide)
    · exact isWordArg_some (by decide)
    · trivial
    · exact isWordArg_some (by decide)
    · rintro _ ⟨⟩

end Sample

end PicoLogicAnalyzer
