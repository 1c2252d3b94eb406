import PicoLogicAnalyzer.Bridge.Settings
import PicoLogicAnalyzer.Firmware.Refinement

/-
  What each part of the firmware leaves alone.

  The configuration is only written by the three `SET_`
  commands: no task, no hardware input and no start or stop
  command touches it.

  Key theorems include:
    * `handleCommand_laConfig`
    * `Device.step_laConfig`
    * `handleCommand_laConfig_of_busy`
    * `Device.step_changes`
    * `Device.Reachable.laConfig_rule`
    * `Device.step_outside`
-/

------------------------------------------------------------
-- Tasks Leave The Configuration Alone
------------------------------------------------------------

namespace PicoLogicAnalyzer

@[simp] theorem laSingleCaptureStart_laConfig
    (started : Bool)
    (preSamples postSamples : Nat)
    (b : Bridge) :
    (laSingleCaptureStart started preSamples postSamples
      b).bridge.laConfig = b.laConfig := by
  unfold laSingleCaptureStart
  split <;> rfl

@[simp] theorem startCaptureChain_laConfig
    (started : Bool)
    (b : Bridge) :
    (startCaptureChain started b).bridge.laConfig =
      b.laConfig := by
  have hStart :=
    laSingleCaptureStart_laConfig started 0 32
      (gpioPullDown b)
  unfold startCaptureChain
  simp only
  split <;> exact hStart

@[simp] theorem laStartChunk_laConfig
    (started : Bool)
    (b : Bridge) :
    (laStartChunk started b).bridge.laConfig =
      b.laConfig := by
  unfold laStartChunk
  simp only
  split <;> rfl

@[simp] theorem laCaptureChainStart_laConfig
    (started : Bool)
    (b : Bridge) :
    (laCaptureChainStart started b).bridge.laConfig =
      b.laConfig := by
  unfold laCaptureChainStart
  split
  · rfl
  · simp only
    split <;> simp

@[simp] theorem laCaptureChainRelease_laConfig
    (started : Bool)
    (b : Bridge) :
    (laCaptureChainRelease started b).bridge.laConfig =
      b.laConfig := by
  unfold laCaptureChainRelease
  split <;> simp

@[simp] theorem laSingleCaptureGetResult_laConfig
    (b : Bridge) :
    (laSingleCaptureGetResult b).1.laConfig = b.laConfig := by
  rcases laSingleCaptureGetResult_bridge b with ⟨_, hBridge⟩
  rw [hBridge]

@[simp] theorem laCaptureChainTake_laConfig
    (timeUs : Nat)
    (b : Bridge) :
    (laCaptureChainTake timeUs b).1.laConfig =
      b.laConfig := by
  rcases laCaptureChainTake_bridge timeUs b with
    ⟨_, _, _, hBridge⟩
  rw [hBridge]

@[simp] theorem laStreamTake_laConfig
    (reads : DmaReads)
    (timeUs : Nat)
    (b : Bridge) :
    (laStreamTake reads timeUs b).1.laConfig =
      b.laConfig := by
  rcases laStreamTake_bridge reads timeUs b with
    ⟨_, _, _, hBridge⟩
  rw [hBridge]

variable (env : Env) (d : Device)

@[simp] theorem singleCaptureTasks_laConfig :
    (singleCaptureTasks env d).1.bridge.laConfig =
      d.bridge.laConfig := by
  unfold singleCaptureTasks
  split
  · exact laSingleCaptureGetResult_laConfig d.bridge
  · rfl

@[simp] theorem captureChainDeliver_laConfig :
    (captureChainDeliver env d).1.bridge.laConfig =
      d.bridge.laConfig := by
  unfold captureChainDeliver
  split
  · simp only
    split <;> exact laSingleCaptureGetResult_laConfig d.bridge
  · rfl

@[simp] theorem captureChainRestart_laConfig :
    (captureChainRestart env d).1.bridge.laConfig =
      d.bridge.laConfig := by
  unfold captureChainRestart
  split
  · exact startCaptureChain_laConfig _ _
  · rfl

@[simp] theorem captureChainTakeBlock_laConfig :
    (captureChainTakeBlock env d).1.bridge.laConfig =
      d.bridge.laConfig := by
  unfold captureChainTakeBlock
  split
  · simp only
    split <;> exact laCaptureChainTake_laConfig _ _
  · rfl

@[simp] theorem captureChainSendBlock_laConfig :
    (captureChainSendBlock env d).1.bridge.laConfig =
      d.bridge.laConfig := by
  unfold captureChainSendBlock
  split
  · simp only
    split
    · exact laCaptureChainRelease_laConfig _ _
    · rfl
  · rfl

@[simp] theorem captureChainTasks_laConfig :
    (captureChainTasks env d).1.bridge.laConfig =
      d.bridge.laConfig := by
  apply captureChainTasks_invariant
    (P := fun d' =>
      d'.bridge.laConfig = d.bridge.laConfig)
  · intro d' h
    simpa using h
  · intro d' h
    simpa using h
  · intro d' h
    simpa using h
  · intro d' h
    simpa using h
  · rfl

@[simp] theorem streamTasksTake_laConfig :
    (streamTasksTake env d).1.bridge.laConfig =
      d.bridge.laConfig := by
  unfold streamTasksTake
  split
  · simp only
    split <;> exact laStreamTake_laConfig _ _ _
  · rfl

@[simp] theorem streamTasksSend_laConfig :
    (streamTasksSend env d).1.bridge.laConfig =
      d.bridge.laConfig := by
  unfold streamTasksSend
  split
  · simp only
    split <;> rfl
  · rfl

end PicoLogicAnalyzer

------------------------------------------------------------
-- Commands And The Configuration
------------------------------------------------------------

namespace PicoLogicAnalyzer

/- Commands that write the configuration. -/
def Command.isSetting : Command → Bool
| .setFreq _ => true
| .setChunkSize _ => true
| .setChannelMask _ => true
| _ => false

theorem startSingleCapture_laConfig
    (env : Env)
    (id : Nat)
    (d : Device) :
    (startSingleCapture env id d).1.bridge.laConfig =
      d.bridge.laConfig := by
  have hStart :=
    laSingleCaptureStart_laConfig env.captureStarted
      0 64 (gpioPullUp d.bridge)
  unfold startSingleCapture
  simp only
  split <;> exact hStart

theorem captureChainAnalysisStart_laConfig
    (env : Env)
    (id : Nat)
    (d : Device) :
    (captureChainAnalysisStart env id d).1.bridge.laConfig =
      d.bridge.laConfig := by
  unfold captureChainAnalysisStart
  split
  · rfl
  · simp only
    split <;> exact laCaptureChainStart_laConfig _ _

theorem startStream_laConfig
    (env : Env)
    (id : Nat)
    (mode : StreamMode)
    (d : Device) :
    (startStream env id mode d).1.bridge.laConfig =
      d.bridge.laConfig := by
  have hStart :
      (laStreamStart d.bridge).bridge.laConfig =
        d.bridge.laConfig := by
    unfold laStreamStart
    split <;> rfl
  unfold startStream
  split
  · rfl
  · simp only
    split <;> exact hStart

theorem laSingleCaptureStop_laConfig
    (b : Bridge) :
    (laSingleCaptureStop b).laConfig = b.laConfig := by
  unfold laSingleCaptureStop
  simp only
  split <;> rfl

theorem laCaptureChainStop_laConfig
    (b : Bridge) :
    (laCaptureChainStop b).laConfig = b.laConfig := by
  unfold laCaptureChainStop
  simp only
  split <;> rfl

theorem laStreamStop_laConfig
    (b : Bridge) :
    (laStreamStop b).laConfig = b.laConfig := by
  unfold laStreamStop
  split <;> rfl

variable [CaptureModule]

theorem handleCommand_laConfig
    (env : Env)
    (id : Nat)
    (data : List UInt8)
    (d : Device)
    {command : Command}
    (hCommand : command.isSetting = false) :
    (handleCommand env id data d command).1.bridge.laConfig =
      d.bridge.laConfig := by
  cases command with
  | setFreq value => cases hCommand
  | setChunkSize value => cases hCommand
  | setChannelMask value => cases hCommand
  | status => rfl
  | pinTest => rfl
  | unknown => rfl
  | singleCapture =>
      simp only [handleCommand]
      split
      · rfl
      · exact startSingleCapture_laConfig env id d
  | captureChainStart =>
      simp only [handleCommand, captureChainStart]
      split <;> rfl
  | captureChainStop =>
      exact laSingleCaptureStop_laConfig d.bridge
  | captureChainAnalysisStart =>
      exact captureChainAnalysisStart_laConfig env id d
  | captureChainAnalysisStop =>
      exact laCaptureChainStop_laConfig d.bridge
  | streamStart =>
      simp only [handleCommand, streamStartCommand_state]
      exact startStream_laConfig env id _ d
  | streamAnalysisStart =>
      simp only [handleCommand, streamStartCommand_state]
      exact startStream_laConfig env id _ d
  | streamStop => exact laStreamStop_laConfig d.bridge
  | streamAnalysisStop =>
      exact laStreamStop_laConfig d.bridge

/- A message changes the configuration by a setting only. -/
theorem handleCommand_changes
    (env : Env)
    (id : Nat)
    (data : List UInt8)
    (d : Device) :
    d.bridge.laConfig.Changes
      (handleCommand env id data d
        (parseCommand data)).1.bridge.laConfig := by
  cases hSetting : (parseCommand data).isSetting with
  | false =>
      rw [handleCommand_laConfig env id data d hSetting]
      exact .same _
  | true =>
      have hWord :
          ∀ value, (parseCommand data).value = some value →
            IsWordArg (some value) := by
        intro value hValue
        exact isWordArg_some (parseCommand_value_lt hValue)
      generalize parseCommand data = command at *
      cases command with
      | setFreq value =>
          exact
            laConfigureFrequency_changes (hWord value rfl)
              d.bridge
      | setChunkSize value =>
          exact
            laConfigureChunkBytes_changes (some value)
              d.bridge
      | setChannelMask value =>
          exact
            laConfigureChannelMask_changes (hWord value rfl)
              d.bridge
      | _ => cases hSetting

/- Only messages reach the configuration. -/
theorem Device.step_laConfig
    (d : Device)
    {i : Input}
    (hTask : ∀ env id data, i ≠ .message env id data) :
    (Device.step d i).1.bridge.laConfig =
      d.bridge.laConfig := by
  cases i with
  | message env id data =>
      exact absurd rfl (hTask env id data)
  | connect env id => rfl
  | disconnect id => rfl
  | singleCaptureTasks env =>
      exact singleCaptureTasks_laConfig env d
  | captureChainTasks env =>
      exact captureChainTasks_laConfig env d
  | streamTake env => exact streamTasksTake_laConfig env d
  | streamSend env => exact streamTasksSend_laConfig env d
  | captureWrite memory =>
      simp only [Device.step, captureWrite]
      split <;> rfl
  | captureDone tail =>
      simp only [Device.step, captureDone]
      split <;> rfl
  | dmaWrite position byte =>
      simp only [Device.step, dmaWrite]
      split <;> rfl
  | dmaInterrupt =>
      simp only [Device.step, dmaInterrupt]
      split <;> rfl

theorem Device.step_changes
    (d : Device)
    (i : Input) :
    d.bridge.laConfig.Changes
      (Device.step d i).1.bridge.laConfig := by
  by_cases hTask : ∀ env id data, i ≠ .message env id data
  · rw [Device.step_laConfig d hTask]
    exact .same _
  · push Not at hTask
    rcases hTask with ⟨env, id, data, rfl⟩
    exact handleCommand_changes env id data d

/- Invariant rule for the configurations in force. -/
theorem Device.Reachable.laConfig_rule
    {P : LaConfig → Prop}
    (hInitial : P LaConfig.initial)
    (hChanges :
      ∀ config config', config.Changes config' →
        P config → P config')
    {d : Device}
    (hReachable : d.Reachable) :
    P d.bridge.laConfig := by
  apply Device.Reachable.invariant
    (P := fun d => P d.bridge.laConfig) _ _ hReachable
  · intro hw
    exact hInitial
  · intro d i h
    exact hChanges _ _ (Device.step_changes d i) h

end PicoLogicAnalyzer

------------------------------------------------------------
-- Inputs That Run No Command And No Task
------------------------------------------------------------

namespace PicoLogicAnalyzer

/- Hardware progress and connection changes. -/
def Input.isOutside : Input → Bool
| .connect _ _ => true
| .disconnect _ => true
| .captureWrite _ => true
| .captureDone _ => true
| .dmaWrite _ _ => true
| .dmaInterrupt => true
| _ => false

variable [CaptureModule] {d : Device} {i : Input}

/- They leave the variables of `main.cpp` alone. -/
theorem Device.step_outside
    (d : Device)
    (hOutside : i.isOutside = true) :
    ∃ b, (Device.step d i).1 = { d with bridge := b } := by
  cases i with
  | connect env id => exact ⟨_, rfl⟩
  | disconnect id => exact ⟨_, rfl⟩
  | captureWrite memory =>
      simp only [Device.step, captureWrite]
      split <;> exact ⟨_, rfl⟩
  | captureDone tail =>
      simp only [Device.step, captureDone]
      split <;> exact ⟨_, rfl⟩
  | dmaWrite position byte =>
      simp only [Device.step, dmaWrite]
      split <;> exact ⟨_, rfl⟩
  | dmaInterrupt =>
      simp only [Device.step, dmaInterrupt]
      split <;> exact ⟨_, rfl⟩
  | _ => cases hOutside

theorem Device.step_outside_shows
    {a : Activity}
    (h : d.Shows a)
    (hOutside : i.isOutside = true) :
    (Device.step d i).1.Shows a := by
  cases i with
  | connect env id => exact h
  | disconnect id => exact h
  | captureWrite memory =>
      simp only [Device.step, captureWrite]
      split <;> exact h.congr rfl rfl
  | captureDone tail => exact captureDone_shows h tail
  | dmaWrite position byte =>
      simp only [Device.step, dmaWrite]
      split <;> exact h.congr rfl rfl
  | dmaInterrupt =>
      simp only [Device.step, dmaInterrupt]
      split <;> exact h.congr rfl rfl
  | _ => cases hOutside

theorem Device.mem_step_outside
    {event : Event}
    (hOutside : i.isOutside = true)
    (hMember : event ∈ (Device.step d i).2) :
    event = .captured ∨
      ∃ env id, event = reply env id "connected" := by
  cases i with
  | connect env id =>
      right
      exact ⟨env, id, List.mem_singleton.mp hMember⟩
  | captureDone tail =>
      left
      simp only [Device.step, captureDone] at hMember
      split at hMember
      · exact List.mem_singleton.mp hMember
      · cases hMember
  | disconnect id => cases hMember
  | captureWrite memory => cases hMember
  | dmaWrite position byte => cases hMember
  | dmaInterrupt => cases hMember
  | _ => cases hOutside

end PicoLogicAnalyzer
