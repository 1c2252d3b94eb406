import PicoLogicAnalyzer.Firmware.Coherence
import PicoLogicAnalyzer.Firmware.Exclusivity

/-
  The configuration while an operation is in progress.

  `la_is_busy` is down in the gaps of a capture chain and
  after an aborted capture, while `is_busy` still holds, so
  a setting is accepted there. Apart from those moments a
  whole operation runs under one configuration.

  Key definitions include:
    * `Command.Rewrites`
    * `Input.Frozen`
    * `Event.Uses`

  Key theorems include:
    * `Device.step_uses`
    * `laConfig_frozen_iff`
-/

------------------------------------------------------------
-- Effective Settings
------------------------------------------------------------

namespace PicoLogicAnalyzer

variable [CaptureModule]

/-
  A setting that `la_configure_*` accepts and that differs
  from the value in force.
-/
def Command.Rewrites (config : LaConfig) : Command → Prop
| .setFreq value =>
    acceptsFrequency value = true ∧
      value ≠ config.frequency
| .setChunkSize value =>
    acceptsChunkBytes value = true ∧
      value ≠ config.chunkBytes
| .setChannelMask value =>
    acceptsChannelMask value = true ∧
      value ≠ config.channelMask
| _ => False

/-
  The shape of the three setters: the new value is stored
  when the bridge is free and accepts it.
-/
omit [CaptureModule] in
private theorem stored_eq_iff
    {busy accepted : Bool}
    {config : LaConfig}
    {p : Prop}
    (stored : LaConfig)
    (hStored : stored = config ↔ ¬ p) :
    (if (!busy && accepted) = true then stored
        else config) = config ↔
      busy = true ∨ ¬ (accepted = true ∧ p) := by
  cases busy <;> cases accepted <;> simp [hStored]

theorem laConfigureFrequency_laConfig_iff
    (b : Bridge)
    (value : Nat) :
    (laConfigureFrequency (some value) b).1.laConfig =
        b.laConfig ↔
      laIsBusy b = true ∨
        ¬ (acceptsFrequency value = true ∧
          value ≠ b.laConfig.frequency) := by
  rw [← stored_eq_iff
    { b.laConfig with frequency := value }]
  · simp only [laConfigureFrequency]
    split <;> rfl
  · rw [not_not]
    refine ⟨congrArg LaConfig.frequency, ?_⟩
    rintro rfl
    rfl

omit [CaptureModule] in
theorem laConfigureChunkBytes_laConfig_iff
    (b : Bridge)
    (value : Nat) :
    (laConfigureChunkBytes (some value) b).1.laConfig =
        b.laConfig ↔
      laIsBusy b = true ∨
        ¬ (acceptsChunkBytes value = true ∧
          value ≠ b.laConfig.chunkBytes) := by
  rw [← stored_eq_iff
    { b.laConfig with chunkBytes := value }]
  · simp only [laConfigureChunkBytes]
    split <;> rfl
  · rw [not_not]
    refine ⟨congrArg LaConfig.chunkBytes, ?_⟩
    rintro rfl
    rfl

/- Here the derived fields have to come out the same too. -/
omit [CaptureModule] in
theorem laConfigureChannelMask_laConfig_iff
    {b : Bridge}
    (hConfig : b.laConfig.WellFormed)
    (value : Nat) :
    (laConfigureChannelMask (some value) b).1.laConfig =
        b.laConfig ↔
      laIsBusy b = true ∨
        ¬ (acceptsChannelMask value = true ∧
          value ≠ b.laConfig.channelMask) := by
  rw [← stored_eq_iff
    (laUpdateChannelConfig
      { b.laConfig with channelMask := value })]
  · simp only [laConfigureChannelMask]
    split <;> rfl
  · rw [not_not]
    refine ⟨congrArg LaConfig.channelMask, ?_⟩
    rintro rfl
    exact laUpdateChannelConfig_self hConfig

theorem handleCommand_laConfig_iff
    {d : Device}
    (hConfig : d.bridge.laConfig.WellFormed)
    (env : Env)
    (id : Nat)
    (data : List UInt8)
    (command : Command) :
    (handleCommand env id data d
        command).1.bridge.laConfig = d.bridge.laConfig ↔
      laIsBusy d.bridge = true ∨
        ¬ command.Rewrites d.bridge.laConfig := by
  cases command with
  | setFreq value =>
      exact laConfigureFrequency_laConfig_iff d.bridge value
  | setChunkSize value =>
      exact laConfigureChunkBytes_laConfig_iff d.bridge value
  | setChannelMask value =>
      exact laConfigureChannelMask_laConfig_iff hConfig value
  | _ =>
      have hNone : ¬ False := not_false
      refine ⟨fun _ => Or.inr hNone, fun _ => ?_⟩
      exact handleCommand_laConfig env id data d rfl

end PicoLogicAnalyzer

------------------------------------------------------------
-- Events Under One Configuration
------------------------------------------------------------

namespace PicoLogicAnalyzer

/- The event was produced under configuration `config`. -/
def Event.Uses (config : LaConfig) : Event → Prop
| .setUp record => record.config = config
| .sent _ (.raw op width _ data) _ =>
    width = config.bytesPerSample ∧
      (op = .stream → data.length = config.chunkBytes)
| .sent _ (.frame _ header _ _) _ =>
    header.sampleRate = config.frequency ∧
      header.payloadBytes = config.chunkBytes ∧
      header.sampleCount = config.chunkSamples
| _ => True

instance Event.decidableUses
    (config : LaConfig) :
    DecidablePred (Event.Uses config)
| .setUp record =>
    inferInstanceAs (Decidable (record.config = config))
| .sent _ (.raw op width _ data) _ =>
    inferInstanceAs
      (Decidable
        (width = config.bytesPerSample ∧
          (op = .stream → data.length = config.chunkBytes)))
| .sent _ (.frame _ header _ _) _ =>
    inferInstanceAs
      (Decidable
        (header.sampleRate = config.frequency ∧
          header.payloadBytes = config.chunkBytes ∧
          header.sampleCount = config.chunkSamples))
| .sent _ (.text _) _ => isTrue trivial
| .sent _ (.echo _) _ => isTrue trivial
| .received _ _ => isTrue trivial
| .captured => isTrue trivial
| .chainTaken _ => isTrue trivial
| .streamTaken _ _ _ => isTrue trivial

variable {d : Device} {a : Activity} {event : Event}
variable {env : Env}

theorem Event.IsAnswer.uses
    {config : LaConfig}
    {id : Nat}
    (h : event.IsAnswer id)
    (hSetUp :
      ∀ record, event = .setUp record →
        record.config = config) :
    event.Uses config := by
  rcases h with ⟨record, rfl⟩ | ⟨payload, accepted, rfl, hNone⟩
  · exact hSetUp record rfl
  · cases payload with
    | text reply => trivial
    | echo data => trivial
    | raw op width offset data => cases hNone
    | frame op header offset data => cases hNone

theorem singleCaptureTasks_uses
    (h : d.Coherent)
    (hMember : event ∈ (singleCaptureTasks env d).2) :
    event.Uses d.bridge.laConfig := by
  rcases (mem_singleCaptureTasks hMember).2 with
    rfl | ⟨capture, hResult, rfl⟩
  · trivial
  · rcases laSingleCaptureGetResult_some hResult with
      ⟨hActive, _, rfl⟩
    refine ⟨?_, by rintro ⟨⟩⟩
    exact
      (congrArg laBytesPerSampleMode (h.single hActive)).trans
        h.config.width_eq.symm

theorem captureChainDeliver_uses
    (h : d.Coherent)
    (hMember : event ∈ (captureChainDeliver env d).2.1) :
    event.Uses d.bridge.laConfig := by
  rcases (mem_captureChainDeliver hMember).2 with
    ⟨capture, hResult, rfl⟩
  rcases laSingleCaptureGetResult_some hResult with
    ⟨hActive, _, rfl⟩
  refine ⟨?_, by rintro ⟨⟩⟩
  exact
    (congrArg laBytesPerSampleMode (h.single hActive)).trans
      h.config.width_eq.symm

/- A frame of the pending block. -/
theorem sendAnalysisBlock_uses
    (h : d.Coherent)
    (hPending :
      d.blockPending = true ∨ d.streamBlockPending = true)
    {op : Operation}
    (hMember :
      event ∈
        (sendAnalysisBlock env op d
          d.pendingAnalysisBlock).2) :
    event.Uses d.bridge.laConfig := by
  have hBlock := h.pending hPending
  rw [mem_sendAnalysisBlock hMember]
  exact ⟨rfl, hBlock.bytes, hBlock.samples⟩

theorem captureChainSendBlock_uses
    (hShows : d.Shows a)
    (h : d.Coherent)
    (hMember : event ∈ (captureChainSendBlock env d).2) :
    event.Uses d.bridge.laConfig := by
  rcases mem_captureChainSendBlock hMember with
    ⟨hPending, hSent | ⟨record, rfl⟩⟩
  · exact sendAnalysisBlock_uses h (Or.inl hPending) hSent
  · exact (captureChainSendBlock_setUp hShows hMember).2

theorem streamTasksSend_uses
    (hShows : d.Shows a)
    (h : d.Coherent)
    (hMember : event ∈ (streamTasksSend env d).2) :
    event.Uses d.bridge.laConfig := by
  rcases mem_streamTasksSend hMember with ⟨hPending, hSent⟩
  unfold sendStreamBlock at hSent
  split at hSent
  · exact sendAnalysisBlock_uses h (Or.inr hPending) hSent
  · rw [List.mem_singleton] at hSent
    subst hSent
    have hRunning : d.bridge.laStreamRunning = true := by
      rw [hShows.streamBlockPending] at hPending
      rw [hShows.laStreamRunning]
      cases a <;> simp_all [Activity.flags, Flags.idle]
    refine ⟨?_, ?_⟩
    · rw [h.stream hRunning]
      exact h.config.width_eq.symm
    · intro _
      rw [CaptureHardware.length_read]
      exact (h.pending (Or.inr hPending)).bytes

theorem captureChainTasks_uses
    (hShows : d.Shows a)
    (h : d.Coherent)
    (hMember : event ∈ (captureChainTasks env d).2) :
    event.Uses d.bridge.laConfig := by
  let P : List Event → Device → Prop := fun trace d' =>
    (∃ a', d'.Shows a') ∧ d'.Coherent ∧
      d'.bridge.laConfig = d.bridge.laConfig ∧
      ∀ event ∈ trace, event.Uses d.bridge.laConfig
  have hInit : P [] d :=
    ⟨⟨a, hShows⟩, h, rfl, List.forall_mem_nil _⟩
  have hAppend :
      ∀ {trace events : List Event},
        (∀ event ∈ trace, event.Uses d.bridge.laConfig) →
        (∀ event ∈ events, event.Uses d.bridge.laConfig) →
        ∀ event ∈ trace ++ events,
          event.Uses d.bridge.laConfig := by
    intro trace events hTrace hEvents event hHere
    rcases List.mem_append.mp hHere with hHere | hHere
    · exact hTrace event hHere
    · exact hEvents event hHere
  have hEnd :
      P ([] ++ (captureChainTasks env d).2)
        (captureChainTasks env d).1 := by
    refine captureChainTasks_rule ?_ ?_ ?_ ?_ [] hInit
    · rintro trace d' ⟨⟨a', hShows'⟩, h', hConfig, hTrace⟩
      refine ⟨⟨_, captureChainDeliver_shows hShows' env⟩,
        captureChainDeliver_coherent h' env,
        by simpa using hConfig, hAppend hTrace ?_⟩
      intro event hHere
      rw [← hConfig]
      exact captureChainDeliver_uses h' hHere
    · rintro trace d' ⟨⟨a', hShows'⟩, h', hConfig, hTrace⟩
      refine ⟨⟨_, captureChainRestart_shows hShows' env⟩,
        captureChainRestart_coherent hShows' h' env,
        by simpa using hConfig, hAppend hTrace ?_⟩
      intro event hHere
      rcases mem_captureChainRestart hHere with
        ⟨record, rfl⟩
      rw [← hConfig]
      exact (captureChainRestart_setUp hShows' hHere).2
    · rintro trace d' ⟨⟨a', hShows'⟩, h', hConfig, hTrace⟩
      refine ⟨⟨_, captureChainTakeBlock_shows hShows' env⟩,
        captureChainTakeBlock_coherent h' env,
        by simpa using hConfig, hAppend hTrace ?_⟩
      intro event hHere
      rcases mem_captureChainTakeBlock hHere with ⟨_, rfl⟩
      trivial
    · rintro trace d' ⟨⟨a', hShows'⟩, h', hConfig, hTrace⟩
      refine ⟨⟨_, captureChainSendBlock_shows hShows' env⟩,
        captureChainSendBlock_coherent hShows' h' env,
        by simpa using hConfig, hAppend hTrace ?_⟩
      intro event hHere
      rw [← hConfig]
      exact captureChainSendBlock_uses hShows' h' hHere
  exact hEnd.2.2.2 event hMember

variable [CaptureModule]

/- One step works under the configuration it finds. -/
theorem Device.step_uses
    (hShows : d.Shows a)
    (h : d.Coherent)
    {i : Input}
    (hMember : event ∈ (Device.step d i).2) :
    event.Uses d.bridge.laConfig := by
  cases i with
  | message env id data =>
      rcases List.mem_cons.mp hMember with rfl | hAnswer
      · trivial
      · apply (mem_handleCommand hAnswer).uses
        rintro record rfl
        exact (handleCommand_setUp hShows hAnswer).2
  | connect env id =>
      simp only [Device.step, List.mem_singleton] at hMember
      subst hMember
      trivial
  | singleCaptureTasks env =>
      exact singleCaptureTasks_uses h hMember
  | captureChainTasks env =>
      exact captureChainTasks_uses hShows h hMember
  | streamTake env =>
      rcases mem_streamTasksTake hMember with ⟨_, _, _, rfl⟩
      trivial
  | streamSend env =>
      exact streamTasksSend_uses hShows h hMember
  | captureDone tail =>
      simp only [Device.step, captureDone] at hMember
      split at hMember
      · rw [List.mem_singleton] at hMember
        subst hMember
        trivial
      · simp at hMember
  | _ => simp [Device.step] at hMember

end PicoLogicAnalyzer

------------------------------------------------------------
-- Frozen Configurations
------------------------------------------------------------

namespace PicoLogicAnalyzer

variable [CaptureModule]

/-
  The step does not rewrite the configuration: it is no
  effective setting, or `la_is_busy` refuses it.
-/
def Input.Frozen (d : Device) (i : Input) : Prop :=
  ∀ env id data, i = .message env id data →
    laIsBusy d.bridge = true ∨
      ¬ (parseCommand data).Rewrites d.bridge.laConfig

/- What a frozen step keeps. -/
theorem Device.step_laConfig_of_frozen
    {d : Device}
    (hConfig : d.bridge.laConfig.WellFormed)
    {i : Input}
    (hFrozen : i.Frozen d) :
    (Device.step d i).1.bridge.laConfig =
      d.bridge.laConfig := by
  by_cases hTask : ∀ env id data, i ≠ .message env id data
  · exact Device.step_laConfig d hTask
  · push Not at hTask
    rcases hTask with ⟨env, id, data, rfl⟩
    exact
      (handleCommand_laConfig_iff hConfig env id data
        (parseCommand data)).mpr (hFrozen env id data rfl)

/-
  A message keeps the configuration of a busy device exactly
  when `la_is_busy` holds or the message is no effective
  setting; and in every run whose steps are all of that kind
  one configuration serves all captures and frames.
-/
theorem laConfig_frozen_iff
    {d : Device}
    (hReachable : d.Reachable) :
    (isBusy d = true →
      ∀ env id data,
        (websocketMessage env id data d).1.bridge.laConfig =
            d.bridge.laConfig ↔
          laIsBusy d.bridge = true ∨
            ¬ (parseCommand data).Rewrites
              d.bridge.laConfig) ∧
      ∀ inputs,
        Machine.Guarded Device.step
            (fun d i => i.Frozen d) d inputs →
          (Device.run d inputs).1.bridge.laConfig =
              d.bridge.laConfig ∧
            ∀ event ∈ (Device.run d inputs).2,
              event.Uses d.bridge.laConfig := by
  refine ⟨?_, ?_⟩
  · intro _ env id data
    exact
      handleCommand_laConfig_iff hReachable.coherent.config
        env id data (parseCommand data)
  · intro inputs hGuarded
    let P : Device → Prop := fun d' =>
      d'.Reachable ∧
        d'.bridge.laConfig = d.bridge.laConfig
    have hStep :
        ∀ d' i, P d' → i.Frozen d' →
          P (Device.step d' i).1 := by
      rintro d' i ⟨hReachable', hConfig⟩ hFrozen
      refine ⟨?_, ?_⟩
      · simpa using hReachable'.run [i]
      · rw [← hConfig]
        exact
          Device.step_laConfig_of_frozen
            hReachable'.coherent.config hFrozen
    have hOut :
        ∀ d' i, P d' → i.Frozen d' →
          ∀ event ∈ (Device.step d' i).2,
            event.Uses d.bridge.laConfig := by
      rintro d' i ⟨hReachable', hConfig⟩ _ event hMember
      rcases hReachable'.shows with ⟨a, hShows⟩
      rw [← hConfig]
      exact
        Device.step_uses hShows hReachable'.coherent hMember
    have hInit : P d := ⟨hReachable, rfl⟩
    exact
      ⟨(Machine.Guarded.invariant hStep hInit hGuarded).2,
        Machine.Guarded.outputs hStep hOut hInit hGuarded⟩

end PicoLogicAnalyzer

namespace PicoLogicAnalyzer

section Sample

attribute [local instance] CaptureModule.sample

/- A capture chain between its start and its first capture. -/
theorem laConfig_frozen_in_chain :
    let d :=
      (Device.run (Device.boot .blank)
        [.command 1 "CAPTURE_CHAIN_START"]).1
    let inputs :=
      [Input.captureChainTasks .smooth, .captureDone 40,
        .captureChainTasks .smooth]
    isBusy d = true ∧
      (websocketMessage .smooth 1
          (Text.ascii "SET_FREQ 1000") d).1.bridge.laConfig =
        d.bridge.laConfig ∧
      (Device.run d inputs).1.bridge.laConfig =
        d.bridge.laConfig ∧
      ∀ event ∈ (Device.run d inputs).2,
        event.Uses d.bridge.laConfig := by
  intro d inputs
  have hReachable : d.Reachable := ⟨.blank, _, rfl⟩
  have hBusy : isBusy d = true := rfl
  have hBoth := laConfig_frozen_iff hReachable
  have hSame :
      (websocketMessage .smooth 1
          (Text.ascii "SET_FREQ 1000") d).1.bridge.laConfig =
        d.bridge.laConfig := by
    rw [hBoth.1 hBusy]
    right
    have hParse :
        parseCommand (Text.ascii "SET_FREQ 1000") =
          .setFreq 1000 := by
      decide
    rw [hParse]
    rintro ⟨_, hOther⟩
    exact hOther rfl
  -- None of the inputs is a message.
  refine
    ⟨hBusy, hSame, hBoth.2 inputs ⟨?_, ?_, ?_, trivial⟩⟩
  · rintro env id data ⟨⟩
  · rintro env id data ⟨⟩
  · rintro env id data ⟨⟩

/-
  Between two captures of one chain a setting is accepted,
  and the next capture of the chain uses it.
-/
theorem chain_gap_accepts_setting :
    let d :=
      (Device.run (Device.boot .blank)
        [.command 1 "CAPTURE_CHAIN_START",
          .captureChainTasks .smooth, .captureDone 40,
          .captureChainTasks .smooth]).1
    isBusy d = true ∧
      (websocketMessage .smooth 1
          (Text.ascii "SET_FREQ 2000") d).1.bridge.laConfig ≠
        d.bridge.laConfig ∧
      ∃ event ∈
          (Device.run d
            [.command 1 "SET_FREQ 2000",
              .captureChainTasks
                { Env.smooth with nowMs := 100 }]).2,
        ¬ event.Uses d.bridge.laConfig := by
  decide +kernel

end Sample

end PicoLogicAnalyzer
