import PicoLogicAnalyzer.Firmware.Coherence
import PicoLogicAnalyzer.Firmware.Sessions

/-
  Blocks and frames of the two sessions.

  A block is always one chunk of the configuration in force,
  so neither the size test of `send_analysis_block` nor the
  mode test of `la_capture_chain_take` ever fails. The
  configuration stays as it is while a session is open, and
  all its frames have the same shape.

  Key definitions include:
    * `AnalysisBlock.OneChunk`
    * `Device.GuardsPass`
    * `Event.FrameOf`
    * `Device.OpenSession`

  Key theorems include:
    * `Device.Coherent.guardsPass`
    * `Device.step_frameOf`
    * `Device.OpenSession.step`
    * `Device.OpenSession.run_frameOf`
    * `guards_pass_and_frames_uniform`
-/

------------------------------------------------------------
-- Guards
------------------------------------------------------------

namespace PicoLogicAnalyzer

/- Bytes of the static array `stream_frame`. -/
def streamFrameBytes : Nat :=
  40 + laMaxChunkBytes

/- One chunk of whole samples, small enough to be sent. -/
structure AnalysisBlock.OneChunk
    (block : AnalysisBlock)
    (config : LaConfig) : Prop where
  bytes_eq :
    block.bytes = block.samples * config.bytesPerSample
  chunk_eq : block.bytes = config.chunkBytes
  bytes_le : block.bytes ≤ laMaxChunkBytes
  samples_pos : 1 ≤ block.samples

/-
  In this state every block a take returns is one chunk, the
  mode test of a take is passed, and the block in hand is
  put into `stream_frame` and handed over.
-/
structure Device.GuardsPass (d : Device) : Prop where
  stream :
    ∀ reads timeUs block,
      (laStreamTake reads timeUs d.bridge).2 = some block →
        block.OneChunk d.bridge.laConfig
  chain :
    ∀ timeUs block,
      (laCaptureChainTake timeUs d.bridge).2 = some block →
        block.OneChunk d.bridge.laConfig
  mode :
    d.bridge.laCaptureActive = true →
      (laGetRawCapture d.bridge.hw).mode =
        d.bridge.laConfig.mode
  sent :
    d.blockPending = true ∨ d.streamBlockPending = true →
      ∀ env op,
        sendAnalysisBlock env op d d.pendingAnalysisBlock =
          (env.blockAccepted,
            [.sent d.streamConnection
              (.frame op (d.headerOf d.pendingAnalysisBlock)
                d.pendingAnalysisBlock.data
                (d.bridge.hw.read d.pendingAnalysisBlock.data
                  d.pendingAnalysisBlock.bytes))
              env.blockAccepted])
  fits :
    d.blockPending = true ∨ d.streamBlockPending = true →
      (d.headerOf d.pendingAnalysisBlock).encode.length +
          d.pendingAnalysisBlock.bytes ≤
        streamFrameBytes

/-
  States in which the tasks call the bridge: `d` itself and
  the states between the blocks of `capture_chain_tasks`.
-/
inductive Device.Calls (d : Device) : Device → Prop where
  | here : Calls d d
  | delivered (env : Env) :
      Calls d (captureChainDeliver env d).1
  | restarted (env : Env) :
      Calls d
        (captureChainRestart env
          (captureChainDeliver env d).1).1
  | taken (env : Env) :
      Calls d
        (captureChainTakeBlock env
          (captureChainRestart env
            (captureChainDeliver env d).1).1).1

variable {d : Device} {a : Activity}

theorem AnalysisBlock.IsChunk.oneChunk
    {block : AnalysisBlock}
    {config : LaConfig}
    (h : block.IsChunk config)
    (hConfig : config.WellFormed) :
    block.OneChunk config := by
  have hSamples :
      config.chunkSamples * config.bytesPerSample =
        config.chunkBytes :=
    hConfig.chunkSamples_mul
  constructor
  · rw [h.bytes, h.samples, hSamples]
  · exact h.bytes
  · rw [h.bytes]
    exact hConfig.chunk_le
  · rw [h.samples]
    exact hConfig.chunkSamples_pos

theorem Device.Coherent.guardsPass
    (h : d.Coherent) :
    d.GuardsPass := by
  constructor
  · intro reads timeUs block hTaken
    exact (laStreamTake_isChunk hTaken).oneChunk h.config
  · intro timeUs block hTaken
    exact
      (laCaptureChainTake_isChunk h.config h.chunk
        hTaken).oneChunk h.config
  · intro hActive
    exact (h.chunk hActive).mode
  · intro hPending env op
    exact
      sendAnalysisBlock_spec (h.pending_le hPending) env op
  · intro hPending
    rw [StreamHeader.length_encode]
    exact Nat.add_le_add_left (h.pending_le hPending) 40

/- Every state of a task is as coherent as its first one. -/
theorem Device.Calls.coherent
    {d' : Device}
    (hCalls : d.Calls d')
    (hShows : d.Shows a)
    (h : d.Coherent) :
    d'.Coherent := by
  cases hCalls with
  | here => exact h
  | delivered env => exact captureChainDeliver_coherent h env
  | restarted env =>
      exact
        captureChainRestart_coherent
          (captureChainDeliver_shows hShows env)
          (captureChainDeliver_coherent h env) env
  | taken env =>
      exact
        captureChainTakeBlock_coherent
          (captureChainRestart_coherent
            (captureChainDeliver_shows hShows env)
            (captureChainDeliver_coherent h env) env) env

end PicoLogicAnalyzer

------------------------------------------------------------
-- Shape Of The Frames
------------------------------------------------------------

namespace PicoLogicAnalyzer

/- Frames have the shape a configuration prescribes. -/
def Event.FrameOf (config : LaConfig) : Event → Prop
| .sent _ (.frame _ header _ data) _ =>
    header.sampleCount = config.chunkSamples ∧
      header.payloadBytes = config.chunkBytes ∧
      header.sampleRate = config.frequency ∧
      data.length = header.payloadBytes
| _ => True

variable {d : Device} {a : Activity} {config : LaConfig}

theorem Event.frameOf_of_plain
    {event : Event}
    (hPlain : event.IsPlain) :
    event.FrameOf config := by
  cases event with
  | sent dest payload accepted =>
      cases payload with
      | frame op header offset data => cases hPlain
      | _ => trivial
  | _ => trivial

theorem sendAnalysisBlock_frameOf
    {block : AnalysisBlock}
    (hBlock : block.IsChunk d.bridge.laConfig)
    (env : Env)
    (op : Operation) :
    ∀ event ∈ (sendAnalysisBlock env op d block).2,
      event.FrameOf d.bridge.laConfig := by
  intro event hMember
  rw [mem_sendAnalysisBlock hMember]
  exact
    ⟨hBlock.samples, hBlock.bytes, rfl,
      CaptureHardware.length_read _ _ _⟩

theorem streamTasksSend_frameOf
    (h : d.Coherent)
    (env : Env) :
    ∀ event ∈ (streamTasksSend env d).2,
      event.FrameOf d.bridge.laConfig := by
  intro event hMember
  rcases mem_streamTasksSend hMember with ⟨hPending, hSent⟩
  unfold sendStreamBlock at hSent
  split at hSent
  · exact
      sendAnalysisBlock_frameOf (h.pending (Or.inr hPending))
        env .stream event hSent
  · rw [List.mem_singleton] at hSent
    rw [hSent]
    trivial

/- The send block of the task runs in a coherent state. -/
theorem captureChainSendBlock_frameOf
    (h : d.Coherent)
    (env : Env) :
    ∀ event ∈ (captureChainSendBlock env d).2,
      event.FrameOf d.bridge.laConfig := by
  intro event hMember
  rcases mem_captureChainSendBlock hMember with
    ⟨hPending, hSent | ⟨record, rfl⟩⟩
  · exact
      sendAnalysisBlock_frameOf (h.pending (Or.inl hPending))
        env .captureChainAnalysis event hSent
  · trivial

theorem captureChainTasks_frameOf
    (hShows : d.Shows a)
    (h : d.Coherent)
    (env : Env) :
    ∀ event ∈ (captureChainTasks env d).2,
      event.FrameOf d.bridge.laConfig := by
  have hTask :=
    captureChainTasks_follows
      (Q := Event.FrameOf d.bridge.laConfig) hShows h
      env ?_ (fun _ => trivial) (fun _ => trivial) ?_
  · exact hTask.2
  · intro d' _ event hMember
    rcases mem_captureChainDeliver hMember with
      ⟨_, capture, _, rfl⟩
    trivial
  · intro d' hFollows
    rw [← hFollows.config_eq]
    exact captureChainSendBlock_frameOf hFollows.coherent env

/- Frames follow the configuration before the step. -/
theorem Device.step_frameOf
    [CaptureModule]
    (hShows : d.Shows a)
    (h : d.Coherent)
    (i : Input) :
    ∀ event ∈ (Device.step d i).2,
      event.FrameOf d.bridge.laConfig := by
  intro event hMember
  by_cases hOutside : i.isOutside = true
  · rcases Device.mem_step_outside hOutside hMember with
      rfl | ⟨env, id, rfl⟩
    · trivial
    · trivial
  cases i with
  | message env id data =>
      rcases List.mem_cons.mp hMember with rfl | hAnswer
      · trivial
      · rcases mem_handleCommand hAnswer with
          ⟨record, rfl⟩ | ⟨payload, accepted, rfl, hPlain⟩
        · trivial
        · exact Event.frameOf_of_plain hPlain
  | singleCaptureTasks env =>
      rcases mem_singleCaptureTasks hMember with
        ⟨_, rfl | ⟨capture, _, rfl⟩⟩
      · trivial
      · trivial
  | captureChainTasks env =>
      exact captureChainTasks_frameOf hShows h env event hMember
  | streamTake env =>
      rcases mem_streamTasksTake hMember with
        ⟨next, chunk, block, rfl⟩
      trivial
  | streamSend env =>
      exact streamTasksSend_frameOf h env event hMember
  | _ => exact absurd rfl hOutside

end PicoLogicAnalyzer

------------------------------------------------------------
-- Open Sessions
------------------------------------------------------------

namespace PicoLogicAnalyzer

/- Inputs other than a stop of the operation. -/
def Input.LeavesOpen (op : Operation) : Input → Prop
| .message _ _ data => (parseCommand data).stops ≠ some op
| _ => True

/- A session of `op` is open under a configuration. -/
structure Device.OpenSession
    (op : Operation)
    (config : LaConfig)
    (d : Device) : Prop where
  shows :
    ∃ a, d.Shows a ∧ a.isSession = true ∧
      a.operation = some op
  coherent : d.Coherent
  config_eq : d.bridge.laConfig = config

variable {d : Device} {op : Operation} {config : LaConfig}

/- A block of the chain task keeps its session open. -/
theorem Activity.isSession_of_operation
    {a : Activity}
    (hSession : a.isSession = true)
    {a' : Activity}
    (hSame : a'.operation = a.operation) :
    a'.isSession = true := by
  cases a with
  | chainAnalysis phase =>
      cases a' with
      | chainAnalysis phase' => rfl
      | _ => cases hSame
  | streaming analysis pending =>
      cases a' with
      | streaming analysis' pending' => rfl
      | _ => cases hSame
  | _ => cases hSession

theorem Activity.operation_takeBlock (a : Activity) :
    a.takeBlock.operation = a.operation := by
  cases a with
  | chainAnalysis phase => cases phase <;> rfl
  | _ => rfl

theorem Activity.operation_releaseBlock
    (started : Bool)
    (a : Activity) :
    (a.releaseBlock started).operation = a.operation := by
  cases a with
  | chainAnalysis phase => cases phase <;> rfl
  | _ => rfl

variable [CaptureModule]

theorem Device.OpenSession.step
    (h : d.OpenSession op config)
    {i : Input}
    (hOpen : i.LeavesOpen op) :
    (Device.step d i).1.OpenSession op config := by
  rcases h.shows with ⟨a, hShows, hSession, hOperation⟩
  have hCoherent := Device.step_coherent hShows h.coherent i
  have hSame :
      ∀ {a' : Activity}, (Device.step d i).1.Shows a' →
        a'.operation = a.operation →
        (Device.step d i).1.bridge.laConfig =
          d.bridge.laConfig →
        (Device.step d i).1.OpenSession op config := by
    intro a' hShows' hKept hConfig
    exact
      ⟨⟨a', hShows',
          Activity.isSession_of_operation hSession hKept,
          hKept.trans hOperation⟩,
        hCoherent, hConfig.trans h.config_eq⟩
  by_cases hActs : i.ActsOn a
  · cases i with
    | message env id data =>
        exact absurd (hActs.trans hOperation) hOpen
    | captureChainTasks env =>
        cases a with
        | chainAnalysis phase =>
            have hTake := captureChainTakeBlock_shows hShows env
            have hSend := captureChainSendBlock_shows hTake env
            have hTask :=
              captureChainTasks_chainAnalysis env hShows
            have hNext :
                (Device.step d (.captureChainTasks env)).1 =
                  (captureChainSendBlock env
                    (captureChainTakeBlock env d).1).1 := by
              rw [Device.step, hTask]
            rw [← hNext] at hSend
            apply hSame hSend
            · split
              · rw [Activity.operation_releaseBlock]
                split
                · rw [Activity.operation_takeBlock]
                · rfl
              · split
                · rw [Activity.operation_takeBlock]
                · rfl
            · exact captureChainTasks_laConfig env d
        | _ => cases hActs
    | captureDone tail =>
        apply hSame (captureDone_shows hShows tail) rfl
        apply Device.step_laConfig
        rintro env id data ⟨⟩
    | streamTake env =>
        apply hSame (streamTasksTake_shows hShows env)
        · split
          · cases a <;> rfl
          · rfl
        · exact streamTasksTake_laConfig env d
    | streamSend env =>
        apply hSame (streamTasksSend_shows hShows env)
        · split
          · cases a <;> rfl
          · rfl
        · exact streamTasksSend_laConfig env d
    | _ => exact hActs.elim
  · rcases (Device.step_beside hShows hSession hActs).1 with
      ⟨pull, memory, passes, hBeside⟩
    have hShows' : (Device.step d i).1.Shows a := by
      rw [hBeside]
      exact hShows.congr rfl rfl
    apply hSame hShows' rfl
    rw [hBeside]

/- All frames until the stop have the same shape. -/
theorem Device.OpenSession.run_frameOf
    (h : d.OpenSession op config)
    {inputs : List Input}
    (hOpen : ∀ i ∈ inputs, Input.LeavesOpen op i) :
    ∀ event ∈ (Device.run d inputs).2,
      event.FrameOf config := by
  have hGuarded :
      Machine.Guarded Device.step
        (fun _ i => Input.LeavesOpen op i) d inputs := by
    apply Machine.Guarded.of_forall
    intro i hMember _
    exact hOpen i hMember
  refine Machine.Guarded.outputs
    (P := Device.OpenSession op config)
    (Q := Event.FrameOf config) ?_ ?_ h hGuarded
  · intro d' i h' hInput
    exact h'.step hInput
  · intro d' i h' _
    rcases h'.shows with ⟨a', hShows', _⟩
    rw [← h'.config_eq]
    exact Device.step_frameOf hShows' h'.coherent i

/- A session in progress is open. -/
theorem Device.Reachable.openSession
    (hReachable : d.Reachable)
    (hSession :
      op = .captureChainAnalysis ∨ op = .stream)
    (hProgress : d.inProgress op = true) :
    d.OpenSession op d.bridge.laConfig := by
  rcases hReachable.shows with ⟨a, hShows⟩
  refine ⟨⟨a, hShows, ?_⟩, hReachable.coherent, rfl⟩
  rcases hSession with rfl | rfl
  · have hEnabled : d.captureChainAnalysisEnabled = true :=
      hProgress
    rw [hShows.captureChainAnalysisEnabled] at hEnabled
    cases a with
    | chainAnalysis phase => exact ⟨rfl, rfl⟩
    | _ => cases hEnabled
  · simp only [Device.inProgress, hShows.streamMode]
      at hProgress
    cases a with
    | streaming analysis pending => exact ⟨rfl, rfl⟩
    | _ => cases hProgress

/-
  In every reachable state the guards pass; and from any
  point of a session on, until it is stopped, its frames
  have the shape of the configuration at that point.
-/
theorem guards_pass_and_frames_uniform
    (hReachable : d.Reachable) :
    (∀ d', d.Calls d' → d'.GuardsPass) ∧
      ∀ op inputs,
        (op = .captureChainAnalysis ∨ op = .stream) →
        d.inProgress op = true →
        (∀ i ∈ inputs, Input.LeavesOpen op i) →
          ∀ event ∈ (Device.run d inputs).2,
            event.FrameOf d.bridge.laConfig := by
  rcases hReachable.shows with ⟨a, hShows⟩
  constructor
  · intro d' hCalls
    exact
      (hCalls.coherent hShows hReachable.coherent).guardsPass
  · intro op inputs hSession hProgress hOpen
    exact
      (hReachable.openSession hSession
        hProgress).run_frameOf hOpen

end PicoLogicAnalyzer

namespace PicoLogicAnalyzer

section Sample

attribute [local instance] CaptureModule.sample

/- An analysis stream of 16-bit samples in 1 KiB chunks. -/
theorem guards_pass_in_wide_stream :
    let d :=
      (Device.run (Device.boot CaptureHardware.blank)
        [Input.command 1 "SET_CHANNEL_MASK 101",
          Input.command 1 "SET_CHUNK_SIZE 1024",
          Input.command 1 "STREAM_ANALYSIS_START"]).1
    (∀ d', d.Calls d' → d'.GuardsPass) ∧
      ∀ op inputs,
        (op = .captureChainAnalysis ∨ op = .stream) →
        d.inProgress op = true →
        (∀ i ∈ inputs, Input.LeavesOpen op i) →
          ∀ event ∈ (Device.run d inputs).2,
            event.FrameOf d.bridge.laConfig :=
  guards_pass_and_frames_uniform
    ⟨CaptureHardware.blank,
      [Input.command 1 "SET_CHANNEL_MASK 101",
        Input.command 1 "SET_CHUNK_SIZE 1024",
        Input.command 1 "STREAM_ANALYSIS_START"], rfl⟩

end Sample

end PicoLogicAnalyzer
