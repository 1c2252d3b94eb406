import PicoLogicAnalyzer.Firmware.Throughput
import PicoLogicAnalyzer.Page.Gaps

/-
  From the pins to the page.

  A byte travels through the DMA, the ring, the frame of an
  analysis stream and the decoder of the page. As long as no
  block is sent after the writer has come round to it, the
  samples on display are those of the input at the positions
  the frame names, under the mask of the page.

  Key definitions include:
    * `inputSample`
    * `StreamSystem.talk`
    * `Displays`

  Key theorems include:
    * `StreamSystem.Telling.step`
    * `displayed_samples_are_input`
-/

------------------------------------------------------------
-- Messages Of The System
------------------------------------------------------------

namespace PicoLogicAnalyzer

open Word

/- Sample `index` of the input, little-endian. -/
def inputSample
    (input : Nat → UInt8)
    (width index : Nat) :
    Nat :=
  ofLittleEndian
    ((List.range width).map
      (fun j => input (index * width + j)))

namespace StreamSystem

/- Messages that `sendMessage` accepts during one input. -/
def wires (s : StreamSystem) : StreamInput → List WireMessage
| .send env => streamWires (streamTasksSend env s.device).2
| _ => []

/- The system as its client hears it. -/
def talk
    [CaptureModule]
    (input : Nat → UInt8)
    (s : StreamSystem)
    (i : StreamInput) :
    StreamSystem × List WireMessage :=
  ((s.step input i).1, s.wires i)

end StreamSystem

/-
  A page in analysis mode makes of the message chunk `n` of
  the input: it shows the first samples of the chunk and
  expects the next chunk to follow.
-/
structure Displays
    (input : Nat → UInt8)
    (config : LaConfig)
    (n : Nat)
    (page : Page)
    (message : WireMessage) : Prop where
  output :
    (page.onMessage message).1.output =
      frameText (sampleDigits config.bytesPerSample)
        ((List.range (min config.chunkSamples 32)).map
          (fun index =>
            inputSample input config.bytesPerSample
                (n * config.chunkSamples + index) &&&
              page.displayMask))
  expected :
    (page.onMessage message).1.expectedSample =
      some ((n + 1) * config.chunkSamples)
  no_error :
    Console.rangeError ∉ (page.onMessage message).2

end PicoLogicAnalyzer

------------------------------------------------------------
-- Frames That Carry Input
------------------------------------------------------------

namespace PicoLogicAnalyzer

open Word

variable {input : Nat → UInt8} {config : LaConfig}

/- A sample of a payload that is a piece of the input. -/
theorem rawSample_of_input
    {data : List UInt8}
    {bytes start width index : Nat}
    (hData :
      data =
        (List.range bytes).map
          (fun j => input (start * width + j)))
    (hInside : (index + 1) * width ≤ bytes) :
    rawSample data width index =
      inputSample input width (start + index) := by
  rw [Nat.succ_mul] at hInside
  subst hData
  unfold rawSample inputSample
  congr 1
  apply List.ext_getElem
  · simp only [List.length_take, List.length_drop,
      List.length_map, List.length_range]
    omega
  · intro j _ _
    simp only [List.getElem_take, List.getElem_drop,
      List.getElem_map, List.getElem_range]
    rw [Nat.add_mul, Nat.add_assoc]

/- The header of the block in hand can be read. -/
theorem StreamSession.pending_frames
    {trace : List Event}
    {d : Device}
    (h : StreamSession config true true trace d)
    (hRate : config.frequency < 2 ^ 32)
    (hWord : d.pendingAnalysisBlock.firstSample < 2 ^ 64)
    (hBytes : d.pendingAnalysisBlock.bytes = config.chunkBytes) :
    (config.headerOf d.pendingAnalysisBlock).Frames config.mode
        (d.bridge.hw.read d.pendingAnalysisBlock.data
          d.pendingAnalysisBlock.bytes) ∧
      d.pendingAnalysisBlock.samples = config.chunkSamples := by
  have hConfig : config.WellFormed := by
    rw [← h.config_eq]
    exact h.coherent.config
  -- The block in hand is the last one that was taken.
  have hTaken :
      config.headerOf d.pendingAnalysisBlock ∈
        takenHeaders config trace := by
    rw [h.delivered rfl]
    simp
  rcases List.mem_map.mp hTaken with ⟨entry, hEntry, hSame⟩
  rcases List.mem_iff_getElem?.mp hEntry with ⟨i, hIndex⟩
  have hBlock := h.log.blocks i entry.1 entry.2 hIndex
  have hSequence := congrArg StreamHeader.sequence hSame
  have hOverruns := congrArg StreamHeader.overruns hSame
  have hSamples := congrArg StreamHeader.sampleCount hSame
  simp only [LaConfig.headerOf, hBlock.sequence,
    hBlock.overruns, hBlock.samples]
    at hSequence hOverruns hSamples
  refine ⟨⟨⟨?_, ?_, hRate, ?_, ?_, hWord⟩, ?_, ?_, ?_⟩,
    hSamples.symm⟩
  · exact hSequence.symm.trans_lt (u32_lt _)
  · exact hSamples.symm.trans_lt hConfig.chunkSamples_lt
  · exact hOverruns.symm.trans_lt (u32_lt _)
  · exact hBytes.trans_lt hConfig.chunkBytes_lt
  · exact hConfig.chunkSamples_pos.trans_eq hSamples
  · simp only [LaConfig.headerOf]
    rw [hBytes, ← hSamples, ← hConfig.width_eq,
      hConfig.chunkSamples_mul]
  · exact CaptureHardware.length_read _ _ _

/- A frame of input bytes shows input samples. -/
theorem StreamHeader.Frames.displays
    {block : AnalysisBlock}
    {data : List UInt8}
    {n : Nat}
    {page : Page}
    (hConfig : config.WellFormed)
    (hFrames : (config.headerOf block).Frames config.mode data)
    (hSamples : block.samples = config.chunkSamples)
    (hChunk : block.IsChunkOf config n)
    (hData :
      data =
        (List.range block.bytes).map
          (fun j =>
            input
              (block.firstSample * config.bytesPerSample + j)))
    (hMode : page.analysisMode = true) :
    Displays input config n page
      (.binary ((config.headerOf block).encode ++ data)) := by
  have hMessage := hFrames.onMessage hMode
  have hWidth := hConfig.width_eq
  have hView :
      (config.headerOf block).view.displayed =
        min config.chunkSamples 32 := by
    rw [← hSamples]
    rfl
  have hDigits := hFrames.bytesPerSample
  rw [← hWidth] at hDigits
  refine ⟨?_, ?_, ?_⟩
  · rw [hMessage]
    simp only [hDigits, StreamHeader.Frames.shown, hView]
    congr 1
    apply List.map_congr_left
    intro index hIndex
    rw [List.mem_range] at hIndex
    rw [← hWidth, rawSample_of_input hData, hChunk.firstSample]
    rw [hChunk.bytes, ← hConfig.chunkSamples_mul]
    exact Nat.mul_le_mul_right _ (by omega)
  · rw [hMessage]
    simp only [Page.follow, StreamHeader.view,
      LaConfig.headerOf, hSamples, hChunk.firstSample]
    rw [Nat.succ_mul]
  · rw [hMessage]
    exact Page.rangeError_not_mem_gapWarnings _ _

end PicoLogicAnalyzer

------------------------------------------------------------
-- Whole Sessions
------------------------------------------------------------

namespace PicoLogicAnalyzer

open Word

/- A sound analysis stream whose block in hand is in range. -/
structure StreamSystem.Telling
    (input : Nat → UInt8)
    (config : LaConfig)
    (s : StreamSystem) : Prop where
  sound : s.Sound input config
  mode : s.device.streamMode = .analysis
  word :
    s.device.streamBlockPending = true →
      s.device.pendingAnalysisBlock.firstSample < 2 ^ 64

namespace StreamSystem.Telling

variable {input : Nat → UInt8} {config : LaConfig}
variable {s s' : StreamSystem}

theorem beside
    (h : s.Telling input config)
    (hSound : s'.Sound input config)
    (hBeside : s.device.Beside s'.device) :
    s'.Telling input config := by
  rcases hBeside with ⟨pull, memory, passes, hState⟩
  refine ⟨hSound, ?_, ?_⟩
  · rw [hState]
    exact h.mode
  · rw [hState]
    exact h.word

/- The session of a telling stream is an analysis. -/
theorem session
    (h : s.Telling input config) :
    ∃ trace,
      StreamSession config true s.device.streamBlockPending
        trace s.device := by
  rcases h.sound.session with
    ⟨analysis, pending, trace, hSession⟩
  have hMode := hSession.shows.streamMode
  have hPending : s.device.streamBlockPending = pending :=
    hSession.shows.streamBlockPending
  rw [h.mode] at hMode
  rw [hPending]
  cases analysis with
  | true => exact ⟨trace, hSession⟩
  | false => cases hMode

/- The message that carries the block in hand. -/
def inHand
    (config : LaConfig)
    (s : StreamSystem) :
    WireMessage :=
  .binary
    ((config.headerOf s.device.pendingAnalysisBlock).encode ++
      s.device.bridge.hw.read
        s.device.pendingAnalysisBlock.data
        s.device.pendingAnalysisBlock.bytes)

/- It is heard when it is accepted. -/
theorem wires_send
    (h : s.Telling input config)
    (env : Env) :
    s.wires (.send env) =
      if s.device.streamBlockPending && env.blockAccepted then
        [inHand config s] else [] := by
  rcases h.session with ⟨trace, hSession⟩
  simp only [StreamSystem.wires]
  cases hPending : s.device.streamBlockPending with
  | false =>
      rw [streamTasksSend_of_not_pending env hPending]
      rfl
  | true =>
      have hSmall :=
        hSession.coherent.pending_le (Or.inr hPending)
      rw [streamTasksSend_spec hPending hSmall env,
        Device.streamPayload, if_pos h.mode, inHand,
        ← hSession.config_eq]
      cases env.blockAccepted with
      | false => rfl
      | true => rfl

/- A block sent in time is displayed as it came in. -/
theorem wires_display
    (h : s.Telling input config)
    (hRate : config.frequency < 2 ^ 32)
    {i : StreamInput}
    (hInTime : i.InTime s)
    {message : WireMessage}
    (hMessage : message ∈ s.wires i)
    {page : Page}
    (hMode : page.analysisMode = true) :
    ∃ n, Displays input config n page message := by
  cases i with
  | send env =>
      have hSent :
          (s.device.streamBlockPending = true ∧
            env.blockAccepted = true) ∧
            message = inHand config s := by
        simpa [h.wires_send env] using hMessage
      rcases hSent with ⟨⟨hPending, hAccepted⟩, hContent⟩
      rcases h.session with ⟨trace, hSession⟩
      rw [hPending] at hSession
      rcases h.sound.pending hPending with
        ⟨n, hChunk, hDone⟩
      have hTime := hInTime hAccepted hPending
      rw [h.sound.config_eq] at hTime
      rcases hSession.pending_frames hRate (h.word hPending)
        hChunk.bytes with ⟨hFrames, hSamples⟩
      refine ⟨n, ?_⟩
      rw [hContent]
      exact
        hFrames.displays h.sound.wellFormed hSamples hChunk
          (h.sound.read_eq hChunk hDone hTime) hMode
  | _ => cases hMessage

variable [CaptureModule]

theorem act
    (h : s.Telling input config)
    (action : DmaAction) :
    (s.act input action).Telling input config :=
  h.beside (h.sound.act action)
    (h.sound.act_beside action)

theorem sample
    (h : s.Telling input config)
    (timing : ReadTiming) :
    (s.sample input timing).1.Telling input config :=
  StreamSystem.sample_invariant input
    (fun _ action hTelling => hTelling.act action) h timing

/- The take half of the task. -/
theorem take
    (h : s.Telling input config)
    (env : Env)
    (timing : ReadTiming) :
    (s.step input (.take env timing)).1.Telling input
      config := by
  have hSound := h.sound.take env timing
  have hSampled := h.sample timing
  simp only [StreamSystem.step] at hSound ⊢
  generalize s.sample input timing = sampled at *
  refine ⟨hSound, ?_, ?_⟩
  · unfold streamTasksTake
    split
    · simp only
      split <;> exact hSampled.mode
    · exact hSampled.mode
  · unfold streamTasksTake
    split
    · simp only
      split
      · exact (absurd · Bool.false_ne_true)
      · rename_i block hTaken
        exact fun _ => laStreamTake_firstSample_lt hTaken
    · exact hSampled.word

/- The send half leaves the mode and the block alone. -/
theorem send
    (h : s.Telling input config)
    (env : Env) :
    (s.step input (.send env)).1.Telling input config := by
  have hSound := h.sound.send env
  simp only [StreamSystem.step] at hSound ⊢
  refine ⟨hSound, ?_, ?_⟩
  · unfold streamTasksSend
    split
    · simp only
      split <;> exact h.mode
    · exact h.mode
  · unfold streamTasksSend
    split
    · simp only
      split
      · exact (absurd · Bool.false_ne_true)
      · exact h.word
    · exact h.word

theorem step
    (h : s.Telling input config)
    {i : StreamInput}
    (hOpen : i.KeepsOpen) :
    (s.step input i).1.Telling input config := by
  cases i with
  | dma action => exact h.act action
  | take env timing => exact h.take env timing
  | send env => exact h.send env
  | other i =>
      rcases h.session with ⟨trace, hSession⟩
      rcases Device.step_elsewhere hSession.shows hOpen with
        ⟨pull, hState⟩
      apply h.beside (h.sound.step (i := .other i) hOpen)
      simp only [StreamSystem.step, hState]
      exact Device.Beside.withPull _ _

/- An accepted start of the analysis stream tells the
   configuration it started under. -/
theorem start
    (input : Nat → UInt8)
    {d : Device}
    (hShows : d.Shows .idle)
    (hCoherent : d.Coherent)
    (env : Env)
    (id : Nat)
    {data : List UInt8}
    (hStarts : parseCommand data = .startsStream true) :
    (StreamSystem.start
        (Device.step d (.message env id data)).1).Telling
      input d.bridge.laConfig := by
  have hSound :=
    StreamSystem.start_sound hShows hCoherent env id hStarts
      input
  have hSession :=
    StreamSession.start hShows hCoherent env id hStarts
  refine ⟨hSound, hSession.shows.streamMode, ?_⟩
  intro hPending
  have hNone := hSession.shows.streamBlockPending
  exact absurd (hPending.symm.trans hNone) (by decide)

end StreamSystem.Telling

/-
  In every run of an analysis stream in which no block is
  accepted after the writer has come round to its slot, every
  frame makes any page in analysis mode show input samples at
  the positions the frame names.
-/
theorem displayed_samples_are_input
    [CaptureModule]
    (input : Nat → UInt8)
    {d : Device}
    (hReachable : d.Reachable)
    (hFree : isBusy d = false)
    (env : Env)
    (id : Nat)
    {data : List UInt8}
    (hCommand : parseCommand data = .streamAnalysisStart)
    {inputs : List StreamInput}
    (hInTime :
      Machine.Guarded (StreamSystem.talk input)
        (fun s i => i.InTime s)
        (StreamSystem.start
          (Device.step d (.message env id data)).1)
        inputs) :
    ∀ message ∈
        (Machine.run (StreamSystem.talk input)
          (StreamSystem.start
            (Device.step d (.message env id data)).1)
          inputs).2,
      ∀ page : Page, page.analysisMode = true →
        ∃ n,
          Displays input d.bridge.laConfig n page message := by
  rcases hReachable.shows with ⟨a, hShows⟩
  cases hShows.eq_idle_of_not_busy hFree
  have hKept :
      ∀ (s : StreamSystem) (i : StreamInput),
        s.Telling input d.bridge.laConfig → i.InTime s →
          (s.talk input i).1.Telling input
            d.bridge.laConfig :=
    fun s i h hStep => h.step hStep.keepsOpen
  exact
    hInTime.outputs hKept
      (fun s i h hStep message hMessage page hMode =>
        h.wires_display hReachable.frequency_lt hStep hMessage
          hMode)
      (StreamSystem.Telling.start input hShows
        hReachable.coherent env id hCommand)

end PicoLogicAnalyzer

namespace PicoLogicAnalyzer

section Sample

attribute [local instance] CaptureModule.sample

def firstWrites : List StreamInput :=
  List.replicate 256 (.dma .write)

theorem firstWrites_inTime :
    Machine.Guarded (StreamSystem.talk lateInput)
      (fun s i => i.InTime s)
      (StreamSystem.start sampleStream) firstWrites := by
  apply Machine.Guarded.of_forall
  intro i hMember s
  rw [List.eq_of_mem_replicate hMember]
  trivial

/- The states in which the first chunk is full and taken. -/
theorem firstWrites_states :
    ∃ memory d,
      (Machine.run (StreamSystem.talk lateInput)
          (StreamSystem.start sampleStream) firstWrites).1 =
        StreamSystem.inPass sampleStream memory 256 0 true ∧
      (StreamSystem.step lateInput
          (StreamSystem.inPass sampleStream memory 256 0 true)
          (.take Env.smooth ReadTiming.immediate)).1 =
        StreamSystem.inPass d memory 256 0 true ∧
      d.HoldsFirst := by
  rcases sampleStream_fill lateInput with ⟨memory, hFill⟩
  rcases sampleStream_take memory lateInput with
    ⟨d, hTake, hFirst⟩
  have hSame :
      ∀ (s : StreamSystem) (i : StreamInput),
        (s.talk lateInput i).1 = (s.step lateInput i).1 :=
    fun _ _ => rfl
  refine ⟨memory, d, ?_, congrArg Prod.fst hTake, hFirst⟩
  rw [firstWrites, Machine.run_state_congr hSame, hFill]

theorem timelyInputs_inTime :
    Machine.Guarded (StreamSystem.talk lateInput)
      (fun s i => i.InTime s)
      (StreamSystem.start sampleStream) timelyInputs := by
  rcases firstWrites_states with
    ⟨memory, d, hFilled, hTaken, _⟩
  apply firstWrites_inTime.append
  rw [hFilled]
  refine ⟨trivial, ?_, trivial⟩
  rw [StreamSystem.talk, hTaken]
  intro _ _
  have hFull : 256 ≤ captureBufferSize := by decide
  exact hFull.trans (Nat.le_add_left _ _)

theorem timelyInputs_heard :
    (Machine.run (StreamSystem.talk lateInput)
      (StreamSystem.start sampleStream) timelyInputs).2 ≠
        [] := by
  rcases firstWrites_states with
    ⟨memory, d, hFilled, hTaken, hFirst⟩
  have hStart :
      (StreamSystem.start sampleStream).Telling lateInput
        LaConfig.initial :=
    StreamSystem.Telling.start lateInput
      (Device.boot_shows CaptureHardware.blank)
      (Device.boot_coherent CaptureHardware.blank) Env.smooth
      1 sampleCommand
  have hFull :=
    firstWrites_inTime.invariant
      (fun _ _ h hStep => h.step hStep.keepsOpen) hStart
  have hHolds := hFull.take Env.smooth ReadTiming.immediate
  rw [hFilled, hTaken] at hHolds
  have hPending :
      (StreamSystem.inPass d memory 256 0
        true).device.streamBlockPending = true :=
    hFirst.pending
  have hSend :=
    hHolds.wires_send
      { Env.smooth with blockAccepted := true }
  rw [hPending] at hSend
  have hSplit :
      timelyInputs =
        firstWrites ++
          [.take Env.smooth ReadTiming.immediate,
            .send { Env.smooth with blockAccepted := true }] :=
    rfl
  rw [hSplit, Machine.run_append, hFilled, Machine.run_cons,
    Machine.run_cons]
  simp only [StreamSystem.talk, hTaken]
  rw [hSend]
  simp

/- The first chunk reaches the page. -/
theorem first_chunk_is_displayed :
    (Machine.run (StreamSystem.talk lateInput)
        (StreamSystem.start sampleStream) timelyInputs).2 ≠
      [] ∧
    ∀ message ∈
        (Machine.run (StreamSystem.talk lateInput)
          (StreamSystem.start sampleStream) timelyInputs).2,
      ∀ page : Page, page.analysisMode = true →
        ∃ n,
          Displays lateInput LaConfig.initial n page message :=
  ⟨timelyInputs_heard,
    displayed_samples_are_input lateInput
      (d := Device.boot CaptureHardware.blank)
      ⟨CaptureHardware.blank, [], rfl⟩ rfl Env.smooth 1
      sampleCommand timelyInputs_inTime⟩

end Sample

end PicoLogicAnalyzer
