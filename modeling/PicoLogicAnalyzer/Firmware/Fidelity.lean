import PicoLogicAnalyzer.Firmware.StreamSound

/-
  Fidelity of stream payloads.

  The bytes of a block are read from the ring when the block
  is sent, not when it is taken. They are the input bytes the
  block claims as long as the DMA has not come round to its
  slot by then; nothing in the firmware checks that.

  Key definitions include:
    * `StreamInput.InTime`

  Key theorems include:
    * `StreamSystem.Sound.read_eq`
    * `StreamSystem.Sound.step_faithful`
    * `stream_deliveries_faithful`
-/

------------------------------------------------------------
-- Reading The Ring
------------------------------------------------------------

namespace PicoLogicAnalyzer

namespace StreamSystem.Sound

variable {input : Nat → UInt8} {config : LaConfig}
variable {s : StreamSystem}

/- A chunk that is still in the ring is read as it came in. -/
theorem read_eq
    (h : s.Sound input config)
    {block : AnalysisBlock}
    {n : Nat}
    (hChunk : block.IsChunkOf config n)
    (hDone : (n + 1) * config.chunkBytes ≤ s.written)
    (hInTime :
      s.written ≤
        block.firstSample * config.bytesPerSample +
          captureBufferSize) :
    s.device.bridge.hw.read block.data block.bytes =
      (List.range block.bytes).map
        (fun j =>
          input
            (block.firstSample * config.bytesPerSample + j)) := by
  have hConfig := h.wellFormed
  have hStart :
      block.firstSample * config.bytesPerSample =
        n * config.chunkBytes := by
    rw [hChunk.firstSample, Nat.mul_assoc,
      hConfig.chunkSamples_mul]
  have hData :
      block.data = n * config.chunkBytes % captureBufferSize := by
    rw [hChunk.data, Ring.slot_mul hConfig.chunk_dvd]
  have hFits :=
    Ring.slot_fits (by decide : 0 < captureBufferSize)
      hConfig.chunk_dvd n
  rw [hStart] at hInTime ⊢
  rw [hData, hChunk.bytes]
  unfold CaptureHardware.read
  apply List.map_congr_left
  intro j hMember
  apply h.holds.read hFits _ hInTime (List.mem_range.mp hMember)
  rwa [Nat.add_mul, Nat.one_mul] at hDone

end StreamSystem.Sound

/- What is delivered when the block in hand is accepted. -/
theorem Event.delivery_streamPayload (d : Device) :
    (Event.sent d.streamConnection d.streamPayload
        true).delivery d =
      some
        { block := d.pendingAnalysisBlock
          width := d.bridge.laConfig.bytesPerSample
          data :=
            d.bridge.hw.read d.pendingAnalysisBlock.data
              d.pendingAnalysisBlock.bytes } := by
  unfold Device.streamPayload
  by_cases hMode : d.streamMode = .analysis
  · simp only [hMode, if_true]
    rfl
  · simp only [hMode, if_false]
    rfl

theorem Event.delivery_refused
    (d : Device)
    (dest : Nat)
    (payload : Payload) :
    (Event.sent dest payload false).delivery d = none := by
  cases payload with
  | frame op header offset data => cases op <;> rfl
  | raw op width offset data => cases op <;> rfl
  | _ => rfl

end PicoLogicAnalyzer

------------------------------------------------------------
-- Sending In Time
------------------------------------------------------------

namespace PicoLogicAnalyzer

/-
  The writer has not come round to the slot of the block that
  is accepted; all other inputs leave the session open.
-/
def StreamInput.InTime
    (s : StreamSystem) :
    StreamInput → Prop
| .send env =>
    env.blockAccepted = true →
      s.device.streamBlockPending = true →
        s.written ≤
          s.device.pendingAnalysisBlock.firstSample *
              s.device.bridge.laConfig.bytesPerSample +
            captureBufferSize
| i => i.KeepsOpen

theorem StreamInput.InTime.keepsOpen
    {s : StreamSystem}
    {i : StreamInput}
    (h : i.InTime s) :
    i.KeepsOpen := by
  cases i with
  | send env => trivial
  | _ => exact h

/- Only an accepted send delivers anything. -/
theorem StreamSystem.Sound.step_faithful
    [CaptureModule]
    {input : Nat → UInt8}
    {config : LaConfig}
    {s : StreamSystem}
    (h : s.Sound input config)
    {i : StreamInput}
    (hInTime : i.InTime s) :
    ∀ delivery ∈ (s.step input i).2,
      delivery.Faithful input := by
  cases i with
  | dma action => simp [StreamSystem.step]
  | take env timing => simp [StreamSystem.step]
  | other i => simp [StreamSystem.step]
  | send env =>
      intro delivery hMember
      simp only [StreamSystem.step] at hMember
      rcases h.session with ⟨analysis, pending, trace, hOpen⟩
      cases pending with
      | false =>
          rw [streamTasksSend_of_not_pending env
            hOpen.shows.streamBlockPending] at hMember
          simp at hMember
      | true =>
          have hPending : s.device.streamBlockPending = true :=
            hOpen.shows.streamBlockPending
          have hSmall :=
            hOpen.coherent.pending_le (Or.inr hPending)
          rw [streamTasksSend_spec hPending hSmall env]
            at hMember
          cases hAccepted : env.blockAccepted with
          | false =>
              simp [hAccepted, Event.delivery_refused]
                at hMember
          | true =>
              simp only [hAccepted, List.filterMap_cons,
                Event.delivery_streamPayload,
                List.filterMap_nil, List.mem_singleton]
                at hMember
              subst hMember
              rcases h.pending hPending with
                ⟨n, hChunk, hDone⟩
              have hTime := hInTime hAccepted hPending
              unfold Delivery.Faithful
              rw [h.config_eq] at hTime ⊢
              exact h.read_eq hChunk hDone hTime

/-
  In every run of a session in which no block is accepted
  after the writer has come round to its slot, every block
  delivered carries the input bytes it claims.
-/
theorem stream_deliveries_faithful
    [CaptureModule]
    (input : Nat → UInt8)
    {d : Device}
    (hReachable : d.Reachable)
    (hFree : isBusy d = false)
    {analysis : Bool}
    (env : Env)
    (id : Nat)
    {data : List UInt8}
    (hCommand :
      parseCommand data = Command.startsStream analysis)
    {inputs : List StreamInput}
    (hInTime :
      Machine.Guarded (StreamSystem.step input)
        (fun s i => i.InTime s)
        (StreamSystem.start
          (Device.step d (.message env id data)).1)
        inputs) :
    ∀ delivery ∈
        (Machine.run (StreamSystem.step input)
          (StreamSystem.start
            (Device.step d (.message env id data)).1)
          inputs).2,
      delivery.Faithful input := by
  rcases hReachable.shows with ⟨a, hShows⟩
  cases hShows.eq_idle_of_not_busy hFree
  exact
    Machine.Guarded.outputs
      (P := StreamSystem.Sound input d.bridge.laConfig)
      (fun s i h hStep => h.step hStep.keepsOpen)
      (fun s i h hStep => h.step_faithful hStep)
      (StreamSystem.start_sound hShows hReachable.coherent env
        id hCommand input)
      hInTime

end PicoLogicAnalyzer

------------------------------------------------------------
-- Writing Without Pause
------------------------------------------------------------

namespace PicoLogicAnalyzer

namespace StreamSystem

/- A stream seen between two DMA actions. -/
def inPass
    (d : Device)
    (memory : Nat → UInt8)
    (written serviced : Nat)
    (active : Bool) :
    StreamSystem where
  device := d.withBuffer memory
  written := written
  serviced := serviced
  active := active

theorem start_eq_inPass (d : Device) :
    start d = inPass d d.bridge.hw.captureBuffer 0 0 true :=
  rfl

variable [CaptureModule]
variable {d : Device} {written next : Nat}

/- One write; the new counter is given by its value. -/
theorem inPass_write
    (hRunning : d.bridge.laStreamRunning = true)
    (input memory : Nat → UInt8)
    (serviced : Nat)
    {active : Bool}
    (hCount : written + 1 = next)
    (hNext : (next % captureBufferSize != 0) = active) :
    step input (inPass d memory written serviced true)
        (.dma .write) =
      (inPass d
          (Ring.write captureBufferSize memory written
            (input written))
          next serviced active, []) := by
  have hWrite :=
    dmaWrite_of_running (d := d.withBuffer memory) hRunning
      written (input written)
  subst hCount
  subst hNext
  simp only [step, act, inPass, if_true, hWrite]
  rfl

/- Writes that stay inside one pass. -/
theorem inPass_writes
    (hRunning : d.bridge.laStreamRunning = true)
    (input memory : Nat → UInt8)
    (serviced : Nat)
    {count : Nat}
    (hCount : written + count = next)
    (hRoom :
      written % captureBufferSize + count <
        captureBufferSize) :
    ∃ memory',
      Machine.run (step input)
          (inPass d memory written serviced true)
          (List.replicate count (.dma .write)) =
        (inPass d memory' next serviced true, []) := by
  induction count generalizing memory written with
  | zero =>
      rw [Nat.add_zero] at hCount
      subst hCount
      exact ⟨memory, rfl⟩
  | succ count ih =>
      have hInside :
          ((written + 1) % captureBufferSize != 0) = true := by
        rw [bne_iff_ne]
        unfold captureBufferSize at hRoom ⊢
        omega
      have hRoom' :
          (written + 1) % captureBufferSize + count <
            captureBufferSize := by
        unfold captureBufferSize at hRoom ⊢
        omega
      rcases ih
        (Ring.write captureBufferSize memory written
          (input written))
        (by omega) hRoom' with
        ⟨memory', hRest⟩
      refine ⟨memory', ?_⟩
      rw [List.replicate_succ, Machine.run_cons,
        inPass_write hRunning input memory serviced rfl
          hInside, hRest]
      rfl

end StreamSystem

end PicoLogicAnalyzer

------------------------------------------------------------
-- A Block Sent Too Late
------------------------------------------------------------

namespace PicoLogicAnalyzer

/- The device holds the block of chunk 0. -/
structure Device.HoldsFirst (d : Device) : Prop where
  running : d.bridge.laStreamRunning = true
  pending : d.streamBlockPending = true
  width : d.bridge.laConfig.bytesPerSample = 1
  data : d.pendingAnalysisBlock.data = 0
  bytes : d.pendingAnalysisBlock.bytes = 256
  firstSample : d.pendingAnalysisBlock.firstSample = 0

/- The registers after 256 bytes of the first pass. -/
def DmaReads.firstChunk : DmaReads where
  passes := 0
  busy0 := true
  count0 := captureBufferSize - 256
  busy1 := false
  count1 := 0

theorem StreamSystem.sample_firstChunk
    {start : Device}
    (hPasses : start.bridge.laStreamCompletedPasses = 0)
    (hMode : start.bridge.hw.dmaMode = .mode8Channel)
    (memory input : Nat → UInt8) :
    StreamSystem.sample input ReadTiming.immediate
        (StreamSystem.inPass start memory 256 0 true) =
      (StreamSystem.inPass start memory 256 0 true,
        DmaReads.firstChunk) := by
  simp [StreamSystem.inPass, StreamSystem.sample,
    StreamSystem.acts, StreamSystem.busy,
    StreamSystem.transferCount, StreamSystem.passes,
    ReadTiming.immediate, Device.withBuffer, hPasses, hMode,
    laBytesPerSampleMode, captureBufferSize,
    DmaReads.firstChunk]

theorem laStreamProducedBytes_firstChunk
    {b : Bridge}
    (hConfig : b.laConfig = LaConfig.initial)
    (hLast : b.laStreamLastProducedBytes = 0) :
    (laStreamProducedBytes DmaReads.firstChunk b).2 = 256 := by
  simp [laStreamProducedBytes, DmaReads.remaining,
    producedFrom, hConfig, hLast, LaConfig.initial,
    captureBufferSize, Word.u32, Word.u64, Word.sub32,
    DmaReads.firstChunk]

/- A new stream takes chunk 0 once it is complete. -/
theorem StreamSession.takes_first
    [CaptureModule]
    {analysis : Bool}
    {trace : List Event}
    {start : Device}
    (hSession :
      StreamSession LaConfig.initial analysis false trace
        start)
    (hPasses : start.bridge.laStreamCompletedPasses = 0)
    (hMode : start.bridge.hw.dmaMode = .mode8Channel)
    (hNext : start.bridge.laStreamNextChunk = 0)
    (hLast : start.bridge.laStreamLastProducedBytes = 0)
    (memory input : Nat → UInt8) :
    ∃ d,
      StreamSystem.step input
          (StreamSystem.inPass start memory 256 0 true)
          (.take Env.smooth ReadTiming.immediate) =
        (StreamSystem.inPass d memory 256 0 true, []) ∧
      d.HoldsFirst := by
  have hReads :=
    StreamSystem.sample_firstChunk hPasses hMode memory input
  have hProduced :
      (laStreamProducedBytes DmaReads.firstChunk
        (start.withBuffer memory).bridge).2 = 256 :=
    laStreamProducedBytes_firstChunk hSession.config_eq hLast
  have hChunk :
      (start.withBuffer memory).bridge.laConfig =
        LaConfig.initial :=
    hSession.config_eq
  rcases streamTasksTake_spec
    (d := start.withBuffer memory)
    (hSession.shows.congr rfl rfl) hSession.coherent.config
    hSession.bound hSession.overruns_lt
    { Env.smooth with reads := DmaReads.firstChunk } with
    ⟨produced, _, hCount, hEarly, _, _⟩ |
      ⟨n, produced, overruns, block, b', hResult, _, hCount,
        hTaken⟩
  · -- A whole chunk is there.
    exfalso
    rw [hProduced] at hCount
    subst hCount
    have hZero :
        (start.withBuffer
          memory).bridge.laStreamNextChunk = 0 :=
      hNext
    rw [hChunk, hZero] at hEarly
    simp [LaConfig.initial] at hEarly
  · rw [hProduced] at hCount
    subst hCount
    have hComplete := hTaken.complete
    have hBridge := hTaken.bridge
    have hData := hTaken.data
    have hBytes := hTaken.bytes
    have hFirst := hTaken.firstSample
    rw [hChunk] at hComplete hData hBytes hFirst
    have hIndex : n = 0 := by
      simp only [LaConfig.initial] at hComplete
      omega
    subst hIndex
    refine
      ⟨{ start.withBuffer memory with
          bridge := b'
          streamBlockPending := true
          pendingAnalysisBlock := block }, ?_, ?_⟩
    · simp only [StreamSystem.step, hReads]
      rw [show (StreamSystem.inPass start memory 256 0
        true).device = start.withBuffer memory from rfl,
        hResult]
      subst hBridge
      rfl
    · subst hBridge
      refine
        ⟨hSession.shows.laStreamRunning, rfl, ?_, ?_, hBytes,
          ?_⟩
      · exact congrArg LaConfig.bytesPerSample hChunk
      · rw [hData, Nat.zero_mod, Nat.zero_mul]
      · rw [hFirst, Nat.zero_mul]

end PicoLogicAnalyzer

namespace PicoLogicAnalyzer

section Sample

attribute [local instance] CaptureModule.sample

/- An analysis stream that has just been started. -/
def sampleStream : Device :=
  (Device.step (Device.boot CaptureHardware.blank)
    (Input.command 1 "STREAM_ANALYSIS_START")).1

theorem sampleCommand :
    parseCommand (Text.ascii "STREAM_ANALYSIS_START") =
      Command.startsStream true := by
  decide +kernel

theorem sampleStream_session :
    StreamSession LaConfig.initial true false
      (Device.step (Device.boot CaptureHardware.blank)
        (Input.command 1 "STREAM_ANALYSIS_START")).2
      sampleStream :=
  StreamSession.start (Device.boot_shows _)
    (Device.boot_coherent _) Env.smooth 1 sampleCommand

theorem sampleStream_fields :
    sampleStream.bridge.laStreamCompletedPasses = 0 ∧
      sampleStream.bridge.hw.dmaMode = .mode8Channel ∧
      sampleStream.bridge.laStreamNextChunk = 0 ∧
      sampleStream.bridge.laStreamLastProducedBytes = 0 := by
  rcases StreamSession.start_result
    (Device.boot_shows CaptureHardware.blank) Env.smooth 1
    sampleCommand with
    ⟨mode, record, text, hResult⟩
  have hStream := congrArg Prod.fst hResult
  change sampleStream = _ at hStream
  rw [hStream]
  exact ⟨rfl, rfl, rfl, rfl⟩

/- The first chunk comes in. -/
theorem sampleStream_fill (input : Nat → UInt8) :
    ∃ memory,
      Machine.run (StreamSystem.step input)
          (StreamSystem.start sampleStream)
          (List.replicate 256 (.dma .write)) =
        (StreamSystem.inPass sampleStream memory 256 0 true,
          []) := by
  rw [StreamSystem.start_eq_inPass]
  exact
    StreamSystem.inPass_writes
      sampleStream_session.shows.laStreamRunning input
      sampleStream.bridge.hw.captureBuffer 0 (by decide)
      (by norm_num [captureBufferSize])

/- The first chunk is taken. -/
theorem sampleStream_take
    (memory input : Nat → UInt8) :
    ∃ d,
      StreamSystem.step input
          (StreamSystem.inPass sampleStream memory 256 0 true)
          (.take Env.smooth ReadTiming.immediate) =
        (StreamSystem.inPass d memory 256 0 true, []) ∧
      d.HoldsFirst := by
  rcases sampleStream_fields with
    ⟨hPasses, hMode, hNext, hLast⟩
  exact
    sampleStream_session.takes_first hPasses hMode hNext hLast
      memory input

theorem Device.HoldsFirst.bytes_le
    {d : Device}
    (h : d.HoldsFirst) :
    d.pendingAnalysisBlock.bytes ≤ laMaxChunkBytes := by
  rw [h.bytes]
  decide

/- A refused send delivers nothing and changes nothing. -/
theorem Device.HoldsFirst.refused
    {d : Device}
    (h : d.HoldsFirst)
    (memory input : Nat → UInt8)
    (written : Nat) :
    StreamSystem.step input
        (StreamSystem.inPass d memory written 0 true)
        (.send { Env.smooth with blockAccepted := false }) =
      (StreamSystem.inPass d memory written 0 true, []) := by
  have hSend :=
    streamTasksSend_spec (d := d.withBuffer memory) h.pending
      h.bytes_le { Env.smooth with blockAccepted := false }
  simp only [StreamSystem.step, StreamSystem.inPass, hSend,
    List.filterMap_cons, Event.delivery_refused,
    List.filterMap_nil, Bool.false_eq_true, if_false]

/- An accepted send delivers chunk 0. -/
theorem Device.HoldsFirst.accepted
    {d : Device}
    (h : d.HoldsFirst)
    (memory input : Nat → UInt8)
    (written : Nat) :
    (StreamSystem.step input
        (StreamSystem.inPass d memory written 0 true)
        (.send { Env.smooth with blockAccepted := true })).2 =
      [{ block := d.pendingAnalysisBlock
         width := 1
         data :=
          (d.withBuffer memory).bridge.hw.read 0 256 }] := by
  have hSend :=
    streamTasksSend_spec (d := d.withBuffer memory) h.pending
      h.bytes_le { Env.smooth with blockAccepted := true }
  simp only [StreamSystem.step, StreamSystem.inPass, hSend,
    List.filterMap_cons, Event.delivery_streamPayload,
    List.filterMap_nil]
  simp only [Device.withBuffer, h.data, h.bytes, h.width]

/- The first pass stores ones, later passes store twos. -/
def lateInput (position : Nat) : UInt8 :=
  if position < captureBufferSize then 1 else 2

/- Chunk 0 is taken and sent at once. -/
def timelyInputs : List StreamInput :=
  List.replicate 256 (StreamInput.dma .write) ++
    [StreamInput.take Env.smooth ReadTiming.immediate,
      .send { Env.smooth with blockAccepted := true }]

theorem timely_block_is_faithful :
    (∀ delivery ∈
        (Machine.run (StreamSystem.step lateInput)
          (StreamSystem.start sampleStream) timelyInputs).2,
      delivery.Faithful lateInput) ∧
      (Machine.run (StreamSystem.step lateInput)
        (StreamSystem.start sampleStream)
        timelyInputs).2.length = 1 := by
  rcases sampleStream_fill lateInput with ⟨memory, hFill⟩
  rcases sampleStream_take memory lateInput with
    ⟨d, hTake, hFirst⟩
  have hWrites :
      Machine.Guarded (StreamSystem.step lateInput)
        (fun s i => i.InTime s)
        (StreamSystem.start sampleStream)
        (List.replicate 256 (.dma .write)) := by
    apply Machine.Guarded.of_forall
    intro i hMember s
    rw [List.eq_of_mem_replicate hMember]
    trivial
  have hRoom :
      ∀ system firstSample,
        system = StreamSystem.inPass d memory 256 0 true →
          system.written ≤ firstSample + captureBufferSize := by
    rintro system firstSample rfl
    exact
      (by decide : 256 ≤ captureBufferSize).trans
        (Nat.le_add_left _ _)
  have hSend :
      StreamInput.InTime (StreamSystem.inPass d memory 256 0 true)
        (.send { Env.smooth with blockAccepted := true }) := by
    intro _ _
    exact hRoom _ _ rfl
  have hGuarded :
      Machine.Guarded (StreamSystem.step lateInput)
        (fun s i => i.InTime s)
        (StreamSystem.start sampleStream) timelyInputs := by
    apply hWrites.append
    rw [hFill]
    refine ⟨trivial, ?_, trivial⟩
    rw [hTake]
    exact hSend
  constructor
  · exact
      stream_deliveries_faithful lateInput
        (d := Device.boot CaptureHardware.blank)
        ⟨CaptureHardware.blank, [], rfl⟩ rfl Env.smooth 1
        sampleCommand hGuarded
  · rw [timelyInputs, Machine.run_append, hFill,
      Machine.run_cons, hTake, Machine.run_cons,
      hFirst.accepted, Machine.run_nil]
    rfl

/-
  Chunk 0 is taken, its send is refused, and the rest of the
  pass and one more byte are written before the next try.
-/
def lateInputs : List StreamInput :=
  List.replicate 256 (StreamInput.dma .write) ++
    ([StreamInput.take Env.smooth ReadTiming.immediate,
      .send { Env.smooth with blockAccepted := false }] ++
    ((List.replicate 130815 (StreamInput.dma .write) ++
      [.dma .write, .dma .handOver, .dma .write]) ++
    [StreamInput.send
      { Env.smooth with blockAccepted := true }]))

/- The rest of the pass and the first byte of the next one. -/
theorem inPass_lap
    {d : Device}
    (hRunning : d.bridge.laStreamRunning = true)
    (memory : Nat → UInt8) :
    ∃ memory',
      Machine.run (StreamSystem.step lateInput)
          (StreamSystem.inPass d memory 256 0 true)
          (List.replicate 130815 (StreamInput.dma .write) ++
            [.dma .write, .dma .handOver, .dma .write]) =
        (StreamSystem.inPass d memory' 131073 0 true, []) ∧
      memory' 0 = 2 := by
  obtain ⟨memory2, hRest⟩ :
      ∃ memory2,
        Machine.run (StreamSystem.step lateInput)
            (StreamSystem.inPass d memory 256 0 true)
            (List.replicate 130815 (.dma .write)) =
          (StreamSystem.inPass d memory2 131071 0 true, []) :=
    StreamSystem.inPass_writes hRunning lateInput memory 0
      (by norm_num) (by norm_num [captureBufferSize])
  have hHandOver :
      ∀ memory,
        StreamSystem.step lateInput
            (StreamSystem.inPass d memory 131072 0 false)
            (.dma .handOver) =
          (StreamSystem.inPass d memory 131072 0 true, []) :=
    fun _ => rfl
  have hLast :=
    StreamSystem.inPass_write hRunning lateInput memory2 0
      (by norm_num : 131071 + 1 = 131072)
      (by norm_num [captureBufferSize] : _ = false)
  have hNext :=
    StreamSystem.inPass_write hRunning lateInput
      (Ring.write captureBufferSize memory2 131071
        (lateInput 131071)) 0
      (by norm_num : 131072 + 1 = 131073)
      (by norm_num [captureBufferSize] : _ = true)
  refine
    ⟨Ring.write captureBufferSize
      (Ring.write captureBufferSize memory2 131071
        (lateInput 131071)) 131072 (lateInput 131072), ?_, ?_⟩
  · rw [Machine.run_append, hRest, Machine.run_cons, hLast,
      Machine.run_cons, hHandOver, Machine.run_cons, hNext,
      Machine.run_nil]
    rfl
  · simp [Ring.write, lateInput, captureBufferSize]

/-
  The block is accepted although the writer has come round to
  its slot: its first byte belongs to the next pass.
-/
theorem late_block_is_torn :
    ∃ delivery ∈
        (Machine.run (StreamSystem.step lateInput)
          (StreamSystem.start sampleStream) lateInputs).2,
      ¬ delivery.Faithful lateInput := by
  rcases sampleStream_fill lateInput with ⟨memory1, hFill⟩
  rcases sampleStream_take memory1 lateInput with
    ⟨d, hTake, hFirst⟩
  rcases inPass_lap hFirst.running memory1 with
    ⟨memory2, hLap, hTorn⟩
  refine
    ⟨{ block := d.pendingAnalysisBlock
       width := 1
       data := (d.withBuffer memory2).bridge.hw.read 0 256 },
      ?_, ?_⟩
  · rw [lateInputs, Machine.run_append, hFill,
      Machine.run_append, Machine.run_cons, hTake,
      Machine.run_cons, hFirst.refused, Machine.run_nil,
      Machine.run_append, hLap, Machine.run_cons,
      hFirst.accepted]
    exact List.mem_singleton_self _
  · intro hFaithful
    have hByte :=
      congrArg (fun bytes => bytes[0]?) hFaithful
    simp only [hFirst.bytes, hFirst.firstSample] at hByte
    rw [CaptureHardware.getElem?_read _ (by decide)] at hByte
    simp [Device.withBuffer, hTorn, lateInput,
      captureBufferSize] at hByte

end Sample

end PicoLogicAnalyzer
