import PicoLogicAnalyzer.Firmware.Coherence
import PicoLogicAnalyzer.Page.Page

/-
  Analysis frames from the firmware to the page.

  The page reads the packed header at fixed offsets. Every
  field comes back, the payload view ends with the message,
  and the displayed samples are the raw ones under the
  display mask.

  Key definitions include:
    * `AnalysisBlock.Fits`
    * `rawSample`
    * `FrameReceived`
    * `StreamHeader.Frames`

  Key theorems include:
    * `StreamHeader.read_encode`
    * `readSamples_eq`
    * `StreamHeader.Frames.onMessage`
    * `analysis_frame_received`
-/

------------------------------------------------------------
-- The Header Comes Back
------------------------------------------------------------

namespace PicoLogicAnalyzer

open Word

/- The header as a packed record. -/
def StreamHeader.fields
    (header : StreamHeader) :
    List (Nat × Nat) :=
  [(4, streamMagic), (4, header.sequence),
    (4, header.sampleCount), (4, header.sampleRate),
    (4, header.overruns), (4, header.payloadBytes),
    (8, header.firstSample), (8, header.deviceTimeUs)]

theorem StreamHeader.encode_eq
    (header : StreamHeader) :
    header.encode = Packed.encode header.fields := by
  simp [StreamHeader.encode, StreamHeader.fields,
    Packed.encode]

/- Fields within the widths of the packed header. -/
structure StreamHeader.InRange (header : StreamHeader) : Prop where
  sequence : header.sequence < 2 ^ 32
  sampleCount : header.sampleCount < 2 ^ 32
  sampleRate : header.sampleRate < 2 ^ 32
  overruns : header.overruns < 2 ^ 32
  payloadBytes : header.payloadBytes < 2 ^ 32
  firstSample : header.firstSample < 2 ^ 64

/- What the page is meant to read from a header. -/
def StreamHeader.view (header : StreamHeader) : FrameView where
  sequence := header.sequence
  sampleCount := header.sampleCount
  sampleRate := header.sampleRate
  overruns := header.overruns
  payloadBytes := header.payloadBytes
  firstSample := header.firstSample

theorem StreamHeader.magic_encode
    (header : StreamHeader)
    (data : List UInt8) :
    DataView.getUint 4 (header.encode ++ data) 0 =
      some streamMagic := by
  have hField :
      header.fields[0]? = some (4, streamMagic) := rfl
  rw [header.encode_eq]
  exact DataView.getUint_packed hField (by decide) data

/- A page in analysis mode recognises every frame. -/
theorem StreamHeader.takesFrame
    (header : StreamHeader)
    (data : List UInt8)
    {page : Page}
    (hMode : page.analysisMode = true) :
    page.takesFrame (header.encode ++ data) = true := by
  simp [Page.takesFrame, hMode, header.magic_encode]

/- The decoder inverts the encoder. -/
theorem StreamHeader.read_encode
    {header : StreamHeader}
    (hRange : header.InRange)
    (data : List UInt8) :
    FrameView.read (header.encode ++ data) =
      some header.view := by
  have hField :
      ∀ (index : Nat) {width n offset : Nat},
        header.fields[index]? = some (width, n) →
          Packed.offset header.fields index = offset →
            n < 256 ^ width →
              DataView.getUint width (header.encode ++ data)
                offset = some n := by
    rintro index width n _ hIndex rfl hWord
    rw [header.encode_eq]
    exact DataView.getUint_packed hIndex hWord data
  have hSequence :
      DataView.getUint 4 (header.encode ++ data) 4 =
        some header.sequence :=
    hField 1 rfl rfl hRange.sequence
  have hCount :
      DataView.getUint 4 (header.encode ++ data) 8 =
        some header.sampleCount :=
    hField 2 rfl rfl hRange.sampleCount
  have hRate :
      DataView.getUint 4 (header.encode ++ data) 12 =
        some header.sampleRate :=
    hField 3 rfl rfl hRange.sampleRate
  have hOverruns :
      DataView.getUint 4 (header.encode ++ data) 16 =
        some header.overruns :=
    hField 4 rfl rfl hRange.overruns
  have hBytes :
      DataView.getUint 4 (header.encode ++ data) 20 =
        some header.payloadBytes :=
    hField 5 rfl rfl hRange.payloadBytes
  have hFirst :
      DataView.getUint 8 (header.encode ++ data) 24 =
        some header.firstSample :=
    hField 6 rfl rfl hRange.firstSample
  unfold FrameView.read
  rw [hSequence, hCount, hRate, hOverruns, hBytes, hFirst]
  rfl

end PicoLogicAnalyzer

------------------------------------------------------------
-- The Samples Come Back
------------------------------------------------------------

namespace PicoLogicAnalyzer

open Word

/- Sample `index` of raw data, little-endian. -/
def rawSample
    (data : List UInt8)
    (width index : Nat) :
    Nat :=
  ofLittleEndian ((data.drop (index * width)).take width)

theorem accessBytes_mode
    (mode : ChannelMode) :
    accessBytes (laBytesPerSampleMode mode : ℚ) =
      laBytesPerSampleMode mode := by
  cases mode <;> norm_num [accessBytes, laBytesPerSampleMode]

theorem floor_sample_offset
    (index width : Nat) :
    ((index : ℚ) * (width : ℚ)).floor.toNat =
      index * width := by
  have hCast :
      (index : ℚ) * (width : ℚ) =
        ((index * width : ℕ) : ℚ) := by
    push_cast
    rfl
  rw [hCast]
  rfl

/- A sample inside the view is read as it is stored. -/
theorem readSample_eq
    {view : List UInt8}
    (mode : ChannelMode)
    (displayMask : Nat)
    {index : Nat}
    (hInside :
      (index + 1) * laBytesPerSampleMode mode ≤
        view.length) :
    readSample view (laBytesPerSampleMode mode) displayMask
        index =
      some
        (rawSample view (laBytesPerSampleMode mode) index &&&
          displayMask) := by
  rw [Nat.succ_mul] at hInside
  rw [readSample, accessBytes_mode, floor_sample_offset,
    DataView.getUint_of_le hInside, Option.map_some]
  rfl

theorem mapM_eq_some
    {α β : Type}
    {f : α → Option β}
    {g : α → β}
    {items : List α}
    (hItems : ∀ item ∈ items, f item = some (g item)) :
    items.mapM f = some (items.map g) := by
  induction items with
  | nil => rfl
  | cons item items ih =>
      rw [List.forall_mem_cons] at hItems
      simp [List.mapM_cons, hItems.1, ih hItems.2]

theorem readSamples_eq
    {view : List UInt8}
    (mode : ChannelMode)
    (displayMask : Nat)
    {displayed : Nat}
    (hInside :
      displayed * laBytesPerSampleMode mode ≤ view.length) :
    readSamples view (laBytesPerSampleMode mode) displayMask
        displayed =
      some
        ((List.range displayed).map
          (fun index =>
            rawSample view (laBytesPerSampleMode mode)
                index &&&
              displayMask)) := by
  apply mapM_eq_some
  intro index hIndex
  apply readSample_eq
  exact
    (Nat.mul_le_mul_right _
      (List.mem_range.mp hIndex)).trans hInside

end PicoLogicAnalyzer

------------------------------------------------------------
-- Frames Are Received As Sent
------------------------------------------------------------

namespace PicoLogicAnalyzer

open Word

/-
  Blocks whose fields have their types' ranges, with at
  least one sample of the given width and not too long to
  be sent.
-/
structure AnalysisBlock.Fits
    (block : AnalysisBlock)
    (width : Nat) : Prop where
  sequence : block.sequence < 2 ^ 32
  overruns : block.overruns < 2 ^ 32
  firstSample : block.firstSample < 2 ^ 64
  deviceTimeUs : block.deviceTimeUs < 2 ^ 64
  samples_pos : 1 ≤ block.samples
  bytes : block.bytes = block.samples * width
  bytes_le : block.bytes ≤ laMaxChunkBytes

/- The page makes of `message` what the header and data say. -/
structure FrameReceived
    (page : Page)
    (width : Nat)
    (header : StreamHeader)
    (data message : List UInt8) : Prop where
  recognised : page.takesFrame message = true
  decoded : FrameView.read message = some header.view
  derived : header.view.bytesPerSample = width
  width_mem : width = 1 ∨ width = 2 ∨ width = 4
  viewed :
    DataView.slice message 40 header.payloadBytes = some data
  ends : 40 + header.payloadBytes = message.length
  no_error :
    Console.rangeError ∉
      (page.onMessage (.binary message)).2
  displayed :
    ∃ samples : List Nat,
      (page.onMessage (.binary message)).1.output =
          frameText (sampleDigits header.view.bytesPerSample)
            samples ∧
        samples.length = min header.sampleCount 32 ∧
        ∀ index, index < samples.length →
          samples[index]? =
            some
              (rawSample data width index &&&
                page.displayMask)
  stats :
    (page.onMessage (.binary message)).1.stats =
      some {
        configured := header.sampleRate
        sequence := header.sequence
        overruns := header.overruns }

theorem Page.rangeError_not_mem_gapWarnings
    (page : Page)
    (frame : FrameView) :
    Console.rangeError ∉ page.gapWarnings frame := by
  unfold Page.gapWarnings
  rw [List.mem_append, not_or]
  constructor
  · cases page.lastSequence with
    | none => simp
    | some last =>
        simp only
        split <;> simp
  · cases page.expectedSample with
    | none => simp
    | some expected =>
        simp only
        split <;> simp

/- A frame that can be read through is displayed. -/
theorem Page.handleAnalysis_eq
    {page : Page}
    {frame : FrameView}
    {data payload : List UInt8}
    {samples : List Nat}
    (hRead : FrameView.read data = some frame)
    (hSlice :
      DataView.slice data 40 frame.payloadBytes =
        some payload)
    (hSamples :
      readSamples payload frame.bytesPerSample
        page.displayMask frame.displayed = some samples) :
    page.handleAnalysis data =
      ({ page.follow frame with
          output :=
            frameText (sampleDigits frame.bytesPerSample)
              samples
          stats :=
            some {
              configured := frame.sampleRate
              sequence := frame.sequence
              overruns := frame.overruns } },
        page.gapWarnings frame) := by
  have hMask :
      (page.follow frame).displayMask = page.displayMask :=
    rfl
  simp only [Page.handleAnalysis, hRead, Page.showFrame,
    hSlice, Option.bind_eq_bind, Option.bind_some, hMask,
    hSamples]
  rfl

@[simp] theorem Page.analysisMode_clearFull
    (page : Page) :
    page.clearFull.analysisMode = page.analysisMode := by
  unfold Page.clearFull
  split <;> rfl

@[simp] theorem Page.displayMask_clearFull
    (page : Page) :
    page.clearFull.displayMask = page.displayMask := by
  unfold Page.clearFull
  split <;> rfl

/- A header in range with a payload of whole samples. -/
structure StreamHeader.Frames
    (header : StreamHeader)
    (mode : ChannelMode)
    (data : List UInt8) : Prop where
  inRange : header.InRange
  samples_pos : 1 ≤ header.sampleCount
  bytes_eq :
    header.payloadBytes =
      header.sampleCount * laBytesPerSampleMode mode
  length_eq : data.length = header.payloadBytes

namespace StreamHeader.Frames

variable {header : StreamHeader} {mode : ChannelMode}
variable {data : List UInt8} {page : Page}

theorem bytesPerSample
    (h : header.Frames mode data) :
    header.view.bytesPerSample =
      (laBytesPerSampleMode mode : ℚ) := by
  have hPos : (header.sampleCount : ℚ) ≠ 0 :=
    Nat.cast_ne_zero.mpr (by have := h.samples_pos; omega)
  simp only [FrameView.bytesPerSample, StreamHeader.view,
    h.bytes_eq, Nat.cast_mul]
  exact mul_div_cancel_left₀ _ hPos

theorem slice
    (h : header.Frames mode data) :
    DataView.slice (header.encode ++ data) 40
      header.payloadBytes = some data := by
  have hPart := DataView.slice_append header.encode data []
  simpa [h.length_eq] using hPart

/- The samples the page displays of a frame. -/
def shown
    (mode : ChannelMode)
    (header : StreamHeader)
    (data : List UInt8)
    (displayMask : Nat) :
    List Nat :=
  (List.range header.view.displayed).map
    (fun index =>
      rawSample data (laBytesPerSampleMode mode) index &&&
        displayMask)

theorem readSamples
    (h : header.Frames mode data)
    (displayMask : Nat) :
    PicoLogicAnalyzer.readSamples data
        header.view.bytesPerSample displayMask
        header.view.displayed =
      some (shown mode header data displayMask) := by
  rw [h.bytesPerSample]
  apply readSamples_eq
  rw [h.length_eq, h.bytes_eq]
  exact Nat.mul_le_mul_right _ (Nat.min_le_left _ _)

/- What handling a frame amounts to. -/
theorem onMessage
    (h : header.Frames mode data)
    (hMode : page.analysisMode = true) :
    page.onMessage (.binary (header.encode ++ data)) =
      ({ page.clearFull.follow header.view with
          output :=
            frameText
              (sampleDigits header.view.bytesPerSample)
              (shown mode header data page.displayMask)
          stats :=
            some {
              configured := header.sampleRate
              sequence := header.sequence
              overruns := header.overruns } },
        page.clearFull.gapWarnings header.view) := by
  have hMessage :
      page.onMessage (.binary (header.encode ++ data)) =
        page.clearFull.handleAnalysis (header.encode ++ data) :=
    if_pos (header.takesFrame data hMode)
  rw [hMessage, ← page.displayMask_clearFull]
  exact
    Page.handleAnalysis_eq
      (StreamHeader.read_encode h.inRange data) h.slice
      (h.readSamples page.clearFull.displayMask)

theorem received
    (h : header.Frames mode data)
    (hMode : page.analysisMode = true) :
    FrameReceived page (laBytesPerSampleMode mode) header data
      (header.encode ++ data) := by
  have hMessage := h.onMessage hMode
  constructor
  · exact header.takesFrame data hMode
  · exact StreamHeader.read_encode h.inRange data
  · exact h.bytesPerSample
  · cases mode <;> simp [laBytesPerSampleMode]
  · exact h.slice
  · simp [h.length_eq]
  · rw [hMessage]
    exact Page.rangeError_not_mem_gapWarnings _ _
  · rw [hMessage]
    refine
      ⟨shown mode header data page.displayMask, rfl, ?_, ?_⟩
    · simp [shown, FrameView.displayed, StreamHeader.view]
    · intro index hIndex
      rw [shown, List.length_map, List.length_range]
        at hIndex
      simp [shown, hIndex]
  · rw [hMessage]

end StreamHeader.Frames

/- The header of a fitting block is in range. -/
theorem AnalysisBlock.Fits.inRange
    {block : AnalysisBlock}
    {d : Device}
    {width : Nat}
    (hBlock : block.Fits width)
    (hWidth : 0 < width)
    (hRate : d.bridge.laConfig.frequency < 2 ^ 32) :
    (d.headerOf block).InRange := by
  have hMax : laMaxChunkBytes < 2 ^ 32 := by decide
  have hBytes : block.bytes < 2 ^ 32 :=
    hBlock.bytes_le.trans_lt hMax
  have hSamples : block.samples ≤ block.bytes := by
    rw [hBlock.bytes]
    exact Nat.le_mul_of_pos_right _ hWidth
  exact
    { sequence := hBlock.sequence
      sampleCount := hSamples.trans_lt hBytes
      sampleRate := hRate
      overruns := hBlock.overruns
      payloadBytes := hBytes
      firstSample := hBlock.firstSample }

variable [CaptureModule]

theorem Device.Reachable.frequency_lt
    {d : Device}
    (hReachable : d.Reachable) :
    d.bridge.laConfig.frequency < 2 ^ 32 := by
  apply hReachable.laConfig_rule
    (P := fun config => config.frequency < 2 ^ 32)
  · decide
  · intro config config' hChanges
    exact hChanges.frequency_lt

/-
  Every block the firmware can send, in every reachable
  configuration and whatever the buffer holds, is received
  by a page in analysis mode as it was sent.
-/
theorem analysis_frame_received
    {d sender : Device}
    (hReachable : d.Reachable)
    (hConfig : sender.bridge.laConfig = d.bridge.laConfig)
    {block : AnalysisBlock}
    (hBlock :
      block.Fits sender.bridge.laConfig.bytesPerSample)
    (env : Env)
    (op : Operation)
    {page : Page}
    (hMode : page.analysisMode = true) :
    ∃ payload message,
      (sendAnalysisBlock env op sender block).2 =
          [.sent sender.streamConnection payload
            env.blockAccepted] ∧
        payload.wire = .binary message ∧
        FrameReceived page
          sender.bridge.laConfig.bytesPerSample
          (sender.headerOf block)
          (sender.bridge.hw.read block.data block.bytes)
          message := by
  have hWellFormed := hReachable.coherent.config
  have hRate := hReachable.frequency_lt
  rw [← hConfig] at hWellFormed hRate
  have hRange :=
    hBlock.inRange hWellFormed.width_pos hRate
  have hSent :
      (sendAnalysisBlock env op sender block).2 =
        [.sent sender.streamConnection
          (.frame op (sender.headerOf block) block.data
            (sender.bridge.hw.read block.data block.bytes))
          env.blockAccepted] := by
    rw [sendAnalysisBlock_spec hBlock.bytes_le]
  rw [hWellFormed.width_eq] at hBlock ⊢
  refine ⟨_, _, hSent, rfl, ?_⟩
  apply StreamHeader.Frames.received _ hMode
  exact
    { inRange := hRange
      samples_pos := hBlock.samples_pos
      bytes_eq := hBlock.bytes
      length_eq := CaptureHardware.length_read _ _ _ }

end PicoLogicAnalyzer

namespace PicoLogicAnalyzer

section Sample

attribute [local instance] CaptureModule.sample

/- A buffer that starts with four different bytes. -/
def CaptureHardware.fourBytes : CaptureHardware :=
  { CaptureHardware.blank with
    captureBuffer :=
      fun offset => [0x34, 0x12, 0x78, 0x56].getD offset 0 }

/-
  Two 16-bit samples of probes 1 and 9, of which the page
  shows the bits of its mask.
-/
theorem two_sample_frame_received :
    rawSample [0x34, 0x12, 0x78, 0x56] 2 0 &&& 0xff0 =
        0x230 ∧
      rawSample [0x34, 0x12, 0x78, 0x56] 2 1 &&& 0xff0 =
        0x670 ∧
      ∃ payload message,
        (sendAnalysisBlock Env.smooth .stream
            (Device.run
              (Device.boot CaptureHardware.fourBytes)
              [Input.command 1 "SET_CHANNEL_MASK 101"]).1
            { data := 0, bytes := 4, samples := 2,
              sequence := 2 ^ 32 - 1, overruns := 7,
              firstSample := 2 ^ 63, deviceTimeUs := 5,
              slot := 0 }).2 =
            [.sent 0 payload true] ∧
          payload.wire = .binary message ∧
          FrameReceived
            { Page.initial with
              analysisMode := true, displayMask := 0xff0 }
            2
            { sequence := 2 ^ 32 - 1, sampleCount := 2,
              sampleRate := 1000, overruns := 7,
              payloadBytes := 4, firstSample := 2 ^ 63,
              deviceTimeUs := 5 }
            [0x34, 0x12, 0x78, 0x56]
            message := by
  refine ⟨by decide, by decide, ?_⟩
  exact
    analysis_frame_received
      ⟨CaptureHardware.fourBytes,
        [Input.command 1 "SET_CHANNEL_MASK 101"], rfl⟩
      rfl
      { sequence := by decide
        overruns := by decide
        firstSample := by decide
        deviceTimeUs := by decide
        samples_pos := by decide
        bytes := by decide +kernel
        bytes_le := by decide }
      Env.smooth .stream rfl

end Sample

end PicoLogicAnalyzer
