import PicoLogicAnalyzer.Bridge.Config

/-
  State of `logic_analyzer_bridge.c` and its finite captures.

  `CaptureHardware` is what the bridge reads and sets of the
  capture submodule and of the hardware behind it. The
  results of `StartCaptureSimple` are arguments of the
  functions that call it.

  Key definitions include:
    * `CaptureHardware`
    * `Bridge`
    * `SetUp`
    * `laIsBusy`
    * `laSingleCaptureStart`
    * `laGetRawCapture`
    * `laRawHighCount`
    * `laSingleCaptureGetResult`
    * `laStartChunk`
    * `laCaptureChainStart`
    * `laCaptureChainTake`
    * `laCaptureChainRelease`
    * `laCaptureChainStop`
-/

------------------------------------------------------------
-- State
------------------------------------------------------------

namespace PicoLogicAnalyzer

open Word

/- Pull resistors of a GPIO pad. -/
inductive Pull where
  | disabled
  | up
  | down
deriving DecidableEq, Repr

/-
  The capture submodule and its hardware. `capturing` is
  what `IsCapturing` reports, the `last` fields describe the
  latest finite capture, and `dmaMode` is the transfer width
  the ping-pong channels were last configured with. The
  trigger channel is mapped to the trigger GPIO, so one
  field holds the pulls both source files set.
-/
structure CaptureHardware where
  capturing : Bool
  lastPreSize : Nat
  lastPostSize : Nat
  lastLoopCount : Nat
  lastCaptureMode : ChannelMode
  lastTail : Nat
  lastStartPosition : Nat
  captureBuffer : Nat → UInt8
  dmaMode : ChannelMode
  triggerPull : Pull

/- `la_analysis_block_t`; `data` is an offset into the buffer. -/
structure AnalysisBlock where
  data : Nat
  bytes : Nat
  samples : Nat
  sequence : Nat
  overruns : Nat
  firstSample : Nat
  deviceTimeUs : Nat
  slot : Nat
deriving DecidableEq, Repr

/- File-level variables of the bridge. -/
structure Bridge where
  hw : CaptureHardware
  laConfig : LaConfig
  laRunning : Bool
  laCaptureActive : Bool
  laBlockOutstanding : Bool
  laStreamRunning : Bool
  laSingleCaptureActive : Bool
  laSequence : Nat
  laNextSample : Nat
  laStreamBlockOutstanding : Bool
  laStreamCompletedPasses : Nat
  laStreamNextChunk : Nat
  laStreamLastProducedBytes : Nat
  laStreamOverruns : Nat

/- Initial values, around hardware without a running capture. -/
def Bridge.initial (hw : CaptureHardware) : Bridge where
  hw := { hw with capturing := false }
  laConfig := LaConfig.initial
  laRunning := false
  laCaptureActive := false
  laBlockOutstanding := false
  laStreamRunning := false
  laSingleCaptureActive := false
  laSequence := 0
  laNextSample := 0
  laStreamBlockOutstanding := false
  laStreamCompletedPasses := 0
  laStreamNextChunk := 0
  laStreamLastProducedBytes := 0
  laStreamOverruns := 0

/- Bytes `sendMessage` reads at an offset of the buffer. -/
def CaptureHardware.read
    (hw : CaptureHardware)
    (offset length : Nat) :
    List UInt8 :=
  (List.range length).map
    (fun index => hw.captureBuffer (offset + index))

@[simp] theorem CaptureHardware.length_read
    (hw : CaptureHardware)
    (offset length : Nat) :
    (hw.read offset length).length = length := by
  simp [CaptureHardware.read]

theorem CaptureHardware.getElem?_read
    (hw : CaptureHardware)
    {offset length index : Nat}
    (hIndex : index < length) :
    (hw.read offset length)[index]? =
      some (hw.captureBuffer (offset + index)) := by
  simp [CaptureHardware.read, hIndex]

end PicoLogicAnalyzer

------------------------------------------------------------
-- Hardware Set-Ups
------------------------------------------------------------

namespace PicoLogicAnalyzer

/- The places that set up PIO and DMA. -/
inductive SetUpKind where
  | singleCapture
  | chunk
  | stream
deriving DecidableEq, Repr

/-
  Record of one set-up of the capture hardware: where it was
  made, whether it started, and what was in force at that
  moment.
-/
structure SetUp where
  kind : SetUpKind
  started : Bool
  config : LaConfig
  capturing : Bool
  laRunning : Bool
  laCaptureActive : Bool
  laBlockOutstanding : Bool
  laStreamRunning : Bool
  laSingleCaptureActive : Bool
deriving DecidableEq, Repr

def Bridge.setUp
    (b : Bridge)
    (kind : SetUpKind)
    (started : Bool) :
    SetUp where
  kind := kind
  started := started
  config := b.laConfig
  capturing := b.hw.capturing
  laRunning := b.laRunning
  laCaptureActive := b.laCaptureActive
  laBlockOutstanding := b.laBlockOutstanding
  laStreamRunning := b.laStreamRunning
  laSingleCaptureActive := b.laSingleCaptureActive

/- Result of a function that may set up the hardware. -/
structure Started where
  bridge : Bridge
  started : Bool
  setUps : List SetUp

/-
  `StartCaptureSimple`: a successful call records its
  lengths, loop count and mode and leaves a capture running;
  a refused call starts nothing.
-/
def startCaptureSimple
    (started : Bool)
    (preSamples postSamples loopCount : Nat)
    (mode : ChannelMode)
    (hw : CaptureHardware) :
    CaptureHardware :=
  if started then
    { hw with
      capturing := true
      lastPreSize := preSamples
      lastPostSize := postSamples
      lastLoopCount := loopCount
      lastCaptureMode := mode }
  else
    hw

/- `StopCapture` -/
def stopCapture (hw : CaptureHardware) : CaptureHardware :=
  { hw with capturing := false }

def gpioPullUp (b : Bridge) : Bridge :=
  { b with hw.triggerPull := .up }

def gpioPullDown (b : Bridge) : Bridge :=
  { b with hw.triggerPull := .down }

def gpioDisablePulls (b : Bridge) : Bridge :=
  { b with hw.triggerPull := .disabled }

end PicoLogicAnalyzer

------------------------------------------------------------
-- Configuration Commands
------------------------------------------------------------

namespace PicoLogicAnalyzer

def laIsBusy (b : Bridge) : Bool :=
  b.laRunning || b.laStreamRunning || b.laSingleCaptureActive

/- `none` is the null pointer, which only reads the value. -/
def laConfigureFrequency
    [CaptureModule]
    (freq : Option Nat)
    (b : Bridge) :
    Bridge × Nat :=
  let b :=
    match freq with
    | none => b
    | some freq =>
        if !laIsBusy b && acceptsFrequency freq then
          { b with laConfig.frequency := freq }
        else
          b
  (b, b.laConfig.frequency)

def laConfigureChunkBytes
    (chunkBytes : Option Nat)
    (b : Bridge) :
    Bridge × Nat :=
  let b :=
    match chunkBytes with
    | none => b
    | some chunkBytes =>
        if !laIsBusy b && acceptsChunkBytes chunkBytes then
          { b with laConfig.chunkBytes := chunkBytes }
        else
          b
  (b, b.laConfig.chunkBytes)

def laConfigureChannelMask
    (channelMask : Option Nat)
    (b : Bridge) :
    Bridge × Nat :=
  let b :=
    match channelMask with
    | none => b
    | some channelMask =>
        if !laIsBusy b && acceptsChannelMask channelMask then
          { b with
            laConfig :=
              laUpdateChannelConfig
                { b.laConfig with
                  channelMask := channelMask } }
        else
          b
  (b, b.laConfig.channelMask)

end PicoLogicAnalyzer

------------------------------------------------------------
-- Single Captures
------------------------------------------------------------

namespace PicoLogicAnalyzer

open Word

def laSingleCaptureIsRunning (b : Bridge) : Bool :=
  b.laSingleCaptureActive && b.hw.capturing

def laSingleCaptureStart
    (started : Bool)
    (preSamples postSamples : Nat)
    (b : Bridge) :
    Started :=
  if laIsBusy b then
    { bridge := b, started := false, setUps := [] }
  else
    { bridge :=
        { b with
          hw :=
            startCaptureSimple started preSamples postSamples
              0 b.laConfig.mode b.hw
          laSingleCaptureActive := started }
      started := started
      setUps := [b.setUp .singleCapture started] }

/- Outputs of `la_get_raw_capture`. -/
structure RawCapture where
  samples : Nat
  first : Nat
  mode : ChannelMode
deriving DecidableEq, Repr

/-
  Length and ring position of the latest finite capture, in
  the 32-bit arithmetic of the source.
-/
def laGetRawCapture (hw : CaptureHardware) : RawCapture :=
  let samples :=
    u32 (hw.lastPreSize +
      hw.lastPostSize * (hw.lastLoopCount + 1))
  let width := laBytesPerSampleMode hw.lastCaptureMode
  let capacity := captureBufferSize / width
  { samples := samples
    first :=
      if hw.lastTail < sub32 samples 1 then
        u32 (sub32 capacity samples + hw.lastTail + 1)
      else
        u32 (sub32 hw.lastTail samples + 1)
    mode := hw.lastCaptureMode }

/-
  State of the loop of `la_raw_high_count`; `visited`
  records the ring positions it has read.
-/
structure HighScan where
  count : Nat
  visited : List Nat
deriving DecidableEq, Repr

/- The buffer read as an array of `width` byte words. -/
def CaptureHardware.word
    (hw : CaptureHardware)
    (width position : Nat) :
    Nat :=
  if width = 1 then
    (hw.captureBuffer position).toNat
  else if width = 2 then
    ofLittleEndian (hw.read (position * 2) 2)
  else
    ofLittleEndian (hw.read (position * 4) 4)

/- One iteration of `la_raw_high_count`. -/
def HighScan.visit
    (hw : CaptureHardware)
    (width maxSamples first mask : Nat)
    (scan : HighScan)
    (i : Nat) :
    HighScan :=
  let position := u32 (first + i) % maxSamples
  let value := hw.word width position
  { count :=
      if value &&& mask ≠ 0 then u32 (scan.count + 1)
      else scan.count
    visited := scan.visited ++ [position] }

/-
  `la_raw_high_count` with its record of positions. The
  capture submodule keeps the captured pins; `pin` is the
  first of them.
-/
def laRawHighScan
    (pin : InputPin)
    (hw : CaptureHardware) :
    HighScan :=
  let total :=
    u32 (hw.lastPreSize +
      hw.lastPostSize * (hw.lastLoopCount + 1))
  let width := laBytesPerSampleMode hw.lastCaptureMode
  let maxSamples := captureBufferSize / width
  let first :=
    if hw.lastTail < sub32 total 1 then
      u32 (sub32 maxSamples total + hw.lastTail + 1)
    else
      u32 (sub32 hw.lastTail total + 1)
  let mask := u32 (1 <<< (pin.gpio - inputPinBase))
  (List.range total).foldl
    (HighScan.visit hw width maxSamples first mask)
    { count := 0, visited := [] }

def laRawHighCount
    (pin : InputPin)
    (hw : CaptureHardware) :
    Nat :=
  (laRawHighScan pin hw).count

/- `la_capture_result_t` without the timestamps. -/
structure CaptureResult where
  samples : Nat
  firstSample : Nat
  bytesPerSample : Nat
deriving DecidableEq, Repr

def laSingleCaptureGetResult
    (b : Bridge) :
    Bridge × Option CaptureResult :=
  if !b.laSingleCaptureActive || b.hw.capturing then
    (b, none)
  else
    let raw := laGetRawCapture b.hw
    ({ b with hw.lastStartPosition := raw.first },
      some
        { samples := raw.samples
          firstSample := raw.first
          bytesPerSample := laBytesPerSampleMode raw.mode })

def laSingleCaptureRelease (b : Bridge) : Bridge :=
  { b with laSingleCaptureActive := false }

def laSingleCaptureStop (b : Bridge) : Bridge :=
  let b :=
    if b.laSingleCaptureActive && b.hw.capturing then
      { b with hw := stopCapture b.hw }
    else
      b
  laSingleCaptureRelease b

end PicoLogicAnalyzer

------------------------------------------------------------
-- Chained Analysis Captures
------------------------------------------------------------

namespace PicoLogicAnalyzer

open Word

def laStartChunk
    (started : Bool)
    (b : Bridge) :
    Started :=
  let b := gpioPullDown b
  let chunkSamples :=
    b.laConfig.chunkBytes / b.laConfig.bytesPerSample
  let setUps := [b.setUp .chunk started]
  if started then
    { bridge :=
        gpioPullUp
          { b with
            hw :=
              startCaptureSimple true 0 chunkSamples 0
                b.laConfig.mode b.hw
            laCaptureActive := true }
      started := true
      setUps := setUps }
  else
    { bridge := b, started := false, setUps := setUps }

def laCaptureChainStart
    (started : Bool)
    (b : Bridge) :
    Started :=
  if laIsBusy b then
    { bridge := b, started := false, setUps := [] }
  else
    let chunk :=
      laStartChunk started
        { b with
          laSequence := 0
          laNextSample := 0
          laBlockOutstanding := false
          laCaptureActive := false }
    if chunk.started then
      { chunk with bridge.laRunning := true }
    else
      chunk

def laCaptureChainTake
    (timeUs : Nat)
    (b : Bridge) :
    Bridge × Option AnalysisBlock :=
  if !b.laRunning || b.laBlockOutstanding ||
      !b.laCaptureActive then
    (b, none)
  else if b.hw.capturing then
    (b, none)
  else
    let raw := laGetRawCapture b.hw
    let b := { b with hw.lastStartPosition := raw.first }
    if raw.mode ≠ b.laConfig.mode then
      (b, none)
    else
      ({ b with
          laSequence := u32 (b.laSequence + 1)
          laNextSample := u64 (b.laNextSample + raw.samples)
          laCaptureActive := false
          laBlockOutstanding := true },
        some
          { data :=
              u32 (raw.first * b.laConfig.bytesPerSample)
            bytes :=
              u32 (raw.samples * b.laConfig.bytesPerSample)
            samples := raw.samples
            sequence := b.laSequence
            overruns := 0
            firstSample := b.laNextSample
            deviceTimeUs := timeUs
            slot := 0 })

def laCaptureChainRelease
    (started : Bool)
    (b : Bridge) :
    Started :=
  if !b.laRunning || !b.laBlockOutstanding then
    { bridge := b, started := false, setUps := [] }
  else
    laStartChunk started { b with laBlockOutstanding := false }

def laCaptureChainStop (b : Bridge) : Bridge :=
  let b :=
    if b.laCaptureActive && b.hw.capturing then
      { b with hw := stopCapture b.hw }
    else
      b
  { gpioDisablePulls b with
    laRunning := false
    laCaptureActive := false
    laBlockOutstanding := false }

end PicoLogicAnalyzer
