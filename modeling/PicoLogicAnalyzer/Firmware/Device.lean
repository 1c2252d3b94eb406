import PicoLogicAnalyzer.Bridge.Stream

/-
  State of `main.cpp`, the frames it builds and the events
  it takes part in.

  A `Device` is the file-level state of `main.cpp` together
  with the bridge. Everything the outside decides during one
  call (results of `StartCaptureSimple` and `sendMessage`,
  clocks, pins, DMA registers) is an `Env`.

  Key definitions include:
    * `StreamHeader` and `StreamHeader.encode`
    * `Payload`
    * `Event`
    * `Env`
    * `Device`
    * `isBusy`
    * `sendAnalysisBlock`
-/

------------------------------------------------------------
-- Analysis Frames
------------------------------------------------------------

namespace PicoLogicAnalyzer

open Word

def streamMagic : Nat := 0x31414C50

/- Fields of the packed header after the magic word. -/
structure StreamHeader where
  sequence : Nat
  sampleCount : Nat
  sampleRate : Nat
  overruns : Nat
  payloadBytes : Nat
  firstSample : Nat
  deviceTimeUs : Nat
deriving DecidableEq, Repr

/- The 40 bytes of the packed little-endian header. -/
def StreamHeader.encode (header : StreamHeader) : List UInt8 :=
  toLittleEndian 4 streamMagic ++
    toLittleEndian 4 header.sequence ++
    toLittleEndian 4 header.sampleCount ++
    toLittleEndian 4 header.sampleRate ++
    toLittleEndian 4 header.overruns ++
    toLittleEndian 4 header.payloadBytes ++
    toLittleEndian 8 header.firstSample ++
    toLittleEndian 8 header.deviceTimeUs

@[simp] theorem StreamHeader.length_encode
    (header : StreamHeader) :
    header.encode.length = 40 := by
  simp [StreamHeader.encode]

end PicoLogicAnalyzer

------------------------------------------------------------
-- Messages And Events
------------------------------------------------------------

namespace PicoLogicAnalyzer

/- The four operations a start command can open. -/
inductive Operation where
  | singleCapture
  | captureChain
  | captureChainAnalysis
  | stream
deriving DecidableEq, Repr

/-
  Messages handed to `sendMessage`. Capture data carries the
  operation that sends it and the buffer offset it was read
  from; headerless data also the sample width with which the
  hardware stored it. None of these three is on the wire.
-/
inductive Payload where
  | text (reply : String)
  | echo (data : List UInt8)
  | raw (op : Operation) (width offset : Nat)
      (data : List UInt8)
  | frame (op : Operation) (header : StreamHeader)
      (offset : Nat) (data : List UInt8)
deriving DecidableEq

/- The operation whose capture data a message carries. -/
def Payload.captureOf : Payload → Option Operation
| .text _ => none
| .echo _ => none
| .raw op _ _ _ => some op
| .frame op _ _ _ => some op

/-
  What an execution shows to the outside: received commands,
  hardware set-ups, finished captures, blocks taken from the
  bridge, and messages handed to `sendMessage` with its
  result. A taken stream block comes with the value of
  `la_stream_next_chunk` before the call and the index of
  the chunk taken.
-/
inductive Event where
  | received (id : Nat) (data : List UInt8)
  | setUp (record : SetUp)
  | captured
  | chainTaken (block : AnalysisBlock)
  | streamTaken (next chunk : Nat) (block : AnalysisBlock)
  | sent (dest : Nat) (payload : Payload) (accepted : Bool)
deriving DecidableEq

/- What the outside decides during one call. -/
structure Env where
  captureStarted : Bool
  chunkStarted : Bool
  replyAccepted : Bool
  rawAccepted : Bool
  blockAccepted : Bool
  nowMs : Nat
  timeUs : Nat
  gpio3 : Bool
  reads : DmaReads

end PicoLogicAnalyzer

------------------------------------------------------------
-- Device State
------------------------------------------------------------

namespace PicoLogicAnalyzer

inductive StreamMode where
  | stopped
  | raw
  | analysis
deriving DecidableEq, Repr

/- File-level variables of `main.cpp` and the bridge. -/
structure Device where
  bridge : Bridge
  singleCapturePending : Bool
  singleCaptureConnection : Nat
  captureChainEnabled : Bool
  captureChainPending : Bool
  streamConnection : Nat
  nextStreamMs : Nat
  blockPending : Bool
  pendingAnalysisBlock : AnalysisBlock
  captureChainAnalysisEnabled : Bool
  streamMode : StreamMode
  streamBlockPending : Bool

/- The device after start-up. -/
def Device.boot (hw : CaptureHardware) : Device where
  bridge := Bridge.initial hw
  singleCapturePending := false
  singleCaptureConnection := 0
  captureChainEnabled := false
  captureChainPending := false
  streamConnection := 0
  nextStreamMs := 0
  blockPending := false
  pendingAnalysisBlock :=
    { data := 0, bytes := 0, samples := 0, sequence := 0,
      overruns := 0, firstSample := 0, deviceTimeUs := 0,
      slot := 0 }
  captureChainAnalysisEnabled := false
  streamMode := .stopped
  streamBlockPending := false

def isBusy (d : Device) : Bool :=
  laIsBusy d.bridge || d.singleCapturePending ||
    d.captureChainEnabled || d.captureChainPending

/- A text reply to the sender of a command. -/
def reply
    (env : Env)
    (id : Nat)
    (text : String) :
    Event :=
  .sent id (.text text) env.replyAccepted

/- The header `send_analysis_block` builds for a block. -/
def Device.headerOf
    (d : Device)
    (block : AnalysisBlock) :
    StreamHeader where
  sequence := block.sequence
  sampleCount := block.samples
  sampleRate := d.bridge.laConfig.frequency
  overruns := block.overruns
  payloadBytes := block.bytes
  firstSample := block.firstSample
  deviceTimeUs := block.deviceTimeUs

/-
  `send_analysis_block`: whether the frame was accepted, and
  the message if one was handed over. An oversized block is
  refused before anything is sent.
-/
def sendAnalysisBlock
    (env : Env)
    (op : Operation)
    (d : Device)
    (block : AnalysisBlock) :
    Bool × List Event :=
  if laMaxChunkBytes < block.bytes then
    (false, [])
  else
    (env.blockAccepted,
      [.sent d.streamConnection
        (.frame op (d.headerOf block) block.data
          (d.bridge.hw.read block.data block.bytes))
        env.blockAccepted])

end PicoLogicAnalyzer
