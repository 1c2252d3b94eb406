import Mathlib.Data.Rat.Floor
import PicoLogicAnalyzer.Firmware.Device
import PicoLogicAnalyzer.Lib.DataView

/-
  The browser page.

  Its script variables are a `Page`. JavaScript numbers that
  count something are natural numbers, `undefined` is
  `none`, and the width computed by a division is an exact
  rational. A read outside the message ends the handler with
  `Console.rangeError`; what it assigned before stays.

  Key definitions include:
    * `WireMessage` and `Payload.wire`
    * `Page` and `Page.initial`
    * `Page.displayRaw`
    * `Page.handleAnalysis`
    * `Page.onMessage`
    * `Page.configure` and `Page.sendCmd`
-/

------------------------------------------------------------
-- Messages On The Wire
------------------------------------------------------------

namespace PicoLogicAnalyzer

/- What a WebSocket message is for its receiver. -/
inductive WireMessage where
  | text (reply : String)
  | binary (data : List UInt8)
deriving DecidableEq

/- How a message of the firmware arrives. -/
def Payload.wire : Payload → WireMessage
| .text reply => .text reply
| .echo data => .binary data
| .raw _ _ _ data => .binary data
| .frame _ header _ data => .binary (header.encode ++ data)

end PicoLogicAnalyzer

------------------------------------------------------------
-- Page State
------------------------------------------------------------

namespace PicoLogicAnalyzer

/- Numbers of the `stats` element. -/
structure PageStats where
  configured : Nat
  sequence : Nat
  overruns : Nat
deriving DecidableEq, Repr

/- Variables of the script and the texts it displays. -/
structure Page where
  output : String
  stats : Option PageStats
  lineCount : Nat
  lastSequence : Option Nat
  expectedSample : Option Nat
  totalSamples : Option Nat
  analysisMode : Bool
  bytesPerSample : Nat
  displayMask : Nat
deriving DecidableEq, Repr

/- The page after it has been loaded. -/
def Page.initial : Page where
  output := ""
  stats := none
  lineCount := 0
  lastSequence := none
  expectedSample := none
  totalSamples := none
  analysisMode := false
  bytesPerSample := 1
  displayMask := 1

/- What a handler writes to the console. -/
inductive Console where
  | sequenceGap
  | sampleGap
  | rangeError
deriving DecidableEq, Repr

end PicoLogicAnalyzer

------------------------------------------------------------
-- Samples
------------------------------------------------------------

namespace PicoLogicAnalyzer

/- Bytes of the access that reads a sample. -/
def accessBytes (width : ℚ) : Nat :=
  if width = 1 then 1 else if width = 2 then 2 else 4

/- Hexadecimal digits of a displayed sample. -/
def sampleDigits (width : ℚ) : Nat :=
  if width = 1 then 2 else if width = 2 then 4 else 8

/- The masked sample `index` of a view. -/
def readSample
    (view : List UInt8)
    (width : ℚ)
    (displayMask index : Nat) :
    Option Nat :=
  (DataView.getUint (accessBytes width) view
    (index * width).floor.toNat).map (· &&& displayMask)

/- The loop over the first `displayed` samples. -/
def readSamples
    (view : List UInt8)
    (width : ℚ)
    (displayMask displayed : Nat) :
    Option (List Nat) :=
  (List.range displayed).mapM
    (readSample view width displayMask)

/- `value.toString(16).padStart(digits, "0")` -/
def hexText (digits value : Nat) : String :=
  let text := Nat.toDigits 16 value
  String.ofList
    (List.replicate (digits - text.length) '0' ++ text)

namespace Page

/- `display_raw` -/
def displayRaw
    (page : Page)
    (data : List UInt8)
    (width : Nat) :
    Page × List Console :=
  let displayed := min (data.length / width) 64
  match readSamples data width page.displayMask displayed with
  | none => (page, [.rangeError])
  | some samples =>
      let texts := samples.map (hexText (sampleDigits width))
      ({ page with
          output :=
            page.output ++ " ".intercalate texts ++ "\n"
          lineCount := page.lineCount + 1 }, [])

end Page

end PicoLogicAnalyzer

------------------------------------------------------------
-- Analysis Frames
------------------------------------------------------------

namespace PicoLogicAnalyzer

/- The header fields the page reads. -/
structure FrameView where
  sequence : Nat
  sampleCount : Nat
  sampleRate : Nat
  overruns : Nat
  payloadBytes : Nat
  firstSample : Nat
deriving DecidableEq, Repr

def FrameView.read (view : List UInt8) : Option FrameView := do
  let sequence ← DataView.getUint 4 view 4
  let sampleCount ← DataView.getUint 4 view 8
  let sampleRate ← DataView.getUint 4 view 12
  let overruns ← DataView.getUint 4 view 16
  let payloadBytes ← DataView.getUint 4 view 20
  let firstSample ← DataView.getUint 8 view 24
  return {
    sequence := sequence
    sampleCount := sampleCount
    sampleRate := sampleRate
    overruns := overruns
    payloadBytes := payloadBytes
    firstSample := firstSample }

/- The sample width the page derives. -/
def FrameView.bytesPerSample (frame : FrameView) : ℚ :=
  (frame.payloadBytes : ℚ) / frame.sampleCount

/- Samples the page displays of a frame. -/
def FrameView.displayed (frame : FrameView) : Nat :=
  min frame.sampleCount 32

/- `index: value` lines of the displayed samples. -/
def frameText (digits : Nat) (samples : List Nat) : String :=
  "\n".intercalate
    (samples.mapIdx
      (fun index value =>
        toString index ++ ": " ++ hexText digits value))

namespace Page

open Word

/- The two comparisons with the previous frame. -/
def gapWarnings
    (page : Page)
    (frame : FrameView) :
    List Console :=
  (match page.lastSequence with
    | some last =>
        if frame.sequence ≠ u32 (last + 1) then
          [.sequenceGap] else []
    | none => []) ++
  (match page.expectedSample with
    | some expected =>
        if frame.firstSample ≠ expected then
          [.sampleGap] else []
    | none => [])

/- The assignments before the payload is looked at. -/
def follow (page : Page) (frame : FrameView) : Page :=
  { page with
    lastSequence := some frame.sequence
    expectedSample :=
      some (frame.firstSample + frame.sampleCount)
    totalSamples :=
      page.totalSamples.map (· + frame.sampleCount) }

/- The displayed part of `handle_analysis`. -/
def showFrame
    (page : Page)
    (frame : FrameView)
    (data : List UInt8) :
    Option Page := do
  let payload ← DataView.slice data 40 frame.payloadBytes
  let samples ←
    readSamples payload frame.bytesPerSample page.displayMask
      frame.displayed
  return { page with
    output :=
      frameText (sampleDigits frame.bytesPerSample) samples
    stats :=
      some {
        configured := frame.sampleRate
        sequence := frame.sequence
        overruns := frame.overruns } }

/- `handle_analysis` -/
def handleAnalysis
    (page : Page)
    (data : List UInt8) :
    Page × List Console :=
  match FrameView.read data with
  | none => (page, [.rangeError])
  | some frame =>
      let warnings := page.gapWarnings frame
      match (page.follow frame).showFrame frame data with
      | none => (page.follow frame, warnings ++ [.rangeError])
      | some shown => (shown, warnings)

end Page

end PicoLogicAnalyzer

------------------------------------------------------------
-- Message Dispatch
------------------------------------------------------------

namespace PicoLogicAnalyzer

/- Replies that start an analysis session. -/
def startsAnalysis (reply : String) : Bool :=
  reply == "CAPTURE_CHAIN_ANALYSIS_STARTED" ||
    reply == "STREAM_ANALYSIS_STARTED"

/- Replies after which data has no header. -/
def endsAnalysis (reply : String) : Bool :=
  reply == "CAPTURE_CHAIN_ANALYSIS_STOPPED" ||
    reply == "STREAM_ANALYSIS_STOPPED" ||
    reply == "CAPTURE_CHAIN_STARTED" ||
    reply == "STREAM_STARTED"

namespace Page

/- The page clears its output after 64 lines. -/
def clearFull (page : Page) : Page :=
  if page.lineCount = 64 then
    { page with output := "", lineCount := 0 }
  else
    page

def onReply (page : Page) (reply : String) : Page :=
  let page :=
    { page with
      output := page.output ++ reply ++ "\n"
      lineCount := page.lineCount + 1 }
  let page :=
    if startsAnalysis reply then
      { page with
        analysisMode := true
        lastSequence := none
        expectedSample := none
        totalSamples := some 0 }
    else
      page
  if endsAnalysis reply then
    { page with analysisMode := false }
  else
    page

/- The test that hands a message to `handle_analysis`. -/
def takesFrame (page : Page) (data : List UInt8) : Bool :=
  page.analysisMode && 40 ≤ data.length &&
    DataView.getUint 4 data 0 == some streamMagic

/- `ws.onmessage` -/
def onMessage (page : Page) :
    WireMessage → Page × List Console
| .text reply => (page.clearFull.onReply reply, [])
| .binary data =>
    if page.takesFrame data then
      page.clearFull.handleAnalysis data
    else
      page.clearFull.displayRaw data page.bytesPerSample

end Page

end PicoLogicAnalyzer

------------------------------------------------------------
-- What The Page Sends
------------------------------------------------------------

namespace PicoLogicAnalyzer

/- The bit of a raw sample that holds a channel. -/
def rawBit (channel : Nat) : Nat :=
  if channel ≤ 20 then channel else channel + 3

/-
  What the user has entered. The two values are those of a
  number field and of a selection, so they are ASCII texts.
-/
structure ConfigureForm where
  checked : Nat → Bool
  frequency : String
  chunkSize : String

/- Loop state over the check boxes. -/
structure Selection where
  channelMask : Nat
  displayMask : Nat
  highest : Option Nat
deriving DecidableEq, Repr

def Selection.add
    (selection : Selection)
    (channel : Nat) :
    Selection where
  channelMask := selection.channelMask ||| 2 ^ channel
  displayMask := selection.displayMask ||| 2 ^ rawBit channel
  highest := some channel

/- The loop over the first `count` check boxes. -/
def ConfigureForm.selected
    (form : ConfigureForm)
    (count : Nat) :
    Selection :=
  (List.range count).foldl
    (fun selection channel =>
      if form.checked channel then selection.add channel
      else selection)
    { channelMask := 0, displayMask := 0, highest := none }

def ConfigureForm.selection (form : ConfigureForm) : Selection :=
  form.selected 24

/- The sample width for the highest selected channel. -/
def widthFor (highest : Nat) : Nat :=
  if highest < 8 then 1 else if highest < 16 then 2 else 4

/-
  `configure.onclick` with the messages it sends. The width
  is updated before the device has seen the mask.
-/
def Page.configure
    (page : Page)
    (form : ConfigureForm) :
    Page × List String :=
  let selection := form.selection
  let page :=
    { page with displayMask := selection.displayMask }
  match selection.highest with
  | none =>
      ({ page with
          output := "Select at least one channel\n" }, [])
  | some highest =>
      ({ page with bytesPerSample := widthFor highest },
        ["SET_FREQ " ++ form.frequency,
          "SET_CHUNK_SIZE " ++ form.chunkSize,
          "SET_CHANNEL_MASK " ++
            String.ofList
              (Nat.toDigits 16 selection.channelMask)])

/- `send_cmd` with the message it sends. -/
def Page.sendCmd (page : Page) (s : String) : Page × List String :=
  ({ page with output := "", lineCount := 0 }, [s])

end PicoLogicAnalyzer
