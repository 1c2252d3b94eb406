import PicoLogicAnalyzer.Firmware.Command
import PicoLogicAnalyzer.Firmware.Device

/-
  Handling of one WebSocket message.

  `handleCommand` is the body of `websocket_message` after
  the command has been recognized; unknown messages are
  returned to their sender byte for byte.

  Key definitions include:
    * `startSingleCapture`
    * `startStream` and `stopStream`
    * `handleCommand`
    * `websocketMessage`
-/

------------------------------------------------------------
-- Start And Stop Helpers
------------------------------------------------------------

namespace PicoLogicAnalyzer

def startSingleCapture
    (env : Env)
    (id : Nat)
    (d : Device) :
    Device × List Event :=
  let result :=
    laSingleCaptureStart env.captureStarted 0 64
      (gpioPullUp d.bridge)
  if result.started then
    -- The edge that triggers the capture.
    ({ d with
        bridge := gpioPullDown (gpioPullUp result.bridge)
        singleCapturePending := true
        singleCaptureConnection := id },
      result.setUps.map .setUp ++
        [reply env id "SINGLE_CAPTURE_STARTED"])
  else
    ({ d with bridge := result.bridge },
      result.setUps.map .setUp ++
        [reply env id "SINGLE_CAPTURE_ERROR"])

/- The flag tells the caller whether the stream started. -/
def startStream
    (env : Env)
    (id : Nat)
    (mode : StreamMode)
    (d : Device) :
    Device × List Event × Bool :=
  if isBusy d then
    (d, [reply env id "CAPTURE_BUSY"], false)
  else
    let result := laStreamStart d.bridge
    if result.started then
      ({ d with
          bridge := result.bridge
          streamConnection := id
          streamMode := mode
          streamBlockPending := false },
        result.setUps.map .setUp, true)
    else
      ({ d with bridge := result.bridge },
        result.setUps.map .setUp ++
          [reply env id "START_ERROR"], false)

def stopStream (d : Device) : Device :=
  { d with
    bridge := laStreamStop d.bridge
    streamMode := .stopped
    streamBlockPending := false }

end PicoLogicAnalyzer

------------------------------------------------------------
-- Message Dispatch
------------------------------------------------------------

namespace PicoLogicAnalyzer

/- `CAPTURE_CHAIN_START` -/
def captureChainStart
    (env : Env)
    (id : Nat)
    (d : Device) :
    Device × List Event :=
  if isBusy d then
    (d, [reply env id "CAPTURE_BUSY"])
  else
    ({ d with
        captureChainEnabled := true
        streamConnection := id
        nextStreamMs := 0 },
      [reply env id "CAPTURE_CHAIN_STARTED"])

/- `CAPTURE_CHAIN_STOP` -/
def captureChainStop
    (env : Env)
    (id : Nat)
    (d : Device) :
    Device × List Event :=
  ({ d with
      captureChainEnabled := false
      bridge :=
        gpioDisablePulls (laSingleCaptureStop d.bridge) },
    [reply env id "CAPTURE_CHAIN_STOPPED"])

/- `CAPTURE_CHAIN_ANALYSIS_START` -/
def captureChainAnalysisStart
    (env : Env)
    (id : Nat)
    (d : Device) :
    Device × List Event :=
  if isBusy d then
    (d, [reply env id "CAPTURE_BUSY"])
  else
    let result :=
      laCaptureChainStart env.chunkStarted d.bridge
    if result.started then
      ({ d with
          bridge := result.bridge
          streamConnection := id
          captureChainAnalysisEnabled := true
          blockPending := false },
        result.setUps.map .setUp ++
          [reply env id "CAPTURE_CHAIN_ANALYSIS_STARTED"])
    else
      ({ d with bridge := result.bridge },
        result.setUps.map .setUp ++
          [reply env id "START_ERROR"])

/- `CAPTURE_CHAIN_ANALYSIS_STOP` -/
def captureChainAnalysisStop
    (env : Env)
    (id : Nat)
    (d : Device) :
    Device × List Event :=
  ({ d with
      bridge := laCaptureChainStop d.bridge
      captureChainAnalysisEnabled := false
      blockPending := false },
    [reply env id "CAPTURE_CHAIN_ANALYSIS_STOPPED"])

/- The two stream start commands differ in mode and reply. -/
def streamStartCommand
    (env : Env)
    (id : Nat)
    (mode : StreamMode)
    (started : String)
    (d : Device) :
    Device × List Event :=
  let result := startStream env id mode d
  if result.2.2 then
    (result.1, result.2.1 ++ [reply env id started])
  else
    (result.1, result.2.1)

/- The hexadecimal text of `snprintf` with `%06lx`. -/
def maskText (mask : Nat) : String :=
  let digits := Nat.toDigits 16 mask
  String.ofList
    (List.replicate (6 - digits.length) '0' ++ digits)

def handleCommand
    [CaptureModule]
    (env : Env)
    (id : Nat)
    (data : List UInt8)
    (d : Device) :
    Command → Device × List Event
| .status =>
    (d, [reply env id
      "We're all find here now, thank you.. How are you?"])
| .singleCapture =>
    if isBusy d then
      (d, [reply env id "CAPTURE_BUSY"])
    else
      startSingleCapture env id d
| .captureChainStart => captureChainStart env id d
| .captureChainStop => captureChainStop env id d
| .pinTest =>
    (d, [reply env id
      (if env.gpio3 then "GPIO:HIGH" else "GPIO:LOW")])
| .captureChainAnalysisStart =>
    captureChainAnalysisStart env id d
| .captureChainAnalysisStop =>
    captureChainAnalysisStop env id d
| .streamStart =>
    streamStartCommand env id .raw "STREAM_STARTED" d
| .streamStop =>
    (stopStream d, [reply env id "STREAM_STOPPED"])
| .streamAnalysisStart =>
    streamStartCommand env id .analysis
      "STREAM_ANALYSIS_STARTED" d
| .streamAnalysisStop =>
    (stopStream d, [reply env id "STREAM_ANALYSIS_STOPPED"])
| .setFreq value =>
    let result :=
      laConfigureFrequency (some value) d.bridge
    ({ d with bridge := result.1 },
      [reply env id ("FREQ " ++ toString result.2)])
| .setChunkSize value =>
    let result :=
      laConfigureChunkBytes (some value) d.bridge
    ({ d with bridge := result.1 },
      [reply env id ("CHUNKS_SIZE " ++ toString result.2)])
| .setChannelMask value =>
    let result :=
      laConfigureChannelMask (some value) d.bridge
    ({ d with bridge := result.1 },
      [reply env id ("CHANNEL_MASK " ++ maskText result.2)])
| .unknown =>
    (d, [.sent id (.echo data) env.replyAccepted])

def websocketMessage
    [CaptureModule]
    (env : Env)
    (id : Nat)
    (data : List UInt8)
    (d : Device) :
    Device × List Event :=
  handleCommand env id data d (parseCommand data)

end PicoLogicAnalyzer
