import PicoLogicAnalyzer.Firmware.Device
import PicoLogicAnalyzer.Lib.Machine

/-
  The three tasks of the main loop.

  `capture_chain_tasks` is cut at its four blocks; the first
  of them may return early. `stream_tasks` is cut between
  taking a block and sending it, since the DMA keeps writing
  in between.

  Key definitions include:
    * `startCaptureChain`
    * `singleCaptureTasks`
    * `captureChainTasks`
    * `streamTasksTake` and `streamTasksSend`
    * `streamTasks`

  The proof rules for the composed task are:
    * `captureChainTasks_rule`
    * `captureChainTasks_each`
    * `captureChainTasks_invariant`
-/

------------------------------------------------------------
-- Single Capture
------------------------------------------------------------

namespace PicoLogicAnalyzer

open Word

/-
  The headerless message for a finished capture, `length`
  bytes from the position of its first sample on.
-/
def rawResult
    (op : Operation)
    (hw : CaptureHardware)
    (result : CaptureResult)
    (length : Nat) :
    Payload :=
  let offset :=
    u32 (result.firstSample * result.bytesPerSample)
  .raw op result.bytesPerSample offset (hw.read offset length)

def singleCaptureTasks
    (env : Env)
    (d : Device) :
    Device × List Event :=
  if d.singleCapturePending &&
      !laSingleCaptureIsRunning d.bridge then
    let result := laSingleCaptureGetResult d.bridge
    let message :=
      match result.2 with
      | some capture =>
          Event.sent d.singleCaptureConnection
            (rawResult .singleCapture result.1.hw capture
              (u32 (capture.samples *
                capture.bytesPerSample)))
            env.rawAccepted
      | none =>
          Event.sent d.singleCaptureConnection
            (.text "SINGLE_CAPTURE_ERROR") env.replyAccepted
    ({ d with
        bridge :=
          gpioDisablePulls (laSingleCaptureRelease result.1)
        singleCapturePending := false },
      [message])
  else
    (d, [])

end PicoLogicAnalyzer

------------------------------------------------------------
-- Capture Chain
------------------------------------------------------------

namespace PicoLogicAnalyzer

open Word

def startCaptureChain
    (started : Bool)
    (b : Bridge) :
    Started :=
  let result :=
    laSingleCaptureStart started 0 32 (gpioPullDown b)
  if result.started then
    { result with bridge := gpioPullUp result.bridge }
  else
    result

/-
  Deliver a finished chained capture. The flag tells whether
  the task goes on: without a result it returns early.
-/
def captureChainDeliver
    (env : Env)
    (d : Device) :
    Device × List Event × Bool :=
  if d.captureChainPending &&
      !laSingleCaptureIsRunning d.bridge then
    let result := laSingleCaptureGetResult d.bridge
    match result.2 with
    | none =>
        ({ d with
            bridge := laSingleCaptureRelease result.1
            captureChainPending := false },
          [], false)
    | some capture =>
        ({ d with
            bridge := laSingleCaptureRelease result.1
            captureChainPending := false
            nextStreamMs := u32 (env.nowMs + 50) },
          [.sent d.streamConnection
            (rawResult .captureChain result.1.hw capture 32)
            env.rawAccepted],
          true)
  else
    (d, [], true)

/- Start the next chained capture when it is due. -/
def captureChainRestart
    (env : Env)
    (d : Device) :
    Device × List Event :=
  if d.captureChainEnabled && !d.captureChainPending &&
      d.nextStreamMs ≤ env.nowMs then
    let result :=
      startCaptureChain env.captureStarted d.bridge
    ({ d with
        bridge := result.bridge
        captureChainPending := result.started },
      result.setUps.map .setUp)
  else
    (d, [])

/- Take a finished analysis capture from the bridge. -/
def captureChainTakeBlock
    (env : Env)
    (d : Device) :
    Device × List Event :=
  if d.captureChainAnalysisEnabled && !d.blockPending then
    let result := laCaptureChainTake env.timeUs d.bridge
    match result.2 with
    | none =>
        ({ d with
            bridge := result.1
            blockPending := false }, [])
    | some block =>
        ({ d with
            bridge := result.1
            blockPending := true
            pendingAnalysisBlock := block },
          [.chainTaken block])
  else
    (d, [])

/- Send the pending analysis block and start the next one. -/
def captureChainSendBlock
    (env : Env)
    (d : Device) :
    Device × List Event :=
  if d.blockPending then
    let message :=
      sendAnalysisBlock env .captureChainAnalysis d
        d.pendingAnalysisBlock
    if message.1 then
      let result :=
        laCaptureChainRelease env.chunkStarted d.bridge
      ({ d with
          bridge := result.bridge
          blockPending := false },
        message.2 ++ result.setUps.map .setUp)
    else
      (d, message.2)
  else
    (d, [])

/- The blocks of the task after the early return. -/
def captureChainContinue
    (env : Env)
    (d : Device) :
    Device × List Event :=
  let restarted := captureChainRestart env d
  let taken := captureChainTakeBlock env restarted.1
  let sent := captureChainSendBlock env taken.1
  (sent.1, restarted.2 ++ taken.2 ++ sent.2)

def captureChainTasks
    (env : Env)
    (d : Device) :
    Device × List Event :=
  let delivered := captureChainDeliver env d
  if delivered.2.2 then
    let rest := captureChainContinue env delivered.1
    (rest.1, delivered.2.1 ++ rest.2)
  else
    (delivered.1, delivered.2.1)

/-
  Proof rule for the task: what each of its four blocks
  keeps, of the events so far and the state, the task keeps.
-/
theorem captureChainTasks_rule
    {P : List Event → Device → Prop}
    {env : Env}
    (hDeliver :
      ∀ trace d, P trace d →
        P (trace ++ (captureChainDeliver env d).2.1)
          (captureChainDeliver env d).1)
    (hRestart :
      ∀ trace d, P trace d →
        P (trace ++ (captureChainRestart env d).2)
          (captureChainRestart env d).1)
    (hTake :
      ∀ trace d, P trace d →
        P (trace ++ (captureChainTakeBlock env d).2)
          (captureChainTakeBlock env d).1)
    (hSend :
      ∀ trace d, P trace d →
        P (trace ++ (captureChainSendBlock env d).2)
          (captureChainSendBlock env d).1)
    (trace : List Event)
    {d : Device}
    (h : P trace d) :
    P (trace ++ (captureChainTasks env d).2)
      (captureChainTasks env d).1 := by
  have hFirst := hDeliver trace d h
  have hRest :=
    hSend _ _ (hTake _ _ (hRestart _ _ hFirst))
  simp only [captureChainTasks]
  cases (captureChainDeliver env d).2.2 with
  | false => exact hFirst
  | true =>
      simpa [captureChainContinue, List.append_assoc]
        using hRest

/- The rule for events judged by their past. -/
theorem captureChainTasks_each
    {P : List Event → Device → Prop}
    {Q : List Event → Event → Prop}
    {env : Env}
    (hDeliver :
      ∀ trace d, P trace d →
        P (trace ++ (captureChainDeliver env d).2.1)
            (captureChainDeliver env d).1 ∧
          Machine.Each Q trace
            (captureChainDeliver env d).2.1)
    (hRestart :
      ∀ trace d, P trace d →
        P (trace ++ (captureChainRestart env d).2)
            (captureChainRestart env d).1 ∧
          Machine.Each Q trace (captureChainRestart env d).2)
    (hTake :
      ∀ trace d, P trace d →
        P (trace ++ (captureChainTakeBlock env d).2)
            (captureChainTakeBlock env d).1 ∧
          Machine.Each Q trace
            (captureChainTakeBlock env d).2)
    (hSend :
      ∀ trace d, P trace d →
        P (trace ++ (captureChainSendBlock env d).2)
            (captureChainSendBlock env d).1 ∧
          Machine.Each Q trace
            (captureChainSendBlock env d).2)
    (trace : List Event)
    {d : Device}
    (h : P trace d) :
    P (trace ++ (captureChainTasks env d).2)
        (captureChainTasks env d).1 ∧
      Machine.Each Q trace (captureChainTasks env d).2 := by
  let R : List Event → Device → Prop := fun past d =>
    ∃ events,
      past = trace ++ events ∧ P past d ∧
        Machine.Each Q trace events
  have hBlock :
      ∀ {past events : List Event} {d d' : Device},
        R past d →
        (P past d →
          P (past ++ events) d' ∧
            Machine.Each Q past events) →
        R (past ++ events) d' := by
    rintro past events d d' ⟨earlier, rfl, hPast, hEach⟩ hNext
    rcases hNext hPast with ⟨hState, hEvents⟩
    refine ⟨earlier ++ events, by simp, hState, ?_⟩
    exact (Machine.each_append Q trace _ _).mpr
      ⟨hEach, hEvents⟩
  have hEnd :
      R (trace ++ (captureChainTasks env d).2)
        (captureChainTasks env d).1 := by
    refine captureChainTasks_rule ?_ ?_ ?_ ?_ trace
      ⟨[], by simp, h, trivial⟩
    · intro past d hPast
      exact hBlock hPast (hDeliver past d)
    · intro past d hPast
      exact hBlock hPast (hRestart past d)
    · intro past d hPast
      exact hBlock hPast (hTake past d)
    · intro past d hPast
      exact hBlock hPast (hSend past d)
  rcases hEnd with ⟨events, hEvents, hState, hEach⟩
  rw [List.append_cancel_left hEvents]
  exact ⟨by rw [← hEvents]; exact hState, hEach⟩

/- The rule for predicates of the state alone. -/
theorem captureChainTasks_invariant
    {P : Device → Prop}
    {env : Env}
    (hDeliver :
      ∀ d, P d → P (captureChainDeliver env d).1)
    (hRestart :
      ∀ d, P d → P (captureChainRestart env d).1)
    (hTake :
      ∀ d, P d → P (captureChainTakeBlock env d).1)
    (hSend :
      ∀ d, P d → P (captureChainSendBlock env d).1)
    {d : Device}
    (h : P d) :
    P (captureChainTasks env d).1 := by
  exact
    captureChainTasks_rule (P := fun _ d => P d)
      (fun _ => hDeliver) (fun _ => hRestart)
      (fun _ => hTake) (fun _ => hSend) [] h

end PicoLogicAnalyzer

------------------------------------------------------------
-- Stream
------------------------------------------------------------

namespace PicoLogicAnalyzer

def streamTasksTake
    (env : Env)
    (d : Device) :
    Device × List Event :=
  if d.streamMode ≠ .stopped ∧ !d.streamBlockPending then
    let result :=
      laStreamTake env.reads env.timeUs d.bridge
    match result.2 with
    | none =>
        ({ d with
            bridge := result.1
            streamBlockPending := false }, [])
    | some block =>
        ({ d with
            bridge := result.1
            streamBlockPending := true
            pendingAnalysisBlock := block },
          [.streamTaken d.bridge.laStreamNextChunk
            (result.1.laStreamNextChunk - 1) block])
  else
    (d, [])

/- Send a stream block with or without the analysis header. -/
def sendStreamBlock
    (env : Env)
    (d : Device)
    (block : AnalysisBlock) :
    Bool × List Event :=
  if d.streamMode = .analysis then
    sendAnalysisBlock env .stream d block
  else
    (env.blockAccepted,
      [.sent d.streamConnection
        (.raw .stream
          (laBytesPerSampleMode d.bridge.hw.dmaMode)
          block.data
          (d.bridge.hw.read block.data block.bytes))
        env.blockAccepted])

def streamTasksSend
    (env : Env)
    (d : Device) :
    Device × List Event :=
  if d.streamBlockPending then
    let message :=
      sendStreamBlock env d d.pendingAnalysisBlock
    if message.1 then
      ({ d with
          bridge := laStreamRelease d.bridge
          streamBlockPending := false },
        message.2)
    else
      (d, message.2)
  else
    (d, [])

def streamTasks
    (env : Env)
    (d : Device) :
    Device × List Event :=
  let taken := streamTasksTake env d
  let sent := streamTasksSend env taken.1
  (sent.1, taken.2 ++ sent.2)

end PicoLogicAnalyzer
