import PicoLogicAnalyzer.Firmware.Pacing
import PicoLogicAnalyzer.Firmware.Blocks

/-
  Captures of a plain chain.

  A chain repeats three links: a capture is set up, it
  completes, its data is offered to `sendMessage`. Whether
  the message is accepted does not matter to the chain, so a
  refused capture is gone.

  Key definitions include:
    * `RawMark` and `rawWord`
    * `RawStage`
    * `RawSession`

  Key theorems include:
    * `RawSession.step`
    * `captureChain_cycle`
-/

------------------------------------------------------------
-- The Cycle Of A Chain
------------------------------------------------------------

namespace PicoLogicAnalyzer

/- Links of the cycle. -/
inductive RawMark where
  | setUp
  | captured
  | offered
deriving DecidableEq, Repr

/- The link an event stands for; failed set-ups are none. -/
def Event.rawMark : Event → Option RawMark
| .setUp record =>
    if record.started then some .setUp else none
| .captured => some .captured
| .sent _ (.raw .captureChain _ _ _) _ => some .offered
| _ => none

/- The links of a trace, in order. -/
def rawMarks (trace : List Event) : List RawMark :=
  trace.filterMap Event.rawMark

/- The link at a position of the endless repetition. -/
def RawMark.at (index : Nat) : RawMark :=
  if index % 3 = 0 then .setUp
  else if index % 3 = 1 then .captured
  else .offered

/- The first `length` links of the endless repetition. -/
def rawWord (length : Nat) : List RawMark :=
  (List.range length).map RawMark.at

/- Replies are no links. -/
theorem Event.IsPlain.rawMark
    {event : Event}
    (hPlain : event.IsPlain) :
    event.rawMark = none := by
  cases event with
  | received id data => rfl
  | sent id payload accepted =>
      cases payload with
      | raw op width offset data => cases hPlain
      | _ => rfl
  | _ => cases hPlain

theorem rawWord_succ (length : Nat) :
    rawWord (length + 1) =
      rawWord length ++ [RawMark.at length] := by
  rw [rawWord, List.range_succ, List.map_append]
  rfl

/- Where a chain stands in its cycle. -/
inductive RawStage where
  | waiting
  | running
  | finished
deriving DecidableEq, Repr

def RawStage.passed : RawStage → Nat
| .waiting => 0
| .running => 1
| .finished => 2

def RawStage.activity : RawStage → Activity
| .waiting => .chainWaiting
| _ => .chainCapturing

/- Commands other than its stop do not move a chain. -/
theorem RawStage.handle_activity
    (stage : RawStage)
    (env : Env)
    {command : Command}
    (hOpen : command.stops ≠ some .captureChain) :
    stage.activity.handle env command = stage.activity := by
  cases command with
  | captureChainStop => exact absurd rfl hOpen
  | _ => cases stage <;> rfl

/-
  After `offered` complete cycles the chain is at `stage`,
  and the trace so far is the endless repetition up to this
  point.
-/
structure RawSession
    (offered : Nat)
    (stage : RawStage)
    (trace : List Event)
    (d : Device) : Prop where
  marks :
    rawMarks trace = rawWord (3 * offered + stage.passed)
  shows : d.Shows stage.activity
  capturing :
    d.bridge.hw.capturing = (stage == .running)

namespace RawSession

variable {offered : Nat} {stage : RawStage}
variable {trace events : List Event} {d d' : Device}

/- Events that are no links leave the chain where it is. -/
theorem beside
    (h : RawSession offered stage trace d)
    (hShows : d'.Shows stage.activity)
    (hCapturing :
      d'.bridge.hw.capturing = d.bridge.hw.capturing)
    (hEvents : ∀ event ∈ events, event.rawMark = none) :
    RawSession offered stage (trace ++ events) d' := by
  refine ⟨?_, hShows, hCapturing.trans h.capturing⟩
  rw [rawMarks, List.filterMap_append,
    List.filterMap_eq_nil_iff.mpr hEvents, List.append_nil]
  exact h.marks

/- Nothing happens at all. -/
theorem same
    (h : RawSession offered stage trace d)
    {result : Device × List Event}
    (hResult : result = (d, [])) :
    RawSession offered stage (trace ++ result.2) result.1 := by
  rw [hResult]
  exact h.beside h.shows rfl (List.forall_mem_nil _)

/- The next link. -/
theorem push
    (h : RawSession offered stage trace d)
    {event : Event}
    {offered' : Nat}
    {stage' : RawStage}
    (hMark :
      event.rawMark =
        some (RawMark.at (3 * offered + stage.passed)))
    (hNext :
      3 * offered' + stage'.passed =
        3 * offered + stage.passed + 1)
    (hShows : d'.Shows stage'.activity)
    (hCapturing :
      d'.bridge.hw.capturing = (stage' == .running)) :
    RawSession offered' stage' (trace ++ [event]) d' := by
  refine ⟨?_, hShows, hCapturing⟩
  have hOld := h.marks
  rw [rawMarks] at hOld
  rw [rawMarks, List.filterMap_append, hOld, hNext,
    rawWord_succ]
  simp [hMark]

end RawSession

theorem RawMark.at_mul_add
    (offered passed : Nat) :
    RawMark.at (3 * offered + passed) = RawMark.at passed := by
  simp [RawMark.at]

end PicoLogicAnalyzer

------------------------------------------------------------
-- The Capture Hardware Under A Chain
------------------------------------------------------------

namespace PicoLogicAnalyzer

variable {d : Device} {a : Activity}

/- A due restart leaves the capture as its start reports. -/
theorem captureChainRestart_capturing
    {env : Env}
    (h : d.Shows .chainWaiting)
    (hDue : d.nextStreamMs ≤ env.nowMs) :
    (captureChainRestart env d).1.bridge.hw.capturing =
      env.captureStarted := by
  have hEnabled : d.captureChainEnabled = true :=
    h.captureChainEnabled
  have hPending : d.captureChainPending = false :=
    h.captureChainPending
  have hFree : laIsBusy (gpioPullDown d.bridge) = false :=
    h.laIsBusy
  have hQuiet : d.bridge.hw.capturing = false :=
    h.not_capturing rfl
  simp only [captureChainRestart, hEnabled, hPending, hDue,
    startCaptureChain, laSingleCaptureStart, hFree]
  cases env.captureStarted with
  | true => rfl
  | false => exact hQuiet

variable [CaptureModule]

/- Without its stop command a chain keeps its capture. -/
theorem handleCommand_capturing_of_enabled
    (h : d.Shows a)
    (hEnabled : d.captureChainEnabled = true)
    {command : Command}
    (hOpen : command.stops ≠ some .captureChain)
    (env : Env)
    (id : Nat)
    (data : List UInt8) :
    (handleCommand env id data d
        command).1.bridge.hw.capturing =
      d.bridge.hw.capturing := by
  have hBusy := (chain_flags_of_enabled h hEnabled).1
  have hAnalysis : d.inProgress .captureChainAnalysis = false :=
    (chain_flags_of_enabled h hEnabled).2.1
  have hStream : d.inProgress .stream = false := by
    rw [Device.inProgress, h.streamMode]
    rcases h.chain_of_enabled hEnabled with rfl | rfl <;> rfl
  cases command with
  | captureChainStop => exact absurd rfl hOpen
  | status => rfl
  | pinTest => rfl
  | unknown => rfl
  | singleCapture =>
      simp only [handleCommand, hBusy, if_true]
  | captureChainStart =>
      simp only [handleCommand, captureChainStart, hBusy,
        if_true]
  | captureChainAnalysisStart =>
      simp only [handleCommand, captureChainAnalysisStart,
        hBusy, if_true]
  | streamStart =>
      simp only [handleCommand, streamStartCommand_state,
        startStream_of_busy env id _ hBusy]
  | streamAnalysisStart =>
      simp only [handleCommand, streamStartCommand_state,
        startStream_of_busy env id _ hBusy]
  | setFreq value =>
      rcases laConfigureFrequency_bridge value d.bridge with
        ⟨config, hBridge⟩
      simp only [handleCommand, hBridge]
  | setChunkSize value =>
      rcases laConfigureChunkBytes_bridge value d.bridge with
        ⟨config, hBridge⟩
      simp only [handleCommand, hBridge]
  | setChannelMask value =>
      rcases laConfigureChannelMask_bridge value d.bridge with
        ⟨config, hBridge⟩
      simp only [handleCommand, hBridge]
  | captureChainAnalysisStop =>
      simp only [handleCommand,
        captureChainAnalysisStop_foreign h hAnalysis env id]
      rfl
  | streamStop =>
      simp only [handleCommand, stopStream_foreign h hStream]
  | streamAnalysisStop =>
      simp only [handleCommand, stopStream_foreign h hStream]

end PicoLogicAnalyzer

------------------------------------------------------------
-- Steps Of A Chain
------------------------------------------------------------

namespace PicoLogicAnalyzer

namespace RawSession

variable {offered : Nat} {stage : RawStage}
variable {trace : List Event} {d : Device}

theorem enabled (h : RawSession offered stage trace d) :
    d.captureChainEnabled = true := by
  rw [h.shows.captureChainEnabled]
  cases stage <;> rfl

/- A completed capture is offered once and forgotten. -/
theorem captureChainDeliver
    (h : RawSession offered stage trace d)
    (env : Env) :
    ∃ offered' stage',
      RawSession offered' stage'
        (trace ++
          (PicoLogicAnalyzer.captureChainDeliver env d).2.1)
        (PicoLogicAnalyzer.captureChainDeliver env d).1 := by
  have hMove := captureChainDeliver_shows h.shows env
  have hPending := h.shows.captureChainPending
  have hActive := h.shows.laSingleCaptureActive
  have hCapturing := h.capturing
  cases stage with
  | waiting =>
      have hNothing :
          PicoLogicAnalyzer.captureChainDeliver env d =
            (d, [], true) := by
        simp [PicoLogicAnalyzer.captureChainDeliver, hPending,
          RawStage.activity, Activity.flags, Flags.idle]
      rw [hNothing]
      exact ⟨offered, .waiting,
        h.beside h.shows rfl (List.forall_mem_nil _)⟩
  | running =>
      have hNothing :
          PicoLogicAnalyzer.captureChainDeliver env d =
            (d, [], true) := by
        simp [PicoLogicAnalyzer.captureChainDeliver,
          laSingleCaptureIsRunning, hActive, hCapturing,
          RawStage.activity, Activity.flags]
      rw [hNothing]
      exact ⟨offered, .running,
        h.beside h.shows rfl (List.forall_mem_nil _)⟩
  | finished =>
      have hIdle : laSingleCaptureIsRunning d.bridge = false := by
        simp [laSingleCaptureIsRunning, hCapturing]
      have hDone : d.bridge.hw.capturing = false := hCapturing
      replace hPending : d.captureChainPending = true :=
        hPending
      replace hActive :
          d.bridge.laSingleCaptureActive = true := hActive
      rw [hIdle] at hMove
      simp only [PicoLogicAnalyzer.captureChainDeliver,
        hPending, hIdle, laSingleCaptureGetResult, hActive,
        hDone, Bool.not_true, Bool.not_false, Bool.and_self,
        Bool.or_self, if_true] at hMove ⊢
      refine ⟨offered + 1, .waiting, h.push ?_ ?_ hMove rfl⟩
      · rw [RawMark.at_mul_add]
        rfl
      · simp only [RawStage.passed]
        omega

/- A waiting chain sets the next capture up when it is due. -/
theorem captureChainRestart
    (h : RawSession offered stage trace d)
    (env : Env) :
    ∃ offered' stage',
      RawSession offered' stage'
        (trace ++
          (PicoLogicAnalyzer.captureChainRestart env d).2)
        (PicoLogicAnalyzer.captureChainRestart env d).1 := by
  by_cases hPending : d.captureChainPending = true
  · exact ⟨offered, stage,
      h.same (captureChainRestart_pending env hPending)⟩
  by_cases hDue : d.nextStreamMs ≤ env.nowMs
  · have hWaiting : stage = .waiting := by
      rw [h.shows.captureChainPending] at hPending
      cases stage with
      | waiting => rfl
      | _ => exact absurd rfl hPending
    subst hWaiting
    have hMove := captureChainRestart_shows h.shows env
    have hEvents := captureChainRestart_waiting h.shows hDue
    have hCapturing := captureChainRestart_capturing h.shows hDue
    rw [if_pos hDue] at hMove
    rw [hEvents]
    cases hStarted : env.captureStarted with
    | true =>
        rw [hStarted] at hMove hCapturing
        refine ⟨offered, .running,
          h.push ?_ ?_ hMove hCapturing⟩
        · rw [RawMark.at_mul_add]
          rfl
        · rfl
    | false =>
        rw [hStarted] at hMove hCapturing
        refine ⟨offered, .waiting,
          h.beside hMove (hCapturing.trans h.capturing.symm) ?_⟩
        intro event hMember
        rw [List.mem_singleton.mp hMember]
        rfl
  · have hNothing :
        PicoLogicAnalyzer.captureChainRestart env d =
          (d, []) := by
      simp [PicoLogicAnalyzer.captureChainRestart, hDue]
    exact ⟨offered, stage, h.same hNothing⟩

/- The analysis blocks of the task stay out of the way. -/
theorem captureChainTasks
    (h : RawSession offered stage trace d)
    (env : Env) :
    ∃ offered' stage',
      RawSession offered' stage'
        (trace ++
          (PicoLogicAnalyzer.captureChainTasks env d).2)
        (PicoLogicAnalyzer.captureChainTasks env d).1 := by
  refine captureChainTasks_rule
    (P := fun trace d =>
      ∃ offered stage, RawSession offered stage trace d)
    ?_ ?_ ?_ ?_ trace ⟨offered, stage, h⟩
  · rintro trace d ⟨offered, stage, h⟩
    exact h.captureChainDeliver env
  · rintro trace d ⟨offered, stage, h⟩
    exact h.captureChainRestart env
  · rintro trace d ⟨offered, stage, h⟩
    have hAnalysis :=
      (chain_flags_of_enabled h.shows h.enabled).2.1
    exact ⟨offered, stage,
      h.same (by simp [captureChainTakeBlock, hAnalysis])⟩
  · rintro trace d ⟨offered, stage, h⟩
    have hBlock :=
      (chain_flags_of_enabled h.shows h.enabled).2.2
    exact ⟨offered, stage,
      h.same (by simp [captureChainSendBlock, hBlock])⟩

/- Only the capture of the chain can complete. -/
theorem captureDone
    (h : RawSession offered stage trace d)
    (tail : Nat) :
    ∃ offered' stage',
      RawSession offered' stage'
        (trace ++ (PicoLogicAnalyzer.captureDone tail d).2)
        (PicoLogicAnalyzer.captureDone tail d).1 := by
  have hMove := captureDone_shows h.shows tail
  by_cases hRunning : stage = .running
  · subst hRunning
    have hCapturing : d.bridge.hw.capturing = true :=
      h.capturing
    simp only [PicoLogicAnalyzer.captureDone, hCapturing,
      if_true] at hMove ⊢
    refine ⟨offered, .finished, h.push ?_ ?_ hMove rfl⟩
    · rw [RawMark.at_mul_add]
      rfl
    · rfl
  · have hCapturing : d.bridge.hw.capturing = false := by
      rw [h.capturing]
      exact beq_false_of_ne hRunning
    exact ⟨offered, stage,
      h.same (by
        simp [PicoLogicAnalyzer.captureDone, hCapturing])⟩

variable [CaptureModule]

/- Commands other than its stop do not reach the chain. -/
theorem message
    (h : RawSession offered stage trace d)
    (env : Env)
    (id : Nat)
    {data : List UInt8}
    (hOpen : (parseCommand data).stops ≠ some .captureChain) :
    RawSession offered stage
      (trace ++ (Device.step d (.message env id data)).2)
      (Device.step d (.message env id data)).1 := by
  have hBusy : stage.activity ≠ .idle := by
    cases stage <;> exact Activity.noConfusion
  have hKept := stage.handle_activity env hOpen
  refine h.beside ?_ ?_ ?_
  · have hMove :=
      handleCommand_shows h.shows env id data
        (parseCommand data)
    rwa [hKept] at hMove
  · exact
      handleCommand_capturing_of_enabled h.shows h.enabled
        hOpen env id data
  · intro event hMember
    rcases List.mem_cons.mp hMember with rfl | hReply
    · rfl
    · exact (handleCommand_isPlain h.shows hBusy hReply).rawMark

/- One step of the firmware beside the stop of the chain. -/
theorem step
    (h : RawSession offered stage trace d)
    {i : Input}
    (hOpen : i.LeavesOpen .captureChain) :
    ∃ offered' stage',
      RawSession offered' stage'
        (trace ++ (Device.step d i).2)
        (Device.step d i).1 := by
  have hStream : d.bridge.laStreamRunning = false := by
    rw [h.shows.laStreamRunning]
    cases stage <;> rfl
  cases i with
  | message env id data =>
      exact ⟨offered, stage, h.message env id hOpen⟩
  | connect env id =>
      refine ⟨offered, stage, h.beside h.shows rfl ?_⟩
      intro event hMember
      rw [List.mem_singleton.mp hMember]
      rfl
  | disconnect id => exact ⟨offered, stage, h.same rfl⟩
  | singleCaptureTasks env =>
      refine ⟨offered, stage,
        h.same (singleCaptureTasks_of_not_pending env ?_)⟩
      rw [h.shows.singleCapturePending]
      cases stage <;> rfl
  | captureChainTasks env => exact h.captureChainTasks env
  | streamTake env =>
      refine ⟨offered, stage,
        h.same (streamTasksTake_of_stopped env ?_)⟩
      rw [h.shows.streamMode]
      cases stage <;> rfl
  | streamSend env =>
      refine ⟨offered, stage,
        h.same (streamTasksSend_of_not_pending env ?_)⟩
      rw [h.shows.streamBlockPending]
      cases stage <;> rfl
  | captureWrite memory =>
      refine ⟨offered, stage,
        h.beside ?_ ?_ (List.forall_mem_nil _)⟩
      · simp only [Device.step, captureWrite]
        split <;> exact h.shows.congr rfl rfl
      · simp only [Device.step, captureWrite]
        split <;> rfl
  | captureDone tail => exact h.captureDone tail
  | dmaWrite position byte =>
      refine ⟨offered, stage, h.same ?_⟩
      simp only [Device.step, dmaWrite, hStream]
      rfl
  | dmaInterrupt =>
      refine ⟨offered, stage, h.same ?_⟩
      simp only [Device.step, dmaInterrupt, hStream]
      rfl

end RawSession

end PicoLogicAnalyzer

------------------------------------------------------------
-- Runs Of A Chain
------------------------------------------------------------

namespace PicoLogicAnalyzer

/- Every cycle has one offer. -/
theorem count_rawWord
    (offered : Nat)
    (stage : RawStage) :
    (rawWord (3 * offered + stage.passed)).count .offered =
      offered := by
  have hCycles :
      (rawWord (3 * offered)).count .offered = offered := by
    induction offered with
    | zero => rfl
    | succ offered ih =>
        rw [Nat.mul_succ, rawWord_succ, rawWord_succ,
          rawWord_succ]
        simp [ih, RawMark.at]
  cases stage with
  | waiting => exact hCycles
  | running =>
      simp [RawStage.passed, rawWord_succ, hCycles,
        RawMark.at]
  | finished =>
      simp [RawStage.passed, rawWord_succ, hCycles,
        RawMark.at]

variable [CaptureModule] {d : Device}

/- An accepted start command opens the first cycle. -/
theorem RawSession.start
    (h : d.Shows .idle)
    (env : Env)
    (id : Nat)
    {data : List UInt8}
    (hCommand : parseCommand data = .captureChainStart) :
    RawSession 0 .waiting
      (Device.step d (.message env id data)).2
      (Device.step d (.message env id data)).1 := by
  have hMove := captureChainStart_shows h env id
  have hFree : isBusy d = false := h.isBusy
  have hQuiet : d.bridge.hw.capturing = false :=
    h.not_capturing rfl
  simp only [Device.step, websocketMessage, hCommand,
    handleCommand]
  refine ⟨?_, hMove, ?_⟩
  · simp only [captureChainStart, hFree]
    rfl
  · simp only [captureChainStart, hFree]
    exact hQuiet

/-
  From an accepted start on, at every point before the stop
  of the chain, the captures go through the cycle one after
  the other: each completed capture is offered once, accepted
  or not, before the next one is set up.
-/
theorem captureChain_cycle
    (hReachable : d.Reachable)
    (hFree : isBusy d = false)
    (env : Env)
    (id : Nat)
    {data : List UInt8}
    (hCommand : parseCommand data = .captureChainStart)
    {inputs : List Input}
    (hOpen :
      ∀ i ∈ inputs, i.LeavesOpen .captureChain) :
    let session :=
      Device.run d (.message env id data :: inputs)
    ∃ stage,
      RawSession ((rawMarks session.2).count .offered) stage
        session.2 session.1 := by
  rcases hReachable.shows with ⟨a, hShows⟩
  cases hShows.eq_idle_of_not_busy hFree
  have hEnd :=
    Machine.Guarded.trace_invariant
      (P := fun trace d' =>
        ∃ offered stage, RawSession offered stage trace d')
      (fun trace d' i h hInput => by
        rcases h with ⟨offered, stage, h⟩
        exact h.step hInput)
      ⟨0, .waiting, RawSession.start hShows env id hCommand⟩
      (Machine.Guarded.of_forall
        (fun i hMember _ => hOpen i hMember) _)
  rcases hEnd with ⟨offered, stage, hEnd⟩
  refine ⟨stage, ?_⟩
  have hCount := count_rawWord offered stage
  rw [← hEnd.marks] at hCount
  simp only [Device.run, Machine.run_cons]
  rwa [hCount]

end PicoLogicAnalyzer

namespace PicoLogicAnalyzer

section Sample

attribute [local instance] CaptureModule.sample

/-
  A refused capture is not repeated: the chain is at the next
  set-up after two offers.
-/
theorem captureChain_cycle_refused :
    let session :=
      Device.run (Device.boot CaptureHardware.blank)
        [Input.command 1 "CAPTURE_CHAIN_START",
          .captureChainTasks Env.smooth, .captureDone 31,
          .captureChainTasks
            { Env.smooth with rawAccepted := false },
          .captureChainTasks { Env.smooth with nowMs := 50 },
          .captureDone 31,
          .captureChainTasks { Env.smooth with nowMs := 60 }]
    rawMarks session.2 =
        [.setUp, .captured, .offered, .setUp, .captured,
          .offered] ∧
      ∃ stage,
        RawSession ((rawMarks session.2).count .offered) stage
          session.2 session.1 := by
  refine ⟨by decide +kernel, ?_⟩
  apply captureChain_cycle ⟨CaptureHardware.blank, [], rfl⟩
  · rfl
  · decide
  · simp [Input.LeavesOpen]

end Sample

end PicoLogicAnalyzer
