import PicoLogicAnalyzer.Firmware.Exclusivity
import PicoLogicAnalyzer.Firmware.Sessions

/-
  Captures that do not start.

  `StartCaptureSimple` can fail in two commands and in two
  places of `capture_chain_tasks`. The commands set a pull
  before they know the outcome and leave it; a failed
  restart inside `la_capture_chain_release` leaves an
  analysis session without a capture and without a block.

  Key definitions include:
    * `Device.StartFails`
    * `Device.NoResidue`
    * `Device.ToleratesFailure`

  Key theorems include:
    * `handleCommand_fails`
    * `captureChainTasks_fails`
    * `failed_start_no_residue_iff`
-/

------------------------------------------------------------
-- Failing Steps
------------------------------------------------------------

namespace PicoLogicAnalyzer

/- The texts that answer a start command that failed. -/
def Event.IsStartError : Event → Prop
| .sent _ (.text reply) _ =>
    reply = "SINGLE_CAPTURE_ERROR" ∨ reply = "START_ERROR"
| _ => False

variable [CaptureModule]

/- `StartCaptureSimple` returns false in this step. -/
def Device.StartFails (d : Device) (i : Input) : Prop :=
  ∃ record,
    Event.setUp record ∈ (Device.step d i).2 ∧
      record.started = false

/-
  After the step, a start command answered with an error has
  left the device idle and the trigger pulls as they were,
  and a chained analysis session has a capture or a block.
-/
structure Device.NoResidue (d : Device) (i : Input) : Prop where
  command :
    (∃ env id data, i = .message env id data) →
    (∃ event ∈ (Device.step d i).2, event.IsStartError) →
      (Device.step d i).1.flags = Flags.idle ∧
        isBusy (Device.step d i).1 = false ∧
        (Device.step d i).1.bridge.hw.triggerPull =
          d.bridge.hw.triggerPull
  session :
    (Device.step d i).1.bridge.laRunning = true →
      (Device.step d i).1.bridge.laCaptureActive = true ∨
        (Device.step d i).1.bridge.laBlockOutstanding = true

/-
  A failure is harmless for a command that finds the pull it
  sets, and for the task outside analysis sessions.
-/
def Device.ToleratesFailure (d : Device) : Input → Prop
| .message _ _ data =>
    (parseCommand data = .singleCapture →
      d.bridge.hw.triggerPull = .up) ∧
    (parseCommand data = .captureChainAnalysisStart →
      d.bridge.hw.triggerPull = .down)
| .captureChainTasks _ => d.bridge.laRunning = false
| _ => True

end PicoLogicAnalyzer

------------------------------------------------------------
-- Failing Commands
------------------------------------------------------------

namespace PicoLogicAnalyzer

variable {d : Device} {a : Activity}

/- A failed `SINGLE_CAPTURE` leaves the pull-up on. -/
theorem startSingleCapture_refused
    (h : d.Shows .idle)
    {env : Env}
    (hRefused : env.captureStarted = false)
    (id : Nat) :
    (startSingleCapture env id d).1.Shows .idle ∧
      (startSingleCapture env id d).1.bridge.hw.triggerPull =
        .up ∧
      reply env id "SINGLE_CAPTURE_ERROR" ∈
        (startSingleCapture env id d).2 := by
  have hShows := startSingleCapture_shows h env id
  have hFree : laIsBusy (gpioPullUp d.bridge) = false :=
    h.laIsBusy
  rw [hRefused] at hShows
  refine ⟨hShows, ?_, ?_⟩
  · simp only [startSingleCapture, laSingleCaptureStart,
      hFree, hRefused]
    rfl
  · simp [startSingleCapture, laSingleCaptureStart, hFree,
      hRefused]

/- A failed analysis start leaves the pull-down on. -/
theorem captureChainAnalysisStart_refused
    (h : d.Shows .idle)
    {env : Env}
    (hRefused : env.chunkStarted = false)
    (id : Nat) :
    (captureChainAnalysisStart env id d).1.Shows .idle ∧
      (captureChainAnalysisStart env id
        d).1.bridge.hw.triggerPull = .down ∧
      reply env id "START_ERROR" ∈
        (captureChainAnalysisStart env id d).2 := by
  have hShows := captureChainAnalysisStart_shows h env id
  have hBusy : isBusy d = false := h.isBusy
  have hFree : laIsBusy d.bridge = false := h.laIsBusy
  rw [hRefused] at hShows
  refine ⟨hShows, ?_, ?_⟩
  · simp only [captureChainAnalysisStart, hBusy,
      laCaptureChainStart, hFree, laStartChunk, hRefused]
    rfl
  · simp [captureChainAnalysisStart, hBusy,
      laCaptureChainStart, hFree, laStartChunk, hRefused]

variable [CaptureModule]

/- The commands in which a start can fail. -/
theorem handleCommand_fails
    (h : d.Shows a)
    {env : Env}
    {id : Nat}
    {data : List UInt8}
    {command : Command}
    {record : SetUp}
    (hMember :
      .setUp record ∈ (handleCommand env id data d command).2)
    (hFailed : record.started = false) :
    a = .idle ∧
      ((command = .singleCapture ∧
          env.captureStarted = false) ∨
        (command = .captureChainAnalysisStart ∧
          env.chunkStarted = false)) := by
  by_cases hIdle : a = .idle
  · refine ⟨hIdle, ?_⟩
    subst hIdle
    cases command with
    | singleCapture =>
        rw [handleCommand, h.isBusy] at hMember
        rw [startSingleCapture_record hMember] at hFailed
        exact Or.inl ⟨rfl, hFailed⟩
    | captureChainAnalysisStart =>
        rw [captureChainAnalysisStart_record hMember]
          at hFailed
        exact Or.inr ⟨rfl, hFailed⟩
    | streamStart =>
        rw [streamStartCommand_record hMember] at hFailed
        cases hFailed
    | streamAnalysisStart =>
        rw [streamStartCommand_record hMember] at hFailed
        cases hFailed
    | captureChainStart =>
        simp [handleCommand, captureChainStart, h.isBusy,
          reply] at hMember
    | _ =>
        simp [handleCommand, captureChainStop,
          captureChainAnalysisStop, reply] at hMember
  · exact (handleCommand_isPlain h hIdle hMember).elim

theorem message_no_residue_iff
    (h : d.Shows a)
    {env : Env}
    {id : Nat}
    {data : List UInt8}
    (hFails : d.StartFails (.message env id data)) :
    d.NoResidue (.message env id data) ↔
      d.ToleratesFailure (.message env id data) := by
  rcases hFails with ⟨record, hMember, hFailed⟩
  have hAnswer :
      .setUp record ∈
        (handleCommand env id data d (parseCommand data)).2 := by
    rcases List.mem_cons.mp hMember with hReceived | hAnswer
    · cases hReceived
    · exact hAnswer
  rcases handleCommand_fails h hAnswer hFailed with
    ⟨rfl, hCommand⟩
  -- The answer is an error, and the pull is the only trace.
  have hResult :
      ∃ pull : Pull,
        (Device.step d (.message env id data)).1.Shows .idle ∧
          (Device.step d
            (.message env id data)).1.bridge.hw.triggerPull =
              pull ∧
          (∃ event ∈ (Device.step d (.message env id data)).2,
            event.IsStartError) ∧
          (d.ToleratesFailure (.message env id data) ↔
            d.bridge.hw.triggerPull = pull) := by
    rcases hCommand with
      ⟨hSingle, hRefused⟩ | ⟨hAnalysis, hRefused⟩
    · rcases startSingleCapture_refused h hRefused id with
        ⟨hShows, hPull, hReply⟩
      have hStep :
          Device.step d (.message env id data) =
            ((startSingleCapture env id d).1,
              .received id data ::
                (startSingleCapture env id d).2) := by
        simp [Device.step, websocketMessage, hSingle,
          handleCommand, h.isBusy]
      rw [hStep]
      refine ⟨.up, hShows, hPull, ?_, ?_⟩
      · exact
          ⟨_, List.mem_cons_of_mem _ hReply, Or.inl rfl⟩
      · simp [Device.ToleratesFailure, hSingle]
    · rcases captureChainAnalysisStart_refused h hRefused id
        with ⟨hShows, hPull, hReply⟩
      have hStep :
          Device.step d (.message env id data) =
            ((captureChainAnalysisStart env id d).1,
              .received id data ::
                (captureChainAnalysisStart env id d).2) := by
        simp [Device.step, websocketMessage, hAnalysis,
          handleCommand]
      rw [hStep]
      refine ⟨.down, hShows, hPull, ?_, ?_⟩
      · exact
          ⟨_, List.mem_cons_of_mem _ hReply, Or.inr rfl⟩
      · simp [Device.ToleratesFailure, hAnalysis]
  rcases hResult with ⟨pull, hShows, hPull, hError, hReady⟩
  rw [hReady]
  constructor
  · intro hClean
    have hSame :=
      (hClean.command ⟨env, id, data, rfl⟩ hError).2.2
    rw [← hSame, hPull]
  · intro hBefore
    constructor
    · intro _ _
      refine ⟨hShows.flags, hShows.isBusy, ?_⟩
      rw [hPull, hBefore]
    · intro hRunning
      rw [hShows.laRunning] at hRunning
      cases hRunning

end PicoLogicAnalyzer

------------------------------------------------------------
-- Failing Tasks
------------------------------------------------------------

namespace PicoLogicAnalyzer

variable {d : Device} {a : Activity}

/- A failed release leaves the session stalled. -/
theorem captureChainSendBlock_fails
    {phase : ChainPhase}
    (h : d.Shows (.chainAnalysis phase))
    {env : Env}
    {record : SetUp}
    (hMember :
      .setUp record ∈ (captureChainSendBlock env d).2)
    (hFailed : record.started = false) :
    (captureChainSendBlock env d).1.Shows
      (.chainAnalysis .stalled) := by
  rcases captureChainSendBlock_record hMember with
    ⟨hOutstanding, rfl⟩
  have hRefused : env.chunkStarted = false := hFailed
  have hPhase : phase = .outstanding := by
    rw [h.laBlockOutstanding] at hOutstanding
    simpa [Activity.flags] using hOutstanding
  subst hPhase
  have hShows := captureChainSendBlock_shows h env
  have hSent :
      (sendAnalysisBlock env .captureChainAnalysis d
        d.pendingAnalysisBlock).1 = true := by
    by_contra hKept
    have hPending : d.blockPending = true := h.blockPending
    simp only [captureChainSendBlock, hPending, hKept, if_true,
      if_false] at hMember
    cases mem_sendAnalysisBlock hMember
  rw [hSent, hRefused] at hShows
  exact hShows

/- During analysis a failed start is a failed release. -/
theorem captureChainTasks_fails
    {phase : ChainPhase}
    (h : d.Shows (.chainAnalysis phase))
    {env : Env}
    {record : SetUp}
    (hMember :
      .setUp record ∈ (captureChainTasks env d).2)
    (hFailed : record.started = false) :
    (captureChainTasks env d).1.Shows
      (.chainAnalysis .stalled) := by
  have hTask := captureChainTasks_chainAnalysis env h
  rw [hTask] at hMember ⊢
  have hTake := captureChainTakeBlock_shows h env
  have hPhase :
      ∃ phase',
        (captureChainTakeBlock env d).1.Shows
          (.chainAnalysis phase') := by
    split at hTake
    · cases phase <;> exact ⟨_, hTake⟩
    · exact ⟨_, hTake⟩
  rcases hPhase with ⟨phase', hShows⟩
  rcases List.mem_append.mp hMember with hHere | hSend
  · rcases mem_captureChainTakeBlock hHere with
      ⟨block, hBlock⟩
    cases hBlock
  · exact captureChainSendBlock_fails hShows hSend hFailed

variable [CaptureModule]

theorem captureChainTasks_no_residue_iff
    (h : d.Shows a)
    {env : Env}
    (hFails : d.StartFails (.captureChainTasks env)) :
    d.NoResidue (.captureChainTasks env) ↔
      d.ToleratesFailure (.captureChainTasks env) := by
  rcases hFails with ⟨record, hMember, hFailed⟩
  have hReady :
      d.ToleratesFailure (.captureChainTasks env) ↔
        a.flags.laRunning = false := by
    rw [← h.laRunning]
    rfl
  rw [hReady]
  cases hAnalysis : a.flags.laRunning with
  | true =>
      -- An analysis session, which is now stalled.
      refine iff_of_false ?_ Bool.true_eq_false.mp
      intro hClean
      cases a with
      | chainAnalysis phase =>
          have hShows :=
            captureChainTasks_fails h hMember hFailed
          rcases hClean.session hShows.laRunning with
            hActive | hOutstanding
          · cases hShows.laCaptureActive.symm.trans hActive
          · cases
              hShows.laBlockOutstanding.symm.trans
                hOutstanding
      | _ => cases hAnalysis
  | false =>
      refine iff_of_true ?_ rfl
      constructor
      · rintro ⟨env', id, data, hInput⟩
        cases hInput
      · intro hRunning
        exfalso
        rcases captureChainTasks_shows h env with
          ⟨a', hShows, hContinues⟩
        have hStill := hShows.laRunning.symm.trans hRunning
        cases a' with
        | chainAnalysis phase =>
            rcases hContinues with hIdle | ⟨hSame, _⟩
            · cases hIdle
            · cases a with
              | chainAnalysis phase' => cases hAnalysis
              | _ => cases hSame
        | _ => cases hStill

/-
  For every reachable state and every step in which
  `StartCaptureSimple` returns false.
-/
theorem failed_start_no_residue_iff
    (hReachable : d.Reachable)
    {i : Input}
    (hFails : d.StartFails i) :
    d.NoResidue i ↔ d.ToleratesFailure i := by
  rcases hReachable.shows with ⟨a, h⟩
  cases i with
  | message env id data => exact message_no_residue_iff h hFails
  | captureChainTasks env =>
      exact captureChainTasks_no_residue_iff h hFails
  | singleCaptureTasks env =>
      rcases hFails with ⟨record, hMember, _⟩
      rcases (mem_singleCaptureTasks hMember).2 with
        hEvent | ⟨capture, _, hEvent⟩
      · cases hEvent
      · cases hEvent
  | streamTake env =>
      rcases hFails with ⟨record, hMember, _⟩
      rcases mem_streamTasksTake hMember with
        ⟨next, chunk, block, hEvent⟩
      cases hEvent
  | streamSend env =>
      rcases hFails with ⟨record, hMember, _⟩
      rcases mem_sendStreamBlock
        (mem_streamTasksSend hMember).2 with
        ⟨payload, hEvent, _⟩
      cases hEvent
  | _ =>
      rcases hFails with ⟨record, hMember, _⟩
      rcases Device.mem_step_outside rfl hMember with
        hEvent | ⟨env, id, hEvent⟩
      · cases hEvent
      · cases hEvent

end PicoLogicAnalyzer

namespace PicoLogicAnalyzer

section Sample

attribute [local instance] CaptureModule.sample

/- Surroundings in which no capture starts. -/
def Env.refusing : Env :=
  { Env.smooth with
    captureStarted := false
    chunkStarted := false }

/- A capture chain whose first capture is due. -/
def dueChain : Device :=
  (Device.run (Device.boot CaptureHardware.blank)
    [Input.command 1 "CAPTURE_CHAIN_START"]).1

/- The periodic restart of a capture chain fails. -/
theorem failed_chain_restart_no_residue :
    dueChain.NoResidue (.captureChainTasks Env.refusing) := by
  have hFails :
      dueChain.StartFails
        (.captureChainTasks Env.refusing) := by
    refine
      ⟨dueChain.bridge.setUp .singleCapture false, ?_, rfl⟩
    decide +kernel
  have hNoAnalysis : dueChain.bridge.laRunning = false := by
    decide +kernel
  apply (failed_start_no_residue_iff _ hFails).mpr
  · exact hNoAnalysis
  · exact ⟨CaptureHardware.blank, _, rfl⟩

/-
  A refused `SINGLE_CAPTURE` of a fresh device leaves the
  pull-up on; a refused restart of an analysis session
  leaves it running with nothing to wait for.
-/
theorem refused_starts_leave_residue :
    (Device.run (Device.boot CaptureHardware.blank)
          [.message Env.refusing 1
            (Text.ascii
              "SINGLE_CAPTURE")]).1.bridge.hw.triggerPull =
        .up ∧
      CaptureHardware.blank.triggerPull = .disabled ∧
      (Device.run (Device.boot CaptureHardware.blank)
          [Input.command 1 "CAPTURE_CHAIN_ANALYSIS_START",
            .captureDone 255,
            .captureChainTasks Env.refusing]).1.flags =
        (Activity.chainAnalysis .stalled).flags ∧
      isBusy
          (Device.run (Device.boot CaptureHardware.blank)
            [Input.command 1 "CAPTURE_CHAIN_ANALYSIS_START",
              .captureDone 255,
              .captureChainTasks Env.refusing]).1 =
        true := by
  decide +kernel

end Sample

end PicoLogicAnalyzer
