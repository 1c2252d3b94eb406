import PicoLogicAnalyzer.Firmware.ChainSession

/-
  Progress of chained analysis.

  The links a session has passed are never taken back. A
  completed capture and a later call of the task whose frame
  is accepted therefore move it to the next cycle, whatever
  else happens before, between and after them.

  Key definitions include:
    * `ChainReached`
    * `IsRound`

  Key theorems include:
    * `ChainReached.step`
    * `ChainReached.round`
    * `chainAnalysis_progress`
-/

------------------------------------------------------------
-- Positions In The Cycle
------------------------------------------------------------

namespace PicoLogicAnalyzer

/- The session has passed at least `position` links. -/
def ChainReached
    (config : LaConfig)
    (position : Nat)
    (trace : List Event)
    (d : Device) :
    Prop :=
  ∃ sent stage,
    AnalysisSession config sent stage trace d ∧
      position ≤ 4 * sent + stage.passed

theorem length_chainWord (length : Nat) :
    (chainWord length).length = length := by
  rw [chainWord, List.length_map, List.length_range]

theorem ChainStage.passed_bounds (stage : ChainStage) :
    1 ≤ stage.passed ∧ stage.passed ≤ 3 := by
  cases stage with
  | running => decide
  | finished => decide
  | outstanding => decide

namespace AnalysisSession

variable {config : LaConfig} {sent sent' : Nat}
variable {stage stage' : ChainStage}
variable {trace events : List Event}
variable {d d' : Device}

/- Every link among the events is passed. -/
theorem position_append
    (h : AnalysisSession config sent stage trace d)
    (h' :
      AnalysisSession config sent' stage' (trace ++ events)
        d') :
    4 * sent' + stage'.passed =
      4 * sent + stage.passed + (chainMarks events).length := by
  have hMarks := h'.log.marks
  rw [chainMarks, List.filterMap_append] at hMarks
  have hLength := congrArg List.length hMarks
  have hBefore := congrArg List.length h.log.marks
  rw [length_chainWord] at hLength hBefore
  rw [List.length_append] at hLength
  rw [chainMarks] at hBefore ⊢
  omega

/- Every accepted frame among the events is counted. -/
theorem sent_append
    (h : AnalysisSession config sent stage trace d)
    (h' :
      AnalysisSession config sent' stage' (trace ++ events)
        d') :
    sent' = sent + (chainHeaders events).length := by
  have hLength := h'.log.headers_length
  have hBefore := h.log.headers_length
  rw [chainHeaders, List.filterMap_append,
    List.length_append] at hLength
  rw [chainHeaders] at hBefore ⊢
  omega

/- A block in hand that is accepted becomes a frame. -/
theorem sendBlock_delivers
    (h : AnalysisSession config sent .outstanding trace d)
    {env : Env}
    (hAccepted : env.blockAccepted = true) :
    0 < (chainHeaders (captureChainSendBlock env d).2).length := by
  have hPending : d.blockPending = true :=
    h.shows.blockPending
  have hSmall := h.coherent.pending_le (Or.inl hPending)
  have hResult := captureChainSendBlock_spec hPending hSmall env
  simp only [hAccepted, if_true] at hResult
  rw [hResult]
  exact Nat.zero_lt_succ _

/- So does a completed capture, by one call of the task. -/
theorem task_delivers
    (h : AnalysisSession config sent stage trace d)
    (hStage : stage ≠ .running)
    {env : Env}
    (hAccepted : env.blockAccepted = true) :
    0 <
      (chainHeaders
        (PicoLogicAnalyzer.captureChainTasks env d).2).length := by
  rw [captureChainTasks_chainAnalysis env h.shows]
  simp only [chainHeaders, List.filterMap_append,
    List.length_append]
  cases stage with
  | running => exact absurd rfl hStage
  | finished =>
      rcases h.takeBlock_of_finished env with
        ⟨block, hTaken, hNext⟩
      exact
        Nat.lt_of_lt_of_le
          (hNext.sendBlock_delivers hAccepted)
          (Nat.le_add_left _ _)
  | outstanding =>
      rw [h.takeBlock_of_outstanding env]
      exact
        Nat.lt_of_lt_of_le
          (h.sendBlock_delivers hAccepted)
          (Nat.le_add_left _ _)

end AnalysisSession

end PicoLogicAnalyzer

------------------------------------------------------------
-- Inputs Do Not Take Links Back
------------------------------------------------------------

namespace PicoLogicAnalyzer

namespace ChainReached

variable [CaptureModule]
variable {config : LaConfig} {position cycle : Nat}
variable {trace : List Event} {d : Device}

theorem step
    (h : ChainReached config position trace d)
    {i : Input}
    (hKeeps : i.KeepsAnalysis) :
    ChainReached config position
      (trace ++ (Device.step d i).2) (Device.step d i).1 := by
  rcases h with ⟨sent, stage, hSession, hPosition⟩
  rcases hSession.step hKeeps with ⟨sent', stage', hNext⟩
  have hMoved := hSession.position_append hNext
  exact ⟨sent', stage', hNext, by omega⟩

theorem run
    (h : ChainReached config position trace d)
    {inputs : List Input}
    (hKeeps : ∀ i ∈ inputs, i.KeepsAnalysis) :
    ChainReached config position
      (trace ++ (Device.run d inputs).2)
      (Device.run d inputs).1 :=
  Machine.Guarded.trace_invariant
    (P := fun trace d => ChainReached config position trace d)
    (fun _ _ _ h hInput => h.step hInput) h
    (Machine.Guarded.of_forall
      (fun i hMember _ => hKeeps i hMember) _)

/- A capture that runs completes. -/
theorem captureDone
    (h : ChainReached config (4 * cycle + 1) trace d)
    (tail : Nat) :
    ChainReached config (4 * cycle + 2)
      (trace ++ (Device.step d (.captureDone tail)).2)
      (Device.step d (.captureDone tail)).1 := by
  rcases h with ⟨sent, stage, hSession, hPosition⟩
  have hKeeps : (Input.captureDone tail).KeepsAnalysis :=
    trivial
  rcases hSession.step hKeeps with ⟨sent', stage', hNext⟩
  have hMoved := hSession.position_append hNext
  refine ⟨sent', stage', hNext, ?_⟩
  cases stage with
  | running =>
      have hCapturing : d.bridge.hw.capturing = true :=
        hSession.capturing
      have hCaptured :
          (Device.step d (.captureDone tail)).2 =
            [.captured] := by
        simp only [Device.step, PicoLogicAnalyzer.captureDone]
        rw [if_pos hCapturing]
      rw [hCaptured] at hMoved
      have hOne : (chainMarks [Event.captured]).length = 1 :=
        rfl
      omega
  | finished =>
      have hPassed : ChainStage.finished.passed = 2 := rfl
      omega
  | outstanding =>
      have hPassed : ChainStage.outstanding.passed = 3 := rfl
      omega

/- A completed capture is taken, sent and followed. -/
theorem captureChainTasks
    (h : ChainReached config (4 * cycle + 2) trace d)
    {env : Env}
    (hStarted : env.chunkStarted = true)
    (hAccepted : env.blockAccepted = true) :
    ChainReached config (4 * (cycle + 1) + 1)
      (trace ++ (Device.step d (.captureChainTasks env)).2)
      (Device.step d (.captureChainTasks env)).1 := by
  rcases h with ⟨sent, stage, hSession, hPosition⟩
  have hKeeps :
      (Input.captureChainTasks env).KeepsAnalysis :=
    hStarted
  rcases hSession.step hKeeps with ⟨sent', stage', hNext⟩
  have hSent := hSession.sent_append hNext
  have hBounds := stage'.passed_bounds
  refine ⟨sent', stage', hNext, ?_⟩
  by_cases hRunning : stage = .running
  · -- The session is in a later cycle already.
    subst hRunning
    have hPassed : ChainStage.running.passed = 1 := rfl
    omega
  · have hFrame := hSession.task_delivers hRunning hAccepted
    have hCycle := stage.passed_bounds
    simp only [Device.step] at hSent
    omega

end ChainReached

end PicoLogicAnalyzer

------------------------------------------------------------
-- Rounds
------------------------------------------------------------

namespace PicoLogicAnalyzer

/-
  A capture completes, and some later call of the task finds
  room for the frame.
-/
def IsRound (inputs : List Input) : Prop :=
  ∃ before tail between env after,
    inputs =
        before ++ .captureDone tail ::
          (between ++ .captureChainTasks env :: after) ∧
      env.blockAccepted = true

variable [CaptureModule]

theorem ChainReached.round
    {config : LaConfig}
    {cycle : Nat}
    {trace : List Event}
    {d : Device}
    (h : ChainReached config (4 * cycle + 1) trace d)
    {inputs : List Input}
    (hKeeps : ∀ i ∈ inputs, i.KeepsAnalysis)
    (hRound : IsRound inputs) :
    ChainReached config (4 * (cycle + 1) + 1)
      (trace ++ (Device.run d inputs).2)
      (Device.run d inputs).1 := by
  rcases hRound with
    ⟨before, tail, between, env, after, rfl, hAccepted⟩
  simp only [List.forall_mem_append, List.forall_mem_cons]
    at hKeeps
  rcases hKeeps with
    ⟨hBefore, _, hBetween, hStarted, hAfter⟩
  have hDone := (h.run hBefore).captureDone tail
  have hSent :=
    (hDone.run hBetween).captureChainTasks hStarted hAccepted
  have hEnd := hSent.run hAfter
  simpa [Device.run, Machine.run_append, List.append_assoc]
    using hEnd

theorem ChainReached.rounds
    {config : LaConfig}
    {cycle : Nat}
    {trace : List Event}
    {d : Device}
    (h : ChainReached config (4 * cycle + 1) trace d)
    {rounds : List (List Input)}
    (hKeeps :
      ∀ inputs ∈ rounds, ∀ i ∈ inputs, i.KeepsAnalysis)
    (hRounds : ∀ inputs ∈ rounds, IsRound inputs) :
    ChainReached config (4 * (cycle + rounds.length) + 1)
      (trace ++ (Device.run d rounds.flatten).2)
      (Device.run d rounds.flatten).1 := by
  induction rounds generalizing cycle trace d with
  | nil => simpa using h
  | cons inputs rounds ih =>
      rw [List.forall_mem_cons] at hKeeps hRounds
      have hFirst := h.round hKeeps.1 hRounds.1
      have hRest := ih hFirst hKeeps.2 hRounds.2
      rw [List.flatten_cons, Device.run, Machine.run_append,
        ← List.append_assoc, List.length_cons,
        Nat.add_comm rounds.length 1, ← Nat.add_assoc]
      exact hRest

/-
  Between the start and the stop of chained analysis every
  round delivers a frame: after as many rounds at least as
  many frames have been accepted, and frame `k` carries the
  number `k` and the samples after the first `k` chunks. The
  capture module has to start every chunk; otherwise a round
  may hold any other commands, tasks, refused sends and
  hardware events, in any order.
-/
theorem chainAnalysis_progress
    {d : Device}
    (hReachable : d.Reachable)
    (hFree : isBusy d = false)
    {env : Env}
    (hStarted : env.chunkStarted = true)
    (id : Nat)
    {data : List UInt8}
    (hCommand :
      parseCommand data = .captureChainAnalysisStart)
    {rounds : List (List Input)}
    (hKeeps :
      ∀ inputs ∈ rounds, ∀ i ∈ inputs, i.KeepsAnalysis)
    (hRounds : ∀ inputs ∈ rounds, IsRound inputs) :
    let session :=
      Device.run d (.message env id data :: rounds.flatten)
    rounds.length ≤ (chainHeaders session.2).length ∧
      ∀ (k : Nat) (header : StreamHeader),
        (chainHeaders session.2)[k]? = some header →
          header.IsChainFrame d.bridge.laConfig k := by
  rcases hReachable.shows with ⟨a, hShows⟩
  cases hShows.eq_idle_of_not_busy hFree
  have hStart :
      ChainReached d.bridge.laConfig (4 * 0 + 1)
        (Device.step d (.message env id data)).2
        (Device.step d (.message env id data)).1 :=
    ⟨0, .running,
      AnalysisSession.start hShows hReachable.coherent hStarted
        id hCommand,
      Nat.le_refl 1⟩
  rcases hStart.rounds hKeeps hRounds with
    ⟨sent, stage, hSession, hPosition⟩
  have hBounds := stage.passed_bounds
  refine ⟨?_, hSession.log.headers⟩
  have hSent := hSession.log.headers_length
  simp only [Device.run, Machine.run_cons]
  rw [hSent]
  omega

end PicoLogicAnalyzer

namespace PicoLogicAnalyzer

section Sample

attribute [local instance] CaptureModule.sample

/- A refused send in the first round delays its frame. -/
def sampleRounds : List (List Input) :=
  [[.captureDone 255,
      .captureChainTasks { Env.smooth with blockAccepted := false },
      .captureChainTasks Env.smooth],
    [Input.command 1 "STATUS", .captureDone 511,
      .captureChainTasks Env.smooth]]

theorem sampleRounds_deliver_two_frames :
    sampleRounds.length = 2 ∧
      let session :=
        Device.run (Device.boot CaptureHardware.blank)
          (Input.command 1 "CAPTURE_CHAIN_ANALYSIS_START" ::
            sampleRounds.flatten)
      sampleRounds.length ≤ (chainHeaders session.2).length ∧
        ∀ (k : Nat) (header : StreamHeader),
          (chainHeaders session.2)[k]? = some header →
            header.IsChainFrame LaConfig.initial k := by
  refine ⟨rfl, ?_⟩
  apply chainAnalysis_progress ⟨CaptureHardware.blank, [], rfl⟩
  · rfl
  · rfl
  · decide
  · have hStatus :
        (Input.command 1 "STATUS").KeepsAnalysis := by
      rw [Input.command, Input.KeepsAnalysis]
      decide
    simp only [sampleRounds, List.forall_mem_cons]
    exact
      ⟨⟨trivial, rfl, rfl, List.forall_mem_nil _⟩,
        ⟨hStatus, trivial, rfl, List.forall_mem_nil _⟩,
        List.forall_mem_nil _⟩
  · simp only [sampleRounds, List.forall_mem_cons]
    refine ⟨?_, ?_, List.forall_mem_nil _⟩
    · exact
        ⟨[], 255,
          [.captureChainTasks
            { Env.smooth with blockAccepted := false }],
          Env.smooth, [], rfl, rfl⟩
    · exact
        ⟨[Input.command 1 "STATUS"], 511, [], Env.smooth, [],
          rfl, rfl⟩

end Sample

end PicoLogicAnalyzer
