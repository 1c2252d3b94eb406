import PicoLogicAnalyzer.Firmware.Answers
import PicoLogicAnalyzer.Firmware.Exclusivity

/-
  The pause between chained captures.

  A delivery at clock `t` sets the deadline `t + 50`, in 32
  bits, and each later iteration compares the clock with it
  as a number. The pause is kept as long as the clock does
  not wrap before the next capture is started.

  Key definitions include:
    * `ChainTick`
    * `Device.chainStep`
    * `Paced`
    * `Device.holdsChain`

  Key theorems include:
    * `captureChainTasks_waiting`
    * `Waits.step`
    * `chain_paced_iff`
-/

------------------------------------------------------------
-- Iterations Of The Chain Task
------------------------------------------------------------

namespace PicoLogicAnalyzer

open Word

/-
  An iteration of the chain task: the clock it reads and
  whether it calls `start_capture_chain`.
-/
structure ChainTick where
  now : Nat
  called : Bool
deriving DecidableEq, Repr

/- The call sets up a finite capture, or tries to. -/
def Event.setsUpCapture : Event → Bool
| .setUp record => record.kind == .singleCapture
| _ => false

/- The firmware with the iterations of the chain task. -/
def Device.chainStep
    [CaptureModule]
    (d : Device)
    (i : Input) :
    Device × List ChainTick :=
  ((Device.step d i).1,
    match i with
    | .captureChainTasks env =>
        [⟨env.nowMs,
          (captureChainTasks env d).2.any
            Event.setsUpCapture⟩]
    | _ => [])

/- The input delivers a chained capture. -/
def Device.delivers (d : Device) : Input → Bool
| .captureChainTasks env =>
    !(captureChainDeliver env d).2.1.isEmpty
| _ => false

/- The chain stays enabled and delivers nothing. -/
def Device.holdsChain
    [CaptureModule]
    (d : Device)
    (i : Input) :
    Bool :=
  (Device.step d i).1.captureChainEnabled && !d.delivers i

/- The clock has 32 bits. -/
def Input.InClock : Input → Prop
| .captureChainTasks env => env.nowMs < 2 ^ 32
| _ => True

/- At least 50 ms, modulo the clock, since `t`. -/
def ChainTick.due (t : Nat) (tick : ChainTick) : Bool :=
  50 ≤ sub32 tick.now t

/-
  After a delivery at clock `t` no capture is started before
  50 ms have elapsed, and one is in the first iteration at
  which they have.
-/
structure Paced
    (t : Nat)
    (ticks : List ChainTick) : Prop where
  early :
    ∀ tick ∈ ticks, tick.due t = false →
      tick.called = false
  first :
    ∀ tick, ticks.find? (ChainTick.due t) = some tick →
      tick.called = true

/- An iteration before the end of the pause. -/
theorem paced_cons_iff
    {t : Nat}
    {tick : ChainTick}
    (hNotDue : tick.due t = false)
    (ticks : List ChainTick) :
    Paced t (tick :: ticks) ↔
      tick.called = false ∧ Paced t ticks := by
  have hFind :
      (tick :: ticks).find? (ChainTick.due t) =
        ticks.find? (ChainTick.due t) :=
    List.find?_cons_of_neg (by simp [hNotDue])
  constructor
  · rintro ⟨hEarly, hFirst⟩
    rw [List.forall_mem_cons] at hEarly
    rw [hFind] at hFirst
    exact ⟨hEarly.1 hNotDue, hEarly.2, hFirst⟩
  · rintro ⟨hQuiet, hEarly, hFirst⟩
    refine ⟨?_, ?_⟩
    · rw [List.forall_mem_cons]
      exact ⟨fun _ => hQuiet, hEarly⟩
    · rw [hFind]
      exact hFirst

theorem ChainTick.due_self
    {t : Nat}
    (hStart : t < 2 ^ 32)
    (called : Bool) :
    ChainTick.due t ⟨t, called⟩ = false := by
  simp [due, sub32_of_le (Nat.le_refl t) hStart]

/- Without a wrap the deadline is the end of the pause. -/
theorem ChainTick.due_iff
    {t : Nat}
    {tick : ChainTick}
    (hDeadline : t + 50 < 2 ^ 32)
    (hNow : tick.now < 2 ^ 32)
    (hLater : t ≤ tick.now) :
    tick.due t = true ↔ t + 50 ≤ tick.now := by
  have hStart : t < 2 ^ 32 := by omega
  have hDelay : 50 < 2 ^ 32 := by decide
  have hExact :=
    (deadline_exact_iff hStart hDelay hNow).mpr
      ⟨fun _ => hLater, fun _ => hDeadline⟩
  rw [u32_of_lt hDeadline] at hExact
  rw [due, decide_eq_true_eq, hExact]

end PicoLogicAnalyzer

------------------------------------------------------------
-- The Chain Task While It Waits
------------------------------------------------------------

namespace PicoLogicAnalyzer

open Word

variable {d : Device} {a : Activity}

/- Outside analysis the task ends with the restart. -/
theorem captureChainContinue_eq
    (env : Env)
    (hAnalysis : d.captureChainAnalysisEnabled = false)
    (hBlock : d.blockPending = false) :
    captureChainContinue env d = captureChainRestart env d := by
  have hSame :
      (captureChainRestart env
          d).1.captureChainAnalysisEnabled = false ∧
        (captureChainRestart env d).1.blockPending =
          false := by
    unfold captureChainRestart
    split <;> exact ⟨hAnalysis, hBlock⟩
  simp [captureChainContinue, captureChainTakeBlock,
    captureChainSendBlock, hSame]

/- An enabled chain waits or captures. -/
theorem Device.Shows.chain_of_enabled
    (h : d.Shows a)
    (hEnabled : d.captureChainEnabled = true) :
    a = .chainWaiting ∨ a = .chainCapturing := by
  rw [h.captureChainEnabled] at hEnabled
  cases a with
  | chainWaiting => exact Or.inl rfl
  | chainCapturing => exact Or.inr rfl
  | _ => cases hEnabled

theorem chain_flags_of_enabled
    (h : d.Shows a)
    (hEnabled : d.captureChainEnabled = true) :
    isBusy d = true ∧
      d.captureChainAnalysisEnabled = false ∧
      d.blockPending = false := by
  rw [h.isBusy, h.captureChainAnalysisEnabled,
    h.blockPending]
  rcases h.chain_of_enabled hEnabled with rfl | rfl
  · exact ⟨rfl, rfl, rfl⟩
  · exact ⟨rfl, rfl, rfl⟩

/- A finished capture of an enabled chain has a result. -/
theorem captureChainDeliver_of_enabled
    (h : d.Shows a)
    (hEnabled : d.captureChainEnabled = true)
    (env : Env) :
    (d.delivers (.captureChainTasks env) = false ∧
        captureChainDeliver env d = (d, [], true)) ∨
      (d.delivers (.captureChainTasks env) = true ∧
        ∃ bridge event,
          event.setsUpCapture = false ∧
            captureChainDeliver env d =
              ({ d with
                  bridge := bridge
                  captureChainPending := false
                  nextStreamMs := u32 (env.nowMs + 50) },
                [event], true)) := by
  simp only [Device.delivers, captureChainDeliver]
  split
  · rename_i hFinished
    rw [Bool.and_eq_true, Bool.not_eq_true'] at hFinished
    -- The pending capture is the active one.
    have hActive : d.bridge.laSingleCaptureActive = true := by
      rw [h.laSingleCaptureActive]
      rw [h.captureChainPending] at hFinished
      rcases h.chain_of_enabled hEnabled with rfl | rfl
      · cases hFinished.1
      · rfl
    have hDone : d.bridge.hw.capturing = false := by
      simpa [laSingleCaptureIsRunning, hActive] using
        hFinished.2
    right
    simp only [laSingleCaptureGetResult, hActive, hDone]
    exact ⟨rfl, _, _, rfl, rfl⟩
  · exact Or.inl ⟨rfl, rfl⟩

/- Otherwise the task only looks at the deadline. -/
theorem captureChainTasks_eq
    (h : d.Shows a)
    (hEnabled : d.captureChainEnabled = true)
    {env : Env}
    (hQuiet : d.delivers (.captureChainTasks env) = false) :
    captureChainTasks env d = captureChainRestart env d := by
  rcases chain_flags_of_enabled h hEnabled with
    ⟨_, hAnalysis, hBlock⟩
  rcases captureChainDeliver_of_enabled h hEnabled env with
    ⟨_, hDeliver⟩ | ⟨hDelivers, _⟩
  · simp only [captureChainTasks, hDeliver, if_true,
      captureChainContinue_eq env hAnalysis hBlock,
      List.nil_append]
  · cases hQuiet.symm.trans hDelivers

/- A waiting chain calls exactly when the clock says so. -/
theorem captureChainRestart_called
    (h : d.Shows .chainWaiting)
    (env : Env) :
    (captureChainRestart env d).2.any Event.setsUpCapture =
      decide (d.nextStreamMs ≤ env.nowMs) := by
  by_cases hDue : d.nextStreamMs ≤ env.nowMs
  · rw [captureChainRestart_waiting h hDue]
    simp [hDue, Event.setsUpCapture, Bridge.setUp]
  · simp [captureChainRestart, hDue]

/- A capture under way is not followed by another call. -/
theorem captureChainRestart_pending
    (env : Env)
    (hPending : d.captureChainPending = true) :
    captureChainRestart env d = (d, []) := by
  simp [captureChainRestart, hPending]

theorem captureChainRestart_nextStreamMs
    (env : Env)
    (d : Device) :
    (captureChainRestart env d).1.nextStreamMs =
      d.nextStreamMs := by
  unfold captureChainRestart
  split <;> rfl

variable [CaptureModule]

/- What the other inputs leave alone while busy. -/
theorem Device.step_chain_frame
    (hBusy : isBusy d = true)
    {i : Input}
    (hOther : ∀ env, i ≠ .captureChainTasks env) :
    (Device.step d i).1.captureChainPending =
        d.captureChainPending ∧
      (Device.step d i).1.nextStreamMs =
        d.nextStreamMs := by
  cases i with
  | message env id data =>
      simp only [Device.step, websocketMessage]
      by_cases hStarts : (parseCommand data).starts ≠ none
      · rw [handleCommand_refused hBusy env id data hStarts]
        exact ⟨rfl, rfl⟩
      · rw [not_not] at hStarts
        generalize parseCommand data = command at hStarts
        cases command <;>
          first | exact ⟨rfl, rfl⟩ | cases hStarts
  | connect env id => exact ⟨rfl, rfl⟩
  | disconnect id => exact ⟨rfl, rfl⟩
  | singleCaptureTasks env =>
      simp only [Device.step, singleCaptureTasks]
      split <;> exact ⟨rfl, rfl⟩
  | captureChainTasks env => exact absurd rfl (hOther env)
  | streamTake env =>
      simp only [Device.step, streamTasksTake]
      split
      · split <;> exact ⟨rfl, rfl⟩
      · exact ⟨rfl, rfl⟩
  | streamSend env =>
      simp only [Device.step, streamTasksSend]
      split
      · split <;> exact ⟨rfl, rfl⟩
      · exact ⟨rfl, rfl⟩
  | captureWrite memory =>
      simp only [Device.step, captureWrite]
      split <;> exact ⟨rfl, rfl⟩
  | captureDone tail =>
      simp only [Device.step, captureDone]
      split <;> exact ⟨rfl, rfl⟩
  | dmaWrite position byte =>
      simp only [Device.step, dmaWrite]
      split <;> exact ⟨rfl, rfl⟩
  | dmaInterrupt =>
      simp only [Device.step, dmaInterrupt]
      split <;> exact ⟨rfl, rfl⟩

end PicoLogicAnalyzer

------------------------------------------------------------
-- Runs Until The Next Delivery
------------------------------------------------------------

namespace PicoLogicAnalyzer

open Word

variable [CaptureModule] {d : Device} {deadline : Nat}

/- The chain is enabled and has this deadline. -/
structure Waits (deadline : Nat) (d : Device) : Prop where
  shows : ∃ a, d.Shows a
  enabled : d.captureChainEnabled = true
  deadline_eq : d.nextStreamMs = deadline

/- The iteration of an enabled chain without a delivery. -/
theorem Waits.chainStep_task
    (h : Waits deadline d)
    {env : Env}
    (hQuiet : d.delivers (.captureChainTasks env) = false) :
    d.chainStep (.captureChainTasks env) =
      ((captureChainRestart env d).1,
        [⟨env.nowMs,
          !d.captureChainPending &&
            decide (deadline ≤ env.nowMs)⟩]) := by
  rcases h.shows with ⟨a, hShows⟩
  simp only [Device.chainStep, Device.step,
    captureChainTasks_eq hShows h.enabled hQuiet]
  rw [← h.deadline_eq]
  rcases hShows.chain_of_enabled h.enabled with rfl | rfl
  · have hPending : d.captureChainPending = false :=
      hShows.captureChainPending
    rw [captureChainRestart_called hShows, hPending]
    rfl
  · have hPending : d.captureChainPending = true :=
      hShows.captureChainPending
    rw [captureChainRestart_pending env hPending, hPending]
    rfl

/-
  One step keeps the deadline. An iteration calls when the
  deadline has passed and no capture is under way.
-/
theorem Waits.step
    (h : Waits deadline d)
    {i : Input}
    (hHeld : d.holdsChain i = true) :
    Waits deadline (d.chainStep i).1 ∧
      (((d.chainStep i).2 = [] ∧
          (d.chainStep i).1.captureChainPending =
            d.captureChainPending) ∨
        ∃ tick,
          (d.chainStep i).2 = [tick] ∧
            (tick.called = true ↔
              d.captureChainPending = false ∧
                deadline ≤ tick.now) ∧
            (tick.called = false →
              (d.chainStep i).1.captureChainPending =
                d.captureChainPending)) := by
  rcases h.shows with ⟨a, hShows⟩
  rw [Device.holdsChain, Bool.and_eq_true,
    Bool.not_eq_true'] at hHeld
  have hBusy := (chain_flags_of_enabled hShows h.enabled).1
  have hNext := Device.step_shows hShows i
  by_cases hTask : ∃ env, i = .captureChainTasks env
  · rcases hTask with ⟨env, rfl⟩
    have hStep := h.chainStep_task hHeld.2
    have hState := congrArg Prod.fst hStep
    refine ⟨⟨hNext, hHeld.1, ?_⟩, Or.inr ?_⟩
    · rw [hState]
      exact
        (captureChainRestart_nextStreamMs env d).trans
          h.deadline_eq
    · refine ⟨_, congrArg Prod.snd hStep, ?_, ?_⟩
      · simp
      · intro hQuiet
        rw [hState]
        simp only [Bool.and_eq_false_iff, Bool.not_eq_false',
          decide_eq_false_iff_not] at hQuiet
        rcases hQuiet with hPending | hEarly
        · rw [captureChainRestart_pending env hPending]
        · rw [← h.deadline_eq] at hEarly
          simp [captureChainRestart, hEarly]
  · have hFrame :=
      Device.step_chain_frame hBusy (not_exists.mp hTask)
    refine ⟨⟨hNext, hHeld.1, ?_⟩, Or.inl ⟨?_, hFrame.1⟩⟩
    · exact hFrame.2.trans h.deadline_eq
    · cases i with
      | captureChainTasks env =>
          exact absurd ⟨env, rfl⟩ hTask
      | _ => rfl

/- No call of a run comes before the deadline. -/
theorem Waits.run_called
    (h : Waits deadline d)
    {inputs : List Input}
    (hHeld :
      Machine.Guarded Device.chainStep
        (fun d i => d.holdsChain i = true) d inputs) :
    ∀ tick ∈ (Machine.run Device.chainStep d inputs).2,
      tick.called = true → deadline ≤ tick.now := by
  refine
    Machine.Guarded.outputs (P := Waits deadline) ?_ ?_ h hHeld
  · intro d i hWaits hStep
    exact (hWaits.step hStep).1
  · intro d i hWaits hStep tick hMember hCalled
    rcases (hWaits.step hStep).2 with
      ⟨hNone, _⟩ | ⟨tick', hOne, hIff, _⟩
    · rw [hNone] at hMember
      cases hMember
    · rw [hOne, List.mem_singleton] at hMember
      subst hMember
      exact (hIff.mp hCalled).2

/- The first call of a run is made once the deadline passed. -/
theorem Waits.run_first
    (h : Waits deadline d)
    (hFree : d.captureChainPending = false)
    {inputs : List Input}
    (hHeld :
      Machine.Guarded Device.chainStep
        (fun d i => d.holdsChain i = true) d inputs)
    {before after : List ChainTick}
    {tick : ChainTick}
    (hTicks :
      (Machine.run Device.chainStep d inputs).2 =
        before ++ tick :: after)
    (hBefore : ∀ tick ∈ before, tick.called = false)
    (hPassed : deadline ≤ tick.now) :
    tick.called = true := by
  induction inputs generalizing d before with
  | nil => simp at hTicks
  | cons i inputs ih =>
      rcases h.step hHeld.1 with ⟨hNext, hCases⟩
      rw [Machine.run_cons] at hTicks
      rcases hCases with
        ⟨hNone, hPending⟩ | ⟨tick', hOne, hIff, hQuiet⟩
      · rw [hNone, List.nil_append] at hTicks
        exact
          ih hNext (hPending.trans hFree) hHeld.2 hTicks
            hBefore
      · rw [hOne, List.singleton_append] at hTicks
        cases before with
        | nil =>
            cases hTicks
            exact hIff.mpr ⟨hFree, hPassed⟩
        | cons tick'' before =>
            rw [List.cons_append, List.cons.injEq] at hTicks
            rw [List.forall_mem_cons, ← hTicks.1] at hBefore
            exact
              ih hNext ((hQuiet hBefore.1).trans hFree)
                hHeld.2 hTicks.2 hBefore.2

end PicoLogicAnalyzer

------------------------------------------------------------
-- Pauses And The Wrap Of The Clock
------------------------------------------------------------

namespace PicoLogicAnalyzer

open Word

variable [CaptureModule] {d : Device}

/- The iteration that delivers compares its own clock. -/
theorem chainStep_delivery
    {a : Activity}
    (h : d.Shows a)
    (hEnabled : d.captureChainEnabled = true)
    {env : Env}
    (hDelivers :
      d.delivers (.captureChainTasks env) = true) :
    (d.chainStep (.captureChainTasks env)).2 =
        [⟨env.nowMs,
          decide (u32 (env.nowMs + 50) ≤ env.nowMs)⟩] ∧
      (¬ u32 (env.nowMs + 50) ≤ env.nowMs →
        Waits (u32 (env.nowMs + 50))
            (d.chainStep (.captureChainTasks env)).1 ∧
          (d.chainStep
            (.captureChainTasks env)).1.captureChainPending =
              false) := by
  have hNext := captureChainDeliver_shows h env
  rcases captureChainDeliver_of_enabled h hEnabled env with
    ⟨hQuiet, _⟩ | ⟨_, bridge, event, hEvent, hDeliver⟩
  · cases hQuiet.symm.trans hDelivers
  rw [hDeliver] at hNext
  generalize hState :
    ({ d with
        bridge := bridge
        captureChainPending := false
        nextStreamMs := u32 (env.nowMs + 50) } : Device) =
      d' at hNext hDeliver
  have hFacts :
      d'.captureChainEnabled = true ∧
        d'.captureChainPending = false ∧
        d'.nextStreamMs = u32 (env.nowMs + 50) := by
    subst hState
    exact ⟨hEnabled, rfl, rfl⟩
  rcases hFacts with ⟨hEnabled', hFree, hDeadline⟩
  rcases chain_flags_of_enabled hNext hEnabled' with
    ⟨_, hAnalysis, hBlock⟩
  have hWaiting : d'.Shows .chainWaiting := by
    rcases hNext.chain_of_enabled hEnabled' with hCase | hCase
    · rw [hCase] at hNext
      exact hNext
    · rw [hNext.captureChainPending, hCase] at hFree
      cases hFree
  have hTask :
      captureChainTasks env d =
        ((captureChainRestart env d').1,
          event :: (captureChainRestart env d').2) := by
    simp only [captureChainTasks, hDeliver, if_true,
      captureChainContinue_eq env hAnalysis hBlock,
      List.singleton_append]
  simp only [Device.chainStep, Device.step, hTask,
    List.any_cons, hEvent, Bool.false_or,
    captureChainRestart_called hWaiting, hDeadline,
    true_and]
  intro hEarly
  have hSame : captureChainRestart env d' = (d', []) := by
    simp [captureChainRestart, hDeadline, hEarly]
  rw [hSame]
  exact ⟨⟨⟨_, hWaiting⟩, hEnabled', hDeadline⟩, hFree⟩

/- Every iteration reads a 32-bit clock. -/
theorem run_ticks_inClock
    {inputs : List Input}
    (hClock : ∀ i ∈ inputs, i.InClock)
    (d : Device) :
    ∀ tick ∈ (Machine.run Device.chainStep d inputs).2,
      tick.now < 2 ^ 32 := by
  refine
    Machine.Guarded.outputs (P := fun _ => True)
      (fun _ _ _ _ => trivial) ?_ trivial
      (Machine.Guarded.of_forall
        (fun i hMember _ => hClock i hMember) d)
  intro d i _ hInClock tick hMember
  cases i with
  | captureChainTasks env =>
      rw [Device.chainStep, List.mem_singleton] at hMember
      subst hMember
      exact hInClock
  | _ => cases hMember

/- The pause of a waiting chain, without a wrap of `t + 50`. -/
theorem Waits.paced_iff
    {t : Nat}
    (hDeadline : t + 50 < 2 ^ 32)
    (h : Waits (t + 50) d)
    (hFree : d.captureChainPending = false)
    {inputs : List Input}
    (hHeld :
      Machine.Guarded Device.chainStep
        (fun d i => d.holdsChain i = true) d inputs)
    (hClock : ∀ i ∈ inputs, i.InClock) :
    Paced t (Machine.run Device.chainStep d inputs).2 ↔
      ∀ tick,
        (Machine.run Device.chainStep d inputs).2.find?
            (ChainTick.due t) = some tick →
          t ≤ tick.now := by
  have hCalled := h.run_called hHeld
  have hNow := run_ticks_inClock hClock d
  -- A call comes after the deadline, so none is too early.
  have hEarly :
      ∀ tick ∈ (Machine.run Device.chainStep d inputs).2,
        tick.due t = false → tick.called = false := by
    intro tick hMember hNotDue
    by_contra hCall
    rw [Bool.not_eq_false] at hCall
    have hPassed := hCalled tick hMember hCall
    have hDue :=
      (ChainTick.due_iff hDeadline (hNow tick hMember)
        (by omega)).mpr hPassed
    cases hNotDue.symm.trans hDue
  constructor
  · rintro ⟨_, hFirst⟩ tick hFind
    have hPassed :=
      hCalled tick (List.mem_of_find?_eq_some hFind)
        (hFirst tick hFind)
    omega
  · intro hLater
    refine ⟨hEarly, ?_⟩
    intro tick hFind
    rcases List.find?_eq_some_iff_append.mp hFind with
      ⟨hDue, before, after, hSplit, hBefore⟩
    have hPassed :=
      (ChainTick.due_iff hDeadline
        (hNow tick (List.mem_of_find?_eq_some hFind))
        (hLater tick hFind)).mp hDue
    refine h.run_first hFree hHeld hSplit ?_ hPassed
    intro tick' hMember
    apply hEarly tick'
    · rw [hSplit]
      exact List.mem_append_left _ hMember
    · simpa using hBefore tick' hMember

/-
  The pause after a delivery is kept exactly when the
  deadline does not wrap and the clock has not wrapped
  either in the first iteration after it.
-/
theorem chain_paced_iff
    (hReachable : d.Reachable)
    (hEnabled : d.captureChainEnabled = true)
    (env : Env)
    (hDelivers :
      d.delivers (.captureChainTasks env) = true)
    (inputs : List Input)
    (hHeld :
      Machine.Guarded Device.chainStep
        (fun d i => d.holdsChain i = true)
        (d.chainStep (.captureChainTasks env)).1 inputs)
    (hClock :
      ∀ i ∈ .captureChainTasks env :: inputs, i.InClock) :
    let ticks :=
      (Machine.run Device.chainStep d
        (.captureChainTasks env :: inputs)).2
    Paced env.nowMs ticks ↔
      env.nowMs + 50 < 2 ^ 32 ∧
        ∀ tick,
          ticks.find? (ChainTick.due env.nowMs) = some tick →
            env.nowMs ≤ tick.now := by
  rcases hReachable.shows with ⟨a, hShows⟩
  rw [List.forall_mem_cons] at hClock
  have hStart : env.nowMs < 2 ^ 32 := hClock.1
  rcases chainStep_delivery hShows hEnabled hDelivers with
    ⟨hTick, hWaits⟩
  intro ticks
  have hTicks :
      ticks =
        ⟨env.nowMs, decide
            (u32 (env.nowMs + 50) ≤ env.nowMs)⟩ ::
          (Machine.run Device.chainStep
            (d.chainStep (.captureChainTasks env)).1
            inputs).2 := by
    simp only [ticks, Machine.run_cons, hTick,
      List.singleton_append]
  have hNotDue := ChainTick.due_self hStart
  rw [hTicks, paced_cons_iff (hNotDue _),
    List.find?_cons_of_neg (by simp [hNotDue]),
    decide_eq_false_iff_not]
  by_cases hDeadline : env.nowMs + 50 < 2 ^ 32
  · have hEarly : ¬ u32 (env.nowMs + 50) ≤ env.nowMs := by
      rw [u32_of_lt hDeadline]
      omega
    rcases hWaits hEarly with ⟨hWaiting, hFree⟩
    rw [u32_of_lt hDeadline] at hWaiting
    rw [hWaiting.paced_iff hDeadline hFree hHeld hClock.2]
    simp only [hEarly, hDeadline, not_false_eq_true]
  · -- The delivering iteration itself starts a capture.
    have hWrapped : u32 (env.nowMs + 50) ≤ env.nowMs := by
      unfold u32
      omega
    simp only [hWrapped, hDeadline, not_true_eq_false,
      false_and]

end PicoLogicAnalyzer

------------------------------------------------------------
-- Concrete Pauses
------------------------------------------------------------

namespace PicoLogicAnalyzer

section Sample

attribute [local instance] CaptureModule.sample

/- An iteration of the chain task at a clock value. -/
def Input.chainAt (now : Nat) : Input :=
  .captureChainTasks { Env.smooth with nowMs := now }

/- A chain whose first capture has just finished. -/
def Device.firstChained : Device :=
  (Device.run (Device.boot CaptureHardware.blank)
    [.command 1 "CAPTURE_CHAIN_START", .chainAt 0,
      .captureDone 31]).1

/- Far from the wrap the second capture follows in time. -/
theorem pause_kept_at_one_second :
    Paced 1000
      (Machine.run Device.chainStep .firstChained
        [.chainAt 1000, .chainAt 1020, .chainAt 1055]).2 := by
  refine
    (chain_paced_iff (d := .firstChained)
      ⟨CaptureHardware.blank, _, rfl⟩ (by decide +kernel)
      { Env.smooth with nowMs := 1000 } (by decide +kernel)
      [.chainAt 1020, .chainAt 1055] (by decide +kernel)
      ?_).mpr ⟨by decide, ?_⟩
  · simp [Input.InClock, Input.chainAt]
  · have hFirst :
        (Machine.run Device.chainStep .firstChained
            [.chainAt 1000, .chainAt 1020,
              .chainAt 1055]).2.find?
            (ChainTick.due 1000) =
          some ⟨1055, true⟩ := by
      decide +kernel
    intro tick hFind
    cases hFirst.symm.trans hFind
    decide

/-
  A delivery less than 50 ms before the wrap is followed by
  the next capture at once. A delivery 60 ms before it is
  followed by none in an iteration 70 ms later.
-/
theorem wrap_breaks_pause :
    (Device.delivers .firstChained (.chainAt 4294967246) =
        true ∧
      (Machine.run Device.chainStep .firstChained
          [.chainAt 4294967246]).2 =
        [⟨4294967246, true⟩] ∧
      ¬ Paced 4294967246 [⟨4294967246, true⟩]) ∧
    (Device.delivers .firstChained (.chainAt 4294967236) =
        true ∧
      (Machine.run Device.chainStep .firstChained
          [.chainAt 4294967236, .chainAt 10]).2 =
        [⟨4294967236, false⟩, ⟨10, false⟩] ∧
      ¬ Paced 4294967236
        [⟨4294967236, false⟩, ⟨10, false⟩]) := by
  refine
    ⟨⟨by decide +kernel, by decide +kernel, ?_⟩,
      by decide +kernel, by decide +kernel, ?_⟩
  · rintro ⟨hEarly, _⟩
    have hQuiet := hEarly _ (List.mem_cons_self ..) (by decide)
    cases hQuiet
  · rintro ⟨_, hFirst⟩
    have hCall := hFirst ⟨10, false⟩ (by decide)
    cases hCall

end Sample

end PicoLogicAnalyzer
