import PicoLogicAnalyzer.Firmware.Answers

/-
  Bringing the device back to idle.

  Each stop command rules out the operations it ends and
  brings none of the others back, so the order of the stops
  does not matter. What is left over is an aborted single
  capture or a stopped chain, and the tasks clean these up.

  Key definitions include:
    * `Message`
    * `Activity.EndedBy`
    * `Activity.LeftOver`
    * `Device.Recovered`

  Key theorems include:
    * `run_stops_shows`
    * `stops_and_tasks_recover`
-/

------------------------------------------------------------
-- Stop Messages
------------------------------------------------------------

namespace PicoLogicAnalyzer

/- A message as `websocket_message` receives it. -/
structure Message where
  env : Env
  id : Nat
  data : List UInt8

def Message.input (m : Message) : Input :=
  .message m.env m.id m.data

def Message.command (m : Message) : Command :=
  parseCommand m.data

/- The three stops that together end every operation. -/
def stopCommands : List Command :=
  [.captureChainStop, .captureChainAnalysisStop, .streamStop]

/- The activities a stop command ends. -/
def Activity.EndedBy : Activity → Command → Prop
| .single active, .captureChainStop => active = true
| .chainWaiting, .captureChainStop => True
| .chainCapturing, .captureChainStop => True
| .chainAnalysis _, .captureChainAnalysisStop => True
| .streaming _ _, .streamStop => True
| _, _ => False

/- What remains for the tasks after the stops. -/
inductive Activity.LeftOver : Activity → Prop where
  | idle : LeftOver .idle
  | aborted : LeftOver (.single false)
  | stopped : LeftOver .chainStopping

/- An activity that no stop ends is left over. -/
theorem Activity.leftOver_of_not_ended
    {a : Activity}
    (hEnded : ∀ c ∈ stopCommands, ¬ a.EndedBy c) :
    a.LeftOver := by
  simp only [stopCommands, List.forall_mem_cons] at hEnded
  rcases hEnded with ⟨hChain, hAnalysis, hStream, _⟩
  cases a with
  | idle => exact .idle
  | single active =>
      cases active with
      | false => exact .aborted
      | true => exact absurd rfl hChain
  | chainWaiting => exact absurd trivial hChain
  | chainCapturing => exact absurd trivial hChain
  | chainStopping => exact .stopped
  | chainAnalysis phase => exact absurd trivial hAnalysis
  | streaming analysis pending =>
      exact absurd trivial hStream

/- A stop ends what it is for. -/
theorem Activity.not_endedBy_handle
    (env : Env)
    (a : Activity)
    {c : Command}
    (hStop : c ∈ stopCommands) :
    ¬ (a.handle env c).EndedBy c := by
  simp only [stopCommands, List.mem_cons,
    List.not_mem_nil, or_false] at hStop
  rcases hStop with rfl | rfl | rfl <;>
    cases a <;>
      simp [Activity.handle, Activity.stopChain,
        Activity.stopAnalysis, Activity.stopStream,
        Activity.EndedBy]

/- A stop brings back nothing that another one has ended. -/
theorem Activity.not_endedBy_keep
    (env : Env)
    {a : Activity}
    {c c' : Command}
    (hStop : c' ∈ stopCommands)
    (hEnded : ¬ a.EndedBy c) :
    ¬ (a.handle env c').EndedBy c := by
  simp only [stopCommands, List.mem_cons,
    List.not_mem_nil, or_false] at hStop
  rcases hStop with rfl | rfl | rfl <;>
    cases a <;> cases c <;>
      simp_all [Activity.handle, Activity.stopChain,
        Activity.stopAnalysis, Activity.stopStream,
        Activity.EndedBy]

variable [CaptureModule]

/-
  The induction is on the messages: those already handled
  stay ended.
-/
theorem run_stops_shows
    {d : Device}
    {a : Activity}
    (h : d.Shows a)
    {stops : List Message}
    (hStops : ∀ m ∈ stops, m.command ∈ stopCommands) :
    ∃ a',
      (Device.run d (stops.map Message.input)).1.Shows a' ∧
        (∀ m ∈ stops, ¬ a'.EndedBy m.command) ∧
          ∀ c, ¬ a.EndedBy c → ¬ a'.EndedBy c := by
  induction stops generalizing d a with
  | nil => exact ⟨a, h, by simp, fun _ hEnded => hEnded⟩
  | cons m stops ih =>
      rw [List.forall_mem_cons] at hStops
      rcases hStops with ⟨hStop, hStops⟩
      have hFirst :=
        handleCommand_shows h m.env m.id m.data m.command
      rcases ih hFirst hStops with
        ⟨a', hShows, hHandled, hKept⟩
      refine ⟨a', hShows, ?_, ?_⟩
      · rw [List.forall_mem_cons]
        constructor
        · apply hKept
          exact Activity.not_endedBy_handle m.env a hStop
        · exact hHandled
      · intro c hEnded
        apply hKept
        exact Activity.not_endedBy_keep m.env hStop hEnded

end PicoLogicAnalyzer

------------------------------------------------------------
-- Clean-Up By The Tasks
------------------------------------------------------------

namespace PicoLogicAnalyzer

variable {d : Device} {a : Activity}

theorem Activity.Continues.eq_idle
    (h : Activity.idle.Continues a) :
    a = .idle := by
  rcases h with hIdle | ⟨hOperation, _⟩
  · exact hIdle
  · cases a <;> cases hOperation
    rfl

/- No capture of an operation left over still runs. -/
theorem Device.Shows.not_running_of_leftOver
    (h : d.Shows a)
    (hLeft : a.LeftOver) :
    laSingleCaptureIsRunning d.bridge = false := by
  have hActive : a.flags.laSingleCaptureActive = false := by
    cases hLeft <;> rfl
  simp [laSingleCaptureIsRunning, h.laSingleCaptureActive,
    hActive]

theorem singleCaptureTasks_leftOver
    (h : d.Shows a)
    (hLeft : a.LeftOver)
    (env : Env) :
    (singleCaptureTasks env d).1.Shows a.finishSingle := by
  have hShows := singleCaptureTasks_shows h env
  rw [h.not_running_of_leftOver hLeft] at hShows
  exact hShows

/- The chain task ends what the single task has left. -/
theorem captureChainTasks_leftOver
    (h : d.Shows a.finishSingle)
    (hLeft : a.LeftOver)
    (env : Env) :
    (captureChainTasks env d).1.Shows .idle := by
  have hRest : a.finishSingle.LeftOver := by
    cases hLeft with
    | idle => exact .idle
    | aborted => exact .idle
    | stopped => exact .stopped
  have hDeliver : (captureChainDeliver env d).1.Shows .idle := by
    have hShows := captureChainDeliver_shows h env
    rw [h.not_running_of_leftOver hRest] at hShows
    cases hLeft <;> exact hShows
  simp only [captureChainTasks]
  split
  · rcases captureChainContinue_shows hDeliver env with
      ⟨a', hShows, hContinues⟩
    rw [hContinues.eq_idle] at hShows
    exact hShows
  · exact hDeliver

/- An idle device stays idle without a command. -/
theorem Device.Shows.idle_step
    [CaptureModule]
    (h : d.Shows .idle)
    {i : Input}
    (hTask : ∀ env id data, i ≠ .message env id data) :
    (Device.step d i).1.Shows .idle := by
  rcases Device.step_continues h hTask with
    ⟨a', hShows, hContinues⟩
  rw [hContinues.eq_idle] at hShows
  exact hShows

end PicoLogicAnalyzer

------------------------------------------------------------
-- Recovery
------------------------------------------------------------

namespace PicoLogicAnalyzer

/- One execution of the three tasks, in main loop order. -/
def taskInputs (single chain take send : Env) : List Input :=
  [.singleCaptureTasks single, .captureChainTasks chain,
    .streamTake take, .streamSend send]

/- All flags are down and every start command is heard. -/
structure Device.Recovered
    [CaptureModule]
    (d : Device) : Prop where
  flags : d.flags = Flags.idle
  not_busy : isBusy d = false
  not_refused :
    ∀ (m : Message) (op : Operation),
      m.command.starts = some op →
        ∀ dest accepted,
          Event.sent dest (.text "CAPTURE_BUSY") accepted ∉
            (Device.step d m.input).2

/- An idle device answers a start with another text. -/
theorem Activity.answer_of_starts
    {env : Env}
    {c : Command}
    {op : Operation}
    (hStarts : c.starts = some op) :
    ∃ text,
      Activity.idle.answer env c = some text ∧
        text ≠ "CAPTURE_BUSY" := by
  cases hText : Activity.idle.answer env c with
  | some text =>
      refine ⟨text, rfl, ?_⟩
      rintro rfl
      exact Activity.idle_answer_ne_busy env c hText
  | none => cases c <;> cases hStarts <;> cases hText

variable [CaptureModule] {d : Device}

theorem Device.Shows.recovered
    (h : d.Shows .idle) :
    d.Recovered where
  flags := h.flags
  not_busy := h.isBusy
  not_refused := by
    intro m op hStarts dest accepted hBusy
    rcases Activity.answer_of_starts hStarts with
      ⟨text, hAnswer, hText⟩
    rcases handleCommand_answered h m.env m.id m.data
      m.command with ⟨setUps, payload, hAnswered⟩
    have hPayload := hAnswered.text text hAnswer
    have hEvents :
        (Device.step d m.input).2 =
          .received m.id m.data ::
            (handleCommand m.env m.id m.data d m.command).2 :=
      rfl
    rw [hEvents, hAnswered.events_eq, hPayload] at hBusy
    simp only [List.mem_cons, List.mem_append, List.mem_map,
      reduceCtorEq, and_false, exists_false, false_or,
      List.not_mem_nil, or_false, Event.sent.injEq,
      Payload.text.injEq] at hBusy
    exact hText hBusy.2.1.symm

/-
  From every reachable state the three stops, in any order
  and from any connections, and one execution of the tasks
  leave the device idle.
-/
theorem stops_and_tasks_recover
    (hReachable : d.Reachable)
    {stops : List Message}
    (hStops : (stops.map Message.command).Perm stopCommands)
    (single chain take send : Env) :
    (Device.run d
      (stops.map Message.input ++
        taskInputs single chain take send)).1.Recovered := by
  rcases hReachable.shows with ⟨a, h⟩
  have hMember : ∀ m ∈ stops, m.command ∈ stopCommands := by
    intro m hMessage
    exact hStops.mem_iff.mp (List.mem_map_of_mem hMessage)
  rcases run_stops_shows h hMember with
    ⟨a', hStopped, hHandled, _⟩
  have hLeft : a'.LeftOver := by
    apply Activity.leftOver_of_not_ended
    intro c hStop
    rcases List.mem_map.mp (hStops.mem_iff.mpr hStop) with
      ⟨m, hMessage, rfl⟩
    exact hHandled m hMessage
  have hSingle :=
    singleCaptureTasks_leftOver hStopped hLeft single
  have hChain :=
    captureChainTasks_leftOver hSingle hLeft chain
  have hTake :=
    hChain.idle_step (i := .streamTake take)
      (by rintro env id data ⟨⟩)
  have hSend :=
    hTake.idle_step (i := .streamSend send)
      (by rintro env id data ⟨⟩)
  have hRun :
      (Device.run d
          (stops.map Message.input ++
            taskInputs single chain take send)).1.Shows
        .idle := by
    simp only [Device.run, Machine.run_append, taskInputs,
      Machine.run_cons, Machine.run_nil]
    exact hSend
  exact hRun.recovered

end PicoLogicAnalyzer

namespace PicoLogicAnalyzer

section Sample

attribute [local instance] CaptureModule.sample

/- Stops in another order, during a single capture. -/
theorem single_capture_recovers :
    (Device.run (Device.boot CaptureHardware.blank)
      ([Input.command 1 "SINGLE_CAPTURE"] ++
        ([⟨Env.smooth, 2, Text.ascii "STREAM_STOP"⟩,
          ⟨Env.smooth, 3, Text.ascii "CAPTURE_CHAIN_STOP"⟩,
          ⟨Env.smooth, 1,
            Text.ascii "CAPTURE_CHAIN_ANALYSIS_STOP"⟩].map
          Message.input ++
          taskInputs Env.smooth Env.smooth Env.smooth
            Env.smooth))).1.Recovered := by
  rw [Device.run, Machine.run_append]
  apply stops_and_tasks_recover
  · exact
      ⟨CaptureHardware.blank,
        [Input.command 1 "SINGLE_CAPTURE"], rfl⟩
  · decide

end Sample

end PicoLogicAnalyzer
