import PicoLogicAnalyzer.Firmware.Refinement

/-
  Stop commands for a mode that is not in progress.

  `la_stream_stop` returns at once when no stream runs. The
  other two stop functions have no such test: both release
  the pulls of the trigger pin, and `CAPTURE_CHAIN_STOP`
  also aborts a capture started by `SINGLE_CAPTURE`.

  Key definitions include:
    * `Command.stops`
    * `Device.inProgress`
    * `Undisturbed`
    * `Command.Harmless`

  Key theorems include:
    * `stop_undisturbed_iff`
-/

------------------------------------------------------------
-- Stopping A Mode
------------------------------------------------------------

namespace PicoLogicAnalyzer

/- The mode a stop command names. -/
def Command.stops : Command → Option Operation
| .captureChainStop => some .captureChain
| .captureChainAnalysisStop => some .captureChainAnalysis
| .streamStop => some .stream
| .streamAnalysisStop => some .stream
| _ => none

/- The operation is in progress, by the flags of `main.cpp`. -/
def Device.inProgress (d : Device) : Operation → Bool
| .singleCapture => d.singleCapturePending
| .captureChain =>
    d.captureChainEnabled || d.captureChainPending
| .captureChainAnalysis => d.captureChainAnalysisEnabled
| .stream => d.streamMode != .stopped

/-
  When a stop command for a mode that is not in progress has
  nothing to undo: the pulls are released already and no
  single capture is active.
-/
def Command.Harmless (d : Device) : Command → Prop
| .captureChainStop =>
    d.bridge.hw.triggerPull = .disabled ∧
      d.bridge.laSingleCaptureActive = false
| .captureChainAnalysisStop =>
    d.bridge.hw.triggerPull = .disabled
| _ => True

/-
  The operation in progress is undisturbed: flags, running
  capture and trigger pulls are the same, and so is every
  later event.
-/
structure Undisturbed
    [CaptureModule]
    (d d' : Device) : Prop where
  flags : d'.flags = d.flags
  capturing :
    d'.bridge.hw.capturing = d.bridge.hw.capturing
  triggerPull :
    d'.bridge.hw.triggerPull = d.bridge.hw.triggerPull
  later :
    ∀ inputs,
      (Device.run d' inputs).2 = (Device.run d inputs).2

theorem Undisturbed.of_eq
    [CaptureModule]
    {d d' : Device}
    (hSame : d' = d) :
    Undisturbed d d' := by
  subst hSame
  exact ⟨rfl, rfl, rfl, fun _ => rfl⟩

end PicoLogicAnalyzer

------------------------------------------------------------
-- Effect Of A Foreign Stop
------------------------------------------------------------

namespace PicoLogicAnalyzer

variable {d : Device} {a : Activity}

/- A stream stop without a stream does nothing at all. -/
theorem stopStream_foreign
    (h : d.Shows a)
    (hForeign : d.inProgress .stream = false) :
    stopStream d = d := by
  have hMode : d.streamMode = .stopped := by
    simpa [Device.inProgress] using hForeign
  have hRunning : d.bridge.laStreamRunning = false := by
    rw [h.streamMode] at hMode
    rw [h.laStreamRunning]
    cases a with
    | streaming analysis pending =>
        cases analysis <;> simp [Activity.flags] at hMode
    | _ => rfl
  have hPending : d.streamBlockPending = false := by
    rw [h.laStreamRunning] at hRunning
    rw [h.streamBlockPending]
    cases a <;> simp_all [Activity.flags, Flags.idle]
  unfold stopStream laStreamStop
  rw [hRunning]
  cases d
  simp_all

/- An analysis stop without a session releases the pulls. -/
theorem captureChainAnalysisStop_foreign
    (h : d.Shows a)
    (hForeign : d.inProgress .captureChainAnalysis = false)
    (env : Env)
    (id : Nat) :
    (captureChainAnalysisStop env id d).1 =
      { d with bridge := gpioDisablePulls d.bridge } := by
  have hEnabled : d.captureChainAnalysisEnabled = false :=
    hForeign
  have hRunning : d.bridge.laRunning = false := by
    rw [h.captureChainAnalysisEnabled] at hEnabled
    rw [h.laRunning]
    cases a <;> simp_all [Activity.flags, Flags.idle]
  have hRest :
      d.bridge.laCaptureActive = false ∧
        d.bridge.laBlockOutstanding = false ∧
        d.blockPending = false := by
    rw [h.laRunning] at hRunning
    rw [h.laCaptureActive, h.laBlockOutstanding,
      h.blockPending]
    cases a <;> simp_all [Activity.flags, Flags.idle]
  rcases hRest with ⟨hActive, hBlock, hPending⟩
  unfold captureChainAnalysisStop laCaptureChainStop
  cases d with
  | mk bridge =>
      cases bridge
      simp_all [gpioDisablePulls]

/-
  A chain stop without a chain releases the pulls and drops
  a single capture.
-/
theorem captureChainStop_foreign
    (hForeign : d.inProgress .captureChain = false)
    (env : Env)
    (id : Nat) :
    (captureChainStop env id d).1 =
      { d with
        bridge :=
          gpioDisablePulls (laSingleCaptureStop d.bridge) } := by
  have hEnabled : d.captureChainEnabled = false := by
    simp only [Device.inProgress, Bool.or_eq_false_iff]
      at hForeign
    exact hForeign.1
  unfold captureChainStop
  cases d
  simp_all

theorem gpioDisablePulls_eq_self
    {b : Bridge}
    (hPull : b.hw.triggerPull = .disabled) :
    gpioDisablePulls b = b := by
  unfold gpioDisablePulls
  rw [← hPull]

theorem laSingleCaptureStop_eq_self
    {b : Bridge}
    (hActive : b.laSingleCaptureActive = false) :
    laSingleCaptureStop b = b := by
  unfold laSingleCaptureStop laSingleCaptureRelease
  cases b
  simp_all

variable [CaptureModule]

theorem handleCommand_undisturbed_iff
    (h : d.Shows a)
    {command : Command}
    {op : Operation}
    (hStops : command.stops = some op)
    (hForeign : d.inProgress op = false)
    (env : Env)
    (id : Nat)
    (data : List UInt8) :
    Undisturbed d (handleCommand env id data d command).1 ↔
      command.Harmless d := by
  cases command with
  | captureChainStop =>
      cases hStops
      have hEffect := captureChainStop_foreign hForeign env id
      constructor
      · intro hSame
        have hPull := hSame.triggerPull
        have hFlags :=
          congrArg Flags.laSingleCaptureActive hSame.flags
        simp only [handleCommand, hEffect] at hPull hFlags
        exact ⟨hPull.symm, hFlags.symm⟩
      · rintro ⟨hPull, hActive⟩
        apply Undisturbed.of_eq
        simp only [handleCommand, hEffect,
          laSingleCaptureStop_eq_self hActive,
          gpioDisablePulls_eq_self hPull]
  | captureChainAnalysisStop =>
      cases hStops
      have hEffect :=
        captureChainAnalysisStop_foreign h hForeign env id
      constructor
      · intro hSame
        have hPull := hSame.triggerPull
        simp only [handleCommand, hEffect] at hPull
        exact hPull.symm
      · intro hPull
        apply Undisturbed.of_eq
        simp only [handleCommand, hEffect,
          gpioDisablePulls_eq_self hPull]
  | streamStop =>
      cases hStops
      refine ⟨fun _ => trivial, fun _ => ?_⟩
      exact Undisturbed.of_eq (stopStream_foreign h hForeign)
  | streamAnalysisStop =>
      cases hStops
      refine ⟨fun _ => trivial, fun _ => ?_⟩
      exact Undisturbed.of_eq (stopStream_foreign h hForeign)
  | _ => cases hStops

/-
  A stop command for a mode that is not in progress leaves
  the device undisturbed exactly when it has nothing to undo.
-/
theorem stop_undisturbed_iff
    (hReachable : d.Reachable)
    {data : List UInt8}
    {op : Operation}
    (hStops : (parseCommand data).stops = some op)
    (hForeign : d.inProgress op = false)
    (env : Env)
    (id : Nat) :
    Undisturbed d (websocketMessage env id data d).1 ↔
      (parseCommand data).Harmless d := by
  rcases hReachable.shows with ⟨a, h⟩
  exact
    handleCommand_undisturbed_iff h hStops hForeign env id
      data

end PicoLogicAnalyzer

namespace PicoLogicAnalyzer

section Sample

attribute [local instance] CaptureModule.sample

/- A stream stop sent during a single capture. -/
theorem stop_undisturbed_single_capture :
    let d :=
      (Device.run (Device.boot .blank)
        [.command 1 "SINGLE_CAPTURE"]).1
    let data := Text.ascii "STREAM_STOP"
    (parseCommand data).stops = some .stream ∧
      d.inProgress .stream = false ∧
      Undisturbed d
        (websocketMessage .smooth 2 data d).1 := by
  intro d data
  have hReachable : d.Reachable := ⟨.blank, _, rfl⟩
  have hEntry :
      ("STREAM_STOP", Command.streamStop) ∈ commandTable := by
    simp [commandTable]
  have hParse : parseCommand data = .streamStop :=
    parseCommand_table hEntry
  have hStops : (parseCommand data).stops = some .stream := by
    rw [hParse]
    rfl
  have hForeign : d.inProgress .stream = false := rfl
  refine ⟨hStops, hForeign, ?_⟩
  rw [stop_undisturbed_iff hReachable hStops hForeign, hParse]
  trivial

/-
  `CAPTURE_CHAIN_STOP` from another connection turns the
  result of a running single capture into an error.
-/
theorem captureChainStop_aborts_singleCapture :
    let d :=
      (Device.run (Device.boot .blank)
        [.command 1 "SINGLE_CAPTURE"]).1
    let d' := (Device.step d (.command 2 "CAPTURE_CHAIN_STOP")).1
    let inputs :=
      [Input.captureDone 100, .singleCaptureTasks .smooth]
    d.inProgress .captureChain = false ∧
      d.inProgress .singleCapture = true ∧
      d.bridge.hw.triggerPull = .down ∧
      d'.bridge.hw.triggerPull = .disabled ∧
      (Device.run d inputs).2 =
        [.captured,
          .sent 1
            (.raw .singleCapture 1 37 (List.replicate 64 0))
            true] ∧
      (Device.run d' inputs).2 =
        [.sent 1 (.text "SINGLE_CAPTURE_ERROR") true] := by
  decide +kernel

end Sample

end PicoLogicAnalyzer
