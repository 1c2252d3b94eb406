import PicoLogicAnalyzer.Firmware.Step

/-
  What the device is doing, behind its twelve flags.

  An `Activity` is the operation in progress and the phase
  it is in. `Device.Shows` says that the flags of both files
  spell exactly one activity and that a finite capture only
  runs on behalf of an activity that owns it.

  Key definitions include:
    * `Flags` and `Device.flags`
    * `Activity` and `Activity.flags`
    * `Activity.Continues`
    * `Device.Shows`
-/

------------------------------------------------------------
-- Activities
------------------------------------------------------------

namespace PicoLogicAnalyzer

/- The control flags of the two source files. -/
structure Flags where
  laRunning : Bool
  laCaptureActive : Bool
  laBlockOutstanding : Bool
  laStreamRunning : Bool
  laSingleCaptureActive : Bool
  laStreamBlockOutstanding : Bool
  singleCapturePending : Bool
  captureChainEnabled : Bool
  captureChainPending : Bool
  blockPending : Bool
  captureChainAnalysisEnabled : Bool
  streamMode : StreamMode
  streamBlockPending : Bool
deriving DecidableEq, Repr

def Device.flags (d : Device) : Flags where
  laRunning := d.bridge.laRunning
  laCaptureActive := d.bridge.laCaptureActive
  laBlockOutstanding := d.bridge.laBlockOutstanding
  laStreamRunning := d.bridge.laStreamRunning
  laSingleCaptureActive := d.bridge.laSingleCaptureActive
  laStreamBlockOutstanding :=
    d.bridge.laStreamBlockOutstanding
  singleCapturePending := d.singleCapturePending
  captureChainEnabled := d.captureChainEnabled
  captureChainPending := d.captureChainPending
  blockPending := d.blockPending
  captureChainAnalysisEnabled :=
    d.captureChainAnalysisEnabled
  streamMode := d.streamMode
  streamBlockPending := d.streamBlockPending

/- All flags down. -/
def Flags.idle : Flags where
  laRunning := false
  laCaptureActive := false
  laBlockOutstanding := false
  laStreamRunning := false
  laSingleCaptureActive := false
  laStreamBlockOutstanding := false
  singleCapturePending := false
  captureChainEnabled := false
  captureChainPending := false
  blockPending := false
  captureChainAnalysisEnabled := false
  streamMode := .stopped
  streamBlockPending := false

/- Phases of a chained analysis session. -/
inductive ChainPhase where
  | capturing
  | outstanding
  | stalled
deriving DecidableEq, Repr

/-
  The operation in progress. A single capture may have been
  aborted by a foreign stop, a stopped chain waits for its
  task to clean up, and an analysis session is stalled when
  its next capture could not be started.
-/
inductive Activity where
  | idle
  | single (active : Bool)
  | chainWaiting
  | chainCapturing
  | chainStopping
  | chainAnalysis (phase : ChainPhase)
  | streaming (analysis pending : Bool)
deriving DecidableEq, Repr

/- The flags that spell an activity. -/
def Activity.flags : Activity → Flags
| .idle => Flags.idle
| .single active =>
    { Flags.idle with
      singleCapturePending := true
      laSingleCaptureActive := active }
| .chainWaiting =>
    { Flags.idle with captureChainEnabled := true }
| .chainCapturing =>
    { Flags.idle with
      captureChainEnabled := true
      captureChainPending := true
      laSingleCaptureActive := true }
| .chainStopping =>
    { Flags.idle with captureChainPending := true }
| .chainAnalysis phase =>
    { Flags.idle with
      laRunning := true
      captureChainAnalysisEnabled := true
      laCaptureActive := phase == .capturing
      laBlockOutstanding := phase == .outstanding
      blockPending := phase == .outstanding }
| .streaming analysis pending =>
    { Flags.idle with
      laStreamRunning := true
      streamMode := if analysis then .analysis else .raw
      laStreamBlockOutstanding := pending
      streamBlockPending := pending }

/- Flags on whose behalf a finite capture may run. -/
def Flags.ownsCapture (flags : Flags) : Bool :=
  flags.laSingleCaptureActive || flags.laCaptureActive

/- The operation an activity belongs to. -/
def Activity.operation : Activity → Option Operation
| .idle => none
| .single _ => some .singleCapture
| .chainWaiting => some .captureChain
| .chainCapturing => some .captureChain
| .chainStopping => some .captureChain
| .chainAnalysis _ => some .captureChainAnalysis
| .streaming _ _ => some .stream

/- Activities whose data goes out in analysis frames. -/
def Activity.sendsFrames : Activity → Bool
| .chainAnalysis _ => true
| .streaming analysis _ => analysis
| _ => false

/- The later activity continues the same operation or none. -/
def Activity.Continues (a a' : Activity) : Prop :=
  a' = .idle ∨
    (a'.operation = a.operation ∧
      a'.sendsFrames = a.sendsFrames)

/- The device is in activity `a`. -/
structure Device.Shows (d : Device) (a : Activity) : Prop where
  flags : d.flags = a.flags
  owned :
    d.bridge.hw.capturing = true → d.flags.ownsCapture = true

end PicoLogicAnalyzer

------------------------------------------------------------
-- Flags Read Off An Activity
------------------------------------------------------------

namespace PicoLogicAnalyzer

namespace Device.Shows

variable {d : Device} {a : Activity}

theorem laRunning (h : d.Shows a) :
    d.bridge.laRunning = a.flags.laRunning :=
  congrArg Flags.laRunning h.flags

theorem laCaptureActive (h : d.Shows a) :
    d.bridge.laCaptureActive = a.flags.laCaptureActive :=
  congrArg Flags.laCaptureActive h.flags

theorem laBlockOutstanding (h : d.Shows a) :
    d.bridge.laBlockOutstanding =
      a.flags.laBlockOutstanding :=
  congrArg Flags.laBlockOutstanding h.flags

theorem laStreamRunning (h : d.Shows a) :
    d.bridge.laStreamRunning = a.flags.laStreamRunning :=
  congrArg Flags.laStreamRunning h.flags

theorem laSingleCaptureActive (h : d.Shows a) :
    d.bridge.laSingleCaptureActive =
      a.flags.laSingleCaptureActive :=
  congrArg Flags.laSingleCaptureActive h.flags

theorem laStreamBlockOutstanding (h : d.Shows a) :
    d.bridge.laStreamBlockOutstanding =
      a.flags.laStreamBlockOutstanding :=
  congrArg Flags.laStreamBlockOutstanding h.flags

theorem singleCapturePending (h : d.Shows a) :
    d.singleCapturePending = a.flags.singleCapturePending :=
  congrArg Flags.singleCapturePending h.flags

theorem captureChainEnabled (h : d.Shows a) :
    d.captureChainEnabled = a.flags.captureChainEnabled :=
  congrArg Flags.captureChainEnabled h.flags

theorem captureChainPending (h : d.Shows a) :
    d.captureChainPending = a.flags.captureChainPending :=
  congrArg Flags.captureChainPending h.flags

theorem blockPending (h : d.Shows a) :
    d.blockPending = a.flags.blockPending :=
  congrArg Flags.blockPending h.flags

theorem captureChainAnalysisEnabled (h : d.Shows a) :
    d.captureChainAnalysisEnabled =
      a.flags.captureChainAnalysisEnabled :=
  congrArg Flags.captureChainAnalysisEnabled h.flags

theorem streamMode (h : d.Shows a) :
    d.streamMode = a.flags.streamMode :=
  congrArg Flags.streamMode h.flags

theorem streamBlockPending (h : d.Shows a) :
    d.streamBlockPending = a.flags.streamBlockPending :=
  congrArg Flags.streamBlockPending h.flags

/- The bridge is busy outside the gaps of a capture chain. -/
theorem laIsBusy (h : d.Shows a) :
    PicoLogicAnalyzer.laIsBusy d.bridge =
      (a.flags.laRunning || a.flags.laStreamRunning ||
        a.flags.laSingleCaptureActive) := by
  unfold PicoLogicAnalyzer.laIsBusy
  rw [h.laRunning, h.laStreamRunning,
    h.laSingleCaptureActive]

/- `is_busy` holds exactly while an operation is open. -/
theorem isBusy (h : d.Shows a) :
    PicoLogicAnalyzer.isBusy d = (a != .idle) := by
  unfold PicoLogicAnalyzer.isBusy
  rw [h.laIsBusy, h.singleCapturePending,
    h.captureChainEnabled, h.captureChainPending]
  cases a with
  | idle => rfl
  | single active => cases active <;> rfl
  | chainWaiting => rfl
  | chainCapturing => rfl
  | chainStopping => rfl
  | chainAnalysis phase => cases phase <;> rfl
  | streaming analysis pending => rfl

theorem eq_idle_of_not_busy
    (h : d.Shows a)
    (hFree : PicoLogicAnalyzer.isBusy d = false) :
    a = .idle := by
  rw [h.isBusy] at hFree
  simpa using hFree

/- Nothing is captured outside the owning activities. -/
theorem not_capturing
    (h : d.Shows a)
    (hOwns : a.flags.ownsCapture = false) :
    d.bridge.hw.capturing = false := by
  cases hCapturing : d.bridge.hw.capturing with
  | false => rfl
  | true =>
      rw [← h.flags, h.owned hCapturing] at hOwns
      cases hOwns

/- A capture that does not run is finished. -/
theorem not_capturing_of_not_running
    (h : d.Shows a)
    (hChain : a.flags.laCaptureActive = false)
    (hRunning : laSingleCaptureIsRunning d.bridge = false) :
    d.bridge.hw.capturing = false := by
  have hOwned := h.owned
  rw [h.flags] at hOwned
  simp only [laSingleCaptureIsRunning,
    h.laSingleCaptureActive, Bool.and_eq_false_iff]
    at hRunning
  rcases hRunning with hInactive | hDone
  · apply h.not_capturing
    simp [Flags.ownsCapture, hInactive, hChain]
  · exact hDone

/- Nothing that the activity depends on has changed. -/
theorem congr
    {d' : Device}
    (h : d.Shows a)
    (hFlags : d'.flags = d.flags)
    (hCapturing :
      d'.bridge.hw.capturing = d.bridge.hw.capturing) :
    d'.Shows a where
  flags := hFlags.trans h.flags
  owned := by
    rw [hFlags, hCapturing]
    exact h.owned

end Device.Shows

namespace Activity

theorem Continues.refl (a : Activity) : a.Continues a :=
  Or.inr ⟨rfl, rfl⟩

theorem Continues.trans
    {a b c : Activity}
    (hFirst : a.Continues b)
    (hSecond : b.Continues c) :
    a.Continues c := by
  rcases hSecond with hIdle | ⟨hOp, hFrames⟩
  · exact Or.inl hIdle
  · rcases hFirst with rfl | ⟨hOp', hFrames'⟩
    · left
      cases c <;> simp_all [operation]
    · exact
        Or.inr ⟨hOp.trans hOp', hFrames.trans hFrames'⟩

theorem continues_if
    {a a' : Activity}
    (p : Prop)
    [Decidable p]
    (h : a.Continues a') :
    a.Continues (if p then a' else a) := by
  split
  · exact h
  · exact Continues.refl a

end Activity

end PicoLogicAnalyzer
