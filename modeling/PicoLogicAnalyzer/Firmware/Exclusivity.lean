import PicoLogicAnalyzer.Firmware.Events
import PicoLogicAnalyzer.Firmware.Frame

/-
  Exclusive use of the capture hardware.

  The two busy predicates and the flags of the two files
  agree in every reachable state, PIO and DMA are only set
  up while nobody else holds them, and the one pending block
  belongs to the mode that sends it.

  Key definitions include:
    * `SetUp.Exclusive`
    * `Device.FlagsAgree`
    * `PendingOwned`

  Key theorems include:
    * `Device.step_setUp`
    * `flags_agree_and_setUps_exclusive`
-/

------------------------------------------------------------
-- Set-Ups
------------------------------------------------------------

namespace PicoLogicAnalyzer

/-
  At a set-up no capture runs and no other holder is marked.
  Only the chunk of an analysis session is set up while
  `la_running` holds: for that session itself.
-/
structure SetUp.Exclusive (record : SetUp) : Prop where
  capturing : record.capturing = false
  laStreamRunning : record.laStreamRunning = false
  laSingleCaptureActive :
    record.laSingleCaptureActive = false
  laCaptureActive : record.laCaptureActive = false
  laBlockOutstanding : record.laBlockOutstanding = false
  laRunning :
    record.kind ≠ .chunk → record.laRunning = false

theorem laSingleCaptureStart_setUps
    {started : Bool}
    {preSamples postSamples : Nat}
    {b : Bridge}
    {record : SetUp}
    (hMember :
      record ∈ (laSingleCaptureStart started preSamples
        postSamples b).setUps) :
    record = b.setUp .singleCapture started := by
  unfold laSingleCaptureStart at hMember
  split at hMember
  · simp at hMember
  · simpa using hMember

theorem startCaptureChain_setUps
    {started : Bool}
    {b : Bridge}
    {record : SetUp}
    (hMember :
      record ∈ (startCaptureChain started b).setUps) :
    record = b.setUp .singleCapture started := by
  unfold startCaptureChain at hMember
  simp only at hMember
  split at hMember
  · exact (laSingleCaptureStart_setUps hMember).trans rfl
  · exact (laSingleCaptureStart_setUps hMember).trans rfl

theorem laStartChunk_setUps
    (started : Bool)
    (b : Bridge) :
    (laStartChunk started b).setUps =
      [b.setUp .chunk started] := by
  unfold laStartChunk
  simp only
  split <;> rfl

theorem laCaptureChainStart_setUps
    {started : Bool}
    {b : Bridge}
    {record : SetUp}
    (hMember :
      record ∈ (laCaptureChainStart started b).setUps) :
    record =
      Bridge.setUp
        { b with
          laBlockOutstanding := false
          laCaptureActive := false } .chunk started := by
  unfold laCaptureChainStart at hMember
  split at hMember
  · simp at hMember
  · simp only at hMember
    split at hMember <;>
      simpa [laStartChunk_setUps, Bridge.setUp] using hMember

theorem laCaptureChainRelease_setUps
    {started : Bool}
    {b : Bridge}
    {record : SetUp}
    (hMember :
      record ∈ (laCaptureChainRelease started b).setUps) :
    record =
        Bridge.setUp
          { b with laBlockOutstanding := false }
          .chunk started ∧
      b.laBlockOutstanding = true := by
  unfold laCaptureChainRelease at hMember
  split at hMember
  · simp at hMember
  · rename_i hOutstanding
    rw [laStartChunk_setUps] at hMember
    refine ⟨by simpa using hMember, ?_⟩
    cases hBlock : b.laBlockOutstanding with
    | true => rfl
    | false => simp [hBlock] at hOutstanding

theorem laStreamStart_setUps
    {b : Bridge}
    {record : SetUp}
    (hMember : record ∈ (laStreamStart b).setUps) :
    record = b.setUp .stream true := by
  unfold laStreamStart at hMember
  split at hMember
  · simp at hMember
  · simpa using hMember

end PicoLogicAnalyzer

------------------------------------------------------------
-- Every Set-Up Is Exclusive
------------------------------------------------------------

namespace PicoLogicAnalyzer

variable {d : Device} {a : Activity} {record : SetUp}

/- Between operations every holder flag is down. -/
theorem Device.Shows.setUp_exclusive
    (h : d.Shows a)
    (hFree : a = .idle ∨ a = .chainWaiting)
    (kind : SetUpKind)
    (started : Bool) :
    (d.bridge.setUp kind started).Exclusive := by
  have hDone : d.bridge.hw.capturing = false := by
    apply h.not_capturing
    rcases hFree with rfl | rfl <;> rfl
  refine
    ⟨hDone, ?_, ?_, ?_, ?_, fun _ => ?_⟩
  · simp only [Bridge.setUp, h.laStreamRunning]
    rcases hFree with rfl | rfl <;> rfl
  · simp only [Bridge.setUp, h.laSingleCaptureActive]
    rcases hFree with rfl | rfl <;> rfl
  · simp only [Bridge.setUp, h.laCaptureActive]
    rcases hFree with rfl | rfl <;> rfl
  · simp only [Bridge.setUp, h.laBlockOutstanding]
    rcases hFree with rfl | rfl <;> rfl
  · simp only [Bridge.setUp, h.laRunning]
    rcases hFree with rfl | rfl <;> rfl

/- A released block leaves the hardware free. -/
theorem Device.Shows.setUp_release
    (h : d.Shows a)
    (hBlock : d.bridge.laBlockOutstanding = true)
    (started : Bool) :
    SetUp.Exclusive
      (Bridge.setUp
        { d.bridge with laBlockOutstanding := false }
        .chunk started) := by
  have hPhase : a = .chainAnalysis .outstanding := by
    rw [h.laBlockOutstanding] at hBlock
    cases a with
    | chainAnalysis phase =>
        cases phase <;>
          simp_all [Activity.flags, Flags.idle]
    | _ => cases hBlock
  subst hPhase
  refine ⟨h.not_capturing rfl, h.laStreamRunning,
    h.laSingleCaptureActive, h.laCaptureActive, rfl, ?_⟩
  intro hKind
  exact absurd rfl hKind

/- The set-up of the next chained capture. -/
theorem captureChainRestart_record
    {env : Env}
    (hMember :
      .setUp record ∈ (captureChainRestart env d).2) :
    d.captureChainEnabled = true ∧
      d.captureChainPending = false ∧
      record =
        d.bridge.setUp .singleCapture env.captureStarted := by
  unfold captureChainRestart at hMember
  split at hMember
  · rename_i hDue
    simp only [Bool.and_eq_true, Bool.not_eq_true']
      at hDue
    refine ⟨hDue.1.1, hDue.1.2, ?_⟩
    exact startCaptureChain_setUps (by simpa using hMember)
  · simp at hMember

theorem captureChainRestart_waiting
    {env : Env}
    (h : d.Shows .chainWaiting)
    (hDue : d.nextStreamMs ≤ env.nowMs) :
    (captureChainRestart env d).2 =
      [.setUp
        (d.bridge.setUp .singleCapture
          env.captureStarted)] := by
  have hEnabled : d.captureChainEnabled = true :=
    h.captureChainEnabled
  have hPending : d.captureChainPending = false :=
    h.captureChainPending
  have hFree : laIsBusy (gpioPullDown d.bridge) = false :=
    h.laIsBusy
  simp only [captureChainRestart, hEnabled, hPending, hDue,
    startCaptureChain, laSingleCaptureStart, hFree]
  cases env.captureStarted <;> rfl

theorem captureChainRestart_setUp
    (h : d.Shows a)
    {env : Env}
    (hMember :
      .setUp record ∈ (captureChainRestart env d).2) :
    record.Exclusive ∧
      record.config = d.bridge.laConfig := by
  rcases captureChainRestart_record hMember with
    ⟨hEnabled, hPending, rfl⟩
  have hWaiting : a = .chainWaiting := by
    rw [h.captureChainEnabled] at hEnabled
    rw [h.captureChainPending] at hPending
    cases a <;> simp_all [Activity.flags, Flags.idle]
  exact ⟨h.setUp_exclusive (Or.inr hWaiting) _ _, rfl⟩

/- The set-up of the next chunk. -/
theorem captureChainSendBlock_record
    {env : Env}
    (hMember :
      .setUp record ∈ (captureChainSendBlock env d).2) :
    d.bridge.laBlockOutstanding = true ∧
      record =
        Bridge.setUp
          { d.bridge with laBlockOutstanding := false }
          .chunk env.chunkStarted := by
  have hSent :
      .setUp record ∉
        (sendAnalysisBlock env .captureChainAnalysis d
          d.pendingAnalysisBlock).2 := by
    intro hHere
    cases mem_sendAnalysisBlock hHere
  unfold captureChainSendBlock at hMember
  split at hMember
  · simp only at hMember
    split at hMember
    · rcases List.mem_append.mp hMember with hHere | hLater
      · exact absurd hHere hSent
      · have hRecord :
            record ∈ (laCaptureChainRelease env.chunkStarted
              d.bridge).setUps := by
          simpa using hLater
        rcases laCaptureChainRelease_setUps hRecord with
          ⟨hRecord, hBlock⟩
        exact ⟨hBlock, hRecord⟩
    · exact absurd hMember hSent
  · simp at hMember

theorem captureChainSendBlock_setUp
    (h : d.Shows a)
    {env : Env}
    (hMember :
      .setUp record ∈ (captureChainSendBlock env d).2) :
    record.Exclusive ∧
      record.config = d.bridge.laConfig := by
  rcases captureChainSendBlock_record hMember with
    ⟨hBlock, rfl⟩
  exact ⟨h.setUp_release hBlock _, rfl⟩

/- The four blocks of the chain task at once. -/
theorem captureChainTasks_setUp
    (h : d.Shows a)
    {env : Env}
    (hMember :
      .setUp record ∈ (captureChainTasks env d).2) :
    record.Exclusive ∧
      record.config = d.bridge.laConfig := by
  let P : List Event → Device → Prop := fun trace d' =>
    (∃ a', d'.Shows a') ∧
      d'.bridge.laConfig = d.bridge.laConfig ∧
      ∀ record, .setUp record ∈ trace →
        record.Exclusive ∧
          record.config = d.bridge.laConfig
  have hInit : P [] d := by
    refine ⟨⟨a, h⟩, rfl, ?_⟩
    intro record hNone
    simp at hNone
  have hEnd :
      P ([] ++ (captureChainTasks env d).2)
        (captureChainTasks env d).1 := by
    refine captureChainTasks_rule ?_ ?_ ?_ ?_ [] hInit
    · rintro trace d' ⟨⟨a', h'⟩, hConfig, hTrace⟩
      refine ⟨⟨_, captureChainDeliver_shows h' env⟩,
        by simpa using hConfig, ?_⟩
      intro record hHere
      rw [List.mem_append] at hHere
      rcases hHere with hHere | hHere
      · exact hTrace record hHere
      · rcases (mem_captureChainDeliver hHere).2 with
          ⟨_, _, hEvent⟩
        cases hEvent
    · rintro trace d' ⟨⟨a', h'⟩, hConfig, hTrace⟩
      refine ⟨⟨_, captureChainRestart_shows h' env⟩,
        by simpa using hConfig, ?_⟩
      intro record hHere
      rw [List.mem_append] at hHere
      rcases hHere with hHere | hHere
      · exact hTrace record hHere
      · rw [← hConfig]
        exact captureChainRestart_setUp h' hHere
    · rintro trace d' ⟨⟨a', h'⟩, hConfig, hTrace⟩
      refine ⟨⟨_, captureChainTakeBlock_shows h' env⟩,
        by simpa using hConfig, ?_⟩
      intro record hHere
      rw [List.mem_append] at hHere
      rcases hHere with hHere | hHere
      · exact hTrace record hHere
      · rcases mem_captureChainTakeBlock hHere with
          ⟨_, hEvent⟩
        cases hEvent
    · rintro trace d' ⟨⟨a', h'⟩, hConfig, hTrace⟩
      refine ⟨⟨_, captureChainSendBlock_shows h' env⟩,
        by simpa using hConfig, ?_⟩
      intro record hHere
      rw [List.mem_append] at hHere
      rcases hHere with hHere | hHere
      · exact hTrace record hHere
      · rw [← hConfig]
        exact captureChainSendBlock_setUp h' hHere
  simpa using hEnd.2.2 record (by simpa using hMember)

theorem startSingleCapture_record
    {env : Env}
    {id : Nat}
    (hMember :
      .setUp record ∈ (startSingleCapture env id d).2) :
    record =
      (gpioPullUp d.bridge).setUp .singleCapture
        env.captureStarted := by
  unfold startSingleCapture at hMember
  simp only at hMember
  split at hMember <;>
    exact laSingleCaptureStart_setUps
      (by simpa [reply] using hMember)

theorem startSingleCapture_setUp
    (h : d.Shows .idle)
    {env : Env}
    {id : Nat}
    (hMember :
      .setUp record ∈ (startSingleCapture env id d).2) :
    record.Exclusive ∧
      record.config = d.bridge.laConfig := by
  have hRecord := startSingleCapture_record hMember
  subst hRecord
  exact ⟨h.setUp_exclusive (Or.inl rfl) _ _, rfl⟩

theorem captureChainAnalysisStart_record
    {env : Env}
    {id : Nat}
    (hMember :
      .setUp record ∈ (captureChainAnalysisStart env id d).2) :
    record =
      Bridge.setUp
        { d.bridge with
          laBlockOutstanding := false
          laCaptureActive := false }
        .chunk env.chunkStarted := by
  unfold captureChainAnalysisStart at hMember
  split at hMember
  · simp [reply] at hMember
  · simp only at hMember
    split at hMember <;>
      exact laCaptureChainStart_setUps
        (by simpa [reply] using hMember)

theorem captureChainAnalysisStart_setUp
    (h : d.Shows .idle)
    {env : Env}
    {id : Nat}
    (hMember :
      .setUp record ∈ (captureChainAnalysisStart env id d).2) :
    record.Exclusive ∧
      record.config = d.bridge.laConfig := by
  have hRecord := captureChainAnalysisStart_record hMember
  have hExclusive :=
    h.setUp_exclusive (Or.inl rfl) .chunk env.chunkStarted
  subst hRecord
  exact
    ⟨⟨hExclusive.capturing, hExclusive.laStreamRunning,
      hExclusive.laSingleCaptureActive, rfl, rfl,
      hExclusive.laRunning⟩, rfl⟩

theorem streamStartCommand_record
    {env : Env}
    {id : Nat}
    {mode : StreamMode}
    {started : String}
    (hMember :
      .setUp record ∈
        (streamStartCommand env id mode started d).2) :
    record = d.bridge.setUp .stream true := by
  apply laStreamStart_setUps
  unfold streamStartCommand startStream at hMember
  simp only at hMember
  split at hMember <;> split at hMember <;>
    simp_all [reply]

theorem streamStartCommand_setUp
    (h : d.Shows .idle)
    {env : Env}
    {id : Nat}
    {mode : StreamMode}
    {started : String}
    (hMember :
      .setUp record ∈
        (streamStartCommand env id mode started d).2) :
    record.Exclusive ∧
      record.config = d.bridge.laConfig := by
  have hRecord := streamStartCommand_record hMember
  subst hRecord
  exact ⟨h.setUp_exclusive (Or.inl rfl) _ _, rfl⟩

variable [CaptureModule]

/- Commands set up hardware from the idle device only. -/
theorem handleCommand_setUp
    (h : d.Shows a)
    {env : Env}
    {id : Nat}
    {data : List UInt8}
    {command : Command}
    (hMember :
      .setUp record ∈ (handleCommand env id data d command).2) :
    record.Exclusive ∧
      record.config = d.bridge.laConfig := by
  by_cases hIdle : a = .idle
  · subst hIdle
    cases command with
    | singleCapture =>
        rw [handleCommand, h.isBusy] at hMember
        exact startSingleCapture_setUp h (by simpa using hMember)
    | captureChainStart =>
        simp [handleCommand, captureChainStart, h.isBusy,
          reply] at hMember
    | captureChainAnalysisStart =>
        exact captureChainAnalysisStart_setUp h hMember
    | streamStart => exact streamStartCommand_setUp h hMember
    | streamAnalysisStart =>
        exact streamStartCommand_setUp h hMember
    | _ =>
        simp [handleCommand, captureChainStop,
          captureChainAnalysisStop, reply] at hMember
  · have hBusy : isBusy d = true := by
      simp [h.isBusy, hIdle]
    cases command <;>
      simp [handleCommand, captureChainStart,
        captureChainStop, captureChainAnalysisStart,
        captureChainAnalysisStop, streamStartCommand,
        startStream_of_busy, hBusy, reply] at hMember

/-
  Every set-up is exclusive and made with the configuration
  in force at that moment.
-/
theorem Device.step_setUp
    (h : d.Shows a)
    {i : Input}
    (hMember : .setUp record ∈ (Device.step d i).2) :
    record.Exclusive ∧
      record.config = d.bridge.laConfig := by
  cases i with
  | message env id data =>
      simp only [Device.step, websocketMessage,
        List.mem_cons, reduceCtorEq, false_or] at hMember
      exact handleCommand_setUp h hMember
  | captureChainTasks env =>
      exact captureChainTasks_setUp h hMember
  | singleCaptureTasks env =>
      rcases (mem_singleCaptureTasks hMember).2 with
        hEvent | ⟨_, _, hEvent⟩ <;>
          cases hEvent
  | streamTake env =>
      rcases mem_streamTasksTake hMember with
        ⟨_, _, _, hEvent⟩
      cases hEvent
  | streamSend env =>
      rcases mem_sendStreamBlock
        (mem_streamTasksSend hMember).2 with
        ⟨payload, hEvent, _⟩
      cases hEvent
  | captureDone tail =>
      simp only [Device.step, captureDone] at hMember
      split at hMember <;> simp at hMember
  | _ => simp [Device.step, reply] at hMember

end PicoLogicAnalyzer

------------------------------------------------------------
-- The Pending Block
------------------------------------------------------------

namespace PicoLogicAnalyzer

/- The block a call took from the bridge, with its mode. -/
def Event.taken : Event → Option (Operation × AnalysisBlock)
| .chainTaken block => some (.captureChainAnalysis, block)
| .streamTaken _ _ block => some (.stream, block)
| _ => none

/- The block taken last. -/
def lastTaken
    (trace : List Event) :
    Option (Operation × AnalysisBlock) :=
  (trace.filterMap Event.taken).getLast?

/-
  The pending block is the block taken last, and it was
  taken by the mode whose pending flag is up.
-/
structure PendingOwned
    (trace : List Event)
    (d : Device) : Prop where
  chain :
    d.blockPending = true →
      lastTaken trace =
        some (.captureChainAnalysis, d.pendingAnalysisBlock)
  stream :
    d.streamBlockPending = true →
      lastTaken trace = some (.stream, d.pendingAnalysisBlock)

/- Nothing taken and no pending flag raised. -/
theorem PendingOwned.keep
    {trace events : List Event}
    {d d' : Device}
    (h : PendingOwned trace d)
    (hEvents : events.filterMap Event.taken = [])
    (hBlock :
      d'.pendingAnalysisBlock = d.pendingAnalysisBlock)
    (hChain : d'.blockPending = true → d.blockPending = true)
    (hStream :
      d'.streamBlockPending = true →
        d.streamBlockPending = true) :
    PendingOwned (trace ++ events) d' := by
  have hTaken :
      lastTaken (trace ++ events) = lastTaken trace := by
    simp [lastTaken, hEvents]
  refine ⟨?_, ?_⟩
  · intro hPending
    rw [hTaken, hBlock]
    exact h.chain (hChain hPending)
  · intro hPending
    rw [hTaken, hBlock]
    exact h.stream (hStream hPending)

theorem filterMap_taken_setUps
    (setUps : List SetUp) :
    (setUps.map Event.setUp).filterMap Event.taken = [] := by
  simp [Event.taken]

theorem sendAnalysisBlock_not_taken
    (env : Env)
    (op : Operation)
    (d : Device)
    (block : AnalysisBlock) :
    (sendAnalysisBlock env op d block).2.filterMap
      Event.taken = [] := by
  unfold sendAnalysisBlock
  split <;> rfl

theorem sendStreamBlock_not_taken
    (env : Env)
    (d : Device)
    (block : AnalysisBlock) :
    (sendStreamBlock env d block).2.filterMap
      Event.taken = [] := by
  unfold sendStreamBlock
  split
  · exact sendAnalysisBlock_not_taken env _ d block
  · rfl

variable {trace : List Event} {d : Device} {a : Activity}

theorem captureChainTakeBlock_pendingOwned
    (hShows : d.Shows a)
    (h : PendingOwned trace d)
    (env : Env) :
    PendingOwned (trace ++ (captureChainTakeBlock env d).2)
      (captureChainTakeBlock env d).1 := by
  unfold captureChainTakeBlock
  split
  · rename_i hEnabled
    simp only
    split
    · refine h.keep rfl rfl ?_ ?_
      · intro hPending
        cases hPending
      · exact id
    · refine ⟨?_, ?_⟩
      · intro _
        simp [lastTaken, Event.taken]
      · -- An enabled analysis session excludes a stream.
        intro hStream
        have hStreaming : d.streamBlockPending = true :=
          hStream
        rw [hShows.captureChainAnalysisEnabled] at hEnabled
        rw [hShows.streamBlockPending] at hStreaming
        cases a <;>
          simp_all [Activity.flags, Flags.idle]
  · simpa using h

theorem streamTasksTake_pendingOwned
    (hShows : d.Shows a)
    (h : PendingOwned trace d)
    (env : Env) :
    PendingOwned (trace ++ (streamTasksTake env d).2)
      (streamTasksTake env d).1 := by
  unfold streamTasksTake
  split
  · rename_i hMode
    simp only
    split
    · refine h.keep rfl rfl ?_ ?_
      · exact id
      · intro hPending
        cases hPending
    · refine ⟨?_, ?_⟩
      · -- A stream excludes an analysis session.
        intro hChain
        have hBlock : d.blockPending = true := hChain
        rw [hShows.streamMode] at hMode
        rw [hShows.blockPending] at hBlock
        cases a <;>
          simp_all [Activity.flags, Flags.idle]
      · intro _
        simp [lastTaken, Event.taken]
  · simpa using h

theorem captureChainTasks_pendingOwned
    (hShows : d.Shows a)
    (h : PendingOwned trace d)
    (env : Env) :
    PendingOwned (trace ++ (captureChainTasks env d).2)
      (captureChainTasks env d).1 := by
  let P : List Event → Device → Prop := fun trace d =>
    (∃ a, d.Shows a) ∧ PendingOwned trace d
  have hEnd :
      P (trace ++ (captureChainTasks env d).2)
        (captureChainTasks env d).1 := by
    refine captureChainTasks_rule ?_ ?_ ?_ ?_ trace
      ⟨⟨a, hShows⟩, h⟩
    · rintro trace d ⟨⟨a, hShows⟩, h⟩
      refine ⟨⟨_, captureChainDeliver_shows hShows env⟩, ?_⟩
      unfold captureChainDeliver
      split
      · simp only
        split <;> exact h.keep rfl rfl id id
      · simpa using h
    · rintro trace d ⟨⟨a, hShows⟩, h⟩
      refine ⟨⟨_, captureChainRestart_shows hShows env⟩, ?_⟩
      unfold captureChainRestart
      split
      · exact h.keep (filterMap_taken_setUps _) rfl id id
      · simpa using h
    · rintro trace d ⟨⟨a, hShows⟩, h⟩
      exact
        ⟨⟨_, captureChainTakeBlock_shows hShows env⟩,
          captureChainTakeBlock_pendingOwned hShows h env⟩
    · rintro trace d ⟨⟨a, hShows⟩, h⟩
      refine
        ⟨⟨_, captureChainSendBlock_shows hShows env⟩, ?_⟩
      have hSent :=
        sendAnalysisBlock_not_taken env
          .captureChainAnalysis d d.pendingAnalysisBlock
      unfold captureChainSendBlock
      split
      · simp only
        split
        · refine h.keep ?_ rfl ?_ id
          · rw [List.filterMap_append, hSent,
              filterMap_taken_setUps]
            rfl
          · intro hPending
            cases hPending
        · exact h.keep hSent rfl id id
      · simpa using h
  exact hEnd.2

theorem startSingleCapture_pendingOwned
    (h : PendingOwned trace d)
    (env : Env)
    (id : Nat) :
    PendingOwned (trace ++ (startSingleCapture env id d).2)
      (startSingleCapture env id d).1 := by
  unfold startSingleCapture
  simp only
  split
  · refine h.keep ?_ rfl (fun x => x) (fun x => x)
    simp [reply, Event.taken]
  · refine h.keep ?_ rfl (fun x => x) (fun x => x)
    simp [reply, Event.taken]

theorem streamStartCommand_pendingOwned
    (h : PendingOwned trace d)
    (env : Env)
    (id : Nat)
    (mode : StreamMode)
    (started : String) :
    PendingOwned
      (trace ++ (streamStartCommand env id mode started d).2)
      (streamStartCommand env id mode started d).1 := by
  unfold streamStartCommand startStream
  simp only
  split
  · exact h.keep rfl rfl (fun x => x) (fun x => x)
  · split
    · refine h.keep ?_ rfl (fun x => x)
        (absurd · Bool.false_ne_true)
      simp [reply, Event.taken]
    · refine h.keep ?_ rfl (fun x => x) (fun x => x)
      simp [reply, Event.taken]

variable [CaptureModule]

/- No command takes a block or raises a pending flag. -/
theorem handleCommand_pendingOwned
    (h : PendingOwned trace d)
    (env : Env)
    (id : Nat)
    (data : List UInt8)
    (command : Command) :
    PendingOwned
      (trace ++ (handleCommand env id data d command).2)
      (handleCommand env id data d command).1 := by
  have hBusy :
      PendingOwned (trace ++ [reply env id "CAPTURE_BUSY"])
        d :=
    h.keep rfl rfl (fun x => x) (fun x => x)
  cases command with
  | singleCapture =>
      simp only [handleCommand]
      split
      · exact hBusy
      · exact startSingleCapture_pendingOwned h env id
  | captureChainStart =>
      simp only [handleCommand, captureChainStart]
      split
      · exact hBusy
      · exact h.keep rfl rfl (fun x => x) (fun x => x)
  | captureChainAnalysisStart =>
      simp only [handleCommand, captureChainAnalysisStart]
      split
      · exact hBusy
      · split
        · refine h.keep ?_ rfl
            (absurd · Bool.false_ne_true) (fun x => x)
          simp [reply, Event.taken]
        · refine h.keep ?_ rfl (fun x => x) (fun x => x)
          simp [reply, Event.taken]
  | captureChainAnalysisStop =>
      exact
        h.keep rfl rfl (absurd · Bool.false_ne_true)
          (fun x => x)
  | streamStart =>
      exact streamStartCommand_pendingOwned h env id _ _
  | streamAnalysisStart =>
      exact streamStartCommand_pendingOwned h env id _ _
  | streamStop =>
      exact
        h.keep rfl rfl (fun x => x)
          (absurd · Bool.false_ne_true)
  | streamAnalysisStop =>
      exact
        h.keep rfl rfl (fun x => x)
          (absurd · Bool.false_ne_true)
  | _ => exact h.keep rfl rfl (fun x => x) (fun x => x)

theorem Device.step_pendingOwned
    (hShows : d.Shows a)
    (h : PendingOwned trace d)
    (i : Input) :
    PendingOwned (trace ++ (Device.step d i).2)
      (Device.step d i).1 := by
  cases i with
  | message env id data =>
      have hReceived :
          PendingOwned (trace ++ [.received id data]) d :=
        h.keep rfl rfl (fun x => x) (fun x => x)
      simpa [Device.step, websocketMessage] using
        handleCommand_pendingOwned hReceived env id data
          (parseCommand data)
  | captureChainTasks env =>
      exact captureChainTasks_pendingOwned hShows h env
  | streamTake env =>
      exact streamTasksTake_pendingOwned hShows h env
  | streamSend env =>
      have hSent :=
        sendStreamBlock_not_taken env d
          d.pendingAnalysisBlock
      simp only [Device.step, streamTasksSend]
      split
      · split
        · exact
            h.keep hSent rfl (fun x => x)
              (absurd · Bool.false_ne_true)
        · exact h.keep hSent rfl (fun x => x) (fun x => x)
      · simpa using h
  | singleCaptureTasks env =>
      simp only [Device.step, singleCaptureTasks]
      split
      · split <;>
          exact h.keep rfl rfl (fun x => x) (fun x => x)
      · simpa using h
  | captureDone tail =>
      simp only [Device.step, captureDone]
      split
      · exact h.keep rfl rfl (fun x => x) (fun x => x)
      · simpa using h
  | captureWrite memory =>
      simp only [Device.step, captureWrite]
      split <;>
        exact h.keep rfl rfl (fun x => x) (fun x => x)
  | dmaWrite position byte =>
      simp only [Device.step, dmaWrite]
      split <;>
        exact h.keep rfl rfl (fun x => x) (fun x => x)
  | dmaInterrupt =>
      simp only [Device.step, dmaInterrupt]
      split <;>
        exact h.keep rfl rfl (fun x => x) (fun x => x)
  | connect env id =>
      exact h.keep rfl rfl (fun x => x) (fun x => x)
  | disconnect id =>
      exact h.keep rfl rfl (fun x => x) (fun x => x)

end PicoLogicAnalyzer

------------------------------------------------------------
-- Agreement In Every Reachable State
------------------------------------------------------------

namespace PicoLogicAnalyzer

/- Agreement of the flags of the two source files. -/
structure Device.FlagsAgree (d : Device) : Prop where
  running_alone :
    d.bridge.laRunning = true →
      d.bridge.laStreamRunning = false ∧
        d.bridge.laSingleCaptureActive = false
  stream_alone :
    d.bridge.laStreamRunning = true →
      d.bridge.laSingleCaptureActive = false
  analysis_enabled :
    d.captureChainAnalysisEnabled = d.bridge.laRunning
  stream_mode :
    d.streamMode ≠ .stopped ↔
      d.bridge.laStreamRunning = true
  block_pending :
    d.blockPending = d.bridge.laBlockOutstanding
  stream_block_pending :
    d.streamBlockPending = d.bridge.laStreamBlockOutstanding
  capture_active :
    d.bridge.laCaptureActive = true →
      d.bridge.laRunning = true
  single_pending :
    d.bridge.laSingleCaptureActive = true →
      (d.singleCapturePending ^^ d.captureChainPending) = true
  not_both_pending :
    ¬ (d.blockPending = true ∧ d.streamBlockPending = true)

/- The flags of any one activity agree. -/
theorem Device.Shows.flagsAgree
    {d : Device}
    {a : Activity}
    (h : d.Shows a) :
    d.FlagsAgree := by
  constructor
  all_goals
    simp only [h.laRunning, h.laStreamRunning,
      h.laSingleCaptureActive,
      h.captureChainAnalysisEnabled, h.streamMode,
      h.blockPending, h.laBlockOutstanding,
      h.streamBlockPending, h.laStreamBlockOutstanding,
      h.laCaptureActive, h.singleCapturePending,
      h.captureChainPending]
    cases a with
    | single active =>
        cases active <;> simp [Activity.flags, Flags.idle]
    | streaming analysis pending =>
        cases analysis <;> simp [Activity.flags, Flags.idle]
    | _ => simp [Activity.flags, Flags.idle]

variable [CaptureModule]

/-
  After any run from start-up the flags agree, every set-up
  made on the way was exclusive, and the pending block
  belongs to the mode that sends it.
-/
theorem flags_agree_and_setUps_exclusive
    (hw : CaptureHardware)
    (inputs : List Input) :
    (Device.run (Device.boot hw) inputs).1.FlagsAgree ∧
      (∀ record,
        .setUp record ∈
            (Device.run (Device.boot hw) inputs).2 →
          record.Exclusive) ∧
      PendingOwned (Device.run (Device.boot hw) inputs).2
        (Device.run (Device.boot hw) inputs).1 := by
  let P : Device → Prop := fun d => ∃ a, d.Shows a
  let Q : Event → Prop := fun event =>
    ∀ record, event = .setUp record → record.Exclusive
  have hStep : ∀ d i, P d → P (Device.step d i).1 := by
    rintro d i ⟨a, h⟩
    exact Device.step_shows h i
  have hBoot : P (Device.boot hw) :=
    ⟨.idle, Device.boot_shows hw⟩
  refine ⟨?_, ?_, ?_⟩
  · rcases Machine.run_invariant hStep hBoot inputs with
      ⟨a, h⟩
    exact h.flagsAgree
  · intro record hMember
    have hAll :
        ∀ event ∈ (Device.run (Device.boot hw) inputs).2,
          Q event := by
      refine Machine.run_outputs hStep ?_ hBoot inputs
      rintro d i ⟨a, h⟩ event hHere record rfl
      exact (Device.step_setUp h hHere).1
    exact hAll _ hMember record rfl
  · let R : List Event → Device → Prop := fun trace d =>
      P d ∧ PendingOwned trace d
    have hInit : R [] (Device.boot hw) :=
      ⟨hBoot, (absurd · Bool.false_ne_true),
        (absurd · Bool.false_ne_true)⟩
    have hKeep :
        ∀ trace d i, R trace d →
          R (trace ++ (Device.step d i).2)
            (Device.step d i).1 := by
      rintro trace d i ⟨⟨a, hShows⟩, h⟩
      exact
        ⟨hStep d i ⟨a, hShows⟩,
          Device.step_pendingOwned hShows h i⟩
    have hEnd :=
      Machine.run_trace_invariant hKeep hInit inputs
    exact hEnd.2

end PicoLogicAnalyzer
