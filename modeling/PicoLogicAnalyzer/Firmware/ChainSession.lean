import PicoLogicAnalyzer.Firmware.Coherence
import PicoLogicAnalyzer.Firmware.Sessions

/-
  Chained analysis sessions.

  A session repeats one cycle: a chunk capture is set up, it
  completes, its block is taken, the block is sent. Each link
  of the cycle waits for the one before, whatever the timing
  of completions and refused sends.

  Key definitions include:
    * `ChainMark` and `chainWord`
    * `ChainStage`
    * `AnalysisSession`
    * `ChainAccount`

  Key theorems include:
    * `AnalysisSession.step`
    * `chainAnalysis_account`
-/

------------------------------------------------------------
-- The Cycle Of A Session
------------------------------------------------------------

namespace PicoLogicAnalyzer

open Word

/- Links of the cycle. -/
inductive ChainMark where
  | setUp
  | captured
  | taken
  | sent
deriving DecidableEq, Repr

/- The link an event stands for. -/
def Event.chainMark : Event → Option ChainMark
| .setUp _ => some .setUp
| .captured => some .captured
| .chainTaken _ => some .taken
| .sent _ (.frame .captureChainAnalysis _ _ _) true =>
    some .sent
| _ => none

/- The links of a trace, in order. -/
def chainMarks (trace : List Event) : List ChainMark :=
  trace.filterMap Event.chainMark

/- The link at a position of the endless repetition. -/
def ChainMark.at (index : Nat) : ChainMark :=
  if index % 4 = 0 then .setUp
  else if index % 4 = 1 then .captured
  else if index % 4 = 2 then .taken
  else .sent

/- The first `length` links of the endless repetition. -/
def chainWord (length : Nat) : List ChainMark :=
  (List.range length).map ChainMark.at

theorem chainWord_succ (length : Nat) :
    chainWord (length + 1) =
      chainWord length ++ [ChainMark.at length] := by
  simp [chainWord, List.range_succ]

/- Headers of the frames that were sent. -/
def Event.chainHeader : Event → Option StreamHeader
| .sent _ (.frame .captureChainAnalysis header _ _) true =>
    some header
| _ => none

def chainHeaders (trace : List Event) : List StreamHeader :=
  trace.filterMap Event.chainHeader

/- The header of frame `k` of a session. -/
structure StreamHeader.IsChainFrame
    (header : StreamHeader)
    (config : LaConfig)
    (k : Nat) : Prop where
  sequence : header.sequence = u32 k
  overruns : header.overruns = 0
  sampleCount : header.sampleCount = config.chunkSamples
  firstSample :
    header.firstSample = u64 (k * config.chunkSamples)

/- The block from which that frame is built. -/
structure AnalysisBlock.IsChainBlock
    (block : AnalysisBlock)
    (config : LaConfig)
    (k : Nat) : Prop where
  sequence : block.sequence = u32 k
  overruns : block.overruns = 0
  samples : block.samples = config.chunkSamples
  firstSample :
    block.firstSample = u64 (k * config.chunkSamples)

theorem AnalysisBlock.IsChainBlock.headerOf
    {block : AnalysisBlock}
    {config : LaConfig}
    {k : Nat}
    (h : block.IsChainBlock config k)
    (d : Device) :
    (d.headerOf block).IsChainFrame config k :=
  ⟨h.sequence, h.overruns, h.samples, h.firstSample⟩

/- No block waits and no capture runs or waits to be taken. -/
def SetUp.IsFree (record : SetUp) : Prop :=
  record.laBlockOutstanding = false ∧
    record.laCaptureActive = false ∧
    record.capturing = false

theorem chainMark_of_isPlain
    {event : Event}
    (hPlain : event.IsPlain) :
    event.chainMark = none := by
  cases event with
  | received id data => rfl
  | sent dest payload accepted =>
      cases payload with
      | text reply => rfl
      | echo data => rfl
      | raw op width offset data => rfl
      | frame op header offset data => cases hPlain
  | _ => exact hPlain.elim

theorem chainHeader_of_chainMark
    {event : Event}
    (hMark : event.chainMark ≠ some .sent) :
    event.chainHeader = none := by
  unfold Event.chainHeader
  split
  · exact absurd rfl hMark
  · rfl

end PicoLogicAnalyzer

------------------------------------------------------------
-- Logs Of A Session
------------------------------------------------------------

namespace PicoLogicAnalyzer

/-
  The trace of a session after `sent` cycles and `passed`
  links of the next one.
-/
structure ChainLog
    (config : LaConfig)
    (sent passed : Nat)
    (trace : List Event) : Prop where
  marks : chainMarks trace = chainWord (4 * sent + passed)
  headers_length : (chainHeaders trace).length = sent
  headers :
    ∀ (k : Nat) (header : StreamHeader),
      (chainHeaders trace)[k]? = some header →
        header.IsChainFrame config k
  setUps :
    ∀ record, Event.setUp record ∈ trace → record.IsFree

namespace ChainLog

variable {config : LaConfig} {sent passed : Nat}
variable {trace : List Event}

/- Events that are no links leave the log as it is. -/
theorem append
    (h : ChainLog config sent passed trace)
    {events : List Event}
    (hMark : ∀ event ∈ events, event.chainMark = none) :
    ChainLog config sent passed (trace ++ events) := by
  have hHeader :
      ∀ event ∈ events, event.chainHeader = none := by
    intro event hMember
    apply chainHeader_of_chainMark
    simp [hMark event hMember]
  have hMarks :
      chainMarks (trace ++ events) = chainMarks trace := by
    simp [chainMarks, List.filterMap_eq_nil_iff.mpr hMark]
  have hHeaders :
      chainHeaders (trace ++ events) = chainHeaders trace := by
    simp [chainHeaders, List.filterMap_eq_nil_iff.mpr hHeader]
  refine ⟨?_, ?_, ?_, ?_⟩
  · rw [hMarks]
    exact h.marks
  · rw [hHeaders]
    exact h.headers_length
  · rw [hHeaders]
    exact h.headers
  · intro record hMember
    rcases List.mem_append.mp hMember with hOld | hNew
    · exact h.setUps record hOld
    · cases hMark _ hNew

/- The next link, unless it completes the cycle. -/
theorem push
    (h : ChainLog config sent passed trace)
    {event : Event}
    (hMark :
      event.chainMark =
        some (ChainMark.at (4 * sent + passed)))
    (hInner : event.chainMark ≠ some .sent)
    (hSetUp :
      ∀ record, event = .setUp record → record.IsFree) :
    ChainLog config sent (passed + 1) (trace ++ [event]) := by
  have hHeaders :
      chainHeaders (trace ++ [event]) = chainHeaders trace := by
    simp [chainHeaders, chainHeader_of_chainMark hInner]
  refine ⟨?_, ?_, ?_, ?_⟩
  · rw [← Nat.add_assoc, chainWord_succ, ← h.marks]
    simp [chainMarks, hMark]
  · rw [hHeaders]
    exact h.headers_length
  · rw [hHeaders]
    exact h.headers
  · intro record hMember
    rcases List.mem_append.mp hMember with hOld | hNew
    · exact h.setUps record hOld
    · apply hSetUp record
      exact (List.mem_singleton.mp hNew).symm

/- An accepted frame completes the cycle. -/
theorem push_frame
    (h : ChainLog config sent 3 trace)
    {header : StreamHeader}
    (hHeader : header.IsChainFrame config sent)
    (dest offset : Nat)
    (data : List UInt8) :
    ChainLog config (sent + 1) 0
      (trace ++
        [.sent dest
          (.frame .captureChainAnalysis header offset data)
          true]) := by
  have hHeaders :
      chainHeaders
          (trace ++
            [.sent dest
              (.frame .captureChainAnalysis header offset
                data) true]) =
        chainHeaders trace ++ [header] := by
    simp [chainHeaders, Event.chainHeader]
  have hLength := h.headers_length
  refine ⟨?_, ?_, ?_, ?_⟩
  · have hAt : ChainMark.at (4 * sent + 3) = .sent := by
      simp [ChainMark.at]
    rw [Nat.mul_succ, Nat.add_zero, chainWord_succ, hAt,
      ← h.marks]
    simp [chainMarks, Event.chainMark]
  · rw [hHeaders, List.length_append, hLength]
    rfl
  · intro k header' hFound
    rw [hHeaders] at hFound
    rcases getElem?_concat_eq_some hFound with
      hOld | ⟨hLast, hEq⟩
    · exact h.headers k header' hOld
    · rw [hLast, hLength, hEq]
      exact hHeader
  · intro record hMember
    rcases List.mem_append.mp hMember with hOld | hNew
    · exact h.setUps record hOld
    · cases List.mem_singleton.mp hNew

end ChainLog

end PicoLogicAnalyzer

------------------------------------------------------------
-- Session Invariant
------------------------------------------------------------

namespace PicoLogicAnalyzer

open Word

/- Where a session stands in its cycle. -/
inductive ChainStage where
  | running
  | finished
  | outstanding
deriving DecidableEq, Repr

/- Links of the current cycle that have been passed. -/
def ChainStage.passed : ChainStage → Nat
| .running => 1
| .finished => 2
| .outstanding => 3

def ChainStage.phase : ChainStage → ChainPhase
| .outstanding => .outstanding
| _ => .capturing

/- Blocks taken in the current cycle. -/
def ChainStage.taken : ChainStage → Nat
| .outstanding => 1
| _ => 0

/-
  After `sent` complete cycles the session is at `stage`: the
  trace so far is the endless repetition up to this point,
  and the counters of the bridge count its cycles.
-/
structure AnalysisSession
    (config : LaConfig)
    (sent : Nat)
    (stage : ChainStage)
    (trace : List Event)
    (d : Device) : Prop where
  log : ChainLog config sent stage.passed trace
  shows : d.Shows (.chainAnalysis stage.phase)
  capturing :
    d.bridge.hw.capturing = (stage == .running)
  config_eq : d.bridge.laConfig = config
  coherent : d.Coherent
  sequence :
    d.bridge.laSequence = u32 (sent + stage.taken)
  nextSample :
    d.bridge.laNextSample =
      u64 ((sent + stage.taken) * config.chunkSamples)
  pending :
    stage = .outstanding →
      d.pendingAnalysisBlock.IsChainBlock config sent

namespace AnalysisSession

variable {config : LaConfig} {sent : Nat}
variable {stage : ChainStage} {trace : List Event}
variable {d : Device}

/- Inputs beside the session do not move it. -/
theorem beside
    (h : AnalysisSession config sent stage trace d)
    {d' : Device}
    {events : List Event}
    (hBeside : d.Beside d')
    (hCoherent : d'.Coherent)
    (hPlain : ∀ event ∈ events, event.IsPlain) :
    AnalysisSession config sent stage (trace ++ events)
      d' := by
  rcases hBeside with ⟨pull, memory, passes, rfl⟩
  have hLog :
      ChainLog config sent stage.passed (trace ++ events) := by
    apply h.log.append
    intro event hMember
    exact chainMark_of_isPlain (hPlain event hMember)
  exact
    ⟨hLog, h.shows.congr rfl rfl, h.capturing, h.config_eq,
      hCoherent, h.sequence, h.nextSample, h.pending⟩

/- A capture completes. -/
theorem captureDone
    (h : AnalysisSession config sent stage trace d)
    (tail : Nat)
    (hCoherent :
      (PicoLogicAnalyzer.captureDone tail d).1.Coherent) :
    ∃ stage',
      AnalysisSession config sent stage'
        (trace ++
          (PicoLogicAnalyzer.captureDone tail d).2)
        (PicoLogicAnalyzer.captureDone tail d).1 := by
  have hCapturing := h.capturing
  have hShows := captureDone_shows h.shows tail
  cases stage with
  | running =>
      refine ⟨.finished, ?_⟩
      have hAt :
          ChainMark.at (4 * sent + 1) = .captured := by
        simp [ChainMark.at]
      have hDone : d.bridge.hw.capturing = true := hCapturing
      have hResult :
          PicoLogicAnalyzer.captureDone tail d =
            ({ d with
                bridge :=
                  { d.bridge with
                    hw :=
                      { d.bridge.hw with
                        capturing := false
                        lastTail := tail } } },
              [.captured]) := by
        unfold PicoLogicAnalyzer.captureDone
        rw [if_pos hDone]
      rw [hResult] at hCoherent hShows ⊢
      refine
        ⟨?_, hShows, rfl, h.config_eq, hCoherent, h.sequence,
          h.nextSample, by rintro ⟨⟩⟩
      apply h.log.push
      · rw [ChainStage.passed, hAt]
        rfl
      · simp [Event.chainMark]
      · intro record hSetUp
        cases hSetUp
  | finished =>
      refine ⟨.finished, ?_⟩
      have hIdle : d.bridge.hw.capturing = false := hCapturing
      simpa [PicoLogicAnalyzer.captureDone, hIdle] using h
  | outstanding =>
      refine ⟨.outstanding, ?_⟩
      have hIdle : d.bridge.hw.capturing = false := hCapturing
      simpa [PicoLogicAnalyzer.captureDone, hIdle] using h

/- A started chunk capture runs. -/
theorem laStartChunk_started (b : Bridge) :
    ∃ post,
      laStartChunk true b =
        { bridge :=
            { b with
              hw :=
                { b.hw with
                  capturing := true
                  lastPreSize := 0
                  lastPostSize := post
                  lastLoopCount := 0
                  lastCaptureMode := b.laConfig.mode
                  triggerPull := .up }
              laCaptureActive := true }
          started := true
          setUps := [(gpioPullDown b).setUp .chunk true] } :=
  ⟨_, rfl⟩

/- Nothing is taken before the capture is complete. -/
theorem takeBlock_of_running
    (h : AnalysisSession config sent .running trace d)
    (env : Env) :
    captureChainTakeBlock env d = (d, []) := by
  have hPending : d.blockPending = false :=
    h.shows.blockPending
  have hCapturing : d.bridge.hw.capturing = true :=
    h.capturing
  have hTake :
      laCaptureChainTake env.timeUs d.bridge =
        (d.bridge, none) := by
    simp [laCaptureChainTake, hCapturing]
  unfold captureChainTakeBlock
  split
  · simp only [hTake]
    rw [← hPending]
  · rfl

theorem takeBlock_of_outstanding
    (h : AnalysisSession config sent .outstanding trace d)
    (env : Env) :
    captureChainTakeBlock env d = (d, []) := by
  have hPending : d.blockPending = true :=
    h.shows.blockPending
  simp [captureChainTakeBlock, hPending]

/- What is taken from a complete capture. -/
theorem laCaptureChainTake_of_finished
    (h : AnalysisSession config sent .finished trace d)
    (timeUs : Nat) :
    ∃ block first sequence nextSample,
      laCaptureChainTake timeUs d.bridge =
          ({ d.bridge with
              hw.lastStartPosition := first
              laSequence := sequence
              laNextSample := nextSample
              laCaptureActive := false
              laBlockOutstanding := true },
            some block) ∧
        sequence = u32 (sent + 1) ∧
        nextSample = u64 ((sent + 1) * config.chunkSamples) ∧
        block.IsChainBlock config sent := by
  have hActive : d.bridge.laCaptureActive = true :=
    h.shows.laCaptureActive
  have hChunk := h.coherent.chunk hActive
  have hTake :=
    laCaptureChainTake_ready timeUs h.shows.laRunning
      h.shows.laBlockOutstanding hActive h.capturing
      hChunk.mode
  have hSamples := hChunk.samples h.coherent.config
  have hSequence : d.bridge.laSequence = u32 sent := by
    simpa only [ChainStage.taken, Nat.add_zero]
      using h.sequence
  have hNext :
      d.bridge.laNextSample =
        u64 (sent * config.chunkSamples) := by
    simpa only [ChainStage.taken, Nat.add_zero]
      using h.nextSample
  rw [h.config_eq] at hSamples
  refine ⟨_, _, _, _, hTake, ?_, ?_, ?_⟩
  · rw [hSequence, u32_u32_add]
  · rw [hNext, hSamples, u64_u64_add, Nat.succ_mul]
  · exact ⟨hSequence, rfl, hSamples, hNext⟩

/- A complete capture is taken as the next block. -/
theorem takeBlock_of_finished
    (h : AnalysisSession config sent .finished trace d)
    (env : Env) :
    ∃ block,
      (captureChainTakeBlock env d).2 = [.chainTaken block] ∧
        AnalysisSession config sent .outstanding
          (trace ++ [.chainTaken block])
          (captureChainTakeBlock env d).1 := by
  have hEnabled : d.captureChainAnalysisEnabled = true :=
    h.shows.captureChainAnalysisEnabled
  have hPending : d.blockPending = false :=
    h.shows.blockPending
  rcases h.laCaptureChainTake_of_finished env.timeUs with
    ⟨block, first, sequence, nextSample, hTake, hSequence,
      hNext, hBlock⟩
  have hShows := captureChainTakeBlock_shows h.shows env
  have hCoherent :=
    captureChainTakeBlock_coherent h.coherent env
  have hResult :
      captureChainTakeBlock env d =
        ({ d with
            bridge :=
              { d.bridge with
                hw.lastStartPosition := first
                laSequence := sequence
                laNextSample := nextSample
                laCaptureActive := false
                laBlockOutstanding := true }
            blockPending := true
            pendingAnalysisBlock := block },
          [.chainTaken block]) := by
    simp [captureChainTakeBlock, hEnabled, hPending, hTake]
  rw [hTake] at hShows
  rw [hResult] at hShows hCoherent ⊢
  refine
    ⟨block, rfl, ?_, hShows, h.capturing, h.config_eq,
      hCoherent, hSequence, hNext, fun _ => hBlock⟩
  have hAt : ChainMark.at (4 * sent + 2) = .taken := by
    simp [ChainMark.at]
  apply h.log.push
  · rw [ChainStage.passed, hAt]
    rfl
  · simp [Event.chainMark]
  · intro record hSetUp
    cases hSetUp

/- Nothing is sent without a block. -/
theorem sendBlock_of_not_outstanding
    (h : AnalysisSession config sent stage trace d)
    (hStage : stage ≠ .outstanding)
    (env : Env) :
    captureChainSendBlock env d = (d, []) := by
  have hPending : d.blockPending = false := by
    rw [h.shows.blockPending]
    cases stage with
    | running => rfl
    | finished => rfl
    | outstanding => exact absurd rfl hStage
  simp [captureChainSendBlock, hPending]

/- A refused block waits, an accepted one starts the next. -/
theorem sendBlock_of_outstanding
    (h : AnalysisSession config sent .outstanding trace d)
    {env : Env}
    (hStarted : env.chunkStarted = true) :
    ∃ sent' stage',
      AnalysisSession config sent' stage'
        (trace ++ (captureChainSendBlock env d).2)
        (captureChainSendBlock env d).1 := by
  have hPending : d.blockPending = true :=
    h.shows.blockPending
  have hSmall := h.coherent.pending_le (Or.inl hPending)
  have hShows := captureChainSendBlock_shows h.shows env
  have hCoherent :=
    captureChainSendBlock_coherent h.shows h.coherent env
  have hResult := captureChainSendBlock_spec hPending hSmall env
  rw [sendAnalysisBlock_spec hSmall] at hShows
  cases hAccepted : env.blockAccepted with
  | false =>
      simp only [hAccepted, Bool.false_eq_true, if_false]
        at hResult
      refine ⟨sent, .outstanding, ?_⟩
      rw [hResult]
      refine
        ⟨h.log.append ?_, h.shows, h.capturing, h.config_eq,
          h.coherent, h.sequence, h.nextSample, h.pending⟩
      intro event hMember
      rw [List.mem_singleton.mp hMember]
      rfl
  | true =>
      have hRelease :
          laCaptureChainRelease true d.bridge =
            laStartChunk true
              { d.bridge with laBlockOutstanding := false } :=
        laCaptureChainRelease_outstanding h.shows.laRunning
          h.shows.laBlockOutstanding
      rcases laStartChunk_started
        { d.bridge with laBlockOutstanding := false } with
        ⟨post, hStart⟩
      simp only [hAccepted, hStarted, if_true, hRelease, hStart]
        at hResult
      rw [hAccepted, hStarted] at hShows
      rw [hResult] at hShows hCoherent ⊢
      refine
        ⟨sent + 1, .running, ?_, hShows, rfl, h.config_eq,
          hCoherent, h.sequence, h.nextSample, by rintro ⟨⟩⟩
      have hFrame :=
        h.log.push_frame
          ((h.pending rfl).headerOf d) d.streamConnection
          d.pendingAnalysisBlock.data
          (d.bridge.hw.read d.pendingAnalysisBlock.data
            d.pendingAnalysisBlock.bytes)
      have hAt : ChainMark.at (4 * (sent + 1) + 0) = .setUp := by
        simp [ChainMark.at]
      rw [List.append_cons]
      apply hFrame.push
      · rw [hAt]
        rfl
      · simp [Event.chainMark]
      · intro record hSetUp
        cases hSetUp
        exact ⟨rfl, h.shows.laCaptureActive, h.capturing⟩

/- One call of the task. -/
theorem captureChainTasks
    (h : AnalysisSession config sent stage trace d)
    {env : Env}
    (hStarted : env.chunkStarted = true) :
    ∃ sent' stage',
      AnalysisSession config sent' stage'
        (trace ++
          (PicoLogicAnalyzer.captureChainTasks env d).2)
        (PicoLogicAnalyzer.captureChainTasks env d).1 := by
  rw [captureChainTasks_chainAnalysis env h.shows]
  cases stage with
  | running =>
      rw [h.takeBlock_of_running env]
      refine ⟨sent, .running, ?_⟩
      rw [h.sendBlock_of_not_outstanding (by simp) env]
      simpa using h
  | finished =>
      rcases h.takeBlock_of_finished env with
        ⟨block, hTaken, hNext⟩
      rw [hTaken, ← List.append_assoc]
      exact hNext.sendBlock_of_outstanding hStarted
  | outstanding =>
      rw [h.takeBlock_of_outstanding env]
      simpa using h.sendBlock_of_outstanding hStarted

end AnalysisSession

end PicoLogicAnalyzer

------------------------------------------------------------
-- Runs Of A Session
------------------------------------------------------------

namespace PicoLogicAnalyzer

open Word

/-
  Inputs of an open session: it is not stopped, and the
  capture module starts every chunk.
-/
def Input.KeepsAnalysis : Input → Prop
| .message _ _ data =>
    parseCommand data ≠ .captureChainAnalysisStop
| .captureChainTasks env => env.chunkStarted = true
| _ => True

theorem Command.eq_of_stops_analysis
    {command : Command}
    (hStops : command.stops = some .captureChainAnalysis) :
    command = .captureChainAnalysisStop := by
  cases command with
  | captureChainAnalysisStop => rfl
  | _ => cases hStops

namespace AnalysisSession

variable [CaptureModule]
variable {config : LaConfig} {sent : Nat}
variable {stage : ChainStage} {trace : List Event}
variable {d : Device} {i : Input}

/- One input moves the session along its cycle. -/
theorem step
    (h : AnalysisSession config sent stage trace d)
    (hKeeps : i.KeepsAnalysis) :
    ∃ sent' stage',
      AnalysisSession config sent' stage'
        (trace ++ (Device.step d i).2)
        (Device.step d i).1 := by
  have hCoherent := Device.step_coherent h.shows h.coherent i
  by_cases hActs : i.ActsOn (.chainAnalysis stage.phase)
  · cases i with
    | message env id data =>
        exact absurd (Command.eq_of_stops_analysis hActs) hKeeps
    | captureChainTasks env => exact h.captureChainTasks hKeeps
    | captureDone tail =>
        exact ⟨sent, h.captureDone tail hCoherent⟩
    | streamTake env => cases hActs
    | streamSend env => cases hActs
    | _ => exact hActs.elim
  · rcases Device.step_beside h.shows rfl hActs with
      ⟨hBeside, hPlain⟩
    exact ⟨sent, stage, h.beside hBeside hCoherent hPlain⟩

/- An accepted start opens a session. -/
theorem start
    (hShows : d.Shows .idle)
    (hCoherent : d.Coherent)
    {env : Env}
    (hStarted : env.chunkStarted = true)
    (id : Nat)
    {data : List UInt8}
    (hCommand :
      parseCommand data = .captureChainAnalysisStart) :
    AnalysisSession d.bridge.laConfig 0 .running
      (Device.step d (.message env id data)).2
      (Device.step d (.message env id data)).1 := by
  have hBusy : isBusy d = false := hShows.isBusy
  have hBridge : laIsBusy d.bridge = false := hShows.laIsBusy
  have hCoherent' :=
    Device.step_coherent hShows hCoherent
      (.message env id data)
  have hShows' :=
    captureChainAnalysisStart_shows hShows env id
  rw [hStarted] at hShows'
  rcases laStartChunk_started
    { d.bridge with
      laSequence := 0
      laNextSample := 0
      laBlockOutstanding := false
      laCaptureActive := false } with
    ⟨post, hStart⟩
  have hResult :
      captureChainAnalysisStart env id d =
        ({ d with
            bridge :=
              (laCaptureChainStart true d.bridge).bridge
            streamConnection := id
            captureChainAnalysisEnabled := true
            blockPending := false },
          (laCaptureChainStart true
              d.bridge).setUps.map .setUp ++
            [reply env id
              "CAPTURE_CHAIN_ANALYSIS_STARTED"]) := by
    simp [captureChainAnalysisStart, hBusy, hStarted,
      laCaptureChainStart, hBridge, hStart]
  have hChain :
      laCaptureChainStart true d.bridge =
        { bridge :=
            { d.bridge with
              hw :=
                { d.bridge.hw with
                  capturing := true
                  lastPreSize := 0
                  lastPostSize := post
                  lastLoopCount := 0
                  lastCaptureMode := d.bridge.laConfig.mode
                  triggerPull := .up }
              laSequence := 0
              laNextSample := 0
              laBlockOutstanding := false
              laCaptureActive := true
              laRunning := true }
          started := true
          setUps :=
            [(gpioPullDown
              { d.bridge with
                laSequence := 0
                laNextSample := 0
                laBlockOutstanding := false
                laCaptureActive := false }).setUp
              .chunk true] } := by
    simp [laCaptureChainStart, hBridge, hStart]
  simp only [Device.step, websocketMessage, hCommand,
    handleCommand] at hCoherent' ⊢
  rw [hChain] at hResult
  rw [hResult] at hShows' hCoherent' ⊢
  refine
    ⟨?_, hShows', rfl, rfl, hCoherent', rfl, ?_, by rintro ⟨⟩⟩
  · refine ⟨rfl, rfl, by rintro k header ⟨⟩, ?_⟩
    intro record hMember
    have hRecord :
        record =
          (gpioPullDown
            { d.bridge with
              laSequence := 0
              laNextSample := 0
              laBlockOutstanding := false
              laCaptureActive := false }).setUp
            .chunk true := by
      simpa [reply] using hMember
    rw [hRecord]
    exact ⟨rfl, rfl, hShows.not_capturing rfl⟩
  · simp [ChainStage.taken, u64]

end AnalysisSession

end PicoLogicAnalyzer

------------------------------------------------------------
-- Exactly Once
------------------------------------------------------------

namespace PicoLogicAnalyzer

open Word

/-
  What a session from its start to any later point amounts
  to. Captures, takes and sends alternate, a complete capture
  is taken by the next call of the task, and the buffer is
  not touched while its block waits.
-/
structure ChainAccount
    [CaptureModule]
    (config : LaConfig)
    (session : Device × List Event) : Prop where
  setUps :
    ∀ record, Event.setUp record ∈ session.2 → record.IsFree
  cycle :
    ∃ length, chainMarks session.2 = chainWord length
  taken :
    (chainMarks session.2).getLast? = some .captured →
      ∀ env, ∃ block,
        Event.chainTaken block ∈
          (captureChainTasks env session.1).2
  kept :
    session.1.blockPending = true →
      ∀ i : Input, i.KeepsAnalysis →
        (Device.step session.1 i).1.bridge.hw.captureBuffer =
          session.1.bridge.hw.captureBuffer
  headers :
    ∀ (k : Nat) (header : StreamHeader),
      (chainHeaders session.2)[k]? = some header →
        header.IsChainFrame config k

namespace AnalysisSession

variable {config : LaConfig} {sent : Nat}
variable {stage : ChainStage} {trace : List Event}
variable {d : Device}

/- The last link tells the stage. -/
theorem finished_of_getLast
    (h : AnalysisSession config sent stage trace d)
    (hLast : (chainMarks trace).getLast? = some .captured) :
    stage = .finished := by
  rw [h.log.marks] at hLast
  cases stage with
  | finished => rfl
  | running =>
      simp [ChainStage.passed, chainWord_succ, ChainMark.at]
        at hLast
  | outstanding =>
      simp [ChainStage.passed, chainWord_succ, ChainMark.at]
        at hLast

/- Sending leaves the buffer to the next capture. -/
theorem captureChainTasks_captureBuffer
    (h : AnalysisSession config sent .outstanding trace d)
    (env : Env) :
    (PicoLogicAnalyzer.captureChainTasks env
        d).1.bridge.hw.captureBuffer =
      d.bridge.hw.captureBuffer := by
  have hRelease :
      (laCaptureChainRelease env.chunkStarted
          d.bridge).bridge.hw.captureBuffer =
        d.bridge.hw.captureBuffer := by
    rw [laCaptureChainRelease_outstanding h.shows.laRunning
      h.shows.laBlockOutstanding]
    cases env.chunkStarted <;> rfl
  rw [captureChainTasks_chainAnalysis env h.shows,
    h.takeBlock_of_outstanding env]
  unfold captureChainSendBlock
  split
  · simp only
    split
    · exact hRelease
    · rfl
  · rfl

variable [CaptureModule]

/- While a block waits nothing writes to the buffer. -/
theorem step_captureBuffer
    (h : AnalysisSession config sent .outstanding trace d)
    {i : Input}
    (hKeeps : i.KeepsAnalysis) :
    (Device.step d i).1.bridge.hw.captureBuffer =
      d.bridge.hw.captureBuffer := by
  have hCapturing : d.bridge.hw.capturing = false :=
    h.capturing
  have hStream : d.bridge.laStreamRunning = false :=
    h.shows.laStreamRunning
  cases i with
  | message env id data =>
      have hOpen :
          (parseCommand data).stops ≠
            Activity.operation (.chainAnalysis .outstanding) := by
        intro hStops
        exact hKeeps (Command.eq_of_stops_analysis hStops)
      rcases handleCommand_withPull h.shows rfl hOpen env id
        data with ⟨pull, hState⟩
      simp only [Device.step, websocketMessage, hState]
      rfl
  | connect env id => rfl
  | disconnect id => rfl
  | singleCaptureTasks env =>
      simp only [Device.step,
        singleCaptureTasks_of_not_pending env
          h.shows.singleCapturePending]
  | captureChainTasks env =>
      exact h.captureChainTasks_captureBuffer env
  | streamTake env =>
      simp only [Device.step,
        streamTasksTake_of_stopped env h.shows.streamMode]
  | streamSend env =>
      simp only [Device.step,
        streamTasksSend_of_not_pending env
          h.shows.streamBlockPending]
  | captureWrite memory =>
      simp [Device.step, captureWrite, hCapturing]
  | captureDone tail =>
      simp [Device.step, PicoLogicAnalyzer.captureDone,
        hCapturing]
  | dmaWrite position byte =>
      simp [Device.step, dmaWrite, hStream]
  | dmaInterrupt =>
      simp [Device.step, dmaInterrupt, hStream]

theorem account
    (h : AnalysisSession config sent stage trace d) :
    ChainAccount config (d, trace) where
  setUps := h.log.setUps
  cycle := ⟨_, h.log.marks⟩
  taken := by
    intro hLast env
    have hStage := h.finished_of_getLast hLast
    subst hStage
    rcases h.takeBlock_of_finished env with
      ⟨block, hTaken, _⟩
    refine ⟨block, ?_⟩
    rw [captureChainTasks_chainAnalysis env h.shows, hTaken]
    exact List.mem_cons_self
  kept := by
    intro hPending i hKeeps
    have hStage : stage = .outstanding := by
      simp only [h.shows.blockPending] at hPending
      cases stage with
      | outstanding => rfl
      | running => cases hPending
      | finished => cases hPending
    subst hStage
    exact h.step_captureBuffer hKeeps
  headers := h.log.headers

end AnalysisSession

/-
  From an accepted start on, at every point before the stop
  of the session, each capture is taken once, in order, and
  the frames are numbered without a gap.
-/
theorem chainAnalysis_account
    [CaptureModule]
    {d : Device}
    (hReachable : d.Reachable)
    (hFree : isBusy d = false)
    {env : Env}
    (hStarted : env.chunkStarted = true)
    (id : Nat)
    {data : List UInt8}
    (hCommand :
      parseCommand data = .captureChainAnalysisStart)
    {inputs : List Input}
    (hKeeps : ∀ i ∈ inputs, i.KeepsAnalysis) :
    ChainAccount d.bridge.laConfig
      (Device.run d (.message env id data :: inputs)) := by
  rcases hReachable.shows with ⟨a, hShows⟩
  cases hShows.eq_idle_of_not_busy hFree
  have hStart :=
    AnalysisSession.start hShows hReachable.coherent hStarted
      id hCommand
  have hEnd :=
    Machine.Guarded.trace_invariant
      (P := fun trace d' =>
        ∃ sent stage,
          AnalysisSession d.bridge.laConfig sent stage trace d')
      (fun trace d' i h hInput => by
        rcases h with ⟨sent, stage, h⟩
        exact h.step hInput)
      ⟨0, .running, hStart⟩
      (Machine.Guarded.of_forall
        (fun i hMember _ => hKeeps i hMember) _)
  rcases hEnd with ⟨sent, stage, hEnd⟩
  exact hEnd.account

end PicoLogicAnalyzer

namespace PicoLogicAnalyzer

section Sample

attribute [local instance] CaptureModule.sample

/- Two captures are delivered as frames 0 and 1. -/
theorem chainAnalysis_account_two_frames :
    ChainAccount LaConfig.initial
        (Device.run (Device.boot CaptureHardware.blank)
          [Input.command 1 "CAPTURE_CHAIN_ANALYSIS_START",
            .captureDone 255, .captureChainTasks Env.smooth,
            .captureDone 511,
            .captureChainTasks Env.smooth]) ∧
      ((chainHeaders
          (Device.run (Device.boot CaptureHardware.blank)
            [Input.command 1 "CAPTURE_CHAIN_ANALYSIS_START",
              .captureDone 255, .captureChainTasks Env.smooth,
              .captureDone 511,
              .captureChainTasks Env.smooth]).2).map
        StreamHeader.sequence) = [0, 1] := by
  refine ⟨?_, by decide +kernel⟩
  apply chainAnalysis_account ⟨CaptureHardware.blank, [], rfl⟩
  · rfl
  · rfl
  · decide
  · simp [Input.KeepsAnalysis, Env.smooth]

/- A capture that completes before the stop is never taken. -/
theorem stop_drops_completed_capture :
    let session :=
      Device.run (Device.boot CaptureHardware.blank)
        [Input.command 1 "CAPTURE_CHAIN_ANALYSIS_START",
          .captureDone 255,
          Input.command 1 "CAPTURE_CHAIN_ANALYSIS_STOP",
          .captureChainTasks Env.smooth]
    chainMarks session.2 = [.setUp, .captured] ∧
      isBusy session.1 = false := by
  decide +kernel

end Sample

end PicoLogicAnalyzer
