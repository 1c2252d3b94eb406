import PicoLogicAnalyzer.Firmware.Coherence
import PicoLogicAnalyzer.Firmware.Sessions
import PicoLogicAnalyzer.Lib.Cursor

/-
  Stream sessions.

  The bridge takes chunks of the input in increasing order
  and counts those it skips; the task sends each block it
  took until `sendMessage` accepts it. The registers of the
  DMA may show anything at each take.

  Key definitions include:
    * `streamBlocks` and `streamHeaders`
    * `StreamLog`
    * `StreamSession`
    * `StreamAccount`

  Key theorems include:
    * `streamTasksTake_spec` and `streamTasksSend_spec`
    * `StreamSession.step`
    * `stream_account`
-/

------------------------------------------------------------
-- The Two Halves Of The Task
------------------------------------------------------------

namespace PicoLogicAnalyzer

open Word

variable {d : Device} {analysis : Bool}

/- A take without a block in hand. -/
theorem streamTasksTake_spec
    (h : d.Shows (.streaming analysis false))
    (hConfig : d.bridge.laConfig.WellFormed)
    (hLast : d.bridge.laStreamLastProducedBytes < 2 ^ 64)
    (hOverruns : d.bridge.laStreamOverruns < 2 ^ 32)
    (env : Env) :
    (∃ produced,
        streamTasksTake env d =
            ({ d with
                bridge.laStreamLastProducedBytes :=
                  produced },
              []) ∧
          (laStreamProducedBytes env.reads d.bridge).2 =
            produced ∧
          produced / d.bridge.laConfig.chunkBytes ≤
            d.bridge.laStreamNextChunk ∧
          d.bridge.laStreamLastProducedBytes ≤ produced ∧
          produced < 2 ^ 64) ∨
      ∃ n produced overruns block b',
        streamTasksTake env d =
            ({ d with
                bridge := b'
                streamBlockPending := true
                pendingAnalysisBlock := block },
              [.streamTaken d.bridge.laStreamNextChunk n
                block]) ∧
          laStreamTake env.reads env.timeUs d.bridge =
            (b', some block) ∧
          (laStreamProducedBytes env.reads d.bridge).2 =
            produced ∧
          StreamTaken d.bridge n produced overruns block
            b' := by
  have hPending : d.streamBlockPending = false :=
    h.streamBlockPending
  have hMode : d.streamMode ≠ .stopped := by
    rw [h.streamMode]
    cases analysis <;> simp [Activity.flags]
  have hOpen :
      d.streamMode ≠ .stopped ∧
        (!d.streamBlockPending) = true := by
    simp [hMode, hPending]
  rcases laStreamTake_spec hConfig hLast hOverruns
    h.laStreamRunning h.laStreamBlockOutstanding env.reads
    env.timeUs with
    ⟨hNone, produced, hBridge, hCount, hEarly, hProgress,
        hBound⟩ |
      ⟨n, produced, overruns, block, b', hTake, hCount,
        hTaken⟩
  · left
    refine ⟨produced, ?_, hCount, hEarly, hProgress, hBound⟩
    unfold streamTasksTake
    rw [if_pos hOpen]
    simp only [hNone, hBridge]
    rw [← hPending]
  · right
    refine
      ⟨n, produced, overruns, block, b', ?_, hTake, hCount,
        hTaken⟩
    have hIndex : b'.laStreamNextChunk - 1 = n := by
      rw [hTaken.bridge]
      exact Nat.add_sub_cancel n 1
    unfold streamTasksTake
    rw [if_pos hOpen]
    simp only [hTake, hIndex]

/- The message that carries the pending block. -/
def Device.streamPayload (d : Device) : Payload :=
  let block := d.pendingAnalysisBlock
  if d.streamMode = .analysis then
    .frame .stream (d.headerOf block) block.data
      (d.bridge.hw.read block.data block.bytes)
  else
    .raw .stream (laBytesPerSampleMode d.bridge.hw.dmaMode)
      block.data
      (d.bridge.hw.read block.data block.bytes)

theorem sendStreamBlock_spec
    (hSmall : d.pendingAnalysisBlock.bytes ≤ laMaxChunkBytes)
    (env : Env) :
    sendStreamBlock env d d.pendingAnalysisBlock =
      (env.blockAccepted,
        [.sent d.streamConnection d.streamPayload
          env.blockAccepted]) := by
  unfold sendStreamBlock Device.streamPayload
  by_cases hMode : d.streamMode = .analysis
  · simp only [hMode, if_true,
      sendAnalysisBlock_spec hSmall]
  · simp only [hMode, if_false]

/- Sending the block in hand. -/
theorem streamTasksSend_spec
    (hPending : d.streamBlockPending = true)
    (hSmall : d.pendingAnalysisBlock.bytes ≤ laMaxChunkBytes)
    (env : Env) :
    streamTasksSend env d =
      (if env.blockAccepted then
          { d with
            bridge := laStreamRelease d.bridge
            streamBlockPending := false }
        else d,
        [.sent d.streamConnection d.streamPayload
          env.blockAccepted]) := by
  unfold streamTasksSend
  rw [if_pos hPending]
  simp only [sendStreamBlock_spec hSmall env]
  cases env.blockAccepted with
  | false => rfl
  | true => rfl

end PicoLogicAnalyzer

------------------------------------------------------------
-- Logs Of A Session
------------------------------------------------------------

namespace PicoLogicAnalyzer

open Word

/- Chunk index and block of a take. -/
def Event.streamBlock : Event → Option (Nat × AnalysisBlock)
| .streamTaken _ chunk block => some (chunk, block)
| _ => none

def streamBlocks (trace : List Event) :
    List (Nat × AnalysisBlock) :=
  trace.filterMap Event.streamBlock

/- Indices of the chunks that were taken. -/
def chunkIndices (trace : List Event) : List Nat :=
  (streamBlocks trace).map Prod.fst

/- Headers of the stream frames that were sent. -/
def Event.streamHeader : Event → Option StreamHeader
| .sent _ (.frame .stream header _ _) true => some header
| _ => none

def streamHeaders (trace : List Event) :
    List StreamHeader :=
  trace.filterMap Event.streamHeader

/- The header of a block sent under a configuration. -/
def LaConfig.headerOf
    (config : LaConfig)
    (block : AnalysisBlock) :
    StreamHeader where
  sequence := block.sequence
  sampleCount := block.samples
  sampleRate := config.frequency
  overruns := block.overruns
  payloadBytes := block.bytes
  firstSample := block.firstSample
  deviceTimeUs := block.deviceTimeUs

/- Headers of all blocks that were taken. -/
def takenHeaders
    (config : LaConfig)
    (trace : List Event) :
    List StreamHeader :=
  (streamBlocks trace).map
    (fun entry => config.headerOf entry.2)

/- Block `i` of a session describes chunk `n`. -/
structure AnalysisBlock.IsStreamBlock
    (block : AnalysisBlock)
    (config : LaConfig)
    (i n : Nat) : Prop where
  sequence : block.sequence = u32 n
  overruns : block.overruns = u32 (n - i)
  samples : block.samples = config.chunkSamples
  firstSample : block.firstSample = n * config.chunkSamples

/-
  The takes of a trace, with the counters of the bridge after
  it: the cursor is past every chunk taken, and the overruns
  are the chunks skipped.
-/
structure StreamLog
    (config : LaConfig)
    (next overruns : Nat)
    (trace : List Event) : Prop where
  cursor : Cursor.Log (chunkIndices trace) next
  overruns_eq :
    overruns = u32 (next - (streamBlocks trace).length)
  blocks :
    ∀ (i n : Nat) (block : AnalysisBlock),
      (streamBlocks trace)[i]? = some (n, block) →
        block.IsStreamBlock config i n

theorem streamBlocks_append
    (trace events : List Event) :
    streamBlocks (trace ++ events) =
      streamBlocks trace ++ streamBlocks events :=
  List.filterMap_append

theorem streamHeaders_append
    (trace events : List Event) :
    streamHeaders (trace ++ events) =
      streamHeaders trace ++ streamHeaders events :=
  List.filterMap_append

/- Plain events carry neither a block nor a frame. -/
theorem streamLog_of_isPlain
    {events : List Event}
    (hPlain : ∀ event ∈ events, event.IsPlain) :
    streamBlocks events = [] ∧ streamHeaders events = [] := by
  have hNone :
      ∀ event ∈ events,
        event.streamBlock = none ∧
          event.streamHeader = none := by
    intro event hMember
    have hEvent := hPlain event hMember
    cases event with
    | received id data => exact ⟨rfl, rfl⟩
    | sent dest payload accepted =>
        cases payload with
        | frame op header offset data => cases hEvent
        | _ => exact ⟨rfl, rfl⟩
    | _ => exact hEvent.elim
  constructor
  · apply List.filterMap_eq_nil_iff.mpr
    intro event hMember
    exact (hNone event hMember).1
  · apply List.filterMap_eq_nil_iff.mpr
    intro event hMember
    exact (hNone event hMember).2

/- A refused message delivers nothing. -/
theorem streamHeaders_refused
    (dest : Nat)
    (payload : Payload) :
    streamHeaders [.sent dest payload false] = [] := by
  cases payload with
  | frame op header offset data => cases op <;> rfl
  | _ => rfl

/- An accepted message of an analysis stream is a frame. -/
theorem streamHeaders_accepted
    {d : Device}
    {pending : Bool}
    (h : d.Shows (.streaming true pending))
    (dest : Nat) :
    streamHeaders [.sent dest d.streamPayload true] =
      [d.bridge.laConfig.headerOf d.pendingAnalysisBlock] := by
  have hMode : d.streamMode = .analysis :=
    h.streamMode
  unfold Device.streamPayload
  rw [if_pos hMode]
  rfl

namespace StreamLog

variable {config : LaConfig} {next overruns : Nat}
variable {trace : List Event}

/- Events without a take. -/
theorem append
    (h : StreamLog config next overruns trace)
    {events : List Event}
    (hEvents : streamBlocks events = []) :
    StreamLog config next overruns (trace ++ events) := by
  have hSame :
      streamBlocks (trace ++ events) = streamBlocks trace := by
    rw [streamBlocks_append, hEvents, List.append_nil]
  refine ⟨?_, ?_, ?_⟩
  · unfold chunkIndices
    rw [hSame]
    exact h.cursor
  · rw [hSame]
    exact h.overruns_eq
  · rw [hSame]
    exact h.blocks

/- A take skips to its chunk and counts what it skips. -/
theorem take
    (h : StreamLog config next overruns trace)
    {n overruns' : Nat}
    {block : AnalysisBlock}
    (hSkip : next ≤ n)
    (hCount : overruns' = u32 (overruns + (n - next)))
    (hSequence : block.sequence = u32 n)
    (hOverruns : block.overruns = overruns')
    (hSamples : block.samples = config.chunkSamples)
    (hFirst : block.firstSample = n * config.chunkSamples)
    (before : Nat) :
    StreamLog config (n + 1) overruns'
      (trace ++ [.streamTaken before n block]) := by
  have hBlocks :
      streamBlocks (trace ++ [.streamTaken before n block]) =
        streamBlocks trace ++ [(n, block)] :=
    streamBlocks_append _ _
  have hLength : (streamBlocks trace).length ≤ next := by
    have hBound := h.cursor.length_le
    rwa [chunkIndices, List.length_map] at hBound
  have hSkipped :
      overruns' = u32 (n - (streamBlocks trace).length) := by
    rw [hCount, h.overruns_eq, u32_u32_add]
    congr 1
    omega
  refine ⟨?_, ?_, ?_⟩
  · rw [chunkIndices, hBlocks, List.map_append]
    exact h.cursor.take hSkip
  · rw [hSkipped, hBlocks, List.length_append,
      List.length_singleton, Nat.add_sub_add_right]
  · intro i m stored hFound
    rw [hBlocks] at hFound
    rcases getElem?_concat_eq_some hFound with
      hOld | ⟨hLast, hEntry⟩
    · exact h.blocks i m stored hOld
    · cases hEntry
      refine ⟨hSequence, ?_, hSamples, hFirst⟩
      rw [hOverruns, hSkipped, hLast]

end StreamLog

end PicoLogicAnalyzer

------------------------------------------------------------
-- Session Invariant
------------------------------------------------------------

namespace PicoLogicAnalyzer

open Word

/-
  An open stream: its log matches the counters of the bridge,
  and in analysis mode the frames sent are the blocks taken
  up to the one in hand.
-/
structure StreamSession
    (config : LaConfig)
    (analysis pending : Bool)
    (trace : List Event)
    (d : Device) : Prop where
  shows : d.Shows (.streaming analysis pending)
  config_eq : d.bridge.laConfig = config
  coherent : d.Coherent
  bound : d.bridge.laStreamLastProducedBytes < 2 ^ 64
  log :
    StreamLog config d.bridge.laStreamNextChunk
      d.bridge.laStreamOverruns trace
  delivered :
    analysis = true →
      takenHeaders config trace =
        streamHeaders trace ++
          (if pending then
            [config.headerOf d.pendingAnalysisBlock]
          else [])

namespace StreamSession

variable {config : LaConfig} {analysis pending : Bool}
variable {trace : List Event} {d : Device}

/- Inputs beside the session do not move it. -/
theorem beside
    (h : StreamSession config analysis pending trace d)
    {d' : Device}
    {events : List Event}
    (hBeside : d.Beside d')
    (hCoherent : d'.Coherent)
    (hPlain : ∀ event ∈ events, event.IsPlain) :
    StreamSession config analysis pending (trace ++ events)
      d' := by
  rcases hBeside with ⟨pull, memory, passes, rfl⟩
  rcases streamLog_of_isPlain hPlain with
    ⟨hBlocks, hHeaders⟩
  refine
    ⟨h.shows.congr rfl rfl, h.config_eq, hCoherent, h.bound,
      h.log.append hBlocks, ?_⟩
  intro hAnalysis
  rw [takenHeaders, streamBlocks_append, hBlocks,
    streamHeaders_append, hHeaders, List.append_nil,
    List.append_nil]
  exact h.delivered hAnalysis

theorem overruns_lt
    (h : StreamSession config analysis pending trace d) :
    d.bridge.laStreamOverruns < 2 ^ 32 := by
  rw [h.log.overruns_eq]
  exact u32_lt _

/- One take: no chunk yet, or the next one available. -/
theorem streamTake
    (h : StreamSession config analysis pending trace d)
    (env : Env) :
    ∃ pending',
      StreamSession config analysis pending'
        (trace ++ (streamTasksTake env d).2)
        (streamTasksTake env d).1 := by
  cases pending with
  | true =>
      have hPending : d.streamBlockPending = true :=
        h.shows.streamBlockPending
      have hNothing : streamTasksTake env d = (d, []) := by
        simp [streamTasksTake, hPending]
      refine ⟨true, ?_⟩
      rw [hNothing, List.append_nil]
      exact h
  | false =>
      have hShows := streamTasksTake_shows h.shows env
      have hCoherent := streamTasksTake_coherent h.coherent env
      rcases streamTasksTake_spec h.shows h.coherent.config
        h.bound h.overruns_lt env with
        ⟨produced, hResult, _, _, _, hBound⟩ |
          ⟨n, produced, overruns, block, b', hResult, hTake, _,
            hTaken⟩
      · refine ⟨false, ?_⟩
        rw [hResult] at hCoherent ⊢
        rw [List.append_nil]
        exact
          ⟨h.shows.congr rfl rfl, h.config_eq, hCoherent,
            hBound, h.log, h.delivered⟩
      · refine ⟨true, ?_⟩
        have hBridge := hTaken.bridge
        have hSamples := hTaken.samples
        have hFirst := hTaken.firstSample
        rw [h.config_eq] at hSamples hFirst
        rw [hTake] at hShows
        rw [hResult] at hShows hCoherent ⊢
        subst hBridge
        refine
          ⟨hShows, h.config_eq, hCoherent, hTaken.bound,
            h.log.take hTaken.next_le hTaken.overruns_eq
              hTaken.sequence hTaken.overruns hSamples hFirst
              _, ?_⟩
        intro hAnalysis
        have hBefore := h.delivered hAnalysis
        rw [if_neg Bool.false_ne_true, List.append_nil]
          at hBefore
        rw [takenHeaders, streamBlocks_append,
          List.map_append, streamHeaders_append,
          ← takenHeaders, hBefore, List.append_assoc]
        rfl

/- One send: a refused block stays in hand. -/
theorem streamSend
    (h : StreamSession config analysis pending trace d)
    (env : Env) :
    ∃ pending',
      StreamSession config analysis pending'
        (trace ++ (streamTasksSend env d).2)
        (streamTasksSend env d).1 := by
  cases pending with
  | false =>
      refine ⟨false, ?_⟩
      rw [streamTasksSend_of_not_pending env
        h.shows.streamBlockPending, List.append_nil]
      exact h
  | true =>
      have hShows := streamTasksSend_shows h.shows env
      have hCoherent := streamTasksSend_coherent h.coherent env
      have hPending : d.streamBlockPending = true :=
        h.shows.streamBlockPending
      have hSmall := h.coherent.pending_le (Or.inr hPending)
      have hResult := streamTasksSend_spec hPending hSmall env
      have hLog :
          ∀ accepted,
            StreamLog config d.bridge.laStreamNextChunk
              d.bridge.laStreamOverruns
              (trace ++
                [.sent d.streamConnection d.streamPayload
                  accepted]) := by
        intro accepted
        exact h.log.append rfl
      have hTaken :
          ∀ accepted,
            takenHeaders config
                (trace ++
                  [.sent d.streamConnection d.streamPayload
                    accepted]) =
              takenHeaders config trace := by
        intro accepted
        rw [takenHeaders, streamBlocks_append]
        exact congrArg _ (List.append_nil _)
      rw [sendStreamBlock_spec hSmall env] at hShows
      cases hAccepted : env.blockAccepted with
      | false =>
          rw [hAccepted] at hResult
          refine ⟨true, ?_⟩
          rw [hResult]
          refine
            ⟨h.shows, h.config_eq, h.coherent, h.bound,
              hLog false, ?_⟩
          intro hAnalysis
          rw [hTaken, h.delivered hAnalysis,
            streamHeaders_append, streamHeaders_refused,
            List.append_nil]
          rfl
      | true =>
          rw [hAccepted] at hResult hShows
          rw [hResult] at hShows hCoherent
          refine ⟨false, ?_⟩
          rw [hResult]
          refine
            ⟨hShows, h.config_eq, hCoherent, h.bound,
              hLog true, ?_⟩
          intro hAnalysis
          subst hAnalysis
          rw [hTaken, h.delivered rfl, streamHeaders_append,
            streamHeaders_accepted h.shows, h.config_eq,
            List.append_assoc]
          rfl

end StreamSession

end PicoLogicAnalyzer

------------------------------------------------------------
-- Runs Of A Session
------------------------------------------------------------

namespace PicoLogicAnalyzer

open Word

/- Inputs of an open stream: it is not stopped. -/
def Input.KeepsStream : Input → Prop
| .message _ _ data => (parseCommand data).stops ≠ some .stream
| _ => True

/- The command that starts a stream of either kind. -/
def Command.startsStream (analysis : Bool) : Command :=
  if analysis then .streamAnalysisStart else .streamStart

namespace StreamSession

variable [CaptureModule]
variable {config : LaConfig} {analysis pending : Bool}
variable {trace : List Event} {d : Device} {i : Input}

/- One input keeps the account. -/
theorem step
    (h : StreamSession config analysis pending trace d)
    (hKeeps : i.KeepsStream) :
    ∃ pending',
      StreamSession config analysis pending'
        (trace ++ (Device.step d i).2)
        (Device.step d i).1 := by
  have hCoherent := Device.step_coherent h.shows h.coherent i
  by_cases hActs : i.ActsOn (.streaming analysis pending)
  · cases i with
    | message env id data => exact absurd hActs hKeeps
    | captureChainTasks env => cases hActs
    | captureDone tail => cases hActs
    | streamTake env => exact h.streamTake env
    | streamSend env => exact h.streamSend env
    | _ => exact hActs.elim
  · rcases Device.step_beside h.shows rfl hActs with
      ⟨hBeside, hPlain⟩
    exact ⟨pending, h.beside hBeside hCoherent hPlain⟩

/- What an accepted start does. -/
theorem start_result
    (hShows : d.Shows .idle)
    (env : Env)
    (id : Nat)
    {data : List UInt8}
    (hCommand :
      parseCommand data = Command.startsStream analysis) :
    ∃ mode record text,
      Device.step d (.message env id data) =
        ({ d with
            bridge :=
              { d.bridge with
                hw :=
                  { d.bridge.hw with
                    captureBuffer :=
                      clearedBuffer d.bridge.hw.captureBuffer
                    dmaMode := d.bridge.laConfig.mode }
                laStreamCompletedPasses := 0
                laStreamNextChunk := 0
                laStreamLastProducedBytes := 0
                laStreamOverruns := 0
                laStreamBlockOutstanding := false
                laStreamRunning := true }
            streamConnection := id
            streamMode := mode
            streamBlockPending := false },
          [.received id data, .setUp record,
            reply env id text]) := by
  have hBusy : isBusy d = false := hShows.isBusy
  have hBridge : laIsBusy d.bridge = false := hShows.laIsBusy
  cases analysis with
  | false =>
      have hStart : parseCommand data = .streamStart :=
        hCommand
      refine
        ⟨.raw, d.bridge.setUp .stream true, "STREAM_STARTED",
          ?_⟩
      simp only [Device.step, websocketMessage, hStart,
        handleCommand, streamStartCommand, startStream, hBusy,
        laStreamStart, hBridge, Bool.false_eq_true, if_false,
        if_true, List.map_cons, List.map_nil,
        List.cons_append, List.nil_append]
  | true =>
      have hStart :
          parseCommand data = .streamAnalysisStart :=
        hCommand
      refine
        ⟨.analysis, d.bridge.setUp .stream true,
          "STREAM_ANALYSIS_STARTED", ?_⟩
      simp only [Device.step, websocketMessage, hStart,
        handleCommand, streamStartCommand, startStream, hBusy,
        laStreamStart, hBridge, Bool.false_eq_true, if_false,
        if_true, List.map_cons, List.map_nil,
        List.cons_append, List.nil_append]

/- An accepted start opens a session. -/
theorem start
    (hShows : d.Shows .idle)
    (hCoherent : d.Coherent)
    (env : Env)
    (id : Nat)
    {data : List UInt8}
    (hCommand :
      parseCommand data = Command.startsStream analysis) :
    StreamSession d.bridge.laConfig analysis false
      (Device.step d (.message env id data)).2
      (Device.step d (.message env id data)).1 := by
  have hCoherent' :=
    Device.step_coherent hShows hCoherent
      (.message env id data)
  have hShows' :
      (Device.step d (.message env id data)).1.Shows
        (.streaming analysis false) := by
    have hNext :=
      handleCommand_shows hShows env id data
        (parseCommand data)
    rw [hCommand] at hNext
    simp only [Device.step, websocketMessage, hCommand]
    cases analysis <;> exact hNext
  rcases start_result hShows env id hCommand with
    ⟨mode, record, text, hResult⟩
  rw [hResult] at hShows' hCoherent' ⊢
  have hBlocks :
      streamBlocks
          [.received id data, .setUp record,
            reply env id text] = [] :=
    rfl
  refine
    ⟨hShows', rfl, hCoherent', Nat.two_pow_pos 64,
      ⟨Cursor.Log.nil 0, rfl, ?_⟩, fun _ => rfl⟩
  intro i n block hFound
  rw [hBlocks] at hFound
  simp at hFound

end StreamSession

end PicoLogicAnalyzer

------------------------------------------------------------
-- Running Streams Are Sessions
------------------------------------------------------------

namespace PicoLogicAnalyzer

variable {d : Device} {a : Activity}

/- The device is in a session that some start has opened. -/
def Device.InStreamSession (d : Device) : Prop :=
  ∃ config analysis pending trace,
    StreamSession config analysis pending trace d

/- Only a start command of an idle device opens a stream. -/
theorem Activity.handle_streaming
    {env : Env}
    {command : Command}
    {analysis pending : Bool}
    (hOpened :
      a.handle env command = .streaming analysis pending)
    (hClosed : a.operation ≠ some .stream) :
    a = .idle ∧ ∃ analysis, command = .startsStream analysis := by
  have hCases := a.handle_cases env command
  rw [hOpened] at hCases
  rcases hCases with hSame | ⟨hIdle, hOpens⟩ | hEnded
  · rw [← hSame] at hClosed
    exact absurd rfl hClosed
  · refine ⟨hIdle, ?_⟩
    cases command with
    | streamStart => exact ⟨false, rfl⟩
    | streamAnalysisStart => exact ⟨true, rfl⟩
    | _ => cases hOpens
  · simp at hEnded

theorem Device.Shows.streaming_of_running
    (h : d.Shows a)
    (hRunning : d.bridge.laStreamRunning = true) :
    ∃ analysis pending, a = .streaming analysis pending := by
  rw [h.laStreamRunning] at hRunning
  cases a with
  | streaming analysis pending =>
      exact ⟨analysis, pending, rfl⟩
  | _ => cases hRunning

variable [CaptureModule]

/- A stream that runs after a step was opened or kept open. -/
theorem Device.step_inStreamSession
    (hShows : d.Shows a)
    (hCoherent : d.Coherent)
    (hSession :
      d.bridge.laStreamRunning = true → d.InStreamSession)
    {i : Input}
    (hNext :
      (Device.step d i).1.bridge.laStreamRunning = true) :
    (Device.step d i).1.InStreamSession := by
  by_cases hRunning : d.bridge.laStreamRunning = true
  · rcases hSession hRunning with
      ⟨config, analysis, pending, trace, h⟩
    by_cases hKeeps : i.KeepsStream
    · rcases h.step hKeeps with ⟨pending', h'⟩
      exact ⟨config, analysis, pending', _, h'⟩
    · -- The stream was stopped.
      cases i with
      | message env id data =>
          exfalso
          have hStopped :=
            handleCommand_shows h.shows env id data
              (parseCommand data)
          rcases hStopped.streaming_of_running hNext with
            ⟨analysis', pending', hStill⟩
          simp only [Input.KeepsStream, ne_eq, not_not]
            at hKeeps
          generalize parseCommand data = command at *
          cases command <;>
            simp_all [Command.stops, Activity.handle,
              Activity.stopStream]
      | _ => exact absurd trivial hKeeps
  · have hClosed : a.operation ≠ some .stream := by
      intro hStream
      cases a with
      | streaming analysis pending =>
          exact hRunning hShows.laStreamRunning
      | _ => cases hStream
    by_cases hTask : ∀ env id data, i ≠ .message env id data
    · exfalso
      rcases Device.step_continues hShows hTask with
        ⟨a', hShows', hContinues⟩
      rcases hShows'.streaming_of_running hNext with
        ⟨analysis, pending, rfl⟩
      rcases hContinues with hIdle | ⟨hSame, _⟩
      · cases hIdle
      · exact hClosed hSame.symm
    · push Not at hTask
      rcases hTask with ⟨env, id, data, rfl⟩
      have hShows' :=
        handleCommand_shows hShows env id data
          (parseCommand data)
      rcases hShows'.streaming_of_running hNext with
        ⟨analysis, pending, hOpened⟩
      rcases Activity.handle_streaming hOpened hClosed with
        ⟨rfl, analysis', hStart⟩
      exact
        ⟨_, _, _, _,
          StreamSession.start hShows hCoherent env id hStart⟩

/- The device of a running stream is in a session. -/
theorem Device.Reachable.inStreamSession
    (hReachable : d.Reachable)
    (hRunning : d.bridge.laStreamRunning = true) :
    d.InStreamSession := by
  have hInvariant :
      ((∃ a, d.Shows a) ∧ d.Coherent) ∧
        (d.bridge.laStreamRunning = true →
          d.InStreamSession) := by
    refine Device.Reachable.invariant
      (P := fun d =>
        ((∃ a, d.Shows a) ∧ d.Coherent) ∧
          (d.bridge.laStreamRunning = true →
            d.InStreamSession))
      ?_ ?_ hReachable
    · intro hw
      refine
        ⟨⟨⟨.idle, Device.boot_shows hw⟩,
          Device.boot_coherent hw⟩, ?_⟩
      intro hBoot
      cases hBoot
    · rintro d i ⟨⟨⟨a, hShows⟩, hCoherent⟩, hSession⟩
      refine
        ⟨⟨Device.step_shows hShows i,
          Device.step_coherent hShows hCoherent i⟩, ?_⟩
      exact
        Device.step_inStreamSession hShows hCoherent hSession
  exact hInvariant.2 hRunning

end PicoLogicAnalyzer

------------------------------------------------------------
-- Accounting
------------------------------------------------------------

namespace PicoLogicAnalyzer

open Word

/-
  What a stream from its start to any later point amounts to.
  The frames sent are the blocks taken, up to the one in
  hand, and the counters in their headers tell which chunks
  were skipped.
-/
structure StreamAccount
    (config : LaConfig)
    (analysis : Bool)
    (session : Device × List Event) : Prop where
  increasing : (chunkIndices session.2).Pairwise (· < ·)
  delivered :
    analysis = true →
      takenHeaders config session.2 =
        streamHeaders session.2 ++
          (if session.1.streamBlockPending then
            [config.headerOf session.1.pendingAnalysisBlock]
          else [])
  frames :
    ∀ (i n : Nat) (header : StreamHeader),
      (chunkIndices session.2)[i]? = some n →
      (takenHeaders config session.2)[i]? = some header →
        header.sequence = u32 n ∧
          header.sampleCount = config.chunkSamples ∧
          header.firstSample = n * header.sampleCount
  first :
    ∀ (n : Nat) (header : StreamHeader),
      (chunkIndices session.2)[0]? = some n →
      (takenHeaders config session.2)[0]? = some header →
        header.overruns = u32 n
  gaps :
    ∀ (i n n' : Nat) (header header' : StreamHeader),
      (chunkIndices session.2)[i]? = some n →
      (chunkIndices session.2)[i + 1]? = some n' →
      (takenHeaders config session.2)[i]? = some header →
      (takenHeaders config session.2)[i + 1]? =
        some header' →
        sub32 header'.overruns header.overruns =
          u32 (n' - n - 1)
  counted :
    ∃ skipped,
      session.1.bridge.laStreamNextChunk =
          (streamBlocks session.2).length + skipped ∧
        session.1.bridge.laStreamOverruns = u32 skipped

/- Index and header of one take belong together. -/
theorem StreamLog.header
    {config : LaConfig}
    {next overruns : Nat}
    {trace : List Event}
    (h : StreamLog config next overruns trace)
    {i n : Nat}
    {header : StreamHeader}
    (hIndex : (chunkIndices trace)[i]? = some n)
    (hHeader :
      (takenHeaders config trace)[i]? = some header) :
    header.sequence = u32 n ∧
      header.overruns = u32 (n - i) ∧
      header.sampleCount = config.chunkSamples ∧
      header.firstSample = n * config.chunkSamples := by
  rw [chunkIndices, List.getElem?_map] at hIndex
  rw [takenHeaders, List.getElem?_map] at hHeader
  rcases Option.map_eq_some_iff.mp hIndex with
    ⟨entry, hEntry, rfl⟩
  rw [hEntry] at hHeader
  cases hHeader
  have hBlock := h.blocks i entry.1 entry.2 hEntry
  exact
    ⟨hBlock.sequence, hBlock.overruns, hBlock.samples,
      hBlock.firstSample⟩

theorem StreamSession.account
    {config : LaConfig}
    {analysis pending : Bool}
    {trace : List Event}
    {d : Device}
    (h : StreamSession config analysis pending trace d) :
    StreamAccount config analysis (d, trace) where
  increasing := h.log.cursor.increasing
  delivered := by
    intro hAnalysis
    have hPending : d.streamBlockPending = pending :=
      h.shows.streamBlockPending
    simp only [hPending]
    exact h.delivered hAnalysis
  frames := by
    intro i n header hIndex hHeader
    rcases h.log.header hIndex hHeader with
      ⟨hSequence, _, hSamples, hFirst⟩
    refine ⟨hSequence, hSamples, ?_⟩
    rw [hSamples]
    exact hFirst
  first := by
    intro n header hIndex hHeader
    exact (h.log.header hIndex hHeader).2.1
  gaps := by
    intro i n n' header header' hIndex hIndex' hHeader hHeader'
    have hGap := h.log.cursor.gap hIndex hIndex'
    rw [(h.log.header hIndex hHeader).2.1,
      (h.log.header hIndex' hHeader').2.1, hGap.2]
    exact sub32_u32_add _ _
  counted := by
    have hLength := h.log.cursor.length_le
    rw [chunkIndices, List.length_map] at hLength
    exact
      ⟨_, (Nat.add_sub_of_le hLength).symm, h.log.overruns_eq⟩

/-
  From an accepted start on, at every point before the stop
  of the stream, no chunk is lost silently, duplicated or
  reordered.
-/
theorem stream_account
    [CaptureModule]
    {d : Device}
    (hReachable : d.Reachable)
    (hFree : isBusy d = false)
    {analysis : Bool}
    (env : Env)
    (id : Nat)
    {data : List UInt8}
    (hCommand :
      parseCommand data = Command.startsStream analysis)
    {inputs : List Input}
    (hKeeps : ∀ i ∈ inputs, i.KeepsStream) :
    StreamAccount d.bridge.laConfig analysis
      (Device.run d (.message env id data :: inputs)) := by
  rcases hReachable.shows with ⟨a, hShows⟩
  cases hShows.eq_idle_of_not_busy hFree
  have hStart :=
    StreamSession.start hShows hReachable.coherent env id
      hCommand
  have hEnd :=
    Machine.Guarded.trace_invariant
      (P := fun trace d' =>
        ∃ pending,
          StreamSession d.bridge.laConfig analysis pending
            trace d')
      (fun trace d' i h hInput => by
        rcases h with ⟨pending, h⟩
        exact h.step hInput)
      ⟨false, hStart⟩
      (Machine.Guarded.of_forall
        (fun i hMember _ => hKeeps i hMember) _)
  rcases hEnd with ⟨pending, hEnd⟩
  exact hEnd.account

end PicoLogicAnalyzer

namespace PicoLogicAnalyzer

section Sample

attribute [local instance] CaptureModule.sample

/- A moment at which five chunks of 256 bytes are complete. -/
def Env.fiveChunks : Env :=
  { Env.smooth with
    reads :=
      { passes := 0, busy0 := true, count0 := 131072 - 1280,
        busy1 := false, count1 := 0 } }

/- Two chunks are taken; the second send is refused. -/
theorem stream_account_two_chunks :
    StreamAccount LaConfig.initial true
        (Device.run (Device.boot CaptureHardware.blank)
          [Input.command 1 "STREAM_ANALYSIS_START",
            .streamTake Env.fiveChunks,
            .streamSend Env.fiveChunks,
            .streamTake Env.fiveChunks,
            .streamSend
              { Env.fiveChunks with
                blockAccepted := false }]) ∧
      chunkIndices
          (Device.run (Device.boot CaptureHardware.blank)
            [Input.command 1 "STREAM_ANALYSIS_START",
              .streamTake Env.fiveChunks,
              .streamSend Env.fiveChunks,
              .streamTake Env.fiveChunks,
              .streamSend
                { Env.fiveChunks with
                  blockAccepted := false }]).2 =
        [0, 1] := by
  refine ⟨?_, by decide +kernel⟩
  apply stream_account ⟨CaptureHardware.blank, [], rfl⟩
  · rfl
  · decide
  · simp [Input.KeepsStream]

end Sample

end PicoLogicAnalyzer
