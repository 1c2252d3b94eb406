import PicoLogicAnalyzer.Firmware.Blocks
import PicoLogicAnalyzer.Firmware.StreamSession
import PicoLogicAnalyzer.Page.Frames

/-
  Gap detection by the page.

  The page compares the counters of each frame with those of
  the frame before. Over a whole stream session its warnings
  tell exactly which chunks the firmware skipped.

  Key definitions include:
    * `Page.receive`
    * `streamWires`
    * `GapReport`

  Key theorems include:
    * `run_receive`
    * `stream_gaps_reported`
-/

------------------------------------------------------------
-- Frames Handled In Order
------------------------------------------------------------

namespace PicoLogicAnalyzer

open Word

/- What the page shows and warns of after a message. -/
def Page.receive
    (page : Page)
    (message : WireMessage) :
    Page × List (Option PageStats × List Console) :=
  let result := page.onMessage message
  (result.1, [(result.1.stats, result.2)])

/- Warnings for a frame that follows `previous`. -/
def FrameView.gapsAfter
    (previous frame : FrameView) :
    List Console :=
  (if frame.sequence ≠ u32 (previous.sequence + 1) then
    [.sequenceGap] else []) ++
  (if frame.firstSample ≠
      previous.firstSample + previous.sampleCount then
    [.sampleGap] else [])

def StreamHeader.stats (header : StreamHeader) : PageStats where
  configured := header.sampleRate
  sequence := header.sequence
  overruns := header.overruns

/- The log for headers, given the warnings for the first. -/
def shownLog
    (first : FrameView → List Console) :
    List StreamHeader →
      List (Option PageStats × List Console)
| [] => []
| header :: headers =>
    (some header.stats, first header.view) ::
      shownLog header.view.gapsAfter headers

theorem shownLog_succ
    (first : FrameView → List Console)
    {headers : List StreamHeader}
    {i : Nat}
    {header header' : StreamHeader}
    (hHeader : headers[i]? = some header)
    (hNext : headers[i + 1]? = some header') :
    (shownLog first headers)[i + 1]? =
      some
        (some header'.stats,
          header.view.gapsAfter header'.view) := by
  induction headers generalizing first i with
  | nil => cases hHeader
  | cons head headers ih =>
      cases i with
      | zero =>
          cases hHeader
          cases headers with
          | nil => cases hNext
          | cons next headers =>
              cases hNext
              rfl
      | succ i => exact ih _ hHeader hNext

theorem length_shownLog
    (first : FrameView → List Console)
    (headers : List StreamHeader) :
    (shownLog first headers).length = headers.length := by
  induction headers generalizing first with
  | nil => rfl
  | cons header headers ih => exact congrArg (· + 1) (ih _)

theorem shownLog_stats
    (first : FrameView → List Console)
    {headers : List StreamHeader}
    {i : Nat}
    {header : StreamHeader}
    (hHeader : headers[i]? = some header) :
    ∃ warnings,
      (shownLog first headers)[i]? =
        some (some header.stats, warnings) := by
  induction headers generalizing first i with
  | nil => cases hHeader
  | cons head headers ih =>
      cases i with
      | zero =>
          cases hHeader
          exact ⟨_, rfl⟩
      | succ i => exact ih _ hHeader

theorem Page.gapWarnings_clearFull
    (page : Page) :
    page.clearFull.gapWarnings = page.gapWarnings := by
  unfold Page.clearFull
  split <;> rfl

/- A frame and its payload on the wire. -/
def frameWire
    (frame : StreamHeader × List UInt8) :
    WireMessage :=
  .binary (frame.1.encode ++ frame.2)

/-
  The induction is on the frames: after each of them the
  page compares with exactly that frame.
-/
theorem run_receive
    {mode : ChannelMode}
    {frames : List (StreamHeader × List UInt8)}
    (hFrames : ∀ frame ∈ frames, frame.1.Frames mode frame.2)
    {page : Page}
    (hMode : page.analysisMode = true) :
    (Machine.run Page.receive page
      (frames.map frameWire)).2 =
        shownLog page.gapWarnings (frames.map Prod.fst) := by
  induction frames generalizing page with
  | nil => rfl
  | cons frame frames ih =>
      rw [List.forall_mem_cons] at hFrames
      have hHandled := hFrames.1.onMessage hMode
      rw [List.map_cons, Machine.run_cons, List.map_cons]
      simp only [Page.receive, frameWire, hHandled,
        List.cons_append, List.nil_append, shownLog,
        page.gapWarnings_clearFull]
      congr 1
      apply ih hFrames.2
      exact page.analysisMode_clearFull.trans hMode

end PicoLogicAnalyzer

------------------------------------------------------------
-- Frames Of A Session
------------------------------------------------------------

namespace PicoLogicAnalyzer

/- Stream frames that were accepted, as they arrive. -/
def Event.streamWire : Event → Option WireMessage
| .sent _ (.frame .stream header offset data) true =>
    some (Payload.frame .stream header offset data).wire
| _ => none

def streamWires (trace : List Event) : List WireMessage :=
  trace.filterMap Event.streamWire

/- Their headers and payloads. -/
def Event.streamFrame :
    Event → Option (StreamHeader × List UInt8)
| .sent _ (.frame .stream header _ data) true =>
    some (header, data)
| _ => none

def streamFrames
    (trace : List Event) :
    List (StreamHeader × List UInt8) :=
  trace.filterMap Event.streamFrame

theorem Event.streamFrame_eq
    (event : Event) :
    event.streamWire = event.streamFrame.map frameWire ∧
      event.streamHeader = event.streamFrame.map Prod.fst := by
  cases event with
  | sent dest payload accepted =>
      cases payload with
      | frame op header offset data =>
          cases op with
          | stream => cases accepted <;> exact ⟨rfl, rfl⟩
          | _ => exact ⟨rfl, rfl⟩
      | _ => exact ⟨rfl, rfl⟩
  | _ => exact ⟨rfl, rfl⟩

theorem streamWires_eq
    (trace : List Event) :
    streamWires trace = (streamFrames trace).map frameWire := by
  rw [streamFrames, List.map_filterMap]
  exact
    congrArg (fun f => trace.filterMap f)
      (funext fun event => event.streamFrame_eq.1)

theorem streamHeaders_eq
    (trace : List Event) :
    streamHeaders trace = (streamFrames trace).map Prod.fst := by
  rw [streamFrames, List.map_filterMap]
  exact
    congrArg (fun f => trace.filterMap f)
      (funext fun event => event.streamFrame_eq.2)

/- A take computes its position in 64 bits. -/
theorem laStreamTake_firstSample_lt
    {reads : DmaReads}
    {timeUs : Nat}
    {b : Bridge}
    {block : AnalysisBlock}
    (hTaken : (laStreamTake reads timeUs b).2 = some block) :
    block.firstSample < 2 ^ 64 := by
  unfold laStreamTake at hTaken
  split at hTaken
  · cases hTaken
  · simp only at hTaken
    split at hTaken
    · cases hTaken
    · cases hTaken
      exact Word.u64_lt _

/- Blocks taken have a 64-bit position. -/
def Event.WordBlock : Event → Prop
| .streamTaken _ _ block => block.firstSample < 2 ^ 64
| _ => True

theorem streamTasksTake_wordBlock
    (env : Env)
    (d : Device) :
    ∀ event ∈ (streamTasksTake env d).2, event.WordBlock := by
  intro event hMember
  unfold streamTasksTake at hMember
  split at hMember
  · simp only at hMember
    split at hMember
    · cases hMember
    · rename_i block hTaken
      rw [List.mem_singleton] at hMember
      rw [hMember]
      exact laStreamTake_firstSample_lt hTaken
  · cases hMember

variable [CaptureModule]
variable {config : LaConfig} {analysis pending : Bool}
variable {trace : List Event} {d : Device}

theorem StreamSession.step_wordBlock
    (h : StreamSession config analysis pending trace d)
    {i : Input}
    (hKeeps : i.KeepsStream) :
    ∀ event ∈ (Device.step d i).2, event.WordBlock := by
  intro event hMember
  by_cases hActs : i.ActsOn (.streaming analysis pending)
  · cases i with
    | message env id data => exact absurd hActs hKeeps
    | captureChainTasks env => cases hActs
    | captureDone tail => cases hActs
    | streamTake env =>
        exact streamTasksTake_wordBlock env d event hMember
    | streamSend env =>
        rcases mem_streamTasksSend hMember with ⟨_, hSent⟩
        rcases mem_sendStreamBlock hSent with
          ⟨payload, rfl, _⟩
        trivial
    | _ => exact hActs.elim
  · have hPlain :=
      (Device.step_beside h.shows rfl hActs).2 event hMember
    cases event with
    | streamTaken next chunk block => exact hPlain.elim
    | _ => trivial

/- What a session has said up to now fits on the wire. -/
structure StreamTalk
    (config : LaConfig)
    (analysis : Bool)
    (trace : List Event)
    (d : Device) : Prop where
  session :
    ∃ pending, StreamSession config analysis pending trace d
  words : ∀ event ∈ trace, event.WordBlock
  frames : ∀ event ∈ trace, event.FrameOf config

theorem StreamTalk.step
    (h : StreamTalk config analysis trace d)
    {i : Input}
    (hKeeps : i.KeepsStream) :
    StreamTalk config analysis (trace ++ (Device.step d i).2)
      (Device.step d i).1 := by
  rcases h.session with ⟨pending, hSession⟩
  have hFrames :=
    Device.step_frameOf hSession.shows hSession.coherent i
  rw [hSession.config_eq] at hFrames
  constructor
  · exact hSession.step hKeeps
  · exact
      List.forall_mem_append.mpr
        ⟨h.words, hSession.step_wordBlock hKeeps⟩
  · exact List.forall_mem_append.mpr ⟨h.frames, hFrames⟩

theorem StreamTalk.start
    (hShows : d.Shows .idle)
    (hCoherent : d.Coherent)
    (env : Env)
    (id : Nat)
    {data : List UInt8}
    (hCommand :
      parseCommand data = Command.startsStream analysis) :
    StreamTalk d.bridge.laConfig analysis
      (Device.step d (.message env id data)).2
      (Device.step d (.message env id data)).1 := by
  constructor
  · exact
      ⟨false,
        StreamSession.start hShows hCoherent env id hCommand⟩
  · intro event hMember
    rcases List.mem_cons.mp hMember with rfl | hAnswer
    · trivial
    · rcases mem_handleCommand hAnswer with
        ⟨record, rfl⟩ | ⟨payload, accepted, rfl, _⟩
      · trivial
      · trivial
  · exact Device.step_frameOf hShows hCoherent _

omit [CaptureModule] in
/- Header `i` that was sent is header `i` that was taken. -/
theorem StreamTalk.taken
    (h : StreamTalk config true trace d)
    {i : Nat}
    {header : StreamHeader}
    (hHeader : (streamHeaders trace)[i]? = some header) :
    (takenHeaders config trace)[i]? = some header := by
  rcases h.session with ⟨pending, hSession⟩
  rw [hSession.delivered rfl]
  rcases List.getElem?_eq_some_iff.mp hHeader with
    ⟨hIndex, _⟩
  rw [List.getElem?_append_left hIndex]
  exact hHeader

omit [CaptureModule] in
/- The chunk a sent header belongs to. -/
theorem StreamTalk.header
    (h : StreamTalk config true trace d)
    {i n : Nat}
    {header : StreamHeader}
    (hIndex : (chunkIndices trace)[i]? = some n)
    (hHeader : (streamHeaders trace)[i]? = some header) :
    header.sequence = Word.u32 n ∧
      header.overruns = Word.u32 (n - i) ∧
      header.sampleCount = config.chunkSamples ∧
      header.firstSample = n * config.chunkSamples := by
  rcases h.session with ⟨pending, hSession⟩
  exact hSession.log.header hIndex (h.taken hHeader)

omit [CaptureModule] in
/- Every frame of the session can be read by the page. -/
theorem StreamTalk.frames_readable
    (h : StreamTalk config true trace d)
    (hRate : config.frequency < 2 ^ 32) :
    ∀ frame ∈ streamFrames trace,
      frame.1.Frames config.mode frame.2 := by
  intro frame hMember
  rcases h.session with ⟨pending, hSession⟩
  have hConfig : config.WellFormed := by
    rw [← hSession.config_eq]
    exact hSession.coherent.config
  -- The event that sent the frame.
  rcases List.mem_filterMap.mp hMember with
    ⟨event, hEvent, hFrame⟩
  have hShape := h.frames event hEvent
  have hFields :
      frame.1.sampleCount = config.chunkSamples ∧
        frame.1.payloadBytes = config.chunkBytes ∧
        frame.1.sampleRate = config.frequency ∧
        frame.2.length = frame.1.payloadBytes := by
    cases event with
    | sent dest payload accepted =>
        cases payload with
        | frame op header offset data =>
            cases op with
            | stream =>
                cases accepted with
                | true =>
                    cases hFrame
                    exact hShape
                | false => cases hFrame
            | _ => cases hFrame
        | _ => cases hFrame
    | _ => cases hFrame
  -- The take it came from.
  have hHeader : frame.1 ∈ streamHeaders trace := by
    rw [streamHeaders_eq]
    exact List.mem_map_of_mem hMember
  rcases List.mem_iff_getElem?.mp hHeader with ⟨i, hIndex⟩
  have hTaken := h.taken hIndex
  rw [takenHeaders, List.getElem?_map] at hTaken
  rcases Option.map_eq_some_iff.mp hTaken with
    ⟨entry, hEntry, hBlock⟩
  have hLog := hSession.log.blocks i entry.1 entry.2 hEntry
  have hWord : entry.2.firstSample < 2 ^ 64 := by
    rcases List.mem_filterMap.mp
      (List.mem_of_getElem? hEntry) with
      ⟨event', hEvent', hEntry'⟩
    have hWordBlock := h.words event' hEvent'
    cases event' with
    | streamTaken next chunk block =>
        cases hEntry'
        exact hWordBlock
    | _ => cases hEntry'
  rcases hFields with ⟨hCount, hBytes, hFreq, hLength⟩
  have hSamples := hConfig.chunkSamples_mul
  constructor
  · constructor
    · rw [← hBlock]
      exact hLog.sequence.trans_lt (Word.u32_lt _)
    · rw [hCount]
      exact hConfig.chunkSamples_lt
    · rw [hFreq]
      exact hRate
    · rw [← hBlock]
      exact hLog.overruns.trans_lt (Word.u32_lt _)
    · rw [hBytes]
      exact hConfig.chunkBytes_lt
    · rw [← hBlock]
      exact hWord
  · rw [hCount]
    exact hConfig.chunkSamples_pos
  · rw [hBytes, hCount, ← hConfig.width_eq, hSamples]
  · exact hLength

end PicoLogicAnalyzer

------------------------------------------------------------
-- Gaps Are Reported Exactly
------------------------------------------------------------

namespace PicoLogicAnalyzer

open Word

/-
  `shown` is what the page shows and warns of for the frames
  of the chunks taken: one entry for each frame, and frame
  and entry `i` are those of chunk `i`.
-/
structure GapReport
    (config : LaConfig)
    (chunks : List Nat)
    (frames : List WireMessage)
    (shown : List (Option PageStats × List Console)) :
    Prop where
  length_eq : shown.length = frames.length
  length_le : shown.length ≤ chunks.length
  carried :
    ∀ (i n : Nat) (message : WireMessage),
      chunks[i]? = some n →
      frames[i]? = some message →
        ∃ header data,
          message = frameWire (header, data) ∧
            header.sequence = u32 n ∧
            header.firstSample = n * config.chunkSamples
  displayed :
    ∀ entry ∈ shown, ∃ stats, entry.1 = some stats
  numbered :
    ∀ (i n : Nat) (stats : PageStats)
        (warnings : List Console),
      chunks[i]? = some n →
      shown[i]? = some (some stats, warnings) →
        stats.sequence = u32 n
  first :
    ∀ entry, shown[0]? = some entry → entry.2 = []
  gaps :
    ∀ (i n n' : Nat) (stats stats' : PageStats)
        (warnings warnings' : List Console),
      chunks[i]? = some n →
      chunks[i + 1]? = some n' →
      shown[i]? = some (some stats, warnings) →
      shown[i + 1]? = some (some stats', warnings') →
        n < n' ∧
          (Console.sampleGap ∈ warnings' ↔
            0 < n' - n - 1) ∧
          (Console.sequenceGap ∈ warnings' ↔
            ¬ 2 ^ 32 ∣ n' - n - 1) ∧
          Console.rangeError ∉ warnings' ∧
          sub32 stats'.overruns stats.overruns =
            u32 (n' - n - 1)

/- Consecutive truncated numbers are consecutive or far off. -/
theorem u32_succ_ne_iff
    {n n' : Nat}
    (hOrder : n < n') :
    u32 n' ≠ u32 (u32 n + 1) ↔ ¬ 2 ^ 32 ∣ n' - n - 1 := by
  unfold u32
  omega

/- Chunks of equal size leave a gap unless they adjoin. -/
theorem chunk_ne_iff
    {n n' samples : Nat}
    (hOrder : n < n')
    (hSamples : 0 < samples) :
    n' * samples ≠ n * samples + samples ↔ 0 < n' - n - 1 := by
  rw [← Nat.succ_mul, ne_eq, Nat.mul_left_inj hSamples.ne']
  omega

theorem FrameView.mem_gapsAfter
    (previous frame : FrameView) :
    (Console.sequenceGap ∈ previous.gapsAfter frame ↔
        frame.sequence ≠ u32 (previous.sequence + 1)) ∧
      (Console.sampleGap ∈ previous.gapsAfter frame ↔
        frame.firstSample ≠
          previous.firstSample + previous.sampleCount) ∧
      Console.rangeError ∉ previous.gapsAfter frame := by
  unfold FrameView.gapsAfter
  split <;> split <;> simp_all

/- The page after it has been told of the start. -/
def Page.streamStarted (page : Page) : Page :=
  (page.onMessage (.text "STREAM_ANALYSIS_STARTED")).1

/- The comparison starts anew. -/
theorem Page.streamStarted_spec
    (page : Page) :
    page.streamStarted.analysisMode = true ∧
      page.streamStarted.lastSequence = none ∧
      page.streamStarted.expectedSample = none := by
  have hStarts :
      startsAnalysis "STREAM_ANALYSIS_STARTED" = true := by
    decide
  have hEnds :
      endsAnalysis "STREAM_ANALYSIS_STARTED" = false := by
    decide
  simp only [Page.streamStarted, Page.onMessage,
    Page.onReply, hStarts, hEnds, if_true,
    Bool.false_eq_true, if_false, and_self]

/- The first frame is compared with nothing. -/
theorem Page.gapWarnings_streamStarted
    (page : Page)
    (frame : FrameView) :
    page.streamStarted.gapWarnings frame = [] := by
  rcases page.streamStarted_spec with
    ⟨_, hSequence, hSample⟩
  simp [Page.gapWarnings, hSequence, hSample]

/- The report of the frames a session has sent. -/
theorem StreamTalk.gapReport
    {config : LaConfig}
    {trace : List Event}
    {d : Device}
    (h : StreamTalk config true trace d)
    (hRate : config.frequency < 2 ^ 32)
    (page : Page) :
    GapReport config (chunkIndices trace) (streamWires trace)
      (Machine.run Page.receive page.streamStarted
        (streamWires trace)).2 := by
  rcases h.session with ⟨pending, hSession⟩
  have hConfig : config.WellFormed := by
    rw [← hSession.config_eq]
    exact hSession.coherent.config
  have hSamples : 0 < config.chunkSamples :=
    hConfig.chunkSamples_pos
  have hShown :=
    run_receive (h.frames_readable hRate)
      page.streamStarted_spec.1
  rw [← streamWires_eq, ← streamHeaders_eq] at hShown
  rw [hShown]
  have hLength :
      (streamHeaders trace).length ≤
        (chunkIndices trace).length := by
    have hTaken :=
      congrArg List.length (hSession.delivered rfl)
    simp only [takenHeaders, List.length_map,
      List.length_append] at hTaken
    rw [chunkIndices, List.length_map]
    omega
  have hFound :
      ∀ {i : Nat} {entry : Option PageStats × List Console},
        (shownLog page.streamStarted.gapWarnings
          (streamHeaders trace))[i]? = some entry →
        ∃ header, (streamHeaders trace)[i]? = some header := by
    intro i entry hEntry
    rcases List.getElem?_eq_some_iff.mp hEntry with
      ⟨hIndex, _⟩
    rw [length_shownLog] at hIndex
    exact ⟨_, List.getElem?_eq_getElem hIndex⟩
  constructor
  · rw [length_shownLog, streamWires_eq, streamHeaders_eq,
      List.length_map, List.length_map]
  · rw [length_shownLog]
    exact hLength
  · intro i n message hChunk hMessage
    rw [streamWires_eq, List.getElem?_map] at hMessage
    rcases Option.map_eq_some_iff.mp hMessage with
      ⟨⟨header, data⟩, hFrame, hWire⟩
    have hHeader : (streamHeaders trace)[i]? = some header := by
      rw [streamHeaders_eq, List.getElem?_map, hFrame]
      rfl
    rcases h.header hChunk hHeader with
      ⟨hSequence, _, _, hFirst⟩
    exact ⟨header, data, hWire.symm, hSequence, hFirst⟩
  · intro entry hMember
    rcases List.mem_iff_getElem?.mp hMember with ⟨i, hEntry⟩
    rcases hFound hEntry with ⟨header, hHeader⟩
    rcases shownLog_stats page.streamStarted.gapWarnings
      hHeader with ⟨warnings, hStats⟩
    rw [hEntry] at hStats
    cases hStats
    exact ⟨header.stats, rfl⟩
  · intro i n stats warnings hChunk hEntry
    rcases hFound hEntry with ⟨header, hHeader⟩
    rcases shownLog_stats page.streamStarted.gapWarnings
      hHeader with ⟨_, hStats⟩
    rw [hEntry] at hStats
    cases hStats
    exact (h.header hChunk hHeader).1
  · intro entry hEntry
    cases hHeaders : streamHeaders trace with
    | nil =>
        rw [hHeaders] at hEntry
        cases hEntry
    | cons header headers =>
        rw [hHeaders] at hEntry
        cases hEntry
        exact page.gapWarnings_streamStarted header.view
  · intro i n n' stats stats' warnings warnings' hChunk
      hChunk' hEntry hEntry'
    rcases hFound hEntry with ⟨header, hHeader⟩
    rcases hFound hEntry' with ⟨header', hHeader'⟩
    rcases shownLog_stats page.streamStarted.gapWarnings
      hHeader with ⟨_, hStats⟩
    have hNext :=
      shownLog_succ page.streamStarted.gapWarnings hHeader
        hHeader'
    rw [hEntry] at hStats
    rw [hEntry'] at hNext
    cases hStats
    cases hNext
    have hGap := hSession.log.cursor.gap hChunk hChunk'
    rcases h.header hChunk hHeader with
      ⟨hSequence, hOverruns, hCount, hFirst⟩
    rcases h.header hChunk' hHeader' with
      ⟨hSequence', hOverruns', _, hFirst'⟩
    rcases header.view.mem_gapsAfter header'.view with
      ⟨hSequenceGap, hSampleGap, hError⟩
    refine ⟨hGap.1, ?_, ?_, hError, ?_⟩
    · rw [hSampleGap, ← chunk_ne_iff hGap.1 hSamples]
      simp only [StreamHeader.view, hCount, hFirst, hFirst']
    · rw [hSequenceGap, ← u32_succ_ne_iff hGap.1]
      simp only [StreamHeader.view, hSequence, hSequence']
    · simp only [StreamHeader.stats, hOverruns, hOverruns',
        hGap.2]
      exact sub32_u32_add _ _

/-
  For every run of an analysis stream, the page that handles
  its frames in order reports each gap, and nothing else.
-/
theorem stream_gaps_reported
    [CaptureModule]
    {d : Device}
    (hReachable : d.Reachable)
    (hFree : isBusy d = false)
    (env : Env)
    (id : Nat)
    {data : List UInt8}
    (hCommand : parseCommand data = .streamAnalysisStart)
    {inputs : List Input}
    (hKeeps : ∀ i ∈ inputs, i.KeepsStream)
    (page : Page) :
    let trace :=
      (Device.run d (.message env id data :: inputs)).2
    GapReport d.bridge.laConfig (chunkIndices trace)
      (streamWires trace)
      (Machine.run Page.receive
        (page.onMessage
          (.text "STREAM_ANALYSIS_STARTED")).1
        (streamWires trace)).2 := by
  rcases hReachable.shows with ⟨a, hShows⟩
  cases hShows.eq_idle_of_not_busy hFree
  have hStart : parseCommand data = .startsStream true :=
    hCommand
  have hGuarded :
      Machine.Guarded Device.step
        (fun _ i => i.KeepsStream)
        (Device.step d (.message env id data)).1 inputs := by
    apply Machine.Guarded.of_forall
    intro i hMember _
    exact hKeeps i hMember
  have hEnd :=
    Machine.Guarded.trace_invariant
      (P := StreamTalk d.bridge.laConfig true)
      (fun trace d' i h hInput => h.step hInput)
      (StreamTalk.start hShows hReachable.coherent env id
        hStart)
      hGuarded
  exact hEnd.gapReport hReachable.frequency_lt page

end PicoLogicAnalyzer

namespace PicoLogicAnalyzer

section Sample

attribute [local instance] CaptureModule.sample

/- The registers after one pass and five more chunks. -/
def Env.lateChunks : Env :=
  { Env.smooth with
    reads :=
      { passes := 1, busy0 := false, count0 := 0,
        busy1 := true, count1 := 131072 - 1280 } }

/-
  One chunk in time, the next one a lap too late: the page
  shows two frames and warns of the second.
-/
theorem late_take_is_reported :
    let trace :=
      (Device.run (Device.boot CaptureHardware.blank)
        [Input.command 1 "STREAM_ANALYSIS_START",
          .streamTake Env.fiveChunks,
          .streamSend Env.fiveChunks,
          .streamTake Env.lateChunks,
          .streamSend Env.lateChunks]).2
    let shown :=
      (Machine.run Page.receive
        (Page.initial.onMessage
          (.text "STREAM_ANALYSIS_STARTED")).1
        (streamWires trace)).2
    GapReport LaConfig.initial (chunkIndices trace)
        (streamWires trace) shown ∧
      chunkIndices trace = [0, 6] ∧
      shown =
        [(some
            { configured := 1000, sequence := 0,
              overruns := 0 }, []),
          (some
            { configured := 1000, sequence := 6,
              overruns := 5 },
            [.sequenceGap, .sampleGap])] := by
  refine ⟨?_, by decide +kernel, by decide +kernel⟩
  apply stream_gaps_reported ⟨CaptureHardware.blank, [], rfl⟩
  · rfl
  · decide
  · simp [Input.KeepsStream]

end Sample

end PicoLogicAnalyzer
