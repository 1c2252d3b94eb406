import PicoLogicAnalyzer.Page.Gaps

/-
  The sample counters of the page.

  The page adds up the samples of the frames it handles and
  remembers where the next frame should start. Over a stream
  session the two differ by the samples of the chunks that
  the firmware skipped, and the overrun counter on display
  says how many chunks those are, modulo the word.

  Key definitions include:
    * `SampleAccount`

  Key theorems include:
    * `run_receive_last`
    * `stream_samples_accounted`
-/

------------------------------------------------------------
-- Counters After A Run Of Frames
------------------------------------------------------------

namespace PicoLogicAnalyzer

open Word

@[simp] theorem Page.totalSamples_clearFull
    (page : Page) :
    page.clearFull.totalSamples = page.totalSamples := by
  unfold Page.clearFull
  split <;> rfl

/- Handling frames neither leaves analysis mode nor loses
   a sample of the total. -/
theorem run_receive_total
    {mode : ChannelMode}
    {frames : List (StreamHeader × List UInt8)}
    (hFrames : ∀ frame ∈ frames, frame.1.Frames mode frame.2)
    {page : Page}
    (hMode : page.analysisMode = true) :
    let final :=
      (Machine.run Page.receive page (frames.map frameWire)).1
    final.analysisMode = true ∧
      final.totalSamples =
        page.totalSamples.map
          (· + (frames.map (·.1.sampleCount)).sum) := by
  induction frames generalizing page with
  | nil =>
      refine ⟨hMode, ?_⟩
      simp
  | cons frame frames ih =>
      rw [List.forall_mem_cons] at hFrames
      have hHandled := hFrames.1.onMessage hMode
      have hNext :
          (page.receive (frameWire frame)).1.analysisMode =
            true := by
        simp only [Page.receive, frameWire, hHandled]
        exact page.analysisMode_clearFull.trans hMode
      have hTotal :
          (page.receive (frameWire frame)).1.totalSamples =
            page.totalSamples.map
              (· + frame.1.sampleCount) := by
        simp only [Page.receive, frameWire, hHandled,
          Page.follow, Page.totalSamples_clearFull]
        rfl
      rcases ih hFrames.2 hNext with ⟨hStill, hSum⟩
      rw [List.map_cons, Machine.run_cons]
      refine ⟨hStill, hSum.trans ?_⟩
      rw [hTotal, Option.map_map, List.map_cons,
        List.sum_cons]
      congr 1
      funext total
      exact Nat.add_assoc _ _ _

/- The last frame decides what is expected and displayed. -/
theorem run_receive_last
    {mode : ChannelMode}
    {frames : List (StreamHeader × List UInt8)}
    {last : StreamHeader × List UInt8}
    (hFrames :
      ∀ frame ∈ frames ++ [last], frame.1.Frames mode frame.2)
    {page : Page}
    (hMode : page.analysisMode = true) :
    let final :=
      (Machine.run Page.receive page
        ((frames ++ [last]).map frameWire)).1
    final.expectedSample =
        some (last.1.firstSample + last.1.sampleCount) ∧
      final.stats = some last.1.stats := by
  rcases List.forall_mem_append.mp hFrames with
    ⟨hBefore, hLast⟩
  have hStill := (run_receive_total hBefore hMode).1
  have hHandled :=
    (hLast last List.mem_cons_self).onMessage hStill
  rw [List.map_append, Machine.run_append]
  simp only [List.map_cons, List.map_nil, Machine.run_cons,
    Machine.run_nil, Page.receive, frameWire, hHandled]
  exact ⟨rfl, rfl⟩

end PicoLogicAnalyzer

------------------------------------------------------------
-- Accounts
------------------------------------------------------------

namespace PicoLogicAnalyzer

open Word

/-
  The counters of a page that has handled `frames` frames of
  a stream whose firmware had `skipped` chunks before the
  last of them.
-/
structure SampleAccount
    (config : LaConfig)
    (frames skipped : Nat)
    (page : Page) : Prop where
  total :
    page.totalSamples = some (frames * config.chunkSamples)
  expected :
    page.expectedSample =
      some ((frames + skipped) * config.chunkSamples)
  overruns :
    ∃ stats,
      page.stats = some stats ∧ stats.overruns = u32 skipped

theorem Page.totalSamples_streamStarted
    (page : Page) :
    page.streamStarted.totalSamples = some 0 := by
  have hStarts :
      startsAnalysis "STREAM_ANALYSIS_STARTED" = true := by
    decide
  have hEnds :
      endsAnalysis "STREAM_ANALYSIS_STARTED" = false := by
    decide
  simp only [Page.streamStarted, Page.onMessage,
    Page.onReply, hStarts, hEnds, if_true,
    Bool.false_eq_true, if_false]

namespace StreamTalk

variable {config : LaConfig} {trace : List Event} {d : Device}

/- Every run of a session from its start on. -/
theorem of_run
    [CaptureModule]
    (hReachable : d.Reachable)
    (hFree : isBusy d = false)
    (env : Env)
    (id : Nat)
    {data : List UInt8}
    {analysis : Bool}
    (hCommand :
      parseCommand data = Command.startsStream analysis)
    {inputs : List Input}
    (hKeeps : ∀ i ∈ inputs, i.KeepsStream) :
    StreamTalk d.bridge.laConfig analysis
      (Device.run d (.message env id data :: inputs)).2
      (Device.run d (.message env id data :: inputs)).1 := by
  rcases hReachable.shows with ⟨a, hShows⟩
  cases hShows.eq_idle_of_not_busy hFree
  have hGuarded :
      Machine.Guarded Device.step
        (fun _ i => i.KeepsStream)
        (Device.step d (.message env id data)).1 inputs :=
    Machine.Guarded.of_forall
      (fun i hMember _ => hKeeps i hMember) _
  exact
    hGuarded.trace_invariant
      (P := StreamTalk d.bridge.laConfig analysis)
      (fun _ _ _ h hInput => h.step hInput)
      (StreamTalk.start hShows hReachable.coherent env id
        hCommand)

/- Every header that was sent belongs to a chunk. -/
theorem chunk
    (h : StreamTalk config true trace d)
    {i : Nat}
    {header : StreamHeader}
    (hHeader : (streamHeaders trace)[i]? = some header) :
    ∃ n, i ≤ n ∧ (chunkIndices trace)[i]? = some n := by
  have hTaken := h.taken hHeader
  rcases h.session with ⟨pending, hSession⟩
  rw [takenHeaders, List.getElem?_map] at hTaken
  rcases Option.map_eq_some_iff.mp hTaken with
    ⟨entry, hEntry, _⟩
  have hChunk : (chunkIndices trace)[i]? = some entry.1 := by
    rw [chunkIndices, List.getElem?_map, hEntry]
    rfl
  exact
    ⟨entry.1, hSession.log.cursor.index_le hChunk, hChunk⟩

/- All frames of a session have the same size. -/
theorem total
    (h : StreamTalk config true trace d) :
    ((streamFrames trace).map (·.1.sampleCount)).sum =
      (streamFrames trace).length * config.chunkSamples := by
  have hAll :
      (streamFrames trace).map (·.1.sampleCount) =
        List.replicate (streamFrames trace).length
          config.chunkSamples := by
    rw [List.eq_replicate_iff]
    refine ⟨List.length_map _, ?_⟩
    intro count hMember
    rcases List.mem_map.mp hMember with ⟨frame, hFrame, rfl⟩
    have hHeader : frame.1 ∈ streamHeaders trace := by
      rw [streamHeaders_eq]
      exact List.mem_map_of_mem hFrame
    rcases List.mem_iff_getElem?.mp hHeader with ⟨i, hIndex⟩
    rcases h.chunk hIndex with ⟨n, _, hChunk⟩
    exact (h.header hChunk hIndex).2.2.1
  rw [hAll, List.sum_replicate_nat]

/- The account of the frames a session has sent. -/
theorem sampleAccount
    (h : StreamTalk config true trace d)
    (hRate : config.frequency < 2 ^ 32)
    (page : Page)
    (hSome : streamWires trace ≠ []) :
    ∃ n skipped,
      (chunkIndices trace)[(streamWires trace).length - 1]? =
          some n ∧
        n + 1 = (streamWires trace).length + skipped ∧
        SampleAccount config (streamWires trace).length skipped
          (Machine.run Page.receive page.streamStarted
            (streamWires trace)).1 := by
  have hFrames := h.frames_readable hRate
  have hMode := page.streamStarted_spec.1
  have hTotal := (run_receive_total hFrames hMode).2
  rw [h.total, page.totalSamples_streamStarted] at hTotal
  rw [streamWires_eq] at hSome ⊢
  rw [List.length_map]
  rcases List.eq_nil_or_concat (streamFrames trace) with
    hNone | ⟨before, last, hSplit⟩
  · rw [hNone] at hSome
    exact absurd rfl hSome
  have hHeader :
      (streamHeaders trace)[before.length]? = some last.1 := by
    rw [streamHeaders_eq, hSplit, List.concat_eq_append,
      List.getElem?_map]
    simp
  rcases h.chunk hHeader with ⟨n, hOrder, hChunk⟩
  rcases h.header hChunk hHeader with
    ⟨_, hOverruns, hCount, hFirst⟩
  have hLength :
      (streamFrames trace).length = before.length + 1 := by
    rw [hSplit, List.length_concat]
  rw [hSplit, List.concat_eq_append] at hFrames
  rcases run_receive_last hFrames hMode with
    ⟨hExpected, hStats⟩
  rw [← List.concat_eq_append, ← hSplit] at hExpected hStats
  refine
    ⟨n, n - before.length, ?_, ?_, ?_, ?_, last.1.stats,
      hStats, hOverruns⟩
  · rw [hLength]
    exact hChunk
  · omega
  · rw [hTotal]
    simp
  · rw [hExpected, hFirst, hCount, ← Nat.succ_mul]
    congr 2
    omega

end StreamTalk

/-
  For every run of an analysis stream of which at least one
  frame has arrived, and a page that has handled nothing but
  these frames, the samples the page has counted and the
  position it expects differ by the chunks skipped before the
  last frame, and the overruns it shows are their number
  modulo the word.
-/
theorem stream_samples_accounted
    [CaptureModule]
    {d : Device}
    (hReachable : d.Reachable)
    (hFree : isBusy d = false)
    (env : Env)
    (id : Nat)
    {data : List UInt8}
    (hCommand : parseCommand data = .streamAnalysisStart)
    {inputs : List Input}
    (hKeeps : ∀ i ∈ inputs, i.KeepsStream)
    {trace : List Event}
    (hTrace :
      (Device.run d (.message env id data :: inputs)).2 = trace)
    (hSome : streamWires trace ≠ [])
    (page : Page) :
    ∃ n skipped,
      (chunkIndices trace)[(streamWires trace).length - 1]? =
          some n ∧
        n + 1 = (streamWires trace).length + skipped ∧
        SampleAccount d.bridge.laConfig
          (streamWires trace).length skipped
          (Machine.run Page.receive
            (page.onMessage
              (.text "STREAM_ANALYSIS_STARTED")).1
            (streamWires trace)).1 := by
  subst hTrace
  exact
    (StreamTalk.of_run hReachable hFree env id hCommand
      hKeeps).sampleAccount hReachable.frequency_lt page hSome

end PicoLogicAnalyzer

namespace PicoLogicAnalyzer

section Sample

attribute [local instance] CaptureModule.sample

/- One chunk in time, the next one a lap too late. -/
def lateTakeTrace : List Event :=
  (Device.run (Device.boot CaptureHardware.blank)
    [Input.command 1 "STREAM_ANALYSIS_START",
      .streamTake Env.fiveChunks,
      .streamSend Env.fiveChunks,
      .streamTake Env.lateChunks,
      .streamSend Env.lateChunks]).2

/- Two frames with five chunks missing between them. -/
theorem late_take_is_accounted :
    ∃ n skipped,
      (chunkIndices lateTakeTrace)[1]? = some n ∧
        n + 1 = 2 + skipped ∧
        SampleAccount LaConfig.initial 2 skipped
          (Machine.run Page.receive
            (Page.initial.onMessage
              (.text "STREAM_ANALYSIS_STARTED")).1
            (streamWires lateTakeTrace)).1 := by
  have hLength : (streamWires lateTakeTrace).length = 2 := by
    decide +kernel
  have hSome : streamWires lateTakeTrace ≠ [] := by
    intro hNone
    rw [hNone] at hLength
    cases hLength
  have hAccount :=
    stream_samples_accounted
      (d := Device.boot CaptureHardware.blank)
      ⟨CaptureHardware.blank, [], rfl⟩ rfl Env.smooth 1
      (by decide) (by simp [Input.KeepsStream])
      (show
        (Device.run (Device.boot CaptureHardware.blank)
          [Input.command 1 "STREAM_ANALYSIS_START",
            .streamTake Env.fiveChunks,
            .streamSend Env.fiveChunks,
            .streamTake Env.lateChunks,
            .streamSend Env.lateChunks]).2 = lateTakeTrace
        from rfl)
      hSome Page.initial
  rw [hLength] at hAccount
  exact hAccount

end Sample

end PicoLogicAnalyzer
