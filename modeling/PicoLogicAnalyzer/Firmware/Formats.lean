import PicoLogicAnalyzer.Firmware.Blocks

/-
  Formats of the capture data.

  Which format a message of a task has, and with which width
  its samples were stored, is fixed by the activity and the
  configuration before the task runs.

  Key definitions include:
    * `taskReplies`
    * `Activity.Carries`

  Key theorems include:
    * `Device.step_carries`
    * `Device.step_format`
-/

------------------------------------------------------------
-- Formats Of The Tasks
------------------------------------------------------------

namespace PicoLogicAnalyzer

/- Texts that are not the answer to a command. -/
def taskReplies : List String :=
  ["connected", "SINGLE_CAPTURE_ERROR"]

/-
  What an activity sends under a configuration: data of its
  own operation, with or without a header as the activity
  has it, and headerless samples of the configured width.
-/
def Activity.Carries
    (a : Activity)
    (config : LaConfig) :
    Event → Prop
| .sent _ (.text reply) _ => reply ∈ taskReplies
| .sent _ (.echo _) _ => False
| .sent _ (.raw op width _ _) _ =>
    a.operation = some op ∧ a.sendsFrames = false ∧
      width = config.bytesPerSample
| .sent _ (.frame op _ _ _) _ =>
    a.operation = some op ∧ a.sendsFrames = true
| _ => True

variable {d : Device} {a : Activity}

/- An open operation is continued in its own format. -/
theorem Activity.Continues.format_eq
    {a' : Activity}
    (h : a.Continues a')
    (hOpen : a' ≠ .idle) :
    a.operation = a'.operation ∧
      a.sendsFrames = a'.sendsFrames := by
  rcases h with hIdle | ⟨hOperation, hFrames⟩
  · exact absurd hIdle hOpen
  · exact ⟨hOperation.symm, hFrames.symm⟩

/- A finished capture has the configured width. -/
theorem Device.Coherent.result_width
    (h : d.Coherent)
    {capture : CaptureResult}
    (hResult :
      (laSingleCaptureGetResult d.bridge).2 =
        some capture) :
    capture.bytesPerSample =
      d.bridge.laConfig.bytesPerSample := by
  rcases laSingleCaptureGetResult_some hResult with
    ⟨hActive, _, rfl⟩
  rw [h.config.width_eq, ← h.single hActive]

theorem singleCaptureTasks_carries
    (hShows : d.Shows a)
    (h : d.Coherent)
    (env : Env) :
    ∀ event ∈ (singleCaptureTasks env d).2,
      a.Carries d.bridge.laConfig event := by
  intro event hMember
  rcases mem_singleCaptureTasks hMember with
    ⟨hPending, rfl | ⟨capture, hResult, rfl⟩⟩
  · exact List.mem_cons_of_mem _ (List.mem_singleton_self _)
  · rw [hShows.singleCapturePending] at hPending
    cases a with
    | single active =>
        exact ⟨rfl, rfl, h.result_width hResult⟩
    | _ => cases hPending

theorem captureChainDeliver_carries
    {d' : Device}
    (hFollows : d.Follows a d')
    (env : Env) :
    ∀ event ∈ (captureChainDeliver env d').2.1,
      a.Carries d.bridge.laConfig event := by
  intro event hMember
  rcases hFollows.shows with ⟨a', hShows, hContinues⟩
  rcases mem_captureChainDeliver hMember with
    ⟨hPending, capture, hResult, rfl⟩
  rw [hShows.captureChainPending] at hPending
  have hWidth := hFollows.coherent.result_width hResult
  rw [hFollows.config_eq] at hWidth
  cases a' with
  | chainCapturing =>
      have hFormat := hContinues.format_eq (by simp)
      exact ⟨hFormat.1, hFormat.2, hWidth⟩
  | chainStopping =>
      have hFormat := hContinues.format_eq (by simp)
      exact ⟨hFormat.1, hFormat.2, hWidth⟩
  | _ => cases hPending

theorem captureChainSendBlock_carries
    {d' : Device}
    (hFollows : d.Follows a d')
    (env : Env) :
    ∀ event ∈ (captureChainSendBlock env d').2,
      a.Carries d.bridge.laConfig event := by
  intro event hMember
  rcases hFollows.shows with ⟨a', hShows, hContinues⟩
  rcases mem_captureChainSendBlock hMember with
    ⟨hPending, hSent | ⟨record, rfl⟩⟩
  · rw [hShows.blockPending] at hPending
    rw [mem_sendAnalysisBlock hSent]
    cases a' with
    | chainAnalysis phase =>
        exact hContinues.format_eq (by simp)
    | _ => cases hPending
  · trivial

theorem streamTasksSend_carries
    (hShows : d.Shows a)
    (h : d.Coherent)
    (env : Env) :
    ∀ event ∈ (streamTasksSend env d).2,
      a.Carries d.bridge.laConfig event := by
  intro event hMember
  rcases mem_streamTasksSend hMember with ⟨hPending, hSent⟩
  rw [hShows.streamBlockPending] at hPending
  cases a with
  | streaming analysis pending =>
      unfold sendStreamBlock at hSent
      rw [hShows.streamMode] at hSent
      cases analysis with
      | true =>
          rw [mem_sendAnalysisBlock hSent]
          exact ⟨rfl, rfl⟩
      | false =>
          rw [List.mem_singleton.mp hSent]
          refine ⟨rfl, rfl, ?_⟩
          rw [h.config.width_eq,
            ← h.stream hShows.laStreamRunning]
  | _ => cases hPending

/- Between messages the format does not change. -/
theorem Device.step_carries
    [CaptureModule]
    (hShows : d.Shows a)
    (h : d.Coherent)
    {i : Input}
    (hTask : ∀ env id data, i ≠ .message env id data) :
    ∀ event ∈ (Device.step d i).2,
      a.Carries d.bridge.laConfig event := by
  intro event hMember
  by_cases hOutside : i.isOutside = true
  · rcases Device.mem_step_outside hOutside hMember with
      rfl | ⟨env, id, rfl⟩
    · trivial
    · exact List.mem_cons_self ..
  cases i with
  | message env id data =>
      exact absurd rfl (hTask env id data)
  | singleCaptureTasks env =>
      exact
        singleCaptureTasks_carries hShows h env event hMember
  | captureChainTasks env =>
      have hEvents :=
        (captureChainTasks_follows
          (Q := a.Carries d.bridge.laConfig) hShows h env
          (fun _ hFollows =>
            captureChainDeliver_carries hFollows env)
          (fun _ => trivial) (fun _ => trivial)
          (fun _ hFollows =>
            captureChainSendBlock_carries hFollows env)).2
      exact hEvents event hMember
  | streamTake env =>
      rcases mem_streamTasksTake hMember with
        ⟨next, chunk, block, rfl⟩
      trivial
  | streamSend env =>
      exact streamTasksSend_carries hShows h env event hMember
  | _ => exact absurd rfl hOutside

/- A session is never ended by a task. -/
theorem Device.step_format
    [CaptureModule]
    (hShows : d.Shows a)
    (h : d.Coherent)
    {i : Input}
    (hTask : ∀ env id data, i ≠ .message env id data) :
    ∃ a', (Device.step d i).1.Shows a' ∧
      a'.sendsFrames = a.sendsFrames := by
  rcases Device.step_continues hShows hTask with
    ⟨a', hShows', hContinues⟩
  refine ⟨a', hShows', ?_⟩
  rcases hContinues with rfl | ⟨_, hFrames⟩
  · by_contra hEnded
    have hFrames : a.sendsFrames = true := by
      simpa [Activity.sendsFrames] using Ne.symm hEnded
    have hSession :
        a.isSession = true ∧ ∃ op, a.operation = some op := by
      cases a with
      | chainAnalysis phase => exact ⟨rfl, _, rfl⟩
      | streaming analysis pending => exact ⟨rfl, _, rfl⟩
      | _ => cases hFrames
    rcases hSession with ⟨hSession, op, hOperation⟩
    have hLeaves : i.LeavesOpen op := by
      cases i with
      | message env id data =>
          exact absurd rfl (hTask env id data)
      | _ => trivial
    have hOpen : d.OpenSession op d.bridge.laConfig :=
      ⟨⟨a, hShows, hSession, hOperation⟩, h, rfl⟩
    -- The step would have to be busy and idle at once.
    rcases (hOpen.step hLeaves).shows with
      ⟨a'', hShows'', hSession'', _⟩
    have hIdle : a'' = .idle :=
      hShows''.eq_idle_of_not_busy hShows'.isBusy
    rw [hIdle] at hSession''
    cases hSession''
  · exact hFrames

end PicoLogicAnalyzer
