import PicoLogicAnalyzer.Firmware.Refinement

/-
  Which events each function can produce.

  Capture data is only handed to `sendMessage` by the tasks,
  and each task sends the data of its own operation to the
  connection stored for it. Commands produce set-ups and
  replies to their sender.

  Key theorems include:
    * `mem_singleCaptureTasks` and `mem_captureChainDeliver`
    * `mem_captureChainSendBlock` and `mem_streamTasksSend`
    * `mem_handleCommand`
-/

------------------------------------------------------------
-- Finished Captures
------------------------------------------------------------

namespace PicoLogicAnalyzer

/- The result describes the recorded capture. -/
theorem laSingleCaptureGetResult_some
    {b : Bridge}
    {capture : CaptureResult}
    (hResult :
      (laSingleCaptureGetResult b).2 = some capture) :
    b.laSingleCaptureActive = true ∧
      b.hw.capturing = false ∧
      capture =
        { samples := (laGetRawCapture b.hw).samples
          firstSample := (laGetRawCapture b.hw).first
          bytesPerSample :=
            laBytesPerSampleMode b.hw.lastCaptureMode } := by
  unfold laSingleCaptureGetResult at hResult
  split at hResult
  · cases hResult
  · rename_i hReady
    rw [Bool.or_eq_true, not_or] at hReady
    refine ⟨by simpa using hReady.1,
      by simpa using hReady.2, ?_⟩
    cases hResult
    rfl

/- Reading the result leaves the buffer alone. -/
theorem laSingleCaptureGetResult_captureBuffer
    (b : Bridge) :
    (laSingleCaptureGetResult b).1.hw.captureBuffer =
      b.hw.captureBuffer := by
  rcases laSingleCaptureGetResult_bridge b with ⟨_, hBridge⟩
  rw [hBridge]

/- The block that describes a finished analysis capture. -/
def finishedBlock
    (timeUs : Nat)
    (b : Bridge) :
    AnalysisBlock where
  data :=
    Word.u32 ((laGetRawCapture b.hw).first *
      b.laConfig.bytesPerSample)
  bytes :=
    Word.u32 ((laGetRawCapture b.hw).samples *
      b.laConfig.bytesPerSample)
  samples := (laGetRawCapture b.hw).samples
  sequence := b.laSequence
  overruns := 0
  firstSample := b.laNextSample
  deviceTimeUs := timeUs
  slot := 0

/- A finished capture of the configured mode is taken. -/
theorem laCaptureChainTake_ready
    {b : Bridge}
    (timeUs : Nat)
    (hRunning : b.laRunning = true)
    (hFree : b.laBlockOutstanding = false)
    (hActive : b.laCaptureActive = true)
    (hDone : b.hw.capturing = false)
    (hMode : b.hw.lastCaptureMode = b.laConfig.mode) :
    laCaptureChainTake timeUs b =
      ({ b with
          hw.lastStartPosition := (laGetRawCapture b.hw).first
          laSequence := Word.u32 (b.laSequence + 1)
          laNextSample :=
            Word.u64 (b.laNextSample +
              (laGetRawCapture b.hw).samples)
          laCaptureActive := false
          laBlockOutstanding := true },
        some (finishedBlock timeUs b)) := by
  have hRaw :
      (laGetRawCapture b.hw).mode = b.laConfig.mode :=
    hMode
  simp only [laCaptureChainTake, hRunning, hFree, hActive,
    hDone, hRaw, Bool.not_true, Bool.or_self, ne_eq,
    not_true_eq_false, if_false, Bool.false_eq_true]
  rfl

end PicoLogicAnalyzer

------------------------------------------------------------
-- Events Of The Tasks
------------------------------------------------------------

namespace PicoLogicAnalyzer

variable {env : Env} {d : Device} {block : AnalysisBlock}
variable {event : Event}

/- A block that is small enough is handed over. -/
theorem sendAnalysisBlock_spec
    (hSmall : block.bytes ≤ laMaxChunkBytes)
    (env : Env)
    (op : Operation) :
    sendAnalysisBlock env op d block =
      (env.blockAccepted,
        [.sent d.streamConnection
          (.frame op (d.headerOf block) block.data
            (d.bridge.hw.read block.data block.bytes))
          env.blockAccepted]) := by
  unfold sendAnalysisBlock
  rw [if_neg (Nat.not_lt.mpr hSmall)]

theorem mem_sendAnalysisBlock
    {op : Operation}
    (hMember :
      event ∈ (sendAnalysisBlock env op d block).2) :
    event =
      .sent d.streamConnection
        (.frame op (d.headerOf block) block.data
          (d.bridge.hw.read block.data block.bytes))
        env.blockAccepted := by
  unfold sendAnalysisBlock at hMember
  split at hMember
  · simp at hMember
  · simpa using hMember

theorem mem_sendStreamBlock
    (hMember : event ∈ (sendStreamBlock env d block).2) :
    ∃ payload,
      event =
          .sent d.streamConnection payload
            env.blockAccepted ∧
        payload.captureOf = some .stream := by
  unfold sendStreamBlock at hMember
  split at hMember
  · exact ⟨_, mem_sendAnalysisBlock hMember, rfl⟩
  · rw [List.mem_singleton] at hMember
    exact ⟨_, hMember, rfl⟩

theorem mem_streamTasksSend
    (hMember : event ∈ (streamTasksSend env d).2) :
    d.streamBlockPending = true ∧
      event ∈
        (sendStreamBlock env d d.pendingAnalysisBlock).2 := by
  unfold streamTasksSend at hMember
  split at hMember
  · rename_i hPending
    refine ⟨hPending, ?_⟩
    simp only at hMember
    split at hMember <;> exact hMember
  · simp at hMember

theorem mem_singleCaptureTasks
    (hMember : event ∈ (singleCaptureTasks env d).2) :
    d.singleCapturePending = true ∧
      (event =
          .sent d.singleCaptureConnection
            (.text "SINGLE_CAPTURE_ERROR")
            env.replyAccepted ∨
        ∃ capture,
          (laSingleCaptureGetResult d.bridge).2 =
              some capture ∧
            event =
              .sent d.singleCaptureConnection
                (rawResult .singleCapture
                  (laSingleCaptureGetResult d.bridge).1.hw
                  capture
                  (Word.u32 (capture.samples *
                    capture.bytesPerSample)))
                env.rawAccepted) := by
  unfold singleCaptureTasks at hMember
  split at hMember
  · rename_i hPending
    rw [Bool.and_eq_true] at hPending
    refine ⟨hPending.1, ?_⟩
    simp only [List.mem_singleton] at hMember
    cases hResult : (laSingleCaptureGetResult d.bridge).2 with
    | none =>
        rw [hResult] at hMember
        exact Or.inl hMember
    | some capture =>
        rw [hResult] at hMember
        exact Or.inr ⟨capture, rfl, hMember⟩
  · simp at hMember

theorem mem_captureChainDeliver
    (hMember : event ∈ (captureChainDeliver env d).2.1) :
    d.captureChainPending = true ∧
      ∃ capture,
        (laSingleCaptureGetResult d.bridge).2 =
            some capture ∧
          event =
            .sent d.streamConnection
              (rawResult .captureChain
                (laSingleCaptureGetResult d.bridge).1.hw
                capture 32)
              env.rawAccepted := by
  unfold captureChainDeliver at hMember
  split at hMember
  · rename_i hPending
    rw [Bool.and_eq_true] at hPending
    refine ⟨hPending.1, ?_⟩
    cases hResult : (laSingleCaptureGetResult d.bridge).2 with
    | none =>
        simp only [hResult] at hMember
        simp at hMember
    | some capture =>
        simp only [hResult, List.mem_singleton] at hMember
        exact ⟨capture, rfl, hMember⟩
  · simp at hMember

theorem mem_captureChainRestart
    (hMember : event ∈ (captureChainRestart env d).2) :
    ∃ record, event = .setUp record := by
  unfold captureChainRestart at hMember
  split at hMember
  · rcases List.mem_map.mp hMember with ⟨record, _, hEvent⟩
    exact ⟨record, hEvent.symm⟩
  · simp at hMember

theorem mem_captureChainTakeBlock
    (hMember : event ∈ (captureChainTakeBlock env d).2) :
    ∃ block, event = .chainTaken block := by
  unfold captureChainTakeBlock at hMember
  split at hMember
  · simp only at hMember
    split at hMember
    · simp at hMember
    · rename_i block _
      rw [List.mem_singleton] at hMember
      exact ⟨block, hMember⟩
  · simp at hMember

/- Sending the block in hand of chained analysis. -/
theorem captureChainSendBlock_spec
    (hPending : d.blockPending = true)
    (hSmall : d.pendingAnalysisBlock.bytes ≤ laMaxChunkBytes)
    (env : Env) :
    let message : Event :=
      .sent d.streamConnection
        (.frame .captureChainAnalysis
          (d.headerOf d.pendingAnalysisBlock)
          d.pendingAnalysisBlock.data
          (d.bridge.hw.read d.pendingAnalysisBlock.data
            d.pendingAnalysisBlock.bytes))
        env.blockAccepted
    captureChainSendBlock env d =
      if env.blockAccepted then
        ({ d with
            bridge :=
              (laCaptureChainRelease env.chunkStarted
                d.bridge).bridge
            blockPending := false },
          message ::
            (laCaptureChainRelease env.chunkStarted
              d.bridge).setUps.map .setUp)
      else
        (d, [message]) := by
  unfold captureChainSendBlock
  rw [if_pos hPending]
  simp only [sendAnalysisBlock_spec hSmall,
    List.singleton_append]

theorem mem_captureChainSendBlock
    (hMember : event ∈ (captureChainSendBlock env d).2) :
    d.blockPending = true ∧
      (event ∈
          (sendAnalysisBlock env .captureChainAnalysis d
            d.pendingAnalysisBlock).2 ∨
        ∃ record, event = .setUp record) := by
  unfold captureChainSendBlock at hMember
  split at hMember
  · rename_i hPending
    refine ⟨hPending, ?_⟩
    simp only at hMember
    split at hMember
    · rcases List.mem_append.mp hMember with hSent | hSetUp
      · exact Or.inl hSent
      · rcases List.mem_map.mp hSetUp with
          ⟨record, _, hEvent⟩
        exact Or.inr ⟨record, hEvent.symm⟩
    · exact Or.inl hMember
  · simp at hMember

theorem mem_streamTasksTake
    (hMember : event ∈ (streamTasksTake env d).2) :
    ∃ next chunk block,
      event = .streamTaken next chunk block := by
  unfold streamTasksTake at hMember
  split at hMember
  · simp only at hMember
    split at hMember
    · simp at hMember
    · rw [List.mem_singleton] at hMember
      exact ⟨_, _, _, hMember⟩
  · simp at hMember

end PicoLogicAnalyzer

------------------------------------------------------------
-- Events Of The Commands
------------------------------------------------------------

namespace PicoLogicAnalyzer

/- A set-up, or a message without capture data. -/
def Event.IsAnswer (id : Nat) (event : Event) : Prop :=
  (∃ record, event = .setUp record) ∨
    ∃ payload accepted,
      event = .sent id payload accepted ∧
        payload.captureOf = none

theorem setUp_isAnswer
    (id : Nat)
    (record : SetUp) :
    (Event.setUp record).IsAnswer id :=
  Or.inl ⟨record, rfl⟩

theorem reply_isAnswer
    (env : Env)
    (id : Nat)
    (text : String) :
    (reply env id text).IsAnswer id :=
  Or.inr ⟨.text text, env.replyAccepted, rfl, rfl⟩

/- Set-ups followed by one reply. -/
theorem isAnswer_of_mem
    {setUps : List SetUp}
    {env : Env}
    {id : Nat}
    {text : String}
    {event : Event}
    (hMember :
      event ∈ setUps.map Event.setUp ++ [reply env id text]) :
    event.IsAnswer id := by
  rcases List.mem_append.mp hMember with hSetUp | hReply
  · rcases List.mem_map.mp hSetUp with ⟨record, _, rfl⟩
    exact setUp_isAnswer id record
  · rw [List.mem_singleton] at hReply
    subst hReply
    exact reply_isAnswer env id text

theorem mem_streamStartCommand
    {env : Env}
    {id : Nat}
    {mode : StreamMode}
    {started : String}
    {d : Device}
    {event : Event}
    (hMember :
      event ∈
        (streamStartCommand env id mode started d).2) :
    event.IsAnswer id := by
  unfold streamStartCommand startStream at hMember
  simp only at hMember
  split at hMember
  · have hBusy : event ∈ [reply env id "CAPTURE_BUSY"] :=
      hMember
    rw [List.mem_singleton] at hBusy
    subst hBusy
    exact reply_isAnswer env id _
  · split at hMember
    · exact isAnswer_of_mem hMember
    · exact isAnswer_of_mem hMember

/- Commands answer their sender and send no capture data. -/
theorem mem_handleCommand
    [CaptureModule]
    {env : Env}
    {id : Nat}
    {data : List UInt8}
    {d : Device}
    {command : Command}
    {event : Event}
    (hMember :
      event ∈ (handleCommand env id data d command).2) :
    event.IsAnswer id := by
  have hReply :
      ∀ text, event ∈ [reply env id text] →
        event.IsAnswer id := by
    intro text hHere
    rw [List.mem_singleton] at hHere
    subst hHere
    exact reply_isAnswer env id text
  cases command with
  | unknown =>
      simp only [handleCommand, List.mem_singleton]
        at hMember
      exact Or.inr ⟨.echo data, env.replyAccepted, hMember, rfl⟩
  | singleCapture =>
      simp only [handleCommand, startSingleCapture]
        at hMember
      split at hMember
      · exact hReply _ hMember
      · split at hMember
        · exact isAnswer_of_mem hMember
        · exact isAnswer_of_mem hMember
  | captureChainStart =>
      simp only [handleCommand, captureChainStart]
        at hMember
      split at hMember
      · exact hReply _ hMember
      · exact hReply _ hMember
  | captureChainAnalysisStart =>
      simp only [handleCommand, captureChainAnalysisStart]
        at hMember
      split at hMember
      · exact hReply _ hMember
      · split at hMember
        · exact isAnswer_of_mem hMember
        · exact isAnswer_of_mem hMember
  | streamStart => exact mem_streamStartCommand hMember
  | streamAnalysisStart =>
      exact mem_streamStartCommand hMember
  | _ => exact hReply _ hMember

end PicoLogicAnalyzer
