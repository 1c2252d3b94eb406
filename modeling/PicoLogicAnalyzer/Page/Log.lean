import PicoLogicAnalyzer.Firmware.Events
import PicoLogicAnalyzer.Page.Link

/-
  The log of the page.

  The page appends a line for every reply and every raw
  capture and clears its log after 64 of them. A frame
  replaces the log by up to 32 lines that are not counted, so
  the counted lines can stand behind those of a frame.

  Key definitions include:
    * `newlines`
    * `Payload.OneLine`
    * `Page.Bounded` and `Link.Bounded`

  Key theorems include:
    * `newlines_frameText_le`
    * `Device.step_oneLine`
    * `Page.onMessage_bounded`
    * `page_log_bounded`
-/

------------------------------------------------------------
-- Counting Lines
------------------------------------------------------------

namespace PicoLogicAnalyzer

def newlines (text : String) : Nat :=
  text.toList.count '\n'

@[simp] theorem newlines_append (text text' : String) :
    newlines (text ++ text') =
      newlines text + newlines text' := by
  rw [newlines, String.toList_append, List.count_append]
  rfl

/- Digits are on one line. -/
theorem digitChar_ne_newline
    {digit : Nat}
    (hDigit : digit < 16) :
    Nat.digitChar digit ≠ '\n' := by
  have hAll : ∀ i : Fin 16, Nat.digitChar i ≠ '\n' := by
    decide
  exact hAll ⟨digit, hDigit⟩

theorem count_toDigits
    {b : Nat}
    (hBase : 1 < b)
    (hSmall : b ≤ 16)
    (value : Nat) :
    (Nat.toDigits b value).count '\n' = 0 := by
  induction value using Nat.strong_induction_on with
  | _ value ih =>
      rw [Nat.toDigits_eq_if hBase]
      split
      · rename_i hLast
        have hDigit :=
          digitChar_ne_newline (Nat.lt_of_lt_of_le hLast hSmall)
        simp [hDigit]
      · rename_i hMore
        have hDigit :=
          digitChar_ne_newline
            (Nat.lt_of_lt_of_le
              (Nat.mod_lt value (Nat.zero_lt_of_lt hBase))
              hSmall)
        have hShorter : value / b < value :=
          Nat.div_lt_self (by omega) hBase
        simp [List.count_append, ih _ hShorter,
          hDigit]

theorem newlines_hexText (digits value : Nat) :
    newlines (hexText digits value) = 0 := by
  have hPad :
      ∀ count, (List.replicate count '0').count '\n' = 0 := by
    intro count
    apply List.count_eq_zero.mpr
    intro hMember
    exact absurd (List.eq_of_mem_replicate hMember) (by decide)
  have hDigits :=
    count_toDigits (b := 16) (by decide) (by decide) value
  rw [newlines, hexText, String.toList_ofList,
    List.count_append, hPad, hDigits]

/- Joined lines have the newlines that separate them. -/
theorem newlines_intercalate_le
    (separator : String)
    {texts : List String}
    (hTexts : ∀ text ∈ texts, newlines text = 0) :
    newlines (separator.intercalate texts) ≤
      (texts.length - 1) * newlines separator := by
  rw [newlines, String.toList_intercalate]
  induction texts with
  | nil => simp
  | cons first texts ih =>
      rw [List.forall_mem_cons] at hTexts
      have hFirst : first.toList.count '\n' = 0 := hTexts.1
      cases texts with
      | nil => simp [hFirst]
      | cons second texts =>
          have hRest := ih hTexts.2
          rw [List.map_cons, List.map_cons,
            List.intercalate_cons_cons, ← List.map_cons,
            List.count_append, List.count_append, hFirst,
            Nat.zero_add]
          have hSplit :
              ((first :: second :: texts).length - 1) *
                  newlines separator =
                newlines separator +
                  ((second :: texts).length - 1) *
                    newlines separator := by
            simp only [List.length_cons, Nat.add_sub_cancel]
            rw [Nat.add_mul, Nat.one_mul, Nat.add_comm]
          rw [hSplit]
          exact Nat.add_le_add_left hRest _

/- A frame is shown on at most as many lines as samples. -/
theorem newlines_frameText_le
    (digits : Nat)
    (samples : List Nat) :
    newlines (frameText digits samples) ≤
      samples.length - 1 := by
  have hLine :
      ∀ text ∈
          samples.mapIdx
            (fun index value =>
              toString index ++ ": " ++ hexText digits value),
        newlines text = 0 := by
    intro text hMember
    rcases List.mem_mapIdx.mp hMember with
      ⟨index, hIndex, rfl⟩
    have hNumber :=
      count_toDigits (b := 10) (by decide) (by decide) index
    have hColon : newlines ": " = 0 := by
      decide
    rw [newlines_append, newlines_append, newlines_hexText,
      hColon, newlines, Nat.toString_eq_ofList_toDigits,
      String.toList_ofList, hNumber]
  have hLines := newlines_intercalate_le "\n" hLine
  have hOne : newlines "\n" = 1 := by
    decide
  rw [hOne, Nat.mul_one, List.length_mapIdx] at hLines
  exact hLines

end PicoLogicAnalyzer

------------------------------------------------------------
-- Replies Are Lines
------------------------------------------------------------

namespace PicoLogicAnalyzer

/- Texts that end no line. -/
def Payload.OneLine : Payload → Prop
| .text reply => newlines reply = 0
| _ => True

def Event.OneLine : Event → Prop
| .sent _ payload _ => payload.OneLine
| _ => True

theorem newlines_toString (value : Nat) :
    newlines (toString value) = 0 := by
  rw [newlines, Nat.toString_eq_ofList_toDigits,
    String.toList_ofList]
  exact count_toDigits (by decide) (by decide) value

theorem newlines_maskText (mask : Nat) :
    newlines (maskText mask) = 0 :=
  newlines_hexText 6 mask

theorem oneLine_reply
    {env : Env}
    {id : Nat}
    {text : String}
    (hText : newlines text = 0) :
    ∀ event ∈ [reply env id text], event.OneLine := by
  intro event hMember
  rw [List.mem_singleton.mp hMember]
  exact hText

/- Set-ups and one reply. -/
theorem oneLine_of_answer
    {setUps : List SetUp}
    {env : Env}
    {id : Nat}
    {text : String}
    (hText : newlines text = 0) :
    ∀ event ∈ setUps.map Event.setUp ++ [reply env id text],
      event.OneLine := by
  refine List.forall_mem_append.mpr
    ⟨?_, oneLine_reply hText⟩
  intro event hMember
  rcases List.mem_map.mp hMember with ⟨record, _, rfl⟩
  trivial

theorem streamStartCommand_oneLine
    (env : Env)
    (id : Nat)
    (mode : StreamMode)
    {started : String}
    (hStarted : newlines started = 0)
    (d : Device) :
    ∀ event ∈ (streamStartCommand env id mode started d).2,
      event.OneLine := by
  unfold streamStartCommand startStream
  by_cases hBusy : isBusy d = true
  · simp only [if_pos hBusy, Bool.false_eq_true, if_false]
    exact oneLine_reply (by decide)
  · simp only [if_neg hBusy]
    cases (laStreamStart d.bridge).started with
    | true => exact oneLine_of_answer hStarted
    | false => exact oneLine_of_answer (by decide)

theorem handleCommand_oneLine
    [CaptureModule]
    (env : Env)
    (id : Nat)
    (data : List UInt8)
    (d : Device)
    (command : Command) :
    ∀ event ∈ (handleCommand env id data d command).2,
      event.OneLine := by
  cases command with
  | status => exact oneLine_reply (by decide)
  | singleCapture =>
      simp only [handleCommand, startSingleCapture]
      split
      · exact oneLine_reply (by decide)
      · split
        · exact oneLine_of_answer (by decide)
        · exact oneLine_of_answer (by decide)
  | captureChainStart =>
      simp only [handleCommand, captureChainStart]
      split
      · exact oneLine_reply (by decide)
      · exact oneLine_reply (by decide)
  | captureChainStop => exact oneLine_reply (by decide)
  | pinTest =>
      apply oneLine_reply
      cases env.gpio3 with
      | true => decide
      | false => decide
  | captureChainAnalysisStart =>
      simp only [handleCommand, captureChainAnalysisStart]
      split
      · exact oneLine_reply (by decide)
      · split
        · exact oneLine_of_answer (by decide)
        · exact oneLine_of_answer (by decide)
  | captureChainAnalysisStop => exact oneLine_reply (by decide)
  | streamStart =>
      exact
        streamStartCommand_oneLine env id _ (by decide) d
  | streamStop => exact oneLine_reply (by decide)
  | streamAnalysisStart =>
      exact
        streamStartCommand_oneLine env id _ (by decide) d
  | streamAnalysisStop => exact oneLine_reply (by decide)
  | setFreq value =>
      apply oneLine_reply
      rw [newlines_append, newlines_toString]
      decide
  | setChunkSize value =>
      apply oneLine_reply
      rw [newlines_append, newlines_toString]
      decide
  | setChannelMask value =>
      apply oneLine_reply
      rw [newlines_append, newlines_maskText]
      decide
  | unknown =>
      intro event hMember
      rw [List.mem_singleton.mp hMember]
      trivial

/- Capture data is no text. -/
theorem oneLine_of_captureOf
    {payload : Payload}
    {op : Operation}
    (hCapture : payload.captureOf = some op) :
    payload.OneLine := by
  cases payload with
  | text reply => cases hCapture
  | echo data => trivial
  | raw op width offset data => trivial
  | frame op header offset data => trivial

theorem captureChainTasks_oneLine
    (env : Env)
    (d : Device) :
    ∀ event ∈ (captureChainTasks env d).2, event.OneLine := by
  refine
    captureChainTasks_rule
      (P := fun trace _ => ∀ event ∈ trace, event.OneLine)
      ?_ ?_ ?_ ?_ [] (List.forall_mem_nil _)
  · intro trace d hTrace
    refine List.forall_mem_append.mpr ⟨hTrace, ?_⟩
    intro event hMember
    rcases mem_captureChainDeliver hMember with
      ⟨_, capture, _, rfl⟩
    trivial
  · intro trace d hTrace
    refine List.forall_mem_append.mpr ⟨hTrace, ?_⟩
    intro event hMember
    rcases mem_captureChainRestart hMember with ⟨record, rfl⟩
    trivial
  · intro trace d hTrace
    refine List.forall_mem_append.mpr ⟨hTrace, ?_⟩
    intro event hMember
    rcases mem_captureChainTakeBlock hMember with ⟨block, rfl⟩
    trivial
  · intro trace d hTrace
    refine List.forall_mem_append.mpr ⟨hTrace, ?_⟩
    intro event hMember
    rcases (mem_captureChainSendBlock hMember).2 with
      hSent | ⟨record, rfl⟩
    · rw [mem_sendAnalysisBlock hSent]
      trivial
    · trivial

/- Every text the device sends is on one line. -/
theorem Device.step_oneLine
    [CaptureModule]
    (d : Device)
    (i : Input) :
    ∀ event ∈ (d.step i).2, event.OneLine := by
  cases i with
  | message env id data =>
      exact
        List.forall_mem_cons.mpr
          ⟨trivial,
            handleCommand_oneLine env id data d
              (parseCommand data)⟩
  | connect env id => exact oneLine_reply (by decide)
  | singleCaptureTasks env =>
      intro event hMember
      rcases (mem_singleCaptureTasks hMember).2 with
        rfl | ⟨capture, _, rfl⟩
      · have hText : newlines "SINGLE_CAPTURE_ERROR" = 0 := by
          decide
        exact hText
      · trivial
  | captureChainTasks env =>
      exact captureChainTasks_oneLine env d
  | streamTake env =>
      intro event hMember
      rcases mem_streamTasksTake hMember with
        ⟨next, chunk, block, rfl⟩
      trivial
  | streamSend env =>
      intro event hMember
      rcases mem_sendStreamBlock
          (mem_streamTasksSend hMember).2 with
        ⟨payload, rfl, hCapture⟩
      exact oneLine_of_captureOf hCapture
  | captureDone tail =>
      intro event hMember
      simp only [step, captureDone] at hMember
      split at hMember
      · rw [List.mem_singleton.mp hMember]
        trivial
      · cases hMember
  | disconnect id => exact List.forall_mem_nil _
  | captureWrite memory => exact List.forall_mem_nil _
  | dmaWrite position byte => exact List.forall_mem_nil _
  | dmaInterrupt => exact List.forall_mem_nil _

end PicoLogicAnalyzer

------------------------------------------------------------
-- The Page Bounds Its Log
------------------------------------------------------------

namespace PicoLogicAnalyzer

/- At most 64 counted lines, behind those of a frame. -/
structure Page.Bounded (page : Page) : Prop where
  lineCount_le : page.lineCount ≤ 64
  newlines_le :
    newlines page.output ≤ page.lineCount + 31

theorem length_of_mapM
    {α β : Type}
    {f : α → Option β}
    {items : List α}
    {values : List β}
    (hValues : items.mapM f = some values) :
    values.length = items.length := by
  induction items generalizing values with
  | nil =>
      simp only [List.mapM_nil, Option.pure_def,
        Option.some.injEq] at hValues
      rw [← hValues]
      rfl
  | cons item items ih =>
      simp only [List.mapM_cons, Option.bind_eq_bind,
        Option.pure_def, Option.bind_eq_some_iff,
        Option.some.injEq] at hValues
      rcases hValues with ⟨value, _, more, hMore, rfl⟩
      rw [List.length_cons, List.length_cons, ih hMore]

theorem length_readSamples
    {view : List UInt8}
    {width : ℚ}
    {displayMask displayed : Nat}
    {samples : List Nat}
    (hRead :
      readSamples view width displayMask displayed =
        some samples) :
    samples.length = displayed := by
  rw [length_of_mapM hRead, List.length_range]

namespace Page

variable {page : Page}

/- After the test there is room for a line. -/
theorem clearFull_bounded
    (h : page.Bounded) :
    page.clearFull.lineCount ≤ 63 ∧
      newlines page.clearFull.output ≤
        page.clearFull.lineCount + 31 := by
  unfold clearFull
  split
  · exact ⟨Nat.zero_le 63, Nat.zero_le 31⟩
  · rename_i hRoom
    have hCount := h.lineCount_le
    exact ⟨by omega, h.newlines_le⟩

/- A line is added and counted. -/
theorem bounded_of_line
    {line : String}
    (hLine : newlines line = 1)
    (hCount : page.lineCount ≤ 63)
    (hLines : newlines page.output ≤ page.lineCount + 31)
    {page' : Page}
    (hOutput : page'.output = page.output ++ line)
    (hCounted : page'.lineCount = page.lineCount + 1) :
    page'.Bounded := by
  constructor
  · omega
  · rw [hOutput, newlines_append, hLine]
    omega

theorem onReply_bounded
    {reply : String}
    (hReply : newlines reply = 0)
    (hCount : page.lineCount ≤ 63)
    (hLines : newlines page.output ≤ page.lineCount + 31) :
    (page.onReply reply).Bounded := by
  have hLine : newlines (reply ++ "\n") = 1 := by
    rw [newlines_append, hReply]
    decide
  apply bounded_of_line hLine hCount hLines
  · rw [← String.append_assoc]
    unfold onReply
    split <;> split <;> rfl
  · unfold onReply
    split <;> split <;> rfl

/- Raw samples are joined on one line. -/
theorem newlines_rawLine
    (digits : Nat)
    (samples : List Nat) :
    newlines
        (" ".intercalate (samples.map (hexText digits)) ++
          "\n") =
      1 := by
  have hTexts :
      ∀ text ∈ samples.map (hexText digits),
        newlines text = 0 := by
    intro text hMember
    rcases List.mem_map.mp hMember with ⟨value, _, rfl⟩
    exact newlines_hexText digits value
  have hJoined := newlines_intercalate_le " " hTexts
  have hBlank : newlines " " = 0 := by
    decide
  have hEnd : newlines "\n" = 1 := by
    decide
  rw [hBlank, Nat.mul_zero] at hJoined
  rw [newlines_append, Nat.le_zero.mp hJoined, hEnd]

theorem displayRaw_bounded
    (data : List UInt8)
    (width : Nat)
    (hCount : page.lineCount ≤ 63)
    (hLines : newlines page.output ≤ page.lineCount + 31) :
    (page.displayRaw data width).1.Bounded := by
  rw [displayRaw]
  cases readSamples data width page.displayMask
      (min (data.length / width) 64) with
  | none => exact ⟨Nat.le_succ_of_le hCount, hLines⟩
  | some samples =>
      exact
        bounded_of_line
          (newlines_rawLine (sampleDigits width) samples)
          hCount hLines (String.append_assoc ..) rfl

/- A shown frame replaces the log by at most 32 lines. -/
theorem showFrame_bounded
    {frame : FrameView}
    {data : List UInt8}
    {shown : Page}
    (hCount : page.lineCount ≤ 63)
    (hShown : page.showFrame frame data = some shown) :
    shown.Bounded := by
  simp only [showFrame, Option.bind_eq_bind,
    Option.pure_def, Option.bind_eq_some_iff,
    Option.some.injEq] at hShown
  rcases hShown with ⟨payload, _, samples, hRead, rfl⟩
  have hLength := length_readSamples hRead
  have hFew : frame.displayed ≤ 32 := Nat.min_le_right _ _
  have hText :=
    newlines_frameText_le (sampleDigits frame.bytesPerSample)
      samples
  constructor
  · exact Nat.le_succ_of_le hCount
  · simp only
    omega

theorem handleAnalysis_bounded
    (data : List UInt8)
    (hCount : page.lineCount ≤ 63)
    (hLines : newlines page.output ≤ page.lineCount + 31) :
    (page.handleAnalysis data).1.Bounded := by
  rw [handleAnalysis]
  cases FrameView.read data with
  | none => exact ⟨Nat.le_succ_of_le hCount, hLines⟩
  | some frame =>
      simp only
      cases hShown : (page.follow frame).showFrame frame data with
      | none => exact ⟨Nat.le_succ_of_le hCount, hLines⟩
      | some shown =>
          have hFollowed : (page.follow frame).lineCount ≤ 63 :=
            hCount
          exact showFrame_bounded hFollowed hShown

theorem onMessage_bounded
    (h : page.Bounded)
    {payload : Payload}
    (hLine : payload.OneLine) :
    (page.onMessage payload.wire).1.Bounded := by
  rcases clearFull_bounded h with ⟨hCount, hLines⟩
  have hBinary :
      ∀ data, (page.onMessage (.binary data)).1.Bounded := by
    intro data
    rw [onMessage]
    split
    · exact handleAnalysis_bounded data hCount hLines
    · exact displayRaw_bounded data _ hCount hLines
  cases payload with
  | text reply => exact onReply_bounded hLine hCount hLines
  | echo data => exact hBinary data
  | raw op width offset data => exact hBinary data
  | frame op header offset data => exact hBinary _

theorem configure_bounded
    (h : page.Bounded)
    (form : ConfigureForm) :
    (page.configure form).1.Bounded := by
  rw [configure]
  cases form.selection.highest with
  | none =>
      have hOne :
          newlines "Select at least one channel\n" = 1 := by
        decide
      refine ⟨h.lineCount_le, ?_⟩
      simp only
      omega
  | some highest => exact ⟨h.lineCount_le, h.newlines_le⟩

theorem sendCmd_bounded (page : Page) (text : String) :
    (page.sendCmd text).1.Bounded :=
  ⟨Nat.zero_le 64, Nat.zero_le 31⟩

end Page

end PicoLogicAnalyzer

------------------------------------------------------------
-- The Log Over Whole Runs
------------------------------------------------------------

namespace PicoLogicAnalyzer

variable [CaptureModule]

/- The log is bounded and only lines are under way. -/
structure Link.Bounded (link : Link) : Prop where
  page : link.page.Bounded
  lines : ∀ payload ∈ link.toPage, payload.OneLine

namespace Link.Bounded

variable {link : Link}

/- What the device sends joins the queue. -/
theorem deviceSends
    {toDevice : List (List UInt8)}
    (h : link.Bounded)
    (d : Device)
    (i : Input) :
    (Link.deviceSends { link with toDevice := toDevice }
      (d.step i)).Bounded := by
  refine ⟨h.page, List.forall_mem_append.mpr ⟨h.lines, ?_⟩⟩
  intro payload hMember
  rcases List.mem_filterMap.mp hMember with
    ⟨event, hEvent, hDelivered⟩
  have hLine := Device.step_oneLine d i event hEvent
  cases event with
  | sent dest sent accepted =>
      rw [Event.eq_of_delivered hDelivered] at hLine
      exact hLine
  | _ => cases hDelivered

theorem step
    (h : link.Bounded)
    (i : LinkInput) :
    (link.step i).1.Bounded := by
  cases i with
  | press button =>
      exact
        ⟨Page.sendCmd_bounded link.page button.1, h.lines⟩
  | configure form =>
      exact ⟨Page.configure_bounded h.page form, h.lines⟩
  | deviceHandles env =>
      simp only [Link.step]
      split
      · exact h
      · exact h.deviceSends _ _
  | deviceRuns task => exact h.deviceSends link.device task.1
  | pageHandles =>
      simp only [Link.step]
      split
      · exact h
      · rename_i payload rest hQueue
        have hLines := h.lines
        rw [hQueue, List.forall_mem_cons] at hLines
        exact
          ⟨Page.onMessage_bounded h.page hLines.1, hLines.2⟩

end Link.Bounded

/-
  Whatever the user clicks, the device does and the queues
  delay, the log of the page never holds more than 95 line
  ends: 64 counted lines behind the 32 lines of a frame.
-/
theorem page_log_bounded
    (connection : Nat)
    (hw : CaptureHardware)
    (inputs : List LinkInput) :
    newlines
        (Machine.run Link.step (Link.initial connection hw)
          inputs).1.page.output ≤
      95 := by
  have hStart : (Link.initial connection hw).Bounded :=
    ⟨⟨Nat.zero_le 64, Nat.zero_le 31⟩, List.forall_mem_nil _⟩
  have hBounded :=
    Machine.run_invariant (P := Link.Bounded)
      (fun _ i h => h.step i) hStart inputs
  exact
    hBounded.page.newlines_le.trans
      (Nat.add_le_add_right hBounded.page.lineCount_le 31)

end PicoLogicAnalyzer
