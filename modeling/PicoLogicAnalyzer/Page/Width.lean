import PicoLogicAnalyzer.Firmware.Recovery
import PicoLogicAnalyzer.Page.Link

/-
  The sample width of page and device.

  A Configure click sets the width of the page at once; the
  device follows when it handles the mask, if it accepts it.
  In between, the mask is under way in the queue.

  Key definitions include:
    * `Handled.InWidth`
    * `Link.keepsWidth`
    * `Link.Settled` and `Link.Settling`

  Key theorems include:
    * `Page.configure_spec`
    * `Link.WidthAgrees.step`
    * `widths_agree_of_quiet_configure`
-/

------------------------------------------------------------
-- Configure Clicks
------------------------------------------------------------

namespace PicoLogicAnalyzer

open Text

namespace ConfigureForm

theorem selected_succ
    (form : ConfigureForm)
    (count : Nat) :
    form.selected (count + 1) =
      if form.checked count then
        (form.selected count).add count
      else
        form.selected count := by
  simp [selected, List.range_succ]

/- The highest channel is the highest bit of the mask. -/
theorem selected_spec
    (form : ConfigureForm)
    (count : Nat) :
    (form.selected count).channelMask < 2 ^ count ∧
      ∀ highest,
        (form.selected count).highest = some highest →
          0 < (form.selected count).channelMask ∧
            (form.selected count).channelMask.log2 =
              highest := by
  induction count with
  | zero => exact ⟨Nat.one_pos, by rintro highest ⟨⟩⟩
  | succ count ih =>
      rw [selected_succ]
      split
      · have hBelow :
            (form.selected count).channelMask <
              2 ^ (count + 1) :=
          ih.1.trans
            (Nat.pow_lt_pow_right (by decide)
              (Nat.lt_succ_self count))
        have hBit : 2 ^ count < 2 ^ (count + 1) :=
          Nat.pow_lt_pow_right (by decide)
            (Nat.lt_succ_self count)
        have hMask := Nat.or_lt_two_pow hBelow hBit
        have hLow :
            2 ^ count ≤
              (form.selected count).channelMask |||
                2 ^ count :=
          Nat.right_le_or
        refine ⟨hMask, ?_⟩
        rintro _ ⟨⟩
        have hPos := (Nat.two_pow_pos count).trans_le hLow
        exact
          ⟨hPos,
            (Nat.log2_eq_iff hPos.ne').mpr ⟨hLow, hMask⟩⟩
      · refine ⟨?_, ih.2⟩
        exact ih.1.trans
          (Nat.pow_lt_pow_right (by decide)
            (Nat.lt_succ_self count))

end ConfigureForm

/- A mask the device accepts, of a given width. -/
structure MaskOfWidth (mask width : Nat) : Prop where
  word : mask < 2 ^ 32
  accepted : acceptsChannelMask mask = true
  width_eq : (storageFor mask).2 = width

/- Page and device choose the width by the same bounds. -/
theorem storageFor_width (mask : Nat) :
    (storageFor mask).2 = widthFor mask.log2 := by
  unfold storageFor widthFor
  split
  · rfl
  · split <;> rfl

/-
  A click sends nothing and keeps the width, or it sends a
  mask of the new width after the two other settings.
-/
theorem Page.configure_spec
    (page : Page)
    (form : ConfigureForm) :
    ((page.configure form).2 = [] ∧
        (page.configure form).1.bytesPerSample =
          page.bytesPerSample) ∨
      ∃ mask,
        MaskOfWidth mask
            (page.configure form).1.bytesPerSample ∧
          (page.configure form).2 =
            ["SET_FREQ " ++ form.frequency,
              "SET_CHUNK_SIZE " ++ form.chunkSize,
              "SET_CHANNEL_MASK " ++
                String.ofList (Nat.toDigits 16 mask)] := by
  have hSelected := form.selected_spec 24
  simp only [Page.configure]
  cases hHighest : form.selection.highest with
  | none => exact Or.inl ⟨rfl, rfl⟩
  | some highest =>
      rcases hSelected.2 highest hHighest with ⟨hPos, hLog⟩
      have hWord : form.selection.channelMask < 2 ^ 32 :=
        hSelected.1.trans (by decide)
      refine
        Or.inr
          ⟨form.selection.channelMask, ⟨hWord, ?_, ?_⟩, rfl⟩
      · rw [acceptsChannelMask_iff hWord]
        exact ⟨hPos, hSelected.1⟩
      · have hBit : form.selection.channelMask.log2 = highest :=
          hLog
        rw [storageFor_width, hBit]

end PicoLogicAnalyzer

------------------------------------------------------------
-- Widths Of Messages
------------------------------------------------------------

namespace PicoLogicAnalyzer

/- `display_raw` used the width of the capture. -/
def Handled.InWidth (handled : Handled) : Prop :=
  match handled.payload with
  | .raw _ width _ data =>
      handled.page.takesFrame data = false →
        handled.page.bytesPerSample = width
  | _ => True

instance Handled.decidableInWidth :
    (handled : Handled) → Decidable handled.InWidth
| ⟨page, .raw _ width _ data⟩ =>
    inferInstanceAs
      (Decidable
        (page.takesFrame data = false →
          page.bytesPerSample = width))
| ⟨_, .frame _ _ _ _⟩ => isTrue trivial
| ⟨_, .text _⟩ => isTrue trivial
| ⟨_, .echo _⟩ => isTrue trivial

/- Headerless data, if any, has the width. -/
def Payload.HasWidth (width : Nat) : Payload → Prop
| .raw _ width' _ _ => width' = width
| _ => True

def Payload.isRaw : Payload → Bool
| .raw _ _ _ _ => true
| _ => false

/- A mask in the message has the width. -/
def KeepsWidth (width : Nat) (data : List UInt8) : Prop :=
  ∀ mask, parseCommand data = .setChannelMask mask →
    (storageFor mask).2 = width

/- The message is an acceptable mask of the width. -/
def SetsWidth (width : Nat) (data : List UInt8) : Prop :=
  ∃ mask, parseCommand data = .setChannelMask mask ∧
    MaskOfWidth mask width

theorem SetsWidth.keepsWidth
    {width : Nat}
    {data : List UInt8}
    (h : SetsWidth width data) :
    KeepsWidth width data := by
  rcases h with ⟨mask, hParse, hMask⟩
  intro mask' hParse'
  cases hParse.symm.trans hParse'
  exact hMask.width_eq

theorem MaskOfWidth.setsWidth
    {mask width : Nat}
    (h : MaskOfWidth mask width) :
    SetsWidth width
      (Text.ascii
        ("SET_CHANNEL_MASK " ++
          String.ofList (Nat.toDigits 16 mask))) :=
  ⟨mask, parseCommand_mask h.word, h⟩

/- The other settings neither start nor set a mask. -/
theorem other_setting_spec
    {label : String}
    (hLabel : label ∈ ["SET_FREQ ", "SET_CHUNK_SIZE "])
    (text : String)
    (width : Nat) :
    KeepsWidth width (Text.ascii (label ++ text)) ∧
      (parseCommand (Text.ascii (label ++ text))).starts =
        none := by
  rcases parseCommand_other_setting hLabel text with
    ⟨value, hParse⟩ | ⟨value, hParse⟩ | hParse
  · exact ⟨by simp [KeepsWidth, hParse], by rw [hParse]; rfl⟩
  · exact ⟨by simp [KeepsWidth, hParse], by rw [hParse]; rfl⟩
  · exact ⟨by simp [KeepsWidth, hParse], by rw [hParse]; rfl⟩

theorem Button.keepsWidth
    (button : Button)
    (width : Nat) :
    KeepsWidth width (Text.ascii button.1) := by
  rcases List.mem_map.mp button.2 with
    ⟨entry, hMember, hText⟩
  have hTable :
      ∀ entry ∈ commandTable, entry.2.value = none := by
    decide
  intro mask hParse
  rw [← hText, parseCommand_table hMember] at hParse
  have hNone := hTable entry hMember
  rw [hParse] at hNone
  cases hNone

end PicoLogicAnalyzer

------------------------------------------------------------
-- Widths Of The Device
------------------------------------------------------------

namespace PicoLogicAnalyzer

/- The width is the one the mask needs. -/
theorem LaConfig.WellFormed.width_storage
    {config : LaConfig}
    (hConfig : config.WellFormed) :
    config.bytesPerSample =
      (storageFor config.channelMask).2 := by
  rw [storageFor_eq hConfig.mask_pos hConfig.mask_lt,
    hConfig.width_eq, hConfig.mode_eq]

variable [CaptureModule] {d : Device} {a : Activity}

/- Without a mask only rate and chunk size may change. -/
theorem handleCommand_laConfig_other
    (env : Env)
    (id : Nat)
    (data : List UInt8)
    (d : Device)
    {command : Command}
    (hOther : ∀ mask, command ≠ .setChannelMask mask) :
    ∃ frequency chunkBytes,
      (handleCommand env id data d
          command).1.bridge.laConfig =
        { d.bridge.laConfig with
          frequency := frequency
          chunkBytes := chunkBytes } := by
  cases hSetting : command.isSetting with
  | false =>
      rw [handleCommand_laConfig env id data d hSetting]
      exact ⟨_, _, rfl⟩
  | true =>
      cases command with
      | setFreq value =>
          simp only [handleCommand, laConfigureFrequency]
          split <;> exact ⟨_, _, rfl⟩
      | setChunkSize value =>
          simp only [handleCommand, laConfigureChunkBytes]
          split <;> exact ⟨_, _, rfl⟩
      | setChannelMask mask => exact absurd rfl (hOther mask)
      | _ => cases hSetting

/- An accepted mask sets the width, a refused one does not. -/
theorem setChannelMask_width
    (hShows : d.Shows a)
    (h : d.Coherent)
    {env : Env}
    {id : Nat}
    {data : List UInt8}
    {mask : Nat}
    (hParse : parseCommand data = .setChannelMask mask) :
    (Device.step d
        (.message env id
          data)).1.bridge.laConfig.bytesPerSample =
      if laIsBusy d.bridge = false ∧
          acceptsChannelMask mask = true then
        (storageFor mask).2
      else
        d.bridge.laConfig.bytesPerSample := by
  have hCoherent :=
    Device.step_coherent hShows h (.message env id data)
  have hBridge :
      (Device.step d (.message env id data)).1.bridge =
        (laConfigureChannelMask (some mask) d.bridge).1 := by
    simp only [Device.step, websocketMessage, hParse,
      handleCommand]
  have hSpec := laConfigureChannelMask_spec (some mask) d.bridge
  split
  · rename_i hAccepted
    rw [hCoherent.config.width_storage, hBridge,
      hSpec.stored mask rfl hAccepted.1 hAccepted.2]
  · rename_i hRefused
    rw [hBridge, hSpec.refused]
    rintro _ ⟨⟩
    simpa using not_and_or.mp hRefused

theorem KeepsWidth.message
    (hShows : d.Shows a)
    (h : d.Coherent)
    {data : List UInt8}
    (hKeeps :
      KeepsWidth d.bridge.laConfig.bytesPerSample data)
    (env : Env)
    (id : Nat) :
    (Device.step d
        (.message env id
          data)).1.bridge.laConfig.bytesPerSample =
      d.bridge.laConfig.bytesPerSample := by
  by_cases hMask :
      ∃ mask, parseCommand data = .setChannelMask mask
  · rcases hMask with ⟨mask, hParse⟩
    rw [setChannelMask_width hShows h hParse]
    split
    · exact hKeeps mask hParse
    · rfl
  · rcases handleCommand_laConfig_other env id data d
        (not_exists.mp hMask) with
      ⟨frequency, chunkBytes, hConfig⟩
    have hWidth := congrArg LaConfig.bytesPerSample hConfig
    exact hWidth

theorem SetsWidth.message
    {width : Nat}
    {data : List UInt8}
    (hSets : SetsWidth width data)
    (hShows : d.Shows .idle)
    (h : d.Coherent)
    (env : Env)
    (id : Nat) :
    (Device.step d
        (.message env id
          data)).1.bridge.laConfig.bytesPerSample =
      width := by
  rcases hSets with ⟨mask, hParse, hMask⟩
  rw [setChannelMask_width hShows h hParse,
    if_pos ⟨hShows.laIsBusy, hMask.accepted⟩]
  exact hMask.width_eq

/- Without a start command an idle device stays idle. -/
theorem Device.Shows.idle_message
    (hShows : d.Shows .idle)
    {data : List UInt8}
    (hOther : (parseCommand data).starts = none)
    (env : Env)
    (id : Nat) :
    (Device.step d (.message env id data)).1.Shows .idle := by
  have hNext :=
    handleCommand_shows hShows env id data (parseCommand data)
  have hIdle :
      Activity.idle.handle env (parseCommand data) =
        .idle := by
    generalize parseCommand data = command at hOther
    cases command with
    | singleCapture => cases hOther
    | captureChainStart => cases hOther
    | captureChainAnalysisStart => cases hOther
    | streamStart => cases hOther
    | streamAnalysisStart => cases hOther
    | _ => rfl
  rw [hIdle] at hNext
  exact hNext

/- Answers are not capture data. -/
theorem message_hasWidth
    {env : Env}
    {id connection : Nat}
    {data : List UInt8}
    {payload : Payload}
    (hMember :
      payload ∈
        (Device.step d (.message env id data)).2.filterMap
          (Event.delivered connection))
    (width : Nat) :
    payload.HasWidth width := by
  rcases List.mem_filterMap.mp hMember with
    ⟨event, hEvent, hDelivered⟩
  rcases List.mem_cons.mp hEvent with rfl | hAnswer
  · cases hDelivered
  · rcases mem_handleCommand hAnswer with
      ⟨record, rfl⟩ | ⟨payload', accepted, rfl, hPlain⟩
    · cases hDelivered
    · have hSame := Event.eq_of_delivered hDelivered
      subst hSame
      cases payload' with
      | raw op width' offset data => cases hPlain
      | _ => trivial

/- Tasks send data of the configured width. -/
theorem task_hasWidth
    (hShows : d.Shows a)
    (h : d.Coherent)
    (task : Task)
    {connection : Nat}
    {payload : Payload}
    (hMember :
      payload ∈
        (Device.step d task.1).2.filterMap
          (Event.delivered connection)) :
    payload.HasWidth d.bridge.laConfig.bytesPerSample ∧
      (a = .idle → payload.isRaw = false) := by
  rcases List.mem_filterMap.mp hMember with
    ⟨event, hEvent, hDelivered⟩
  have hCarries :=
    Device.step_carries hShows h task.2 event hEvent
  cases event with
  | sent dest payload' accepted =>
      have hSame := Event.eq_of_delivered hDelivered
      subst hSame
      cases payload' with
      | raw op width offset data =>
          refine ⟨hCarries.2.2, ?_⟩
          rintro rfl
          cases hCarries.1
      | _ => exact ⟨trivial, fun _ => rfl⟩
  | _ => cases hDelivered

end PicoLogicAnalyzer

------------------------------------------------------------
-- Agreement On The Width
------------------------------------------------------------

namespace PicoLogicAnalyzer

open Text

namespace Link

/-
  The condition on a click that changes the width: nothing
  runs, no start command is under way to the device and no
  headerless data to the page.
-/
def keepsWidth (link : Link) : LinkInput → Bool
| .configure form =>
    (link.page.configure form).1.bytesPerSample ==
        link.page.bytesPerSample ||
      (!isBusy link.device &&
        link.toDevice.all
          (fun data => (parseCommand data).starts.isNone) &&
        link.toPage.all (fun payload => !payload.isRaw))
| _ => true

/- The device has the width of the page. -/
structure Settled (link : Link) : Prop where
  width_eq :
    link.device.bridge.laConfig.bytesPerSample =
      link.page.bytesPerSample
  masks :
    ∀ data ∈ link.toDevice,
      KeepsWidth link.page.bytesPerSample data

/- The mask that brings the width is under way. -/
structure Settling (link : Link) : Prop where
  idle : link.device.Shows .idle
  queue :
    ∃ before mask after,
      link.toDevice = before ++ mask :: after ∧
        (∀ data ∈ before, (parseCommand data).starts = none) ∧
        SetsWidth link.page.bytesPerSample mask ∧
        ∀ data ∈ after,
          KeepsWidth link.page.bytesPerSample data

/- The device has the width of the page or will get it. -/
structure WidthAgrees (link : Link) : Prop where
  coherent : link.device.Coherent
  shows : ∃ a, link.device.Shows a
  raws :
    ∀ payload ∈ link.toPage,
      payload.HasWidth link.page.bytesPerSample
  masks : link.Settled ∨ link.Settling

theorem initial_widthAgrees
    (connection : Nat)
    (hw : CaptureHardware) :
    (initial connection hw).WidthAgrees where
  coherent := Device.boot_coherent hw
  shows := ⟨.idle, Device.boot_shows hw⟩
  raws := List.forall_mem_nil _
  masks := Or.inl ⟨rfl, List.forall_mem_nil _⟩

namespace WidthAgrees

variable {link : Link}

/- Messages that keep the width of the page. -/
theorem pageSends
    (h : link.WidthAgrees)
    {result : Page × List String}
    (hWidth :
      result.1.bytesPerSample = link.page.bytesPerSample)
    (hTexts :
      ∀ text ∈ result.2,
        KeepsWidth link.page.bytesPerSample (ascii text)) :
    (link.pageSends result).WidthAgrees := by
  have hMessages :
      ∀ data ∈ result.2.map ascii,
        KeepsWidth link.page.bytesPerSample data := by
    rw [List.forall_mem_map]
    exact hTexts
  refine ⟨h.coherent, h.shows, ?_, ?_⟩
  · simpa only [Link.pageSends, hWidth] using h.raws
  · rcases h.masks with hSettled | hSettling
    · left
      refine ⟨hSettled.width_eq.trans hWidth.symm, ?_⟩
      simp only [Link.pageSends, hWidth]
      exact
        List.forall_mem_append.mpr
          ⟨hSettled.masks, hMessages⟩
    · right
      rcases hSettling.queue with
        ⟨before, mask, after, hQueue, hBefore, hMask, hAfter⟩
      refine
        ⟨hSettling.idle, before, mask,
          after ++ result.2.map ascii, ?_, hBefore, ?_, ?_⟩
      · simp [Link.pageSends, hQueue]
      · simpa only [Link.pageSends, hWidth] using hMask
      · simp only [Link.pageSends, hWidth]
        exact List.forall_mem_append.mpr ⟨hAfter, hMessages⟩

theorem configure
    (h : link.WidthAgrees)
    {form : ConfigureForm}
    (hKeeps : link.keepsWidth (.configure form) = true) :
    (link.pageSends
      (link.page.configure form)).WidthAgrees := by
  have hOther :
      ∀ label ∈ ["SET_FREQ ", "SET_CHUNK_SIZE "],
        ∀ text width,
          KeepsWidth width (ascii (label ++ text)) ∧
            (parseCommand (ascii (label ++ text))).starts =
              none :=
    fun label hLabel text width =>
      other_setting_spec hLabel text width
  rcases link.page.configure_spec form with
    ⟨hNone, hWidth⟩ | ⟨mask, hMask, hTexts⟩
  · apply h.pageSends hWidth
    rw [hNone]
    exact List.forall_mem_nil _
  · by_cases hWidth :
        (link.page.configure form).1.bytesPerSample =
          link.page.bytesPerSample
    · apply h.pageSends hWidth
      rw [hTexts, ← hWidth]
      simp only [List.forall_mem_cons]
      exact
        ⟨(hOther _ (by simp) _ _).1,
          (hOther _ (by simp) _ _).1,
          hMask.setsWidth.keepsWidth, List.forall_mem_nil _⟩
    · -- The new mask comes after everything under way.
      simp only [Link.keepsWidth, Bool.or_eq_true, beq_iff_eq,
        hWidth, false_or, Bool.and_eq_true, List.all_eq_true,
        Bool.not_eq_true', Option.isNone_iff_eq_none]
        at hKeeps
      rcases hKeeps with ⟨⟨hFree, hStarts⟩, hRaws⟩
      rcases h.shows with ⟨a, hShows⟩
      have hIdle := hShows.eq_idle_of_not_busy hFree
      subst hIdle
      refine ⟨h.coherent, ⟨_, hShows⟩, ?_, Or.inr ?_⟩
      · intro payload hMember
        have hRaw := hRaws payload hMember
        cases payload with
        | raw op width offset data => cases hRaw
        | _ => trivial
      · refine
          ⟨hShows,
            link.toDevice ++
              [ascii ("SET_FREQ " ++ form.frequency),
                ascii ("SET_CHUNK_SIZE " ++ form.chunkSize)],
            _, [], ?_, ?_, hMask.setsWidth,
            List.forall_mem_nil _⟩
        · simp [Link.pageSends, hTexts]
        · rw [List.forall_mem_append]
          refine ⟨hStarts, ?_⟩
          simp only [List.forall_mem_cons]
          exact
            ⟨(hOther _ (by simp) _ 0).2,
              (hOther _ (by simp) _ 0).2,
              List.forall_mem_nil _⟩

variable [CaptureModule]

theorem deviceHandles
    (h : link.WidthAgrees)
    (env : Env) :
    (link.step (.deviceHandles env)).1.WidthAgrees := by
  cases hMessages : link.toDevice with
  | nil => simpa only [Link.step, hMessages] using h
  | cons data rest =>
      rcases h.shows with ⟨a, hShows⟩
      rw [Link.step_deviceHandles hMessages]
      refine ⟨?_, ?_, ?_, ?_⟩
      · exact Device.step_coherent hShows h.coherent _
      · exact Device.step_shows hShows _
      · refine List.forall_mem_append.mpr ⟨h.raws, ?_⟩
        intro payload hMember
        exact message_hasWidth hMember _
      · rcases h.masks with hSettled | hSettling
        · have hMasks := hSettled.masks
          rw [hMessages, List.forall_mem_cons] at hMasks
          rcases hMasks with ⟨hFirst, hRest⟩
          rw [← hSettled.width_eq] at hFirst
          have hSame :=
            hFirst.message hShows h.coherent env
              link.connection
          exact Or.inl ⟨hSame.trans hSettled.width_eq, hRest⟩
        · rcases hSettling.queue with
            ⟨before, mask, after, hQueue, hBefore, hMask,
              hAfter⟩
          rw [hMessages] at hQueue
          cases before with
          | nil =>
              cases hQueue
              refine Or.inl ⟨?_, hAfter⟩
              exact
                hMask.message hSettling.idle h.coherent env
                  link.connection
          | cons first before =>
              cases hQueue
              rw [List.forall_mem_cons] at hBefore
              refine
                Or.inr
                  ⟨?_, before, mask, after, rfl, hBefore.2,
                    hMask, hAfter⟩
              exact
                hSettling.idle.idle_message hBefore.1 env
                  link.connection

theorem deviceRuns
    (h : link.WidthAgrees)
    (task : Task) :
    (link.step (.deviceRuns task)).1.WidthAgrees := by
  rcases h.shows with ⟨a, hShows⟩
  have hConfig := Device.step_laConfig link.device task.2
  refine ⟨?_, ?_, ?_, ?_⟩
  · exact Device.step_coherent hShows h.coherent _
  · exact Device.step_shows hShows _
  · refine List.forall_mem_append.mpr ⟨h.raws, ?_⟩
    intro payload hMember
    have hData := task_hasWidth hShows h.coherent task hMember
    rcases h.masks with hSettled | hSettling
    · have hWidth := hData.1
      rw [hSettled.width_eq] at hWidth
      exact hWidth
    · have hRaw :=
        (task_hasWidth hSettling.idle h.coherent task
          hMember).2 rfl
      cases payload with
      | raw op width offset data => cases hRaw
      | _ => trivial
  · rcases h.masks with hSettled | hSettling
    · left
      refine ⟨?_, hSettled.masks⟩
      exact
        (congrArg LaConfig.bytesPerSample hConfig).trans
          hSettled.width_eq
    · right
      exact
        ⟨hSettling.idle.idle_step task.2, hSettling.queue⟩

theorem pageHandles
    (h : link.WidthAgrees) :
    (link.step .pageHandles).1.WidthAgrees := by
  unfold Link.step
  cases hMessages : link.toPage with
  | nil => exact h
  | cons payload rest =>
      have hWidth :=
        link.page.bytesPerSample_onMessage payload
      have hRaws := h.raws
      rw [hMessages, List.forall_mem_cons] at hRaws
      refine ⟨h.coherent, h.shows, ?_, ?_⟩
      · simpa only [hWidth] using hRaws.2
      · rcases h.masks with hSettled | hSettling
        · left
          refine ⟨?_, ?_⟩
          · simpa only [hWidth] using hSettled.width_eq
          · simpa only [hWidth] using hSettled.masks
        · right
          refine ⟨hSettling.idle, ?_⟩
          simpa only [hWidth] using hSettling.queue

/- Every step that meets the condition keeps agreement. -/
theorem step
    (h : link.WidthAgrees)
    {i : LinkInput}
    (hKeeps : link.keepsWidth i = true) :
    (link.step i).1.WidthAgrees := by
  cases i with
  | press button =>
      apply h.pageSends rfl
      intro text hMember
      rw [List.mem_singleton.mp hMember]
      exact button.keepsWidth _
  | configure form => exact h.configure hKeeps
  | deviceHandles env => exact h.deviceHandles env
  | deviceRuns task => exact h.deviceRuns task
  | pageHandles => exact h.pageHandles

end WidthAgrees

end Link

/-
  Page and device agree on the width of every headerless
  message, in any interleaving in which a click that changes
  the width is made while nothing is running or under way.
-/
theorem widths_agree_of_quiet_configure
    [CaptureModule]
    (connection : Nat)
    (hw : CaptureHardware)
    (inputs : List LinkInput)
    (hKeeps :
      Machine.Guarded Link.step
        (fun link i => link.keepsWidth i = true)
        (Link.initial connection hw) inputs) :
    ∀ handled ∈
        (Machine.run Link.step (Link.initial connection hw)
          inputs).2,
      handled.InWidth := by
  refine Link.run_handled (P := Link.WidthAgrees) ?_ ?_
    (Link.initial_widthAgrees connection hw) hKeeps
  · intro link i h hStep
    exact h.step hStep
  · intro link payload rest h hMessages
    have hRaws := h.raws
    rw [hMessages, List.forall_mem_cons] at hRaws
    cases payload with
    | raw op width offset data => exact fun _ => hRaws.1.symm
    | _ => trivial

end PicoLogicAnalyzer

------------------------------------------------------------
-- Concrete Clicks
------------------------------------------------------------

namespace PicoLogicAnalyzer

section Sample

attribute [local instance] CaptureModule.sample

/- Channel 10 alone, the other fields as loaded. -/
def ConfigureForm.tenth : ConfigureForm where
  checked := fun channel => channel == 9
  frequency := "1000"
  chunkSize := "256"

/- A raw stream that starts right after the click. -/
theorem width_agrees_after_click :
    let inputs :=
      [LinkInput.configure .tenth,
          .button "STREAM_START" (by decide)] ++
        List.replicate 4 .handles ++ LinkInput.sendsChunk ++
        List.replicate 5 .pageHandles
    let handled :=
      (Machine.run Link.step
        (Link.initial 1 CaptureHardware.blank) inputs).2
    (∀ message ∈ handled, message.InWidth) ∧
      handled.map (fun message => message.payload.isRaw) =
        [false, false, false, false, true] := by
  refine ⟨?_, by decide +kernel⟩
  apply widths_agree_of_quiet_configure
  decide +kernel

/-
  The device refuses the mask while it streams. The page has
  changed its width all the same and displays the next
  message as samples of two bytes.
-/
theorem click_while_streaming_misleads_page :
    let inputs :=
      [LinkInput.button "STREAM_START" (by decide), .handles,
          .configure .tenth] ++
        List.replicate 3 .handles ++ LinkInput.sendsChunk ++
        List.replicate 5 .pageHandles
    ¬ ∀ message ∈
        (Machine.run Link.step
          (Link.initial 1 CaptureHardware.blank) inputs).2,
      message.InWidth := by
  decide +kernel

end Sample

end PicoLogicAnalyzer
