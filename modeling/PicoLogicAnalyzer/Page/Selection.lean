import PicoLogicAnalyzer.Page.Width

/-
  The channels a user selects.

  A Configure click turns the checked probes into a channel
  mask for the device and a display mask for the page. The
  device stores the mask it scans from the message, and in
  the line the page prints for a message of raw samples each
  word shows the levels of the selected probes at their raw
  bits.

  Key definitions include:
    * `probePin`
    * `ConfigureForm.signedSelected`
    * `Input.received`
    * `maskAfter`
    * `ConfigureForm.Shown` and `ConfigureForm.LineShown`

  Key theorems include:
    * `ConfigureForm.testBit_channelMask`
    * `ConfigureForm.testBit_displayMask_iff`
    * `Device.Shows.run_settings`
    * `scanUnsigned_hexText`
    * `LaConfig.WellFormed.displayRaw_eq`
    * `selection_reaches_raw_bits`
-/

------------------------------------------------------------
-- Probes And Raw Bits
------------------------------------------------------------

namespace PicoLogicAnalyzer

/-
  GPIO of a probe, counted from zero. GPIO23 to GPIO25 are
  not analyzer inputs.
-/
def probePin (channel : Fin laMaxChannels) : InputPin where
  gpio :=
    if channel.val ≤ 20 then channel.val + 2
    else channel.val + 5
  base_le := by
    unfold inputPinBase
    split <;> omega
  lt := by
    have hChannel := channel.isLt
    unfold laMaxChannels at hChannel
    unfold inputPinBase
    split <;> omega

/- The page looks for a probe where the device stores it. -/
theorem probePin_bit (channel : Fin laMaxChannels) :
    (probePin channel).bit = rawBit channel := by
  unfold probePin InputPin.bit rawBit inputPinBase
  dsimp only
  split <;> omega

theorem rawBit_lt
    {channel : Nat}
    (hChannel : channel < laMaxChannels) :
    rawBit channel < 27 := by
  unfold laMaxChannels at hChannel
  unfold rawBit
  split <;> omega

/- Different channels have different bits. -/
theorem rawBit_injective :
    Function.Injective rawBit := by
  intro channel channel' hSame
  unfold rawBit at hSame
  split at hSame <;> split at hSame <;> omega

/- A channel fits the width of any channel not below it. -/
theorem rawBit_lt_widthFor
    {channel highest : Nat}
    (hChannel : channel < laMaxChannels)
    (hLe : channel ≤ highest) :
    rawBit channel < 8 * widthFor highest := by
  have hBit := rawBit_lt hChannel
  unfold widthFor
  split
  · unfold rawBit
    split <;> omega
  · split
    · unfold rawBit
      split <;> omega
    · omega

end PicoLogicAnalyzer

------------------------------------------------------------
-- The Two Masks
------------------------------------------------------------

namespace PicoLogicAnalyzer

open Word

namespace ConfigureForm

variable (form : ConfigureForm)

/- The channel mask is the set of checked channels. -/
theorem testBit_channelMask
    (count channel : Nat) :
    (form.selected count).channelMask.testBit channel =
      (decide (channel < count) &&
        form.checked channel) := by
  induction count with
  | zero => simp [selected]
  | succ count ih =>
      rw [selected_succ]
      by_cases hSame : count = channel
      · subst hSame
        cases hChecked : form.checked count with
        | false => simp [ih]
        | true => simp [Selection.add, Nat.testBit_or]
      · have hStep :
            (channel < count + 1) = (channel < count) := by
          rw [eq_iff_iff]
          omega
        simp only [hStep, ← ih]
        split
        · simp [Selection.add, Nat.testBit_or, hSame]
        · rfl

/- The display mask has the raw bits of those channels. -/
theorem testBit_displayMask_iff
    (count bit : Nat) :
    (form.selected count).displayMask.testBit bit = true ↔
      ∃ channel < count,
        form.checked channel = true ∧
          rawBit channel = bit := by
  induction count with
  | zero => simp [selected]
  | succ count ih =>
      rw [selected_succ, Nat.exists_lt_succ_right, ← ih]
      split
      · rename_i hChecked
        simp [Selection.add, Nat.testBit_or,
          Nat.testBit_two_pow, hChecked]
      · rename_i hChecked
        simp [hChecked]

theorem displayMask_lt
    {count : Nat}
    (hCount : count ≤ laMaxChannels) :
    (form.selected count).displayMask < 2 ^ 27 := by
  apply Nat.lt_pow_two_of_testBit
  intro bit hBit
  rw [Bool.eq_false_iff]
  intro hSet
  rcases (form.testBit_displayMask_iff count bit).mp hSet
    with ⟨channel, hChannel, _, rfl⟩
  have hLt := rawBit_lt (hChannel.trans_le hCount)
  omega

/- The loop with the signed operators of the script. -/
def signedSelected (count : Nat) : Int × Int :=
  (List.range count).foldl
    (fun masks channel =>
      if form.checked channel then
        (or32 masks.1 (2 ^ channel : Nat),
          or32 masks.2 (2 ^ rawBit channel : Nat))
      else
        masks)
    (0, 0)

/- No mask reaches the sign bit. -/
theorem signedSelected_eq
    {count : Nat}
    (hCount : count ≤ laMaxChannels) :
    form.signedSelected count =
      (((form.selected count).channelMask : Int),
        ((form.selected count).displayMask : Int)) := by
  induction count with
  | zero => rfl
  | succ count ih =>
      have hPrevious := ih (Nat.le_of_succ_le hCount)
      have hStep :
          form.signedSelected (count + 1) =
            if form.checked count then
              (or32 (form.signedSelected count).1
                  (2 ^ count : Nat),
                or32 (form.signedSelected count).2
                  (2 ^ rawBit count : Nat))
            else
              form.signedSelected count := by
        simp [signedSelected, List.range_succ]
      rw [hStep, selected_succ, hPrevious]
      split
      · have hChannelMask :=
          (form.selected_spec count).1
        have hDisplayMask :=
          form.displayMask_lt (Nat.le_of_succ_le hCount)
        have hChannel : 2 ^ count < 2 ^ 31 :=
          Nat.pow_lt_pow_right (by decide)
            (hCount.trans (by decide))
        have hBit : 2 ^ rawBit count < 2 ^ 31 :=
          Nat.pow_lt_pow_right (by decide)
            ((rawBit_lt hCount).trans (by decide))
        rw [or32_natCast (hChannelMask.trans hChannel)
            hChannel,
          or32_natCast (by omega) hBit]
        rfl
      · rfl

/- A checked channel makes the selection non-empty. -/
theorem highest_of_checked
    {channel count : Nat}
    (hChannel : channel < count)
    (hChecked : form.checked channel = true) :
    ∃ highest,
      (form.selected count).highest = some highest ∧
        channel ≤ highest := by
  induction count with
  | zero => exact absurd hChannel (Nat.not_lt_zero channel)
  | succ count ih =>
      rw [selected_succ]
      rcases Nat.lt_succ_iff_lt_or_eq.mp hChannel with
        hBelow | rfl
      · rcases ih hBelow with ⟨highest, hHighest, hLe⟩
        split
        · exact ⟨count, rfl, hBelow.le⟩
        · exact ⟨highest, hHighest, hLe⟩
      · rw [if_pos hChecked]
        exact ⟨channel, rfl, Nat.le_refl channel⟩

end ConfigureForm

end PicoLogicAnalyzer

------------------------------------------------------------
-- Settings On An Idle Device
------------------------------------------------------------

namespace PicoLogicAnalyzer

/- The message an input hands to the firmware. -/
def Input.received : Input → Option (List UInt8)
| .message _ _ data => some data
| _ => none

/- The mask an idle device has after a message. -/
def maskAfter (mask : Nat) (data : List UInt8) : Nat :=
  match parseCommand data with
  | .setChannelMask value =>
      if acceptsChannelMask value then value else mask
  | _ => mask

theorem maskAfter_other
    {data : List UInt8}
    (hOther :
      ∀ value, parseCommand data ≠ .setChannelMask value)
    (mask : Nat) :
    maskAfter mask data = mask := by
  unfold maskAfter
  split
  · rename_i value hParse
    exact absurd hParse (hOther value)
  · rfl

variable [CaptureModule] {d : Device}

theorem Device.Shows.message_mask
    (hShows : d.Shows .idle)
    (env : Env)
    (id : Nat)
    (data : List UInt8) :
    (Device.step d
        (.message env id
          data)).1.bridge.laConfig.channelMask =
      maskAfter d.bridge.laConfig.channelMask data := by
  by_cases hMask :
      ∃ value, parseCommand data = .setChannelMask value
  · rcases hMask with ⟨value, hParse⟩
    have hSpec :=
      laConfigureChannelMask_spec (some value) d.bridge
    simp only [Device.step, websocketMessage, hParse,
      handleCommand, maskAfter]
    split
    · rename_i hAccepted
      exact
        hSpec.stored value rfl hShows.laIsBusy hAccepted
    · rename_i hRefused
      rw [hSpec.refused]
      rintro _ ⟨⟩
      exact Or.inr (Bool.eq_false_iff.mpr hRefused)
  · rw [maskAfter_other (not_exists.mp hMask)]
    rcases handleCommand_laConfig_other env id data d
        (not_exists.mp hMask) with
      ⟨frequency, chunkBytes, hConfig⟩
    have hSame := congrArg LaConfig.channelMask hConfig
    exact hSame

/-
  Messages without a start command, whatever the tasks and
  the hardware do in between.
-/
theorem Device.Shows.run_settings
    (hShows : d.Shows .idle)
    (h : d.Coherent)
    {inputs : List Input}
    (hSettings :
      ∀ data ∈ inputs.filterMap Input.received,
        (parseCommand data).starts = none) :
    (Device.run d inputs).1.Coherent ∧
      (Device.run d inputs).1.bridge.laConfig.channelMask =
        (inputs.filterMap Input.received).foldl maskAfter
          d.bridge.laConfig.channelMask := by
  induction inputs generalizing d with
  | nil => exact ⟨h, rfl⟩
  | cons i inputs ih =>
      have hNext := Device.step_coherent hShows h i
      rw [Device.run, Machine.run_cons]
      by_cases hTask : ∀ env id data, i ≠ .message env id data
      · have hNone : i.received = none := by
          cases i with
          | message env id data =>
              exact absurd rfl (hTask env id data)
          | _ => rfl
        rw [List.filterMap_cons_none hNone] at hSettings ⊢
        rw [← Device.step_laConfig d hTask]
        exact ih (hShows.idle_step hTask) hNext hSettings
      · push Not at hTask
        rcases hTask with ⟨env, id, data, rfl⟩
        have hData :
            (Input.message env id data).received =
              some data := rfl
        rw [List.filterMap_cons_some hData,
          List.forall_mem_cons] at hSettings
        rw [List.filterMap_cons_some hData, List.foldl_cons,
          ← hShows.message_mask env id data]
        exact
          ih (hShows.idle_message hSettings.1 env id) hNext
            hSettings.2

end PicoLogicAnalyzer

------------------------------------------------------------
-- Messages And Levels
------------------------------------------------------------

namespace PicoLogicAnalyzer

open Text
open Word

/- The messages of a click with a selection. -/
def ConfigureForm.messages
    (form : ConfigureForm) :
    List (List UInt8) :=
  [ascii ("SET_FREQ " ++ form.frequency),
    ascii ("SET_CHUNK_SIZE " ++ form.chunkSize),
    ascii
      ("SET_CHANNEL_MASK " ++
        String.ofList
          (Nat.toDigits 16 form.selection.channelMask))]

/- Width and messages of a click with a selection. -/
theorem Page.configure_selected
    (page : Page)
    {form : ConfigureForm}
    {highest : Nat}
    (hHighest : form.selection.highest = some highest) :
    (page.configure form).1.displayMask =
        form.selection.displayMask ∧
      (page.configure form).1.bytesPerSample =
        widthFor highest ∧
      (page.configure form).2.map ascii = form.messages := by
  simp only [Page.configure, hHighest, true_and]
  rfl

/- The printed mask is scanned and stored as it is. -/
theorem ConfigureForm.foldl_maskAfter
    {form : ConfigureForm}
    (hPos : 0 < form.selection.channelMask)
    (mask : Nat) :
    form.messages.foldl maskAfter mask =
      form.selection.channelMask := by
  have hBound := (form.selected_spec 24).1
  have hWord : form.selection.channelMask < 2 ^ 32 :=
    hBound.trans (by decide)
  have hAccepted :
      acceptsChannelMask form.selection.channelMask =
        true := by
    rw [acceptsChannelMask_iff hWord]
    exact ⟨hPos, hBound⟩
  have hMask :
      ∀ mask, maskAfter mask
          (ascii
            ("SET_CHANNEL_MASK " ++
              String.ofList
                (Nat.toDigits 16
                  form.selection.channelMask))) =
        form.selection.channelMask := by
    intro mask
    simp only [maskAfter, parseCommand_mask hWord, hAccepted,
      if_true]
  simp only [messages, List.foldl_cons, List.foldl_nil, hMask]

theorem ConfigureForm.starts_messages
    {form : ConfigureForm}
    (hWord : form.selection.channelMask < 2 ^ 32) :
    ∀ data ∈ form.messages,
      (parseCommand data).starts = none := by
  simp only [messages, List.forall_mem_cons]
  refine ⟨?_, ?_, ?_, List.forall_mem_nil _⟩
  · exact (other_setting_spec (by simp) _ 0).2
  · exact (other_setting_spec (by simp) _ 0).2
  · rw [parseCommand_mask hWord]
    rfl

/- A sample occupies no more bits than its width has. -/
theorem rawSample_lt
    (data : List UInt8)
    (width index : Nat) :
    rawSample data width index < 256 ^ width := by
  have hLength :
      ((data.drop (index * width)).take width).length ≤
        width :=
    List.length_take_le _ _
  exact
    (ofLittleEndian_lt _).trans_le
      (Nat.pow_le_pow_right (by decide) hLength)

/-
  The displayed value of a sample at the width of the
  selection, `level` being the levels of the GPIOs.
-/
structure ConfigureForm.Shown
    (form : ConfigureForm)
    (level : Nat → Bool)
    (value : Nat) : Prop where
  probe :
    ∀ channel : Fin laMaxChannels,
      value.testBit (rawBit channel) = true ↔
        form.checked channel = true ∧
          level (probePin channel).gpio = true
  clear :
    ∀ bit, (∀ channel < laMaxChannels, rawBit channel ≠ bit) →
      value.testBit bit = false

theorem ConfigureForm.shown_of_levels
    {form : ConfigureForm}
    {level : Nat → Bool}
    {width raw : Nat}
    (hWidth :
      ∀ channel < laMaxChannels,
        form.checked channel = true →
          rawBit channel < 8 * width)
    (hLevels :
      ∀ bit < 8 * width,
        raw.testBit bit = level (inputPinBase + bit)) :
    form.Shown level
      (raw &&& form.selection.displayMask) := by
  constructor
  · intro channel
    have hPin :
        inputPinBase + rawBit channel =
          (probePin channel).gpio := by
      rw [← probePin_bit]
      exact
        Nat.add_sub_of_le (probePin channel).base_le
    rw [Nat.testBit_and, Bool.and_eq_true,
      selection, form.testBit_displayMask_iff]
    constructor
    · rintro ⟨hRaw, channel', hChannel', hChecked, hSame⟩
      rw [rawBit_injective hSame] at hChecked
      refine ⟨hChecked, ?_⟩
      rw [← hPin, ← hLevels _
        (hWidth channel channel.isLt hChecked)]
      exact hRaw
    · rintro ⟨hChecked, hHigh⟩
      refine
        ⟨?_, channel, channel.isLt, hChecked, rfl⟩
      rw [hLevels _ (hWidth channel channel.isLt hChecked),
        hPin]
      exact hHigh
  · intro bit hOther
    rw [Bool.eq_false_iff]
    intro hSet
    rw [Nat.testBit_and, Bool.and_eq_true,
      selection, form.testBit_displayMask_iff] at hSet
    rcases hSet.2 with ⟨channel, hChannel, _, hSame⟩
    exact hOther channel hChannel hSame

end PicoLogicAnalyzer

------------------------------------------------------------
-- The Printed Line
------------------------------------------------------------

namespace PicoLogicAnalyzer

open Text
open Word

/-
  What the page makes of a message of raw samples: a line of
  hexadecimal words, one for each of the first 64 samples,
  and every word shows the levels at its sample.
-/
structure ConfigureForm.LineShown
    (form : ConfigureForm)
    (level : Nat → Nat → Bool)
    (width displayMask : Nat)
    (page : Page)
    (data : List UInt8)
    (values : List Nat) : Prop where
  count : values.length = min (data.length / width) 64
  line :
    page.onMessage (.binary data) =
      ({ page.clearFull with
          output :=
            page.clearFull.output ++
                " ".intercalate
                  (values.map
                    (hexText (sampleDigits width))) ++
              "\n"
          lineCount := page.clearFull.lineCount + 1 }, [])
  readable :
    ∀ value ∈ values,
      scanUnsigned 16
          (ascii (hexText (sampleDigits width) value)) =
        some value
  masked :
    ∀ index value, values[index]? = some value →
      value =
        unsigned32
          (and32 (rawSample data width index) displayMask)
  shown :
    ∀ index value, values[index]? = some value →
      form.Shown (level index) value

/- A displayed word is the number it stands for. -/
theorem scanUnsigned_hexText
    {value : Nat}
    (hBound : value < 2 ^ 32)
    (digits : Nat) :
    scanUnsigned 16 (ascii (hexText digits value)) =
      some value := by
  rw [ascii, hexText, String.toList_ofList, List.map_append,
    List.map_replicate]
  exact
    scanUnsigned_padded (by decide) (Nat.le_refl 16) hBound _

/- The masked samples of a message that fit a line. -/
def lineSamples
    (data : List UInt8)
    (width displayMask : Nat) :
    List Nat :=
  (List.range (min (data.length / width) 64)).map
    (fun index => rawSample data width index &&& displayMask)

theorem getElem?_lineSamples
    {data : List UInt8}
    {width displayMask index value : Nat}
    (hValue :
      (lineSamples data width displayMask)[index]? =
        some value) :
    index < data.length / width ∧
      rawSample data width index &&& displayMask = value := by
  rw [lineSamples, List.getElem?_map] at hValue
  rcases Option.map_eq_some_iff.mp hValue with
    ⟨index', hRange, hSample⟩
  rcases List.getElem?_eq_some_iff.mp hRange with
    ⟨hIndex, hSame⟩
  rw [List.getElem_range] at hSame
  rw [List.length_range] at hIndex
  subst hSame
  exact ⟨hIndex.trans_le (Nat.min_le_left _ _), hSample⟩

/- The page reads whole samples of the configured width. -/
theorem LaConfig.WellFormed.displayRaw_eq
    {config : LaConfig}
    (hConfig : config.WellFormed)
    (page : Page)
    (data : List UInt8) :
    page.displayRaw data config.bytesPerSample =
      ({ page with
          output :=
            page.output ++
                " ".intercalate
                  ((lineSamples data config.bytesPerSample
                      page.displayMask).map
                    (hexText
                      (sampleDigits config.bytesPerSample))) ++
              "\n"
          lineCount := page.lineCount + 1 }, []) := by
  have hInside :
      min (data.length / config.bytesPerSample) 64 *
          config.bytesPerSample ≤
        data.length :=
    (Nat.mul_le_mul_right _ (Nat.min_le_left _ _)).trans
      (Nat.div_mul_le_self _ _)
  rw [hConfig.width_eq] at hInside ⊢
  simp only [Page.displayRaw, lineSamples,
    readSamples_eq config.mode page.displayMask hInside]

/- A message of raw samples on a page of that width. -/
theorem LaConfig.WellFormed.line_shown
    {config : LaConfig}
    (hConfig : config.WellFormed)
    {form : ConfigureForm}
    (hFits :
      ∀ channel < laMaxChannels,
        form.checked channel = true →
          rawBit channel < 8 * config.bytesPerSample)
    {page : Page}
    (hWidth : page.bytesPerSample = config.bytesPerSample)
    (hMask : page.displayMask = form.selection.displayMask)
    {data : List UInt8}
    (hRaw : page.takesFrame data = false)
    {level : Nat → Nat → Bool}
    (hLevels :
      ∀ index < data.length / config.bytesPerSample,
        ∀ bit < 8 * config.bytesPerSample,
          (rawSample data config.bytesPerSample
              index).testBit bit =
            level index (inputPinBase + bit)) :
    ∃ values,
      form.LineShown level config.bytesPerSample
        form.selection.displayMask page data values := by
  have hMode := hConfig.width_eq
  have hMaskWord : form.selection.displayMask < 2 ^ 32 :=
    (form.displayMask_lt (Nat.le_refl 24)).trans (by decide)
  have hBits : 256 ^ config.bytesPerSample ≤ 2 ^ 32 := by
    rw [hMode]
    cases config.mode <;> decide
  refine
    ⟨lineSamples data config.bytesPerSample
      form.selection.displayMask, ?_, ?_, ?_, ?_, ?_⟩
  · rw [lineSamples, List.length_map, List.length_range]
  · rw [← hMask, ← page.displayMask_clearFull,
      Page.onMessage, hRaw, if_neg Bool.false_ne_true, hWidth]
    exact hConfig.displayRaw_eq page.clearFull data
  · intro value hMember
    rcases List.mem_map.mp hMember with ⟨index, _, rfl⟩
    exact
      scanUnsigned_hexText
        (Nat.and_lt_two_pow _ hMaskWord) _
  · intro index value hValue
    have hSample :=
      rawSample_lt data config.bytesPerSample index
    rw [← (getElem?_lineSamples hValue).2]
    exact
      (unsigned32_and32 (hSample.trans_le hBits)
        hMaskWord).symm
  · intro index value hValue
    rcases getElem?_lineSamples hValue with
      ⟨hIndex, hSample⟩
    rw [← hSample]
    exact
      ConfigureForm.shown_of_levels hFits
        (hLevels index hIndex)

/- Messages change neither width nor mask of the page. -/
theorem Page.run_onMessage_settings
    (page : Page)
    (messages : List WireMessage) :
    let later := (Machine.run Page.onMessage page messages).1
    later.bytesPerSample = page.bytesPerSample ∧
      later.displayMask = page.displayMask := by
  have hStep :
      ∀ (later : Page) (message : WireMessage),
        later.bytesPerSample = page.bytesPerSample ∧
            later.displayMask = page.displayMask →
          (later.onMessage message).1.bytesPerSample =
              page.bytesPerSample ∧
            (later.onMessage message).1.displayMask =
              page.displayMask := by
    rintro later message ⟨hWidth, hMask⟩
    rw [← hWidth, ← hMask]
    cases message with
    | text reply =>
        exact
          ⟨later.bytesPerSample_onMessage (.text reply),
            later.displayMask_onMessage (.text reply)⟩
    | binary data =>
        exact
          ⟨later.bytesPerSample_onMessage (.echo data),
            later.displayMask_onMessage (.echo data)⟩
  exact Machine.run_invariant hStep ⟨rfl, rfl⟩ messages

end PicoLogicAnalyzer

------------------------------------------------------------
-- From Check Boxes To The Page
------------------------------------------------------------

namespace PicoLogicAnalyzer

open Text
open Word

/-
  After a click on an idle device has been handled, mask and
  width of the device are those of the selection. Whatever
  the page has received since, it prints the raw samples of
  a message with the levels of the selected probes at their
  bits and nothing else.
-/
theorem selection_reaches_raw_bits
    [CaptureModule]
    {d : Device}
    (hReachable : d.Reachable)
    (hIdle : isBusy d = false)
    (page : Page)
    (form : ConfigureForm)
    (hSelected :
      ∃ channel < laMaxChannels, form.checked channel = true)
    (inputs : List Input)
    (hHandled :
      inputs.filterMap Input.received =
        (page.configure form).2.map ascii) :
    let configured := (page.configure form).1
    let config := (Device.run d inputs).1.bridge.laConfig
    (∀ channel,
        config.channelMask.testBit channel = true ↔
          channel < laMaxChannels ∧
            form.checked channel = true) ∧
      form.signedSelected laMaxChannels =
        ((config.channelMask : Int),
          (configured.displayMask : Int)) ∧
      configured.bytesPerSample = config.bytesPerSample ∧
      (∀ channel < laMaxChannels,
        form.checked channel = true →
          rawBit channel < 8 * config.bytesPerSample) ∧
      ∀ (messages : List WireMessage) (data : List UInt8)
          (level : Nat → Nat → Bool),
        let shown :=
          (Machine.run Page.onMessage configured messages).1
        shown.takesFrame data = false →
        (∀ index < data.length / config.bytesPerSample,
          ∀ bit < 8 * config.bytesPerSample,
            (rawSample data config.bytesPerSample
                index).testBit bit =
              level index (inputPinBase + bit)) →
        ∃ values,
          form.LineShown level config.bytesPerSample
            configured.displayMask shown data values := by
  intro configured config
  rcases hReachable.shows with ⟨a, hShows⟩
  have hActivity := hShows.eq_idle_of_not_busy hIdle
  subst hActivity
  rcases hSelected with ⟨channel, hChannel, hChecked⟩
  rcases form.highest_of_checked hChannel hChecked with
    ⟨highest, hHighest, _⟩
  rcases page.configure_selected hHighest with
    ⟨hDisplay, hPageWidth, hMessages⟩
  rcases (form.selected_spec 24).2 highest hHighest with
    ⟨hPos, hLog⟩
  have hBound := (form.selected_spec 24).1
  have hWord : form.selection.channelMask < 2 ^ 32 :=
    hBound.trans (by decide)
  rw [hMessages] at hHandled
  have hSettings :
      ∀ data ∈ inputs.filterMap Input.received,
        (parseCommand data).starts = none := by
    rw [hHandled]
    exact ConfigureForm.starts_messages hWord
  rcases hShows.run_settings hReachable.coherent hSettings
    with ⟨hCoherent, hRun⟩
  have hMask :
      config.channelMask = form.selection.channelMask := by
    rw [hRun, hHandled]
    exact ConfigureForm.foldl_maskAfter hPos _
  have hWidth :
      configured.bytesPerSample = config.bytesPerSample := by
    rw [hPageWidth, hCoherent.config.width_storage,
      storageFor_width, hMask]
    exact congrArg widthFor hLog.symm
  have hFits :
      ∀ channel < laMaxChannels,
        form.checked channel = true →
          rawBit channel < 8 * config.bytesPerSample := by
    intro channel hChannel hChecked
    rcases form.highest_of_checked hChannel hChecked with
      ⟨highest', hHighest', hLe⟩
    cases hHighest.symm.trans hHighest'
    rw [← hWidth, hPageWidth]
    exact rawBit_lt_widthFor hChannel hLe
  refine ⟨?_, ?_, hWidth, hFits, ?_⟩
  · intro channel
    rw [hMask, ConfigureForm.selection,
      form.testBit_channelMask, Bool.and_eq_true,
      decide_eq_true_eq]
    rfl
  · rw [hMask, hDisplay]
    exact form.signedSelected_eq (Nat.le_refl _)
  · intro messages data level shown hRaw hLevels
    rcases configured.run_onMessage_settings messages with
      ⟨hShownWidth, hShownMask⟩
    rw [hDisplay]
    exact
      hCoherent.config.line_shown hFits
        (hShownWidth.trans hWidth)
        (hShownMask.trans hDisplay) hRaw hLevels

end PicoLogicAnalyzer

------------------------------------------------------------
-- A Concrete Selection
------------------------------------------------------------

namespace PicoLogicAnalyzer

section Sample

attribute [local instance] CaptureModule.sample

/- Probes 1 and 22, on both sides of the unused bits. -/
def ConfigureForm.acrossGap : ConfigureForm where
  checked := fun channel => channel == 0 || channel == 21
  frequency := "1000"
  chunkSize := "256"

/-
  Of two samples, the first with every input high and the
  second with only GPIO2 high, the line shows the two probes.
-/
theorem selection_across_gap :
    let inputs :=
      [Input.command 1 "SET_FREQ 1000",
        .singleCaptureTasks Env.smooth,
        .command 1 "SET_CHUNK_SIZE 256",
        .command 1 "SET_CHANNEL_MASK 200001"]
    let configured :=
      (Page.initial.configure .acrossGap).1
    let data : List UInt8 := [255, 255, 255, 255, 1, 0, 0, 0]
    (Device.run (Device.boot CaptureHardware.blank)
          inputs).1.bridge.laConfig.channelMask = 0x200001 ∧
      configured.displayMask = 0x1000001 ∧
      (configured.onMessage (.binary data)).1.output =
        "01000001 00000001\n" ∧
      ∃ values,
        ConfigureForm.acrossGap.LineShown
          (fun index gpio => index == 0 || gpio == 2)
          4 0x1000001 configured data values := by
  intro inputs configured data
  rcases
    selection_reaches_raw_bits
      (d := Device.boot CaptureHardware.blank)
      ⟨CaptureHardware.blank, [], rfl⟩ rfl Page.initial
      .acrossGap ⟨0, by decide, rfl⟩ inputs
      (by decide +kernel) with
    ⟨_, _, _, _, hLine⟩
  refine
    ⟨by decide +kernel, by decide +kernel,
      by decide +kernel, ?_⟩
  exact
    hLine [] data
      (fun index gpio => index == 0 || gpio == 2)
      (by decide +kernel) (by decide +kernel)

end Sample

end PicoLogicAnalyzer
