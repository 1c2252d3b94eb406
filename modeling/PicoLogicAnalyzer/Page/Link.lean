import PicoLogicAnalyzer.Firmware.Formats
import PicoLogicAnalyzer.Firmware.Requester
import PicoLogicAnalyzer.Firmware.StreamSession
import PicoLogicAnalyzer.Page.Frames

/-
  The page and the device.

  The two are joined by a queue in each direction. Buttons,
  Configure clicks, iterations of the task loop, hardware
  progress and the handling of the next message of either
  queue come in any order.

  Key definitions include:
    * `Link` and `LinkInput`
    * `Link.step`
    * `Handled.InFormat`
    * `Link.keepsFormat`

  Key theorems include:
    * `Link.FormatAgrees.step`
    * `formats_agree_of_own_stops`
-/

------------------------------------------------------------
-- The Two Parties
------------------------------------------------------------

namespace PicoLogicAnalyzer

open Text

/- Page, device and the messages under way between them. -/
structure Link where
  connection : Nat
  page : Page
  device : Device
  toDevice : List (List UInt8)
  toPage : List Payload

/- The page has been loaded and the device has started. -/
def Link.initial
    (connection : Nat)
    (hw : CaptureHardware) :
    Link where
  connection := connection
  page := Page.initial
  device := Device.boot hw
  toDevice := []
  toPage := []

/- The texts on the buttons are the command texts. -/
abbrev Button : Type :=
  { text : String // text ∈ commandTable.map Prod.fst }

/- What the device does between messages. -/
abbrev Task : Type :=
  { i : Input // ∀ env id data, i ≠ .message env id data }

inductive LinkInput where
  | press (button : Button)
  | configure (form : ConfigureForm)
  | deviceHandles (env : Env)
  | deviceRuns (task : Task)
  | pageHandles

/- A message and the page that handled it. -/
structure Handled where
  page : Page
  payload : Payload
deriving DecidableEq

/- A message accepted for a connection. -/
def Event.delivered
    (connection : Nat) :
    Event → Option Payload
| .sent dest payload true =>
    if dest = connection then some payload else none
| _ => none

theorem Event.eq_of_delivered
    {dest connection : Nat}
    {payload payload' : Payload}
    {accepted : Bool}
    (hDelivered :
      (Event.sent dest payload' accepted).delivered
          connection =
        some payload) :
    payload' = payload := by
  cases accepted with
  | false => cases hDelivered
  | true =>
      rw [Event.delivered, Option.ite_none_right_eq_some]
        at hDelivered
      exact Option.some.inj hDelivered.2

namespace Link

/- The page sends texts. -/
def pageSends
    (link : Link)
    (result : Page × List String) :
    Link :=
  { link with
    page := result.1
    toDevice := link.toDevice ++ result.2.map ascii }

/- The device has made a step. -/
def deviceSends
    (link : Link)
    (result : Device × List Event) :
    Link :=
  { link with
    device := result.1
    toPage :=
      link.toPage ++
        result.2.filterMap
          (Event.delivered link.connection) }

def step
    [CaptureModule]
    (link : Link) :
    LinkInput → Link × List Handled
| .press button =>
    (link.pageSends (link.page.sendCmd button.1), [])
| .configure form =>
    (link.pageSends (link.page.configure form), [])
| .deviceHandles env =>
    match link.toDevice with
    | [] => (link, [])
    | data :: rest =>
        (deviceSends { link with toDevice := rest }
          (Device.step link.device
            (.message env link.connection data)), [])
| .deviceRuns task =>
    (link.deviceSends (Device.step link.device task.1), [])
| .pageHandles =>
    match link.toPage with
    | [] => (link, [])
    | payload :: rest =>
        ({ link with
            page := (link.page.onMessage payload.wire).1
            toPage := rest },
          [{ page := link.page, payload := payload }])

/- The device takes the first message of its queue. -/
theorem step_deviceHandles
    [CaptureModule]
    {link : Link}
    {data : List UInt8}
    {rest : List (List UInt8)}
    (hMessages : link.toDevice = data :: rest)
    (env : Env) :
    link.step (.deviceHandles env) =
      (deviceSends { link with toDevice := rest }
        (Device.step link.device
          (.message env link.connection data)), []) := by
  simp only [step, hMessages]

/- Only the page shows what it handles. -/
theorem step_silent
    [CaptureModule]
    (link : Link)
    {i : LinkInput}
    (hOther : i ≠ .pageHandles) :
    (link.step i).2 = [] := by
  cases i with
  | pageHandles => exact absurd rfl hOther
  | deviceHandles env =>
      simp only [step]
      split <;> rfl
  | _ => rfl

/-
  Proof rule for runs: an invariant kept by every step that
  meets the condition, under which the page handles the next
  message as it should.
-/
theorem run_handled
    [CaptureModule]
    {P : Link → Prop}
    {Q : Handled → Prop}
    {guard : Link → LinkInput → Prop}
    (hStep :
      ∀ link i, P link → guard link i → P (link.step i).1)
    (hHandles :
      ∀ link payload rest, P link →
        link.toPage = payload :: rest →
          Q { page := link.page, payload := payload })
    {link : Link}
    (hInit : P link)
    {inputs : List LinkInput}
    (hGuarded : Machine.Guarded step guard link inputs) :
    ∀ handled ∈ (Machine.run step link inputs).2,
      Q handled := by
  refine Machine.Guarded.outputs (P := P) (Q := Q) hStep ?_
    hInit hGuarded
  intro link i h _ handled hMember
  by_cases hPage : i = .pageHandles
  · subst hPage
    simp only [step] at hMember
    split at hMember
    · cases hMember
    · rename_i payload rest hMessages
      rw [List.mem_singleton.mp hMember]
      exact hHandles link payload rest h hMessages
  · rw [link.step_silent hPage] at hMember
    cases hMember

end Link

end PicoLogicAnalyzer

------------------------------------------------------------
-- Formats
------------------------------------------------------------

namespace PicoLogicAnalyzer

/-
  The message was handled in the format it was built in:
  frames by `handle_analysis`, headerless data by
  `display_raw`.
-/
def Handled.InFormat (handled : Handled) : Prop :=
  match handled.payload with
  | .raw _ _ _ data => handled.page.takesFrame data = false
  | .frame _ header _ data =>
      handled.page.takesFrame (header.encode ++ data) = true
  | _ => True

instance Handled.decidableInFormat :
    (handled : Handled) → Decidable handled.InFormat
| ⟨page, .raw _ _ _ data⟩ =>
    inferInstanceAs (Decidable (page.takesFrame data = false))
| ⟨page, .frame _ header _ data⟩ =>
    inferInstanceAs
      (Decidable
        (page.takesFrame (header.encode ++ data) = true))
| ⟨_, .text _⟩ => isTrue trivial
| ⟨_, .echo _⟩ => isTrue trivial

/- Replies that switch the page are accepted. -/
def Event.heard : Event → Bool
| .sent _ (.text reply) accepted =>
    !(startsAnalysis reply || endsAnalysis reply) || accepted
| _ => true

/-
  A stop whose reply tells the page that analysis is over
  comes while no other analysis session is open, and
  `STREAM_STOP`, whose reply tells it nothing, does not end
  an analysis stream.
-/
def Device.stopsOwn (d : Device) : Command → Bool
| .captureChainAnalysisStop => d.streamMode != .analysis
| .streamAnalysisStop => !d.captureChainAnalysisEnabled
| .streamStop => d.streamMode != .analysis
| _ => true

/- The condition on the handling of a command. -/
def Link.keepsFormat
    [CaptureModule]
    (link : Link) :
    LinkInput → Bool
| .deviceHandles env =>
    match link.toDevice with
    | [] => true
    | data :: _ =>
        link.device.stopsOwn (parseCommand data) &&
          (Device.step link.device
            (.message env link.connection data)).2.all
              Event.heard
| _ => true

end PicoLogicAnalyzer

------------------------------------------------------------
-- What The Page Expects
------------------------------------------------------------

namespace PicoLogicAnalyzer

/- The mode of the page after a message. -/
def Payload.switch (mode : Bool) : Payload → Bool
| .text reply =>
    if endsAnalysis reply then false
    else if startsAnalysis reply then true
    else mode
| _ => mode

/- A message that a page in `mode` handles as it was built. -/
def Payload.Fits (mode : Bool) : Payload → Prop
| .raw _ _ _ _ => mode = false
| .frame _ _ _ _ => mode = true
| _ => True

/- The mode as a machine that reads messages. -/
def modeStep
    (mode : Bool)
    (payload : Payload) :
    Bool × List Unit :=
  (payload.switch mode, [])

/-
  Read from `mode` on, every message of the queue fits, and
  the last mode is `mode'`.
-/
structure QueueFits
    (mode : Bool)
    (queue : List Payload)
    (mode' : Bool) : Prop where
  fits :
    Machine.Guarded modeStep
      (fun mode payload => payload.Fits mode) mode queue
  last : (Machine.run modeStep mode queue).1 = mode'

theorem QueueFits.append
    {mode mode' mode'' : Bool}
    {queue queue' : List Payload}
    (h : QueueFits mode queue mode')
    (h' : QueueFits mode' queue' mode'') :
    QueueFits mode (queue ++ queue') mode'' where
  fits := by
    apply h.fits.append
    rw [h.last]
    exact h'.fits
  last := by
    rw [Machine.run_append, h.last]
    exact h'.last

theorem QueueFits.nil (mode : Bool) :
    QueueFits mode [] mode where
  fits := trivial
  last := rfl

theorem QueueFits.cons_iff
    {mode mode' : Bool}
    {payload : Payload}
    {queue : List Payload} :
    QueueFits mode (payload :: queue) mode' ↔
      payload.Fits mode ∧
        QueueFits (payload.switch mode) queue mode' := by
  constructor
  · intro h
    exact ⟨h.fits.1, h.fits.2, h.last⟩
  · rintro ⟨hHead, hTail⟩
    exact ⟨⟨hHead, hTail.fits⟩, hTail.last⟩

/- Messages that fit one mode and do not switch it. -/
theorem QueueFits.of_forall
    {mode : Bool}
    {queue : List Payload}
    (hQueue :
      ∀ payload ∈ queue,
        payload.Fits mode ∧ payload.switch mode = mode) :
    QueueFits mode queue mode := by
  induction queue with
  | nil => exact QueueFits.nil mode
  | cons payload queue ih =>
      rw [List.forall_mem_cons] at hQueue
      rw [QueueFits.cons_iff, hQueue.1.2]
      exact ⟨hQueue.1.1, ih hQueue.2⟩

namespace Page

variable {page : Page}

/- What decides how the next message is handled. -/
def handling (page : Page) : Bool × Nat × Nat :=
  (page.analysisMode, page.bytesPerSample, page.displayMask)

theorem handling_clearFull (page : Page) :
    page.clearFull.handling = page.handling := by
  unfold clearFull
  split <;> rfl

theorem handling_displayRaw
    (page : Page)
    (data : List UInt8)
    (width : Nat) :
    (page.displayRaw data width).1.handling =
      page.handling := by
  unfold displayRaw
  simp only
  split <;> rfl

theorem handling_handleAnalysis
    (page : Page)
    (data : List UInt8) :
    (page.handleAnalysis data).1.handling =
      page.handling := by
  unfold handleAnalysis
  split
  · rfl
  · simp only
    split
    · rfl
    · rename_i shown hShown
      simp only [showFrame, Option.bind_eq_bind,
        Option.bind_eq_some_iff] at hShown
      rcases hShown with ⟨payload, _, samples, _, hShown⟩
      cases hShown
      rfl

/- The page switches as the messages say. -/
theorem handling_onMessage
    (page : Page)
    (payload : Payload) :
    (page.onMessage payload.wire).1.handling =
      (payload.switch page.analysisMode,
        page.bytesPerSample, page.displayMask) := by
  have hBinary :
      ∀ data,
        (page.onMessage (.binary data)).1.handling =
          page.handling := by
    intro data
    rw [onMessage]
    split
    · rw [handling_handleAnalysis, handling_clearFull]
    · rw [handling_displayRaw, handling_clearFull]
  cases payload with
  | text reply =>
      have hClear := page.handling_clearFull
      simp only [handling, Prod.mk.injEq] at hClear
      rw [← hClear.1, ← hClear.2.1, ← hClear.2.2]
      simp only [Payload.wire, onMessage, onReply,
        Payload.switch]
      cases startsAnalysis reply <;>
        cases endsAnalysis reply <;> rfl
  | echo data => exact hBinary _
  | raw op width offset data => exact hBinary _
  | frame op header offset data => exact hBinary _

theorem analysisMode_onMessage
    (page : Page)
    (payload : Payload) :
    (page.onMessage payload.wire).1.analysisMode =
      payload.switch page.analysisMode :=
  congrArg Prod.fst (page.handling_onMessage payload)

theorem bytesPerSample_onMessage
    (page : Page)
    (payload : Payload) :
    (page.onMessage payload.wire).1.bytesPerSample =
      page.bytesPerSample :=
  congrArg (·.2.1) (page.handling_onMessage payload)

theorem displayMask_onMessage
    (page : Page)
    (payload : Payload) :
    (page.onMessage payload.wire).1.displayMask =
      page.displayMask :=
  congrArg (·.2.2) (page.handling_onMessage payload)

theorem analysisMode_configure
    (page : Page)
    (form : ConfigureForm) :
    (page.configure form).1.analysisMode =
      page.analysisMode := by
  unfold configure
  simp only
  split <;> rfl

/- A message that fits the mode is handled as it was built. -/
theorem inFormat_of_fits
    {payload : Payload}
    (hFits : payload.Fits page.analysisMode) :
    Handled.InFormat
      { page := page, payload := payload } := by
  cases payload with
  | text reply => trivial
  | echo data => trivial
  | raw op width offset data =>
      have hMode : page.analysisMode = false := hFits
      simp [Handled.InFormat, takesFrame, hMode]
  | frame op header offset data =>
      exact header.takesFrame data hFits

end Page

end PicoLogicAnalyzer

------------------------------------------------------------
-- What The Device Sends
------------------------------------------------------------

namespace PicoLogicAnalyzer

/- Values and echoes do not switch the page. -/
theorem Payload.IsValue.switch_eq
    {payload : Payload}
    (h : payload.IsValue)
    (mode : Bool) :
    payload.switch mode = mode := by
  have hOther :
      ∀ label ∈ ["FREQ ", "CHUNKS_SIZE ", "CHANNEL_MASK "],
        ∀ text ∈
            ["CAPTURE_CHAIN_ANALYSIS_STARTED",
              "STREAM_ANALYSIS_STARTED",
              "CAPTURE_CHAIN_ANALYSIS_STOPPED",
              "STREAM_ANALYSIS_STOPPED",
              "CAPTURE_CHAIN_STARTED", "STREAM_STARTED"],
          label.toList.isPrefixOf text.toList = false := by
    decide
  have hText :
      ∀ label ∈ ["FREQ ", "CHUNKS_SIZE ", "CHANNEL_MASK "],
        ∀ value,
          (Payload.text (label ++ value)).switch mode =
            mode := by
    intro label hLabel value
    have hNe :=
      fun text hMember =>
        append_ne_of_not_prefix
          (hOther label hLabel text hMember) value
    simp only [List.forall_mem_cons] at hNe
    simp [Payload.switch, startsAnalysis, endsAnalysis, hNe]
  cases h with
  | freq value => exact hText _ (by simp) value
  | chunksSize value => exact hText _ (by simp) value
  | channelMask value => exact hText _ (by simp) value
  | echo data => rfl

theorem Payload.IsValue.fits
    {payload : Payload}
    (h : payload.IsValue)
    (mode : Bool) :
    payload.Fits mode := by
  cases h <;> trivial

variable {d : Device} {a : Activity}

/- The answer switches the page to the new format. -/
theorem Activity.switch_answer
    (hShows : d.Shows a)
    {env : Env}
    {command : Command}
    (hOwn : d.stopsOwn command = true)
    {reply : String}
    (hAnswer : a.answer env command = some reply) :
    (Payload.text reply).switch a.sendsFrames =
      (a.handle env command).sendsFrames := by
  have hMode := hShows.streamMode
  have hEnabled := hShows.captureChainAnalysisEnabled
  by_cases hRefused : command.starts ≠ none ∧ a ≠ .idle
  · have hSame :=
      Activity.start_refused env hRefused.1 hRefused.2
    rw [hSame.2] at hAnswer
    cases hAnswer
    rw [hSame.1]
    rfl
  have hIdle : command.starts ≠ none → a = .idle := by
    intro hStarts
    by_contra hOpen
    exact hRefused ⟨hStarts, hOpen⟩
  cases command with
  | status =>
      cases hAnswer
      rfl
  | pinTest =>
      cases hAnswer
      cases env.gpio3 <;> rfl
  | singleCapture =>
      cases hIdle (Option.some_ne_none _)
      cases hAnswer
      cases hStarted : env.captureStarted <;>
        simp only [Activity.handle, hStarted] <;> rfl
  | captureChainStart =>
      cases hIdle (Option.some_ne_none _)
      cases hAnswer
      rfl
  | captureChainAnalysisStart =>
      cases hIdle (Option.some_ne_none _)
      cases hAnswer
      cases hStarted : env.chunkStarted <;>
        simp only [Activity.handle, hStarted] <;> rfl
  | streamStart =>
      cases hIdle (Option.some_ne_none _)
      cases hAnswer
      rfl
  | streamAnalysisStart =>
      cases hIdle (Option.some_ne_none _)
      cases hAnswer
      rfl
  | captureChainStop =>
      cases hAnswer
      cases a <;> rfl
  | captureChainAnalysisStop =>
      cases hAnswer
      rw [Device.stopsOwn, hMode] at hOwn
      cases a with
      | streaming analysis pending =>
          cases analysis with
          | true => cases hOwn
          | false => rfl
      | _ => rfl
  | streamStop =>
      cases hAnswer
      rw [Device.stopsOwn, hMode] at hOwn
      cases a with
      | streaming analysis pending =>
          cases analysis with
          | true => cases hOwn
          | false => rfl
      | _ => rfl
  | streamAnalysisStop =>
      cases hAnswer
      rw [Device.stopsOwn, hEnabled] at hOwn
      cases a with
      | chainAnalysis phase => cases hOwn
      | _ => rfl
  | _ => cases hAnswer

/- Set-ups are not delivered. -/
theorem filterMap_delivered_setUps
    (connection : Nat)
    (setUps : List SetUp) :
    (setUps.map Event.setUp).filterMap
        (Event.delivered connection) =
      [] := by
  induction setUps with
  | nil => rfl
  | cons record setUps ih => exact ih

/- Between commands the device stays in its format. -/
theorem Activity.Carries.fits
    {config : LaConfig}
    {connection : Nat}
    {event : Event}
    (h : a.Carries config event)
    {payload : Payload}
    (hDelivered :
      event.delivered connection = some payload) :
    payload.Fits a.sendsFrames ∧
      payload.switch a.sendsFrames = a.sendsFrames := by
  cases event with
  | sent dest payload' accepted =>
      have hSame := Event.eq_of_delivered hDelivered
      subst hSame
      cases payload' with
      | text reply =>
          have hQuiet :
              ∀ reply ∈ taskReplies,
                startsAnalysis reply = false ∧
                  endsAnalysis reply = false := by
            decide
          have hReply := hQuiet reply h
          refine ⟨trivial, ?_⟩
          simp [Payload.switch, hReply]
      | echo data => exact h.elim
      | raw op width offset data => exact ⟨h.2.1, rfl⟩
      | frame op header offset data => exact ⟨h.2, rfl⟩
  | _ => cases hDelivered

variable [CaptureModule]

/- A command leaves page and device in one format. -/
theorem handleCommand_queueFits
    (hShows : d.Shows a)
    {env : Env}
    {id : Nat}
    {data : List UInt8}
    (hOwn : d.stopsOwn (parseCommand data) = true)
    (hHeard :
      (Device.step d (.message env id data)).2.all
        Event.heard = true) :
    QueueFits a.sendsFrames
      ((Device.step d (.message env id data)).2.filterMap
        (Event.delivered id))
      (a.handle env (parseCommand data)).sendsFrames := by
  rcases handleCommand_answered hShows env id data
    (parseCommand data) with ⟨setUps, payload, hAnswered⟩
  have hEvents :
      (Device.step d (.message env id data)).2 =
        .received id data ::
          (setUps.map Event.setUp ++
            [.sent id payload env.replyAccepted]) :=
    congrArg _ hAnswered.events_eq
  have hPayload :
      payload.Fits a.sendsFrames ∧
        payload.switch a.sendsFrames =
          (a.handle env (parseCommand data)).sendsFrames := by
    cases hAnswer : a.answer env (parseCommand data) with
    | none =>
        have hValue := hAnswered.value hAnswer
        have hSame :
            a.handle env (parseCommand data) = a := by
          generalize parseCommand data = command at hAnswer
          cases command with
          | setFreq value => rfl
          | setChunkSize value => rfl
          | setChannelMask value => rfl
          | unknown => rfl
          | _ => cases hAnswer
        rw [hSame]
        exact ⟨hValue.fits _, hValue.switch_eq _⟩
    | some reply =>
        rw [hAnswered.text reply hAnswer]
        exact
          ⟨trivial, Activity.switch_answer hShows hOwn hAnswer⟩
  rw [hEvents] at hHeard ⊢
  rw [List.filterMap_cons_none rfl, List.filterMap_append,
    filterMap_delivered_setUps, List.nil_append]
  cases hAccepted : env.replyAccepted with
  | true =>
      simp only [List.filterMap_cons, Event.delivered,
        if_true, List.filterMap_nil]
      rw [QueueFits.cons_iff, hPayload.2]
      exact ⟨hPayload.1, QueueFits.nil _⟩
  | false =>
      -- A lost reply would not have switched the page.
      have hQuiet : payload.switch a.sendsFrames =
          a.sendsFrames := by
        cases payload with
        | text reply =>
            simp only [hAccepted, List.all_cons,
              List.all_append, Event.heard, List.all_nil,
              Bool.or_false, Bool.and_true,
              Bool.and_eq_true, Bool.not_eq_true',
              Bool.or_eq_false_iff] at hHeard
            simp [Payload.switch, hHeard.2.2.1,
              hHeard.2.2.2]
        | _ => rfl
      rw [← hPayload.2, hQuiet]
      exact QueueFits.nil _

end PicoLogicAnalyzer

------------------------------------------------------------
-- Agreement On The Format
------------------------------------------------------------

namespace PicoLogicAnalyzer

/-
  Every message under way fits the mode in which the page
  will handle it, and after the last one the page expects
  what the device sends next.
-/
structure Link.FormatAgrees (link : Link) : Prop where
  coherent : link.device.Coherent
  queue :
    ∃ a, link.device.Shows a ∧
      QueueFits link.page.analysisMode link.toPage
        a.sendsFrames

theorem Link.initial_formatAgrees
    (connection : Nat)
    (hw : CaptureHardware) :
    (Link.initial connection hw).FormatAgrees where
  coherent := Device.boot_coherent hw
  queue := ⟨.idle, Device.boot_shows hw, QueueFits.nil false⟩

variable [CaptureModule] {link : Link}

theorem Link.FormatAgrees.deviceHandles
    (h : link.FormatAgrees)
    {env : Env}
    (hKeeps : link.keepsFormat (.deviceHandles env) = true) :
    (link.step (.deviceHandles env)).1.FormatAgrees := by
  rcases h.queue with ⟨a, hShows, hQueue⟩
  cases hMessages : link.toDevice with
  | nil => simpa only [Link.step, hMessages] using h
  | cons data rest =>
      simp only [Link.keepsFormat, hMessages,
        Bool.and_eq_true] at hKeeps
      rw [Link.step_deviceHandles hMessages]
      exact
        ⟨Device.step_coherent hShows h.coherent _,
          a.handle env (parseCommand data),
          handleCommand_shows hShows env _ data _,
          hQueue.append
            (handleCommand_queueFits hShows hKeeps.1
              hKeeps.2)⟩

theorem Link.FormatAgrees.deviceRuns
    (h : link.FormatAgrees)
    (task : Task) :
    (link.step (.deviceRuns task)).1.FormatAgrees := by
  rcases h.queue with ⟨a, hShows, hQueue⟩
  rcases Device.step_format hShows h.coherent task.2 with
    ⟨a', hShows', hFormat⟩
  have hEvents :=
    Device.step_carries hShows h.coherent task.2
  refine ⟨?_, a', hShows', ?_⟩
  · exact Device.step_coherent hShows h.coherent task.1
  · rw [hFormat]
    apply hQueue.append
    apply QueueFits.of_forall
    intro payload hMember
    rcases List.mem_filterMap.mp hMember with
      ⟨event, hEvent, hDelivered⟩
    exact (hEvents event hEvent).fits hDelivered

theorem Link.FormatAgrees.pageHandles
    (h : link.FormatAgrees) :
    (link.step .pageHandles).1.FormatAgrees := by
  rcases h.queue with ⟨a, hShows, hQueue⟩
  unfold Link.step
  cases hMessages : link.toPage with
  | nil => exact h
  | cons payload rest =>
      rw [hMessages, QueueFits.cons_iff] at hQueue
      refine ⟨h.coherent, a, hShows, ?_⟩
      simp only [link.page.analysisMode_onMessage payload]
      exact hQueue.2

/- Every step that meets the condition keeps agreement. -/
theorem Link.FormatAgrees.step
    (h : link.FormatAgrees)
    {i : LinkInput}
    (hKeeps : link.keepsFormat i = true) :
    (link.step i).1.FormatAgrees := by
  cases i with
  | press button => exact ⟨h.coherent, h.queue⟩
  | configure form =>
      refine ⟨h.coherent, ?_⟩
      simpa [Link.step, Link.pageSends,
        Page.analysisMode_configure] using h.queue
  | deviceHandles env => exact h.deviceHandles hKeeps
  | deviceRuns task => exact h.deviceRuns task
  | pageHandles => exact h.pageHandles

/-
  Page and device agree on the format of every message, in
  any interleaving in which each command that is handled
  stops no other session behind the page's back.
-/
theorem formats_agree_of_own_stops
    (connection : Nat)
    (hw : CaptureHardware)
    (inputs : List LinkInput)
    (hKeeps :
      Machine.Guarded Link.step
        (fun link i => link.keepsFormat i = true)
        (Link.initial connection hw) inputs) :
    ∀ handled ∈
        (Machine.run Link.step (Link.initial connection hw)
          inputs).2,
      handled.InFormat := by
  refine Link.run_handled (P := Link.FormatAgrees) ?_ ?_
    (Link.initial_formatAgrees connection hw) hKeeps
  · intro link i h hStep
    exact h.step hStep
  · intro link payload rest h hMessages
    rcases h.queue with ⟨a, _, hQueue⟩
    rw [hMessages, QueueFits.cons_iff] at hQueue
    exact Page.inFormat_of_fits hQueue.1

end PicoLogicAnalyzer

------------------------------------------------------------
-- Concrete Runs
------------------------------------------------------------

namespace PicoLogicAnalyzer

section Sample

attribute [local instance] CaptureModule.sample

/- The button with a command text. -/
def LinkInput.button
    (text : String)
    (hText : text ∈ commandTable.map Prod.fst) :
    LinkInput :=
  .press ⟨text, hText⟩

/- The device handles a message in smooth surroundings. -/
def LinkInput.handles : LinkInput :=
  .deviceHandles Env.smooth

/- Five chunks are in the buffer; one is taken and sent. -/
def LinkInput.sendsChunk : List LinkInput :=
  [.deviceRuns ⟨.streamTake Env.fiveChunks,
      by rintro env id data ⟨⟩⟩,
    .deviceRuns ⟨.streamSend Env.fiveChunks,
      by rintro env id data ⟨⟩⟩]

/- A chunk of an analysis stream, then one of a raw one. -/
theorem stream_formats_agree :
    let inputs :=
      [LinkInput.button "STREAM_ANALYSIS_START" (by decide),
          .handles] ++ LinkInput.sendsChunk ++
        [.button "STREAM_ANALYSIS_STOP" (by decide),
          .button "STREAM_START" (by decide),
          .handles, .handles] ++ LinkInput.sendsChunk ++
        List.replicate 5 .pageHandles
    let handled :=
      (Machine.run Link.step
        (Link.initial 1 CaptureHardware.blank) inputs).2
    (∀ message ∈ handled, message.InFormat) ∧
      handled.map (fun message => message.payload.captureOf) =
        [none, some .stream, none, none, some .stream] := by
  refine ⟨?_, by decide +kernel⟩
  apply formats_agree_of_own_stops
  decide +kernel

/-
  `CAPTURE_CHAIN_ANALYSIS_STOP` does not end an analysis
  stream, but its reply makes the page display the next
  frame as raw data.
-/
theorem foreign_stop_misleads_page :
    let inputs :=
      [LinkInput.button "STREAM_ANALYSIS_START" (by decide),
          .button "CAPTURE_CHAIN_ANALYSIS_STOP" (by decide),
          .handles, .handles] ++ LinkInput.sendsChunk ++
        List.replicate 3 .pageHandles
    ¬ ∀ message ∈
        (Machine.run Link.step
          (Link.initial 1 CaptureHardware.blank) inputs).2,
      message.InFormat := by
  decide +kernel

end Sample

end PicoLogicAnalyzer
