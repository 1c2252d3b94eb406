import PicoLogicAnalyzer.Firmware.StreamSession
import PicoLogicAnalyzer.Lib.Ring

/-
  The stream together with the DMA that feeds it.

  Two ping-pong channels store the input bytes, numbered from
  the start of the session, round and round the buffer; each
  pass covers the whole buffer and raises one interrupt that
  is serviced some time later. All of this goes on between
  any two register reads of the main loop.

  Key definitions include:
    * `DmaAction` and `StreamSystem.act`
    * `StreamSystem.sample`
    * `StreamInput` and `StreamSystem.step`

  Key theorems include:
    * `StreamSystem.produced_le_transferred`
-/

------------------------------------------------------------
-- The Ping-Pong Channels
------------------------------------------------------------

namespace PicoLogicAnalyzer

/- What the hardware does on its own. -/
inductive DmaAction where
  | write
  | handOver
  | interrupt
deriving DecidableEq, Repr

/-
  The device, the bytes stored since the start, the pass
  interrupts serviced, and whether a channel is running;
  between two passes none is.
-/
structure StreamSystem where
  device : Device
  written : Nat
  serviced : Nat
  active : Bool

namespace StreamSystem

/- The state right after `la_stream_start`. -/
def start (d : Device) : StreamSystem where
  device := d
  written := 0
  serviced := 0
  active := true

/- Passes that are complete. -/
def passes (s : StreamSystem) : Nat :=
  s.written / captureBufferSize

/- Input byte `a` goes to cell `a` modulo the buffer size. -/
def act
    (input : Nat → UInt8)
    (s : StreamSystem) :
    DmaAction → StreamSystem
| .write =>
    if s.active then
      { s with
        device :=
          dmaWrite (s.written % captureBufferSize)
            (input s.written) s.device
        written := s.written + 1
        active := (s.written + 1) % captureBufferSize != 0 }
    else
      s
| .handOver => { s with active := true }
| .interrupt =>
    if s.serviced < s.passes then
      { s with
        device := dmaInterrupt s.device
        serviced := s.serviced + 1 }
    else
      s

def acts
    (input : Nat → UInt8)
    (s : StreamSystem)
    (actions : List DmaAction) :
    StreamSystem :=
  actions.foldl (act input) s

/- `dma_channel_is_busy`; the channels take turns. -/
def busy (channel : Nat) (s : StreamSystem) : Bool :=
  s.active && s.passes % 2 == channel

/- The transfer count register, zero after the last transfer. -/
def transferCount
    (width channel : Nat)
    (s : StreamSystem) :
    Nat :=
  if s.busy channel then
    captureBufferSize / width -
      s.written % captureBufferSize / width
  else
    0

/- Bytes of the complete transfers; one carries one sample. -/
def transferred (width : Nat) (s : StreamSystem) : Nat :=
  s.written / width * width

end StreamSystem

/- The device with other buffer contents. -/
def Device.withBuffer
    (d : Device)
    (memory : Nat → UInt8) :
    Device :=
  { d with bridge.hw.captureBuffer := memory }

/- While the stream runs the DMA writes to the ring. -/
theorem dmaWrite_of_running
    {d : Device}
    (hRunning : d.bridge.laStreamRunning = true)
    (position : Nat)
    (byte : UInt8) :
    dmaWrite (position % captureBufferSize) byte d =
      d.withBuffer
        (Ring.write captureBufferSize
          d.bridge.hw.captureBuffer position byte) := by
  unfold dmaWrite
  rw [if_pos hRunning]
  rfl

/- And its interrupt counts passes. -/
theorem dmaInterrupt_of_running
    {d : Device}
    (hRunning : d.bridge.laStreamRunning = true) :
    dmaInterrupt d =
      { d with bridge := laStreamDmaHandler d.bridge } := by
  unfold dmaInterrupt
  rw [if_pos hRunning]

/- Hardware activity between the register reads of one call. -/
structure ReadTiming where
  beforeBusy0 : List DmaAction
  beforeCount0 : List DmaAction
  beforeBusy1 : List DmaAction
  beforeCount1 : List DmaAction

/- No hardware activity between the reads. -/
def ReadTiming.immediate : ReadTiming where
  beforeBusy0 := []
  beforeCount0 := []
  beforeBusy1 := []
  beforeCount1 := []

/-
  The reads of one call of `la_stream_produced_bytes` in the
  order of the source. Registers it does not need are read
  too and ignored.
-/
def StreamSystem.sample
    (input : Nat → UInt8)
    (timing : ReadTiming)
    (s : StreamSystem) :
    StreamSystem × DmaReads :=
  let width := laBytesPerSampleMode s.device.bridge.hw.dmaMode
  let s1 := s.acts input timing.beforeBusy0
  let s2 := s1.acts input timing.beforeCount0
  let s3 := s2.acts input timing.beforeBusy1
  let s4 := s3.acts input timing.beforeCount1
  (s4,
    { passes := s.device.bridge.laStreamCompletedPasses
      busy0 := s1.busy 0
      count0 := s2.transferCount width 0
      busy1 := s3.busy 1
      count1 := s4.transferCount width 1 })

end PicoLogicAnalyzer

------------------------------------------------------------
-- Progress Of The Channels
------------------------------------------------------------

namespace PicoLogicAnalyzer

namespace StreamSystem

variable {input : Nat → UInt8} {s s' s'' : StreamSystem}

/-
  Time has passed: bytes are only added, and a running
  channel is still in its pass or the pass is complete.
-/
structure Later (s s' : StreamSystem) : Prop where
  written_le : s.written ≤ s'.written
  pass :
    s.active = true →
      (s'.active = true ∧ s'.passes = s.passes) ∨
        s.passes < s'.passes

theorem Later.refl (s : StreamSystem) : s.Later s where
  written_le := Nat.le_refl _
  pass := fun hActive => Or.inl ⟨hActive, rfl⟩

theorem Later.passes_le (h : s.Later s') :
    s.passes ≤ s'.passes :=
  Nat.div_le_div_right h.written_le

theorem Later.transferred_le
    (h : s.Later s')
    (width : Nat) :
    s.transferred width ≤ s'.transferred width :=
  Nat.mul_le_mul_right _
    (Nat.div_le_div_right h.written_le)

theorem Later.trans
    (hFirst : s.Later s')
    (hSecond : s'.Later s'') :
    s.Later s'' where
  written_le := hFirst.written_le.trans hSecond.written_le
  pass := by
    intro hActive
    rcases hFirst.pass hActive with ⟨hStill, hSame⟩ | hDone
    · rcases hSecond.pass hStill with ⟨hStill', hSame'⟩ | hDone
      · exact Or.inl ⟨hStill', hSame'.trans hSame⟩
      · right
        rw [← hSame]
        exact hDone
    · right
      exact hDone.trans_le hSecond.passes_le

theorem later_act
    (input : Nat → UInt8)
    (s : StreamSystem)
    (action : DmaAction) :
    s.Later (s.act input action) := by
  cases action with
  | write =>
      simp only [act]
      split
      · constructor
        · exact Nat.le_succ _
        · intro _
          simp only [passes, bne_iff_ne, ne_eq,
            captureBufferSize]
          omega
      · exact Later.refl s
  | handOver =>
      exact ⟨Nat.le_refl _, fun _ => Or.inl ⟨rfl, rfl⟩⟩
  | interrupt =>
      simp only [act]
      split
      · exact
          ⟨Nat.le_refl _, fun hActive => Or.inl ⟨hActive, rfl⟩⟩
      · exact Later.refl s

/- Invariant rule for hardware activity. -/
theorem acts_invariant
    {P : StreamSystem → Prop}
    (hAct : ∀ s action, P s → P (s.act input action))
    (h : P s)
    (actions : List DmaAction) :
    P (s.acts input actions) := by
  induction actions generalizing s with
  | nil => exact h
  | cons action actions ih => exact ih (hAct s action h)

theorem later_acts
    (input : Nat → UInt8)
    (s : StreamSystem)
    (actions : List DmaAction) :
    s.Later (s.acts input actions) := by
  apply acts_invariant (P := fun s' => s.Later s')
  · intro s' action h
    exact h.trans (later_act input s' action)
  · exact Later.refl s

end StreamSystem

end PicoLogicAnalyzer

------------------------------------------------------------
-- The Byte Count Is Never Ahead
------------------------------------------------------------

namespace PicoLogicAnalyzer

open Word

namespace StreamSystem

variable {input : Nat → UInt8} {s s' : StreamSystem}

theorem transferred_le
    (width : Nat)
    (s : StreamSystem) :
    s.transferred width ≤ s.written :=
  Nat.div_mul_le_self _ _

/- Whole samples that are stored are transferred. -/
theorem le_transferred
    {width bytes : Nat}
    (hWhole : width ∣ bytes)
    (hStored : bytes ≤ s.written) :
    bytes ≤ s.transferred width := by
  rw [← Nat.div_mul_cancel hWhole]
  exact
    Nat.mul_le_mul_right _ (Nat.div_le_div_right hStored)

/-
  A count read from a channel that was busy: the transfers of
  its pass, or a whole pass if it has finished since.
-/
theorem producedFrom_le
    {width channel count : Nat}
    (hWidth : width ∣ captureBufferSize)
    (hBusy : s.busy channel = true)
    (hLater : s.Later s')
    (hCount : count ≤ s.passes) :
    producedFrom width count
        (u32 (s'.transferCount width channel)) ≤
      s'.transferred width := by
  have hSize : captureBufferSize / width ≤ 131072 :=
    Nat.div_le_self _ _
  have hTransfers :
      s'.transferCount width channel ≤
        captureBufferSize / width := by
    unfold transferCount
    split
    · exact Nat.sub_le _ _
    · exact Nat.zero_le _
  have hRemaining :
      u32 (s'.transferCount width channel) =
        s'.transferCount width channel :=
    u32_of_lt (by omega)
  have hDone :
      (captureBufferSize / width -
          s'.transferCount width channel) * width +
        count * captureBufferSize ≤
          s'.transferred width := by
    apply le_transferred
    · exact
        Nat.dvd_add (Nat.dvd_mul_left _ _)
          (hWidth.mul_left count)
    have hSplit :=
      Nat.div_add_mod s'.written captureBufferSize
    by_cases hStill : s'.busy channel = true
    · -- Still in its pass.
      have hInside :
          s'.written % captureBufferSize / width ≤
            captureBufferSize / width :=
        Nat.div_le_div_right
          (Nat.mod_lt _ (by decide)).le
      have hBytes :=
        Nat.div_mul_le_self
          (s'.written % captureBufferSize) width
      have hPasses :
          count * captureBufferSize ≤
            captureBufferSize *
              (s'.written / captureBufferSize) := by
        rw [Nat.mul_comm]
        exact
          Nat.mul_le_mul_left _
            (hCount.trans hLater.passes_le)
      rw [transferCount, if_pos hStill,
        Nat.sub_sub_self hInside]
      omega
    · -- The pass is complete.
      simp only [busy, Bool.and_eq_true, beq_iff_eq]
        at hBusy hStill
      have hNext : s.passes < s'.passes := by
        rcases hLater.pass hBusy.1 with ⟨hActive, hSame⟩ | hPass
        · rw [hSame] at hStill
          exact absurd ⟨hActive, hBusy.2⟩ hStill
        · exact hPass
      have hBytes :=
        Nat.div_mul_le_self captureBufferSize width
      have hPasses :
          captureBufferSize * (count + 1) ≤
            captureBufferSize *
              (s'.written / captureBufferSize) :=
        Nat.mul_le_mul_left _
          (Nat.succ_le_of_lt (hCount.trans_lt hNext))
      have hZero : s'.transferCount width channel = 0 := by
        rw [transferCount, if_neg]
        simpa [busy] using hStill
      rw [hZero, Nat.sub_zero]
      rw [Nat.mul_succ, Nat.mul_comm captureBufferSize count]
        at hPasses
      omega
  simp only [producedFrom]
  rw [hRemaining, sub32_of_le hTransfers (by omega)]
  calc
    u64 (u32 count * captureBufferSize +
        (captureBufferSize / width -
          s'.transferCount width channel) * width)
      ≤ u32 count * captureBufferSize +
          (captureBufferSize / width -
            s'.transferCount width channel) * width :=
        u64_le _
    _ ≤ count * captureBufferSize +
          (captureBufferSize / width -
            s'.transferCount width channel) * width :=
        Nat.add_le_add_right
          (Nat.mul_le_mul_right _ (u32_le count)) _
    _ ≤ s'.transferred width := by
        rw [Nat.add_comm]
        exact hDone

/- Whichever channel is found busy, the count is safe. -/
theorem reads_le
    {s1 s2 s3 s4 : StreamSystem}
    {width count remaining : Nat}
    (hWidth : width ∣ captureBufferSize)
    (hFirst : s.Later s1)
    (hSecond : s1.Later s2)
    (hThird : s2.Later s3)
    (hFourth : s3.Later s4)
    (hCount : count ≤ s.passes)
    (hRemaining :
      DmaReads.remaining
          { passes := count
            busy0 := s1.busy 0
            count0 := s2.transferCount width 0
            busy1 := s3.busy 1
            count1 := s4.transferCount width 1 } =
        some remaining) :
    producedFrom width count remaining ≤
      s4.transferred width := by
  have hCount1 := hCount.trans hFirst.passes_le
  have hCount3 :=
    hCount1.trans (hSecond.trans hThird).passes_le
  simp only [DmaReads.remaining] at hRemaining
  split at hRemaining
  · rename_i hBusy
    cases hRemaining
    exact
      (producedFrom_le hWidth hBusy hSecond hCount1).trans
        ((hThird.trans hFourth).transferred_le width)
  · split at hRemaining
    · rename_i hBusy
      cases hRemaining
      exact producedFrom_le hWidth hBusy hFourth hCount3
    · cases hRemaining

/- The moments at which the registers are read. -/
theorem sample_spec
    (input : Nat → UInt8)
    (timing : ReadTiming)
    (s : StreamSystem) :
    ∃ s1 s2 s3,
      s.Later s1 ∧ s1.Later s2 ∧ s2.Later s3 ∧
        s3.Later (s.sample input timing).1 ∧
        (s.sample input timing).2 =
          { passes := s.device.bridge.laStreamCompletedPasses
            busy0 := s1.busy 0
            count0 :=
              s2.transferCount
                (laBytesPerSampleMode
                  s.device.bridge.hw.dmaMode) 0
            busy1 := s3.busy 1
            count1 :=
              (s.sample input timing).1.transferCount
                (laBytesPerSampleMode
                  s.device.bridge.hw.dmaMode) 1 } := by
  refine
    ⟨_, _, _, later_acts input s timing.beforeBusy0,
      later_acts input _ timing.beforeCount0,
      later_acts input _ timing.beforeBusy1,
      later_acts input _ timing.beforeCount1, rfl⟩

/- One call never reports bytes that are not yet stored. -/
theorem produced_le_transferred
    {b : Bridge}
    (hWidth :
      laBytesPerSampleMode s.device.bridge.hw.dmaMode =
        b.laConfig.bytesPerSample)
    (hBuffer :
      b.laConfig.bytesPerSample ∣ captureBufferSize)
    (hCount :
      s.device.bridge.laStreamCompletedPasses ≤ s.passes)
    (input : Nat → UInt8)
    (timing : ReadTiming)
    (hLast :
      b.laStreamLastProducedBytes ≤
        (s.sample input timing).1.transferred
          b.laConfig.bytesPerSample) :
    (laStreamProducedBytes (s.sample input timing).2 b).2 ≤
      (s.sample input timing).1.transferred
        b.laConfig.bytesPerSample := by
  rcases sample_spec input timing s with
    ⟨s1, s2, s3, h1, h2, h3, h4, hReads⟩
  generalize (s.sample input timing).1 = s4 at *
  rw [hReads]
  rw [← hWidth] at hBuffer
  unfold laStreamProducedBytes
  split
  · exact hLast
  · rename_i remaining hRemaining
    simp only
    split
    · exact hLast
    · have hBound :=
        reads_le hBuffer h1 h2 h3 h4 hCount hRemaining
      rw [hWidth] at hBound
      exact hBound

end StreamSystem

end PicoLogicAnalyzer

------------------------------------------------------------
-- Steps Of The System
------------------------------------------------------------

namespace PicoLogicAnalyzer

/- Hardware activity, the halves of the task, other inputs. -/
inductive StreamInput where
  | dma (action : DmaAction)
  | take (env : Env) (timing : ReadTiming)
  | send (env : Env)
  | other (i : Input)

/- A stream block that `sendMessage` accepted. -/
structure Delivery where
  block : AnalysisBlock
  width : Nat
  data : List UInt8

/- The block in hand was accepted with these bytes. -/
def Event.delivery (d : Device) : Event → Option Delivery
| .sent _ (.frame .stream _ _ data) true =>
    some
      { block := d.pendingAnalysisBlock
        width := d.bridge.laConfig.bytesPerSample
        data := data }
| .sent _ (.raw .stream _ _ data) true =>
    some
      { block := d.pendingAnalysisBlock
        width := d.bridge.laConfig.bytesPerSample
        data := data }
| _ => none

def StreamSystem.step
    [CaptureModule]
    (input : Nat → UInt8)
    (s : StreamSystem) :
    StreamInput → StreamSystem × List Delivery
| .dma action => (s.act input action, [])
| .take env timing =>
    let sampled := s.sample input timing
    let result :=
      streamTasksTake { env with reads := sampled.2 }
        sampled.1.device
    ({ sampled.1 with device := result.1 }, [])
| .send env =>
    let result := streamTasksSend env s.device
    ({ s with device := result.1 },
      result.2.filterMap (Event.delivery s.device))
| .other i =>
    ({ s with device := (Device.step s.device i).1 }, [])

/- The bytes a delivered block claims to carry. -/
def Delivery.Faithful
    (input : Nat → UInt8)
    (delivery : Delivery) : Prop :=
  delivery.data =
    (List.range delivery.block.bytes).map
      (fun j =>
        input
          (delivery.block.firstSample * delivery.width + j))

/- Inputs that belong neither to the stream nor to its DMA. -/
def Input.IsElsewhere : Input → Prop
| .message _ _ data => (parseCommand data).stops ≠ some .stream
| .streamTake _ => False
| .streamSend _ => False
| .dmaWrite _ _ => False
| .dmaInterrupt => False
| _ => True

/- They leave a stream alone. -/
theorem Device.step_elsewhere
    [CaptureModule]
    {d : Device}
    {analysis pending : Bool}
    (h : d.Shows (.streaming analysis pending))
    {i : Input}
    (hInput : i.IsElsewhere) :
    ∃ pull, (Device.step d i).1 = d.withPull pull := by
  have hSame : ∃ pull, d = d.withPull pull :=
    ⟨d.bridge.hw.triggerPull, rfl⟩
  cases i with
  | message env id data =>
      exact handleCommand_withPull h rfl hInput env id data
  | connect env id => exact hSame
  | disconnect id => exact hSame
  | singleCaptureTasks env =>
      simp only [Device.step,
        singleCaptureTasks_of_not_pending env
          h.singleCapturePending]
      exact hSame
  | captureChainTasks env =>
      simp only [Device.step,
        captureChainTasks_of_streaming env h]
      exact hSame
  | captureWrite memory =>
      have hCapturing : d.bridge.hw.capturing = false :=
        h.not_capturing rfl
      simp only [Device.step, captureWrite, hCapturing,
        Bool.false_eq_true, if_false]
      exact hSame
  | captureDone tail =>
      simp only [Device.step, captureDone_of_streaming tail h]
      exact hSame
  | _ => exact hInput.elim

end PicoLogicAnalyzer
