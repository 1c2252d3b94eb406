import PicoLogicAnalyzer.Bridge.Settings
import PicoLogicAnalyzer.Firmware.Blocks
import PicoLogicAnalyzer.Firmware.StreamSession

/-
  Blocks and the TCP send buffer.

  A block stays pending until `sendMessage` accepts it. The
  server hands a message to lwIP as one write, which lwIP
  refuses when it exceeds the free part of the send buffer.
  Chunks of up to 4 KiB fit an empty buffer with their
  headers; the largest accepted size, 8 KiB, never does.

  Key definitions include:
    * `tcpSndBuf` and `tcpWrite`
    * `Event.ServedBy`
    * `Device.Sendable`
    * `Device.StuckSession`
    * `Device.NeverSends`

  Key theorems include:
    * `LaConfig.WellFormed.tcpWrite_iff`
    * `Device.StuckSession.step`
    * `Device.StuckSession.run`
    * `blocks_sendable_iff`
-/

------------------------------------------------------------
-- Writes Into The Buffer
------------------------------------------------------------

namespace PicoLogicAnalyzer

/- The sizes of `lwipopts.h`. -/
def tcpMss : Nat :=
  1500 - 20 - 20

def tcpSndBuf : Nat :=
  4 * tcpMss

/- Bytes of the WebSocket header of an unmasked message. -/
def wsHeaderBytes (length : Nat) : Nat :=
  if length ≤ 125 then 2
  else if length < 2 ^ 16 then 4
  else 10

/- One write of header and message: all of it or nothing. -/
def tcpWrite (free length : Nat) : Bool :=
  wsHeaderBytes length + length ≤ free

def Payload.size : Payload → Nat
| .text reply => reply.utf8ByteSize
| .echo data => data.length
| .raw _ _ _ data => data.length
| .frame _ header _ data =>
    header.encode.length + data.length

/- The message fits `free` bytes of the send buffer. -/
def Event.Fits (free : Nat) : Event → Prop
| .sent _ payload _ => tcpWrite free payload.size = true
| _ => True

/- `sendMessage` has found `free` bytes in the buffer. -/
def Event.ServedBy (free : Nat) : Event → Prop
| .sent _ payload accepted =>
    accepted = tcpWrite free payload.size
| _ => True

theorem tcpWrite_mono
    {free free' length : Nat}
    (hFree : free ≤ free')
    (hWritten : tcpWrite free length = true) :
    tcpWrite free' length = true := by
  unfold tcpWrite at hWritten ⊢
  rw [decide_eq_true_eq] at hWritten ⊢
  exact hWritten.trans hFree

/- The longest message an empty buffer takes. -/
theorem tcpWrite_tcpSndBuf_iff (length : Nat) :
    tcpWrite tcpSndBuf length = true ↔ length ≤ 5836 := by
  unfold tcpWrite wsHeaderBytes tcpSndBuf tcpMss
  rw [decide_eq_true_eq]
  split
  · omega
  · split <;> omega

/-
  Chunks are powers of two: with at most 40 further bytes
  they fit an empty buffer up to 4096.
-/
theorem LaConfig.WellFormed.tcpWrite_iff
    {config : LaConfig}
    (hConfig : config.WellFormed)
    {header : Nat}
    (hHeader : header ≤ 40) :
    tcpWrite tcpSndBuf (header + config.chunkBytes) = true ↔
      config.chunkBytes ≤ 4096 := by
  have hAccepted :
      acceptsChunkBytes config.chunkBytes = true := by
    rw [acceptsChunkBytes_iff]
    exact
      ⟨hConfig.chunk_pos, hConfig.chunk_le,
        hConfig.chunk_dvd, hConfig.four_dvd⟩
  rcases (acceptsChunkBytes_iff_pow _).mp hAccepted with
    ⟨k, _, hHigh, hChunk⟩
  rw [tcpWrite_tcpSndBuf_iff, hChunk]
  interval_cases k <;> omega

end PicoLogicAnalyzer

------------------------------------------------------------
-- Messages That Offer A Block
------------------------------------------------------------

namespace PicoLogicAnalyzer

/- A message with the bytes of `block` and its result. -/
def Event.Offers
    (block : AnalysisBlock)
    (result : Bool) :
    Event → Prop
| .sent _ payload accepted =>
    accepted = result ∧
      ∃ header ≤ 40, payload.size = header + block.bytes
| _ => False

variable {d : Device} {block : AnalysisBlock}
variable {config : LaConfig} {event : Event}
variable {result : Bool}

theorem Event.Offers.fits_iff
    (h : event.Offers block result)
    (hBlock : block.IsChunk config)
    (hConfig : config.WellFormed) :
    event.Fits tcpSndBuf ↔ config.chunkBytes ≤ 4096 := by
  cases event with
  | sent dest payload accepted =>
      rcases h with ⟨_, header, hHeader, hSize⟩
      rw [Event.Fits, hSize, hBlock.bytes]
      exact hConfig.tcpWrite_iff hHeader
  | _ => exact h.elim

/- The result is that of the write. -/
theorem Event.Offers.served
    {free : Nat}
    (h : event.Offers block result)
    (hServed : event.ServedBy free) :
    result = true ↔ event.Fits free := by
  cases event with
  | sent dest payload accepted =>
      have hWrite : accepted = tcpWrite free payload.size :=
        hServed
      rw [← h.1, hWrite]
      exact Iff.rfl
  | _ => exact h.elim

theorem Event.Fits.mono
    {free free' : Nat}
    (h : event.Fits free)
    (hFree : free ≤ free') :
    event.Fits free' := by
  cases event with
  | sent dest payload accepted => exact tcpWrite_mono hFree h
  | _ => trivial

/- A small block is accepted by an empty buffer. -/
theorem Event.Offers.accepted
    (h : event.Offers block result)
    (hBlock : block.IsChunk config)
    (hConfig : config.WellFormed)
    (hChunk : config.chunkBytes ≤ 4096)
    (hServed : event.ServedBy tcpSndBuf) :
    result = true := by
  rw [h.served hServed]
  exact (h.fits_iff hBlock hConfig).mpr hChunk

/- A large one is refused by every buffer. -/
theorem Event.Offers.refused
    {free : Nat}
    (h : event.Offers block result)
    (hBlock : block.IsChunk config)
    (hConfig : config.WellFormed)
    (hChunk : 4096 < config.chunkBytes)
    (hFree : free ≤ tcpSndBuf)
    (hServed : event.ServedBy free) :
    result = false := by
  rw [← Bool.not_eq_true, h.served hServed]
  intro hFits
  have hEmpty := hFits.mono hFree
  rw [h.fits_iff hBlock hConfig] at hEmpty
  exact Nat.not_lt.mpr hEmpty hChunk

theorem sendAnalysisBlock_offers
    (hSmall : block.bytes ≤ laMaxChunkBytes)
    (env : Env)
    (op : Operation) :
    ∃ event,
      sendAnalysisBlock env op d block =
          (env.blockAccepted, [event]) ∧
        event.Offers block env.blockAccepted := by
  refine
    ⟨_, sendAnalysisBlock_spec hSmall env op, rfl, 40, le_rfl,
      ?_⟩
  rw [Payload.size, StreamHeader.length_encode,
    CaptureHardware.length_read]

theorem sendStreamBlock_offers
    (hSmall : block.bytes ≤ laMaxChunkBytes)
    (env : Env) :
    ∃ event,
      sendStreamBlock env d block =
          (env.blockAccepted, [event]) ∧
        event.Offers block env.blockAccepted := by
  unfold sendStreamBlock
  split
  · exact sendAnalysisBlock_offers hSmall env .stream
  · refine ⟨_, rfl, rfl, 0, Nat.zero_le 40, ?_⟩
    rw [Payload.size, CaptureHardware.length_read,
      Nat.zero_add]

end PicoLogicAnalyzer

------------------------------------------------------------
-- Sends Of The Tasks
------------------------------------------------------------

namespace PicoLogicAnalyzer

variable {d : Device}

theorem streamTasksSend_offers
    (h : d.Coherent)
    (hPending : d.streamBlockPending = true)
    (env : Env) :
    ∃ event,
      (streamTasksSend env d).2 = [event] ∧
        event.Offers d.pendingAnalysisBlock
          env.blockAccepted := by
  have hSmall := h.pending_le (Or.inr hPending)
  rcases sendStreamBlock_offers (d := d) hSmall env with
    ⟨event, hSend, hOffers⟩
  rw [sendStreamBlock_spec hSmall env] at hSend
  rw [streamTasksSend_spec hPending hSmall env]
  exact ⟨event, congrArg Prod.snd hSend, hOffers⟩

/- The message of a pending stream block. -/
theorem Device.Coherent.streamPayload_fits_iff
    (h : d.Coherent)
    (hPending : d.streamBlockPending = true) :
    tcpWrite tcpSndBuf d.streamPayload.size = true ↔
      d.bridge.laConfig.chunkBytes ≤ 4096 := by
  rcases streamTasksSend_offers h hPending Env.smooth with
    ⟨event, hSent, hOffers⟩
  rw [streamTasksSend_spec hPending
    (h.pending_le (Or.inr hPending))] at hSent
  cases hSent
  exact
    hOffers.fits_iff (h.pending (Or.inr hPending)) h.config

/- The pending block of chained analysis is sent likewise. -/
theorem captureChainSendBlock_offers
    (h : d.Coherent)
    (hPending : d.blockPending = true)
    (env : Env) :
    ∃ event,
      event ∈ (captureChainSendBlock env d).2 ∧
        event.Offers d.pendingAnalysisBlock
          env.blockAccepted ∧
        (captureChainSendBlock env d).1.blockPending =
          !env.blockAccepted ∧
        (env.blockAccepted = false →
          (captureChainSendBlock env d).1 = d) := by
  have hSmall := h.pending_le (Or.inl hPending)
  rcases sendAnalysisBlock_offers (d := d) hSmall env
    .captureChainAnalysis with ⟨event, hSend, hOffers⟩
  rw [sendAnalysisBlock_spec hSmall] at hSend
  cases hSend
  rw [captureChainSendBlock_spec hPending hSmall env]
  refine ⟨_, ?_, hOffers, ?_⟩
  · cases env.blockAccepted <;> simp
  · cases env.blockAccepted <;> simp [hPending]

end PicoLogicAnalyzer

------------------------------------------------------------
-- Retries With An Empty Buffer
------------------------------------------------------------

namespace PicoLogicAnalyzer

/-
  The messages built for a block under the configuration in
  force fit an empty send buffer, for a stream in the given
  mode and for chained analysis, and no task that finds the
  buffer empty leaves a block pending.
-/
structure Device.Sendable
    (d : Device)
    (mode : StreamMode) : Prop where
  message :
    ∀ env block,
      block.IsChunk d.bridge.laConfig →
        ∀ event ∈
            (sendStreamBlock env
              { d with streamMode := mode } block).2,
          event.Fits tcpSndBuf
  frame :
    ∀ env block,
      block.IsChunk d.bridge.laConfig →
        ∀ event ∈
            (sendAnalysisBlock env .captureChainAnalysis d
              block).2,
          event.Fits tcpSndBuf
  stream :
    ∀ env,
      (∀ event ∈ (streamTasks env d).2,
        event.ServedBy tcpSndBuf) →
        (streamTasks env d).1.streamBlockPending = false
  chain :
    ∀ env,
      (∀ event ∈ (captureChainTasks env d).2,
        event.ServedBy tcpSndBuf) →
        (captureChainTasks env d).1.blockPending = false

variable {d : Device} {a : Activity}

theorem streamTasks_clears
    (h : d.Coherent)
    (hChunk : d.bridge.laConfig.chunkBytes ≤ 4096)
    {env : Env}
    (hServed :
      ∀ event ∈ (streamTasks env d).2,
        event.ServedBy tcpSndBuf) :
    (streamTasks env d).1.streamBlockPending = false := by
  have hTaken := streamTasksTake_coherent h env
  have hConfig := streamTasksTake_laConfig env d
  simp only [streamTasks] at hServed ⊢
  cases hPending :
      (streamTasksTake env d).1.streamBlockPending with
  | false =>
      rw [streamTasksSend_of_not_pending env hPending]
      exact hPending
  | true =>
      rcases streamTasksSend_offers hTaken hPending env with
        ⟨event, hSent, hOffers⟩
      have hAccepted : env.blockAccepted = true := by
        apply
          hOffers.accepted (hTaken.pending (Or.inr hPending))
            hTaken.config
        · rw [hConfig]
          exact hChunk
        · apply hServed
          rw [hSent]
          simp
      rw [streamTasksSend_spec hPending
        (hTaken.pending_le (Or.inr hPending)), hAccepted]
      rfl

/- Outside chained analysis no block is taken. -/
theorem captureChainTasks_blockPending
    (hPending : d.blockPending = false)
    (hEnabled : d.captureChainAnalysisEnabled = false)
    (env : Env) :
    (captureChainTasks env d).1.blockPending = false := by
  suffices hTask :
      (captureChainTasks env d).1.blockPending = false ∧
        (captureChainTasks env
          d).1.captureChainAnalysisEnabled = false from
    hTask.1
  refine captureChainTasks_invariant
    (P := fun d => d.blockPending = false ∧
      d.captureChainAnalysisEnabled = false)
    ?_ ?_ ?_ ?_ ⟨hPending, hEnabled⟩
  · intro d' h'
    unfold captureChainDeliver
    split
    · dsimp only
      split <;> exact h'
    · exact h'
  · intro d' h'
    unfold captureChainRestart
    split <;> exact h'
  · rintro d' ⟨hPending', hEnabled'⟩
    simp [captureChainTakeBlock, hPending', hEnabled']
  · rintro d' ⟨hPending', hEnabled'⟩
    simp [captureChainSendBlock, hPending', hEnabled']

theorem captureChainTasks_clears
    (hShows : d.Shows a)
    (h : d.Coherent)
    (hChunk : d.bridge.laConfig.chunkBytes ≤ 4096)
    {env : Env}
    (hServed :
      ∀ event ∈ (captureChainTasks env d).2,
        event.ServedBy tcpSndBuf) :
    (captureChainTasks env d).1.blockPending = false := by
  cases a with
  | chainAnalysis phase =>
      have hTaken := captureChainTakeBlock_coherent h env
      have hConfig := captureChainTakeBlock_laConfig env d
      rw [captureChainTasks_chainAnalysis env hShows]
        at hServed ⊢
      cases hPending :
          (captureChainTakeBlock env d).1.blockPending with
      | false =>
          simp [captureChainSendBlock, hPending]
      | true =>
          rcases captureChainSendBlock_offers hTaken hPending
            env with ⟨event, hSent, hOffers, hNext, _⟩
          have hAccepted : env.blockAccepted = true := by
            apply
              hOffers.accepted
                (hTaken.pending (Or.inl hPending))
                hTaken.config
            · rw [hConfig]
              exact hChunk
            · exact
                hServed event (List.mem_append_right _ hSent)
          rw [hNext, hAccepted]
          rfl
  | _ =>
      exact
        captureChainTasks_blockPending hShows.blockPending
          hShows.captureChainAnalysisEnabled env

end PicoLogicAnalyzer

------------------------------------------------------------
-- Blocks That Stay In Hand
------------------------------------------------------------

namespace PicoLogicAnalyzer

/- A block of the operation waits to be sent. -/
def Device.inHand (op : Operation) (d : Device) : Bool :=
  match op with
  | .captureChainAnalysis => d.blockPending
  | .stream => d.streamBlockPending
  | _ => false

/- Some state of the send buffer explains the result. -/
def Event.Served (event : Event) : Prop :=
  ∃ free ≤ tcpSndBuf, event.ServedBy free

/- A session of large chunks with a block in hand. -/
structure Device.StuckSession
    (op : Operation)
    (config : LaConfig)
    (block : AnalysisBlock)
    (d : Device) : Prop where
  session : d.OpenSession op config
  large : 4096 < config.chunkBytes
  inHand : d.inHand op = true
  block_eq : d.pendingAnalysisBlock = block

variable {d : Device} {op : Operation} {config : LaConfig}
variable {block : AnalysisBlock}

theorem streamTasksSend_refused
    (h : d.Coherent)
    (hLarge : 4096 < d.bridge.laConfig.chunkBytes)
    (hPending : d.streamBlockPending = true)
    {env : Env}
    (hServed :
      ∀ event ∈ (streamTasksSend env d).2, event.Served) :
    (streamTasksSend env d).1 = d := by
  rcases streamTasksSend_offers h hPending env with
    ⟨event, hSent, hOffers⟩
  rcases hServed event (by simp [hSent]) with
    ⟨free, hFree, hFound⟩
  have hRefused :=
    hOffers.refused (h.pending (Or.inr hPending)) h.config
      hLarge hFree hFound
  rw [streamTasksSend_spec hPending
    (h.pending_le (Or.inr hPending)), hRefused]
  rfl

theorem captureChainTasks_refused
    {phase : ChainPhase}
    (hShows : d.Shows (.chainAnalysis phase))
    (h : d.Coherent)
    (hLarge : 4096 < d.bridge.laConfig.chunkBytes)
    (hPending : d.blockPending = true)
    {env : Env}
    (hServed :
      ∀ event ∈ (captureChainTasks env d).2, event.Served) :
    (captureChainTasks env d).1 = d := by
  have hTake : captureChainTakeBlock env d = (d, []) := by
    simp [captureChainTakeBlock, hPending]
  rw [captureChainTasks_chainAnalysis env hShows, hTake]
    at hServed ⊢
  rcases captureChainSendBlock_offers h hPending env with
    ⟨event, hSent, hOffers, _, hKept⟩
  rcases hServed event hSent with ⟨free, hFree, hFound⟩
  exact
    hKept
      (hOffers.refused (h.pending (Or.inl hPending)) h.config
        hLarge hFree hFound)

/- What a completion interrupt leaves as it is. -/
theorem captureDone_inHand
    (op : Operation)
    (tail : Nat)
    (d : Device) :
    (captureDone tail d).1.inHand op = d.inHand op ∧
      (captureDone tail d).1.pendingAnalysisBlock =
        d.pendingAnalysisBlock := by
  unfold captureDone
  split
  · exact ⟨by cases op <;> rfl, rfl⟩
  · exact ⟨rfl, rfl⟩

variable [CaptureModule]

/- Only a stop ends such a session. -/
theorem Device.StuckSession.step
    (h : d.StuckSession op config block)
    {i : Input}
    (hOpen : i.LeavesOpen op)
    (hServed :
      ∀ event ∈ (Device.step d i).2, event.Served) :
    (Device.step d i).1.StuckSession op config block := by
  suffices hKept :
      (Device.step d i).1.inHand op = d.inHand op ∧
        (Device.step d i).1.pendingAnalysisBlock =
          d.pendingAnalysisBlock from
    ⟨h.session.step hOpen, h.large, hKept.1.trans h.inHand,
      hKept.2.trans h.block_eq⟩
  have hCoherent := h.session.coherent
  have hLarge : 4096 < d.bridge.laConfig.chunkBytes := by
    rw [h.session.config_eq]
    exact h.large
  have hInHand := h.inHand
  rcases h.session.shows with
    ⟨a, hShows, hSession, hOperation⟩
  have hSame :
      (Device.step d i).1 = d →
        (Device.step d i).1.inHand op = d.inHand op ∧
          (Device.step d i).1.pendingAnalysisBlock =
            d.pendingAnalysisBlock := by
    intro hUnchanged
    rw [hUnchanged]
    exact ⟨rfl, rfl⟩
  by_cases hActs : i.ActsOn a
  · cases i with
    | message env id data =>
        exact absurd (hActs.trans hOperation) hOpen
    | captureChainTasks env =>
        cases a with
        | chainAnalysis phase =>
            cases hOperation
            exact
              hSame
                (captureChainTasks_refused hShows hCoherent
                  hLarge hInHand hServed)
        | _ => cases hActs
    | captureDone tail => exact captureDone_inHand op tail d
    | streamTake env =>
        cases a with
        | streaming analysis pending =>
            cases hOperation
            have hPending : d.streamBlockPending = true :=
              hInHand
            apply hSame
            simp [Device.step, streamTasksTake, hPending]
        | _ => cases hActs
    | streamSend env =>
        cases a with
        | streaming analysis pending =>
            cases hOperation
            exact
              hSame
                (streamTasksSend_refused hCoherent hLarge
                  hInHand hServed)
        | _ => cases hActs
    | _ => exact hActs.elim
  · rcases (Device.step_beside hShows hSession hActs).1 with
      ⟨pull, memory, passes, hBeside⟩
    rw [hBeside]
    exact ⟨by cases op <;> rfl, rfl⟩

/- However long it is tried, the block is never sent. -/
theorem Device.StuckSession.run
    (h : d.StuckSession op config block)
    {inputs : List Input}
    (hInputs :
      Machine.Guarded Device.step
        (fun d i =>
          i.LeavesOpen op ∧
            ∀ event ∈ (Device.step d i).2, event.Served)
        d inputs) :
    (Device.run d inputs).1.StuckSession op config block := by
  refine Machine.Guarded.invariant
    (P := Device.StuckSession op config block) ?_ h hInputs
  intro d' i h' hInput
  exact h'.step hInput.1 hInput.2

/-
  A stream whose pending block does not fit an empty buffer
  and stays in hand until the stream is stopped.
-/
structure Device.NeverSends (d : Device) : Prop where
  pending : d.streamBlockPending = true
  unfit : tcpWrite tcpSndBuf d.streamPayload.size = false
  kept :
    ∀ inputs,
      Machine.Guarded Device.step
        (fun d i =>
          i.LeavesOpen .stream ∧
            ∀ event ∈ (Device.step d i).2, event.Served)
        d inputs →
        (Device.run d inputs).1.streamBlockPending = true ∧
          (Device.run d inputs).1.pendingAnalysisBlock =
            d.pendingAnalysisBlock

theorem Device.Reachable.neverSends
    (hReachable : d.Reachable)
    (hLarge : 4096 < d.bridge.laConfig.chunkBytes)
    (hProgress : d.inProgress .stream = true)
    (hPending : d.streamBlockPending = true) :
    d.NeverSends := by
  have hStuck :
      d.StuckSession .stream d.bridge.laConfig
        d.pendingAnalysisBlock :=
    ⟨hReachable.openSession (Or.inr rfl) hProgress, hLarge,
      hPending, rfl⟩
  refine ⟨hPending, ?_, ?_⟩
  · rw [← Bool.not_eq_true,
      hReachable.coherent.streamPayload_fits_iff hPending]
    exact Nat.not_le.mpr hLarge
  · intro inputs hInputs
    exact
      ⟨(hStuck.run hInputs).inHand,
        (hStuck.run hInputs).block_eq⟩

/-
  Every configurable frame can be sent exactly if the chunk
  size is at most 4096.
-/
theorem blocks_sendable_iff
    (hReachable : d.Reachable)
    (mode : StreamMode) :
    d.Sendable mode ↔
      d.bridge.laConfig.chunkBytes ≤ 4096 := by
  have hCoherent := hReachable.coherent
  have hSmall :
      ∀ {block : AnalysisBlock},
        block.IsChunk d.bridge.laConfig →
          block.bytes ≤ laMaxChunkBytes := by
    intro block hBlock
    exact (hBlock.oneChunk hCoherent.config).bytes_le
  have hMessage :
      ∀ {message : Bool × List Event}
          {block : AnalysisBlock} {accepted : Bool},
        block.IsChunk d.bridge.laConfig →
        (∃ event, message = (accepted, [event]) ∧
          event.Offers block accepted) →
          ((∀ event ∈ message.2, event.Fits tcpSndBuf) ↔
            d.bridge.laConfig.chunkBytes ≤ 4096) := by
    rintro message block accepted hBlock
      ⟨event, rfl, hOffers⟩
    rw [List.forall_mem_singleton]
    exact hOffers.fits_iff hBlock hCoherent.config
  constructor
  · intro hSendable
    let block : AnalysisBlock :=
      { d.pendingAnalysisBlock with
        bytes := d.bridge.laConfig.chunkBytes
        samples := d.bridge.laConfig.chunkSamples }
    have hBlock : block.IsChunk d.bridge.laConfig :=
      ⟨rfl, rfl⟩
    rw [← hMessage hBlock
      (sendStreamBlock_offers (d := { d with streamMode := mode })
        (hSmall hBlock) Env.smooth)]
    exact hSendable.message Env.smooth block hBlock
  · intro hChunk
    rcases hReachable.shows with ⟨a, hShows⟩
    constructor
    · intro env block hBlock
      rw [hMessage hBlock
        (sendStreamBlock_offers (hSmall hBlock) env)]
      exact hChunk
    · intro env block hBlock
      rw [hMessage hBlock
        (sendAnalysisBlock_offers (hSmall hBlock) env _)]
      exact hChunk
    · intro env hServed
      exact streamTasks_clears hCoherent hChunk hServed
    · intro env hServed
      exact
        captureChainTasks_clears hShows hCoherent hChunk
          hServed

end PicoLogicAnalyzer

namespace PicoLogicAnalyzer

section Sample

attribute [local instance] CaptureModule.sample

/- Blocks of 4 KiB can be sent in analysis mode. -/
theorem blocks_sendable_at_4_KiB :
    (Device.run (Device.boot CaptureHardware.blank)
      [Input.command 1 "SET_CHUNK_SIZE 4096"]).1.Sendable
        .analysis := by
  rw [blocks_sendable_iff
    ⟨CaptureHardware.blank,
      [Input.command 1 "SET_CHUNK_SIZE 4096"], rfl⟩]
  decide +kernel

/- A moment at which the first 8 KiB are complete. -/
def Env.oneLargeChunk : Env :=
  { Env.smooth with
    reads :=
      { passes := 0, busy0 := true, count0 := 131072 - 8192,
        busy1 := false, count1 := 0 } }

/- A stream of 8 KiB chunks that has taken its first block. -/
def Device.largeChunkTaken (start : String) : Device :=
  (Device.run (Device.boot CaptureHardware.blank)
    [Input.command 1 "SET_CHUNK_SIZE 8192",
      Input.command 1 start,
      .streamTake Env.oneLargeChunk]).1

/- In neither mode is such a block ever sent. -/
theorem large_block_is_never_sent :
    (Device.largeChunkTaken "STREAM_START").NeverSends ∧
      (Device.largeChunkTaken
        "STREAM_ANALYSIS_START").NeverSends := by
  have hTaken :
      ∀ start ∈ ["STREAM_START", "STREAM_ANALYSIS_START"],
        4096 <
            (Device.largeChunkTaken
              start).bridge.laConfig.chunkBytes ∧
          (Device.largeChunkTaken start).inProgress .stream =
            true ∧
          (Device.largeChunkTaken
            start).streamBlockPending = true := by
    decide +kernel
  have hNever :
      ∀ start ∈ ["STREAM_START", "STREAM_ANALYSIS_START"],
        (Device.largeChunkTaken start).NeverSends := by
    intro start hStart
    rcases hTaken start hStart with
      ⟨hLarge, hProgress, hPending⟩
    have hReachable :
        (Device.largeChunkTaken start).Reachable :=
      ⟨CaptureHardware.blank, _, rfl⟩
    exact hReachable.neverSends hLarge hProgress hPending
  exact ⟨hNever _ (by simp), hNever _ (by simp)⟩

end Sample

end PicoLogicAnalyzer
