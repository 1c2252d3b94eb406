import PicoLogicAnalyzer.Firmware.Handlers
import PicoLogicAnalyzer.Firmware.Tasks
import PicoLogicAnalyzer.Lib.Machine

/-
  The firmware as a machine.

  Inputs are the calls the main loop makes and what the
  hardware does between them: messages, tasks, progress and
  completion of a finite capture, ring writes and pass
  interrupts of the streaming DMA. A hardware input has no
  effect while its unit is not running.

  Key definitions include:
    * `Input`
    * `Device.step`
    * `Device.Reachable`
-/

------------------------------------------------------------
-- Inputs
------------------------------------------------------------

namespace PicoLogicAnalyzer

inductive Input where
  | message (env : Env) (id : Nat) (data : List UInt8)
  | connect (env : Env) (id : Nat)
  | disconnect (id : Nat)
  | singleCaptureTasks (env : Env)
  | captureChainTasks (env : Env)
  | streamTake (env : Env)
  | streamSend (env : Env)
  | captureWrite (memory : Nat → UInt8)
  | captureDone (tail : Nat)
  | dmaWrite (position : Nat) (byte : UInt8)
  | dmaInterrupt

/- A finite capture stores samples anywhere in the buffer. -/
def captureWrite
    (memory : Nat → UInt8)
    (d : Device) :
    Device :=
  if d.bridge.hw.capturing then
    { d with bridge.hw.captureBuffer := memory }
  else
    d

/- A finite capture completes at ring position `tail`. -/
def captureDone
    (tail : Nat)
    (d : Device) :
    Device × List Event :=
  if d.bridge.hw.capturing then
    ({ d with
        bridge :=
          { d.bridge with
            hw :=
              { d.bridge.hw with
                capturing := false
                lastTail := tail } } },
      [.captured])
  else
    (d, [])

/- The streaming DMA stores one byte. -/
def dmaWrite
    (position : Nat)
    (byte : UInt8)
    (d : Device) :
    Device :=
  if d.bridge.laStreamRunning then
    { d with
      bridge.hw.captureBuffer :=
        Function.update d.bridge.hw.captureBuffer position
          byte }
  else
    d

/- The pass interrupt; it is disabled outside a session. -/
def dmaInterrupt (d : Device) : Device :=
  if d.bridge.laStreamRunning then
    { d with bridge := laStreamDmaHandler d.bridge }
  else
    d

def Device.step
    [CaptureModule]
    (d : Device) :
    Input → Device × List Event
| .message env id data =>
    let result := websocketMessage env id data d
    (result.1, .received id data :: result.2)
| .connect env id => (d, [reply env id "connected"])
| .disconnect _ => (d, [])
| .singleCaptureTasks env => singleCaptureTasks env d
| .captureChainTasks env => captureChainTasks env d
| .streamTake env => streamTasksTake env d
| .streamSend env => streamTasksSend env d
| .captureWrite memory => (captureWrite memory d, [])
| .captureDone tail => captureDone tail d
| .dmaWrite position byte => (dmaWrite position byte d, [])
| .dmaInterrupt => (dmaInterrupt d, [])

/- Runs of the firmware. -/
abbrev Device.run
    [CaptureModule]
    (d : Device)
    (inputs : List Input) :
    Device × List Event :=
  Machine.run Device.step d inputs

/- The two halves of the stream task in sequence. -/
theorem Device.run_streamTasks
    [CaptureModule]
    (env : Env)
    (d : Device) :
    Device.run d [.streamTake env, .streamSend env] =
      streamTasks env d := by
  simp [Device.run, Device.step, streamTasks]

/- States reached from start-up by some run. -/
def Device.Reachable
    [CaptureModule]
    (d : Device) : Prop :=
  ∃ hw inputs, (Device.run (Device.boot hw) inputs).1 = d

/- Invariant rule for reachable states. -/
theorem Device.Reachable.invariant
    [CaptureModule]
    {P : Device → Prop}
    (hBoot : ∀ hw, P (Device.boot hw))
    (hStep : ∀ d i, P d → P (Device.step d i).1)
    {d : Device}
    (hReachable : d.Reachable) :
    P d := by
  rcases hReachable with ⟨hw, inputs, rfl⟩
  exact Machine.run_invariant hStep (hBoot hw) inputs

/- Reachability is closed under further inputs. -/
theorem Device.Reachable.run
    [CaptureModule]
    {d : Device}
    (hReachable : d.Reachable)
    (inputs : List Input) :
    (Device.run d inputs).1.Reachable := by
  rcases hReachable with ⟨hw, earlier, rfl⟩
  refine ⟨hw, earlier ++ inputs, ?_⟩
  rw [Device.run, Machine.run_append]

end PicoLogicAnalyzer

------------------------------------------------------------
-- Surroundings For Concrete Runs
------------------------------------------------------------

namespace PicoLogicAnalyzer

/- A capture module with a 100 MHz limit. -/
abbrev CaptureModule.sample : CaptureModule where
  maxFreq := 100000000

/- Hardware that has captured nothing yet. -/
def CaptureHardware.blank : CaptureHardware where
  capturing := false
  lastPreSize := 0
  lastPostSize := 0
  lastLoopCount := 0
  lastCaptureMode := .mode8Channel
  lastTail := 0
  lastStartPosition := 0
  captureBuffer := fun _ => 0
  dmaMode := .mode8Channel
  triggerPull := .disabled

/- Surroundings in which every call succeeds. -/
def Env.smooth : Env where
  captureStarted := true
  chunkStarted := true
  replyAccepted := true
  rawAccepted := true
  blockAccepted := true
  nowMs := 0
  timeUs := 0
  gpio3 := false
  reads :=
    { passes := 0, busy0 := true, count0 := 0,
      busy1 := false, count1 := 0 }

/- Connection `id` sends a text command. -/
def Input.command (id : Nat) (text : String) : Input :=
  .message Env.smooth id (Text.ascii text)

end PicoLogicAnalyzer
