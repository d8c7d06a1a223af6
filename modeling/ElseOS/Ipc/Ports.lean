import ElseOS.Base.Net
import ElseOS.Task.Placement

/-! Each endpoint of the kernel is a port.

A step leaves every port alone but the one its call names, and that one moves as a send or
a receive of the calling thread moves it. Programs that run on the kernel can therefore be
studied as a net over these ports. -/

set_option autoImplicit false

namespace ElseOS.Kernel

open Base (Port)

def Meeting.port : Meeting → Port Tid Message
  | .idle => .idle
  | .senders queue => .senders queue
  | .receivers queue => .receivers (queue.map Prod.fst)

def port (k : Kernel) (ep : EndpointRef) : Port Tid Message := (k.meeting ep).port

def SendEnds (k after : Kernel) (caller : Tid) (ep : EndpointRef) (msg : Message) : Port.Sent Tid → Prop
  | .delivered receiver => after.cpu = k.cpu ∧ after.occupants .runQueue = k.occupants .runQueue ++ [receiver]
  | .waiting => after.cpu = .dispatching (some caller) (.sysSend ep msg) ∧
      after.occupants .runQueue = k.occupants .runQueue
  | .lost => after.cpu = k.cpu ∧ after.occupants .runQueue = k.occupants .runQueue

def ReceiveEnds (k after : Kernel) (caller : Tid) (ep : EndpointRef) : Port.Received Tid Message → Prop
  | .taken sender msg => after.cpu = k.cpu ∧ after.occupants .runQueue = k.occupants .runQueue ++ [sender] ∧
      after.trace.head? = some (.received ep caller msg)
  | .waiting => after.cpu = .dispatching (some caller) (.sysRecv ep) ∧
      after.occupants .runQueue = k.occupants .runQueue
  | .nothing => after.cpu = k.cpu ∧ after.occupants .runQueue = k.occupants .runQueue ∧
      after.trace.head? = some (.received ep caller .zero)

variable {k after : Kernel} {op : Op} {current : Thread} {ep : EndpointRef} {msg : Message}

theorem Moves.port_send (moves : k.Moves op after) (reached : k.sending op = some (current, ep, msg)) :
    ∃ sent, (k.port ep).send current.tid msg = (after.port ep, sent) ∧ SendEnds k after current.tid ep msg sent := by
  cases moves with
  | same quiet | halt quiet | create quiet =>
    rw [quiet.sending] at reached
    cases reached
  | @deliver _ _ receiver _ _ _ queue sends mode =>
    rw [sends] at reached
    cases reached
    refine ⟨.delivered receiver.tid, ?_, rfl, ?_⟩
    · simp [port, meeting, meetingOf, Meeting.port, mode, Port.send, Kernel.deliver, emit, setEndpoint, pushBack]
    · simp [Kernel.deliver]
  | blockSender sends mode =>
    rw [sends] at reached
    cases reached
    refine ⟨.waiting, ?_, rfl, ?_⟩
    · cases state : k.endpoints ep with
      | receiversWaiting queue => exact absurd state (mode queue)
      | _ =>
        simp [port, meeting, meetingOf, Meeting.port, state, Port.send, Kernel.blockSender, emit, setEndpoint, block,
          EndpointState.senders]
    · simp [Kernel.blockSender]
  | drop sends mode =>
    rw [sends] at reached
    cases reached
    refine ⟨.lost, ?_, rfl, rfl⟩
    simp [port, meeting, meetingOf, Meeting.port, mode, Port.send, emit]
  | take receives | blockReceiver receives | conjure receives =>
    cases op <;> simp_all [sending, receiving]
  | _ => cases reached

theorem Moves.port_receive (moves : k.Moves op after) (reached : k.receiving op = some (current, ep)) :
    ∃ received, (k.port ep).receive current.tid = (after.port ep, received) ∧
      ReceiveEnds k after current.tid ep received := by
  cases moves with
  | same quiet | halt quiet | create quiet =>
    rw [quiet.receiving] at reached
    cases reached
  | @take _ _ sender _ msg queue receives mode =>
    rw [receives] at reached
    cases reached
    refine ⟨.taken sender.tid msg, ?_, rfl, ?_, rfl⟩
    · simp [port, meeting, meetingOf, Meeting.port, mode, Port.receive, Kernel.take, emit, setEndpoint, pushBack,
        writeBuffer]
    · simp [Kernel.take]
  | blockReceiver receives mode =>
    rw [receives] at reached
    cases reached
    refine ⟨.waiting, ?_, rfl, ?_⟩
    · cases state : k.endpoints ep with
      | sendersWaiting queue => exact absurd state (mode queue)
      | _ => simp [port, meeting, meetingOf, Meeting.port, state, Port.receive, Kernel.blockReceiver, emit, setEndpoint,
          block, EndpointState.receivers]
    · simp [Kernel.blockReceiver]
  | conjure receives mode =>
    rw [receives] at reached
    cases reached
    refine ⟨.nothing, ?_, rfl, rfl, rfl⟩
    simp [port, meeting, meetingOf, Meeting.port, mode, Port.receive, emit, writeBuffer]
  | deliver sends | blockSender sends | drop sends =>
    cases op <;> simp_all [sending, receiving]
  | _ => cases reached

/-- In every run the endpoints behave as ports: a send or receive that passes its capability
check moves its own port as the port's rules say, and nothing else moves a port. -/
theorem ports_of_step {bootCr3 : UInt64} {info : BootInfo} {image : InitImage} {history : List (Kernel × Op)}
    (run : KernelRun bootCr3 info image history k) (taken : k.step op = some after) :
    (∀ current ep msg, k.sending op = some (current, ep, msg) → ∃ sent,
      (k.port ep).send current.tid msg = (after.port ep, sent) ∧ SendEnds k after current.tid ep msg sent) ∧
    (∀ current ep, k.receiving op = some (current, ep) → ∃ received,
      (k.port ep).receive current.tid = (after.port ep, received) ∧ ReceiveEnds k after current.tid ep received) ∧
    ∀ ep, (∀ current msg, k.sending op ≠ some (current, ep, msg)) → (∀ current, k.receiving op ≠ some (current, ep)) →
      after.port ep = k.port ep := by
  have moves := moves_of_step (orderly_of_run run) taken
  refine ⟨fun _ _ _ => moves.port_send, fun _ _ => moves.port_receive, ?_⟩
  intro ep noSend noReceive
  exact congrArg Meeting.port (moves.meeting_other noSend noReceive)

end ElseOS.Kernel
