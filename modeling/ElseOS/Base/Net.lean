import Mathlib.Data.List.Nodup
import Mathlib.Logic.Function.Basic
import ElseOS.Base.Transition

/-! Parties that exchange messages over ports.

A port remembers which side came to it first: once it queues senders it never queues
receivers, even when its queue has drained, and the other way around. A send that finds a
drained queue of receivers hands its message to nobody; a receive that finds a drained
queue of senders returns with a blank one.

A protocol is a program for every party over its local state and a shared store. Any party
that does not wait at a port can make the next step of a net.
-/

set_option autoImplicit false

namespace ElseOS.Base

inductive Port (Party Msg : Type) where
  | idle
  | senders (queue : List (Party × Msg))
  | receivers (queue : List Party)
  deriving DecidableEq, Repr

namespace Port

variable {Party Msg : Type}

inductive Sent (Party : Type) where
  | delivered (receiver : Party)
  | waiting
  | lost
  deriving DecidableEq, Repr

inductive Received (Party Msg : Type) where
  | taken (sender : Party) (msg : Msg)
  | waiting
  | nothing
  deriving DecidableEq, Repr

def send (port : Port Party Msg) (party : Party) (msg : Msg) : Port Party Msg × Sent Party :=
  match port with
  | .idle => (.senders [(party, msg)], .waiting)
  | .senders queue => (.senders (queue ++ [(party, msg)]), .waiting)
  | .receivers (receiver :: rest) => (.receivers rest, .delivered receiver)
  | .receivers [] => (.receivers [], .lost)

def receive (port : Port Party Msg) (party : Party) : Port Party Msg × Received Party Msg :=
  match port with
  | .idle => (.receivers [party], .waiting)
  | .receivers queue => (.receivers (queue ++ [party]), .waiting)
  | .senders ((sender, msg) :: rest) => (.senders rest, .taken sender msg)
  | .senders [] => (.senders [], .nothing)

def queued : Port Party Msg → List (Party × Msg)
  | .senders queue => queue
  | _ => []

def waiting : Port Party Msg → List Party
  | .receivers queue => queue
  | _ => []

@[simp, grind =] theorem queued_idle : (idle : Port Party Msg).queued = [] := rfl

@[simp, grind =] theorem queued_senders (queue : List (Party × Msg)) : (senders queue).queued = queue := rfl

@[simp, grind =] theorem queued_receivers (queue : List Party) : (receivers queue : Port Party Msg).queued = [] := rfl

@[simp, grind =] theorem waiting_idle : (idle : Port Party Msg).waiting = [] := rfl

@[simp, grind =] theorem waiting_senders (queue : List (Party × Msg)) : (senders queue).waiting = [] := rfl

@[simp, grind =] theorem waiting_receivers (queue : List Party) : (receivers queue : Port Party Msg).waiting = queue :=
  rfl

theorem waiting_of_not_receivers {port : Port Party Msg} (other : ∀ queue, port ≠ receivers queue) :
    port.waiting = [] := by
  cases port with
  | receivers queue => exact absurd rfl (other queue)
  | _ => rfl

theorem queued_of_not_senders {port : Port Party Msg} (other : ∀ queue, port ≠ senders queue) : port.queued = [] := by
  cases port with
  | senders queue => exact absurd rfl (other queue)
  | _ => rfl

def receiversFirst : Port Party Msg → Bool
  | .senders _ => false
  | _ => true

end Port

inductive Command (Endpoint Msg Shared Local : Type) where
  | compute (next : Local) (shared : Shared)
  | send (ep : Endpoint) (msg : Msg) (next : Local)
  | receive (ep : Endpoint)

structure Protocol (Party Endpoint Msg Shared Input : Type) (Local : Party → Type) where
  /-- What a party does next, depending on its input and on the store. -/
  command : (party : Party) → Local party → Input → Shared → Option (Command Endpoint Msg Shared (Local party))
  /-- Where a party goes on with the message its receive returned. -/
  resume : (party : Party) → Local party → Msg → Local party
  /-- What a receive returns that was handed nothing. -/
  blank : Msg

inductive Status (Endpoint Local : Type) where
  | ready (state : Local)
  /-- Waiting in a send, to go on from the given state. -/
  | sending (ep : Endpoint) (next : Local)
  /-- Waiting in a receive that the given state made. -/
  | receiving (ep : Endpoint) (state : Local)

def Status.state {Endpoint Local : Type} : Status Endpoint Local → Local
  | .ready state => state
  | .sending _ next => next
  | .receiving _ state => state

def Status.sendsTo {Endpoint Local : Type} : Status Endpoint Local → Option Endpoint
  | .sending ep _ => some ep
  | _ => none

def Status.receivesFrom {Endpoint Local : Type} : Status Endpoint Local → Option Endpoint
  | .receiving ep _ => some ep
  | _ => none

namespace Status

variable {Endpoint Local : Type}

@[simp, grind =] theorem state_ready (state : Local) : (ready state : Status Endpoint Local).state = state := rfl

@[simp, grind =] theorem state_sending (ep : Endpoint) (next : Local) : (sending ep next).state = next := rfl

@[simp, grind =] theorem state_receiving (ep : Endpoint) (state : Local) : (receiving ep state).state = state := rfl

@[simp, grind =] theorem sendsTo_ready (state : Local) : (ready state : Status Endpoint Local).sendsTo = none := rfl

@[simp, grind =] theorem sendsTo_sending (ep : Endpoint) (next : Local) : (sending ep next).sendsTo = some ep := rfl

@[simp, grind =] theorem sendsTo_receiving (ep : Endpoint) (state : Local) : (receiving ep state).sendsTo = none := rfl

@[simp, grind =] theorem receivesFrom_ready (state : Local) :
    (ready state : Status Endpoint Local).receivesFrom = none := rfl

@[simp, grind =] theorem receivesFrom_sending (ep : Endpoint) (next : Local) : (sending ep next).receivesFrom = none :=
  rfl

@[simp, grind =] theorem receivesFrom_receiving (ep : Endpoint) (state : Local) :
    (receiving ep state).receivesFrom = some ep := rfl

theorem sendsTo_of_receives {status : Status Endpoint Local} {ep : Endpoint}
    (receives : status.receivesFrom = some ep) :
    status.sendsTo = none := by
  cases status <;> simp_all

theorem receivesFrom_of_sends {status : Status Endpoint Local} {ep : Endpoint} (sends : status.sendsTo = some ep) :
    status.receivesFrom = none := by
  cases status <;> simp_all

def Awake (status : Status Endpoint Local) : Prop := status.sendsTo = none ∧ status.receivesFrom = none

end Status

structure Net (Party Endpoint Msg Shared : Type) (Local : Party → Type) where
  ports : Endpoint → Port Party Msg
  status : (party : Party) → Status Endpoint (Local party)
  shared : Shared

variable {Party Endpoint Msg Shared Input : Type} {Local : Party → Type}

namespace Net

section Step

variable [DecidableEq Party] [DecidableEq Endpoint] (protocol : Protocol Party Endpoint Msg Shared Input Local)

def setStatus (net : Net Party Endpoint Msg Shared Local) (party : Party) (status : Status Endpoint (Local party)) :
    Net Party Endpoint Msg Shared Local :=
  { net with status := Function.update net.status party status }

abbrev release (net : Net Party Endpoint Msg Shared Local) (party : Party) (state : Local party) :
    Net Party Endpoint Msg Shared Local :=
  net.setStatus party (.ready state)

def setShared (net : Net Party Endpoint Msg Shared Local) (shared : Shared) : Net Party Endpoint Msg Shared Local :=
  { net with shared := shared }

def setPort (net : Net Party Endpoint Msg Shared Local) (ep : Endpoint) (port : Port Party Msg) :
    Net Party Endpoint Msg Shared Local :=
  { net with ports := Function.update net.ports ep port }

def send (net : Net Party Endpoint Msg Shared Local) (party : Party) (ep : Endpoint) (msg : Msg) (next : Local party) :
    Net Party Endpoint Msg Shared Local :=
  match (net.ports ep).send party msg with
  | (port, .delivered receiver) =>
    ((net.setPort ep port).release receiver (protocol.resume receiver (net.status receiver).state msg)).release
      party next
  | (port, .waiting) => (net.setPort ep port).setStatus party (.sending ep next)
  | (port, .lost) => (net.setPort ep port).release party next

def receive (net : Net Party Endpoint Msg Shared Local) (party : Party) (state : Local party) (ep : Endpoint) :
    Net Party Endpoint Msg Shared Local :=
  match (net.ports ep).receive party with
  | (port, .taken sender msg) =>
    ((net.setPort ep port).release sender (net.status sender).state).release party (protocol.resume party state msg)
  | (port, .waiting) => (net.setPort ep port).setStatus party (.receiving ep state)
  | (port, .nothing) => (net.setPort ep port).release party (protocol.resume party state protocol.blank)

def command (net : Net Party Endpoint Msg Shared Local) (label : Party × Input) :
    Option (Command Endpoint Msg Shared (Local label.1)) :=
  match net.status label.1 with
  | .ready state => protocol.command label.1 state label.2 net.shared
  | _ => none

def step (net : Net Party Endpoint Msg Shared Local) (label : Party × Input) :
    Option (Net Party Endpoint Msg Shared Local) :=
  (net.command protocol label).map fun
    | .compute next shared => (net.release label.1 next).setShared shared
    | .send ep msg next => net.send protocol label.1 ep msg next
    | .receive ep => net.receive protocol label.1 (net.status label.1).state ep

/-- The step is a send that is handed to nobody. -/
def loses (net : Net Party Endpoint Msg Shared Local) (label : Party × Input) : Bool :=
  match net.command protocol label with
  | some (.send ep _ _) =>
    match net.ports ep with
    | .receivers [] => true
    | _ => false
  | _ => false

/-- The step is a receive that returns with nothing. -/
def starves (net : Net Party Endpoint Msg Shared Local) (label : Party × Input) : Bool :=
  match net.command protocol label with
  | some (.receive ep) =>
    match net.ports ep with
    | .senders [] => true
    | _ => false
  | _ => false

def partner (net : Net Party Endpoint Msg Shared Local) (label : Party × Input) : Option Party :=
  match net.command protocol label with
  | some (.send ep _ _) => (net.ports ep).waiting.head?
  | some (.receive ep) => (net.ports ep).queued.head?.map Prod.fst
  | _ => none

/-- The step is the first of all on this port, and a send. -/
def sendsFirst (net : Net Party Endpoint Msg Shared Local) (ep : Endpoint) (label : Party × Input) : Bool :=
  match net.command protocol label with
  | some (.send target _ _) =>
    if target = ep then
      match net.ports ep with
      | .idle => true
      | _ => false
    else false
  | _ => false

/-! ## One step -/

inductive Moves (net : Net Party Endpoint Msg Shared Local) (party : Party) (input : Input) :
    Net Party Endpoint Msg Shared Local → Prop where
  | compute {state next : Local party} {shared : Shared} : net.status party = .ready state →
      protocol.command party state input net.shared = some (.compute next shared) →
      Moves net party input ((net.release party next).setShared shared)
  | deliver {state next : Local party} {ep : Endpoint} {msg : Msg} {receiver : Party} {rest : List Party} :
      net.status party = .ready state →
      protocol.command party state input net.shared = some (.send ep msg next) →
      net.ports ep = .receivers (receiver :: rest) →
      Moves net party input (((net.setPort ep (.receivers rest)).release receiver
        (protocol.resume receiver (net.status receiver).state msg)).release party next)
  | blockSend {state next : Local party} {ep : Endpoint} {msg : Msg} : net.status party = .ready state →
      protocol.command party state input net.shared = some (.send ep msg next) →
      (∀ queue, net.ports ep ≠ .receivers queue) →
      Moves net party input ((net.setPort ep (.senders ((net.ports ep).queued ++ [(party, msg)]))).setStatus party
        (.sending ep next))
  | lose {state next : Local party} {ep : Endpoint} {msg : Msg} : net.status party = .ready state →
      protocol.command party state input net.shared = some (.send ep msg next) → net.ports ep = .receivers [] →
      Moves net party input (net.release party next)
  | take {state : Local party} {ep : Endpoint} {msg : Msg} {sender : Party} {rest : List (Party × Msg)} :
      net.status party = .ready state → protocol.command party state input net.shared = some (.receive ep) →
      net.ports ep = .senders ((sender, msg) :: rest) →
      Moves net party input (((net.setPort ep (.senders rest)).release sender (net.status sender).state).release party
        (protocol.resume party state msg))
  | blockReceive {state : Local party} {ep : Endpoint} : net.status party = .ready state →
      protocol.command party state input net.shared = some (.receive ep) → (∀ queue, net.ports ep ≠ .senders queue) →
      Moves net party input ((net.setPort ep (.receivers ((net.ports ep).waiting ++ [party]))).setStatus party
        (.receiving ep state))
  | starve {state : Local party} {ep : Endpoint} : net.status party = .ready state →
      protocol.command party state input net.shared = some (.receive ep) → net.ports ep = .senders [] →
      Moves net party input (net.release party (protocol.resume party state protocol.blank))

variable {protocol} {net after : Net Party Endpoint Msg Shared Local} {party : Party} {input : Input}

omit [DecidableEq Party] [DecidableEq Endpoint] in
theorem command_of_ready {state : Local party} (ready : net.status party = .ready state) :
    net.command protocol (party, input) = protocol.command party state input net.shared := by
  simp [command, ready]

omit [DecidableEq Party] [DecidableEq Endpoint] in
theorem ready_of_command {command : Command Endpoint Msg Shared (Local party)}
    (commanded : net.command protocol (party, input) = some command) :
    ∃ state, net.status party = .ready state ∧ protocol.command party state input net.shared = some command := by
  unfold Net.command at commanded
  cases status : net.status party with
  | ready state => exact ⟨state, rfl, by simpa [status] using commanded⟩
  | _ => simp [status] at commanded

omit [DecidableEq Party] in
theorem setPort_same {ep : Endpoint} {port : Port Party Msg} (same : net.ports ep = port) :
    net.setPort ep port = net := by
  subst same
  simp [setPort]

theorem moves_send {state next : Local party} {ep : Endpoint} {msg : Msg} (ready : net.status party = .ready state)
    (commanded : protocol.command party state input net.shared = some (.send ep msg next)) :
    Moves protocol net party input (net.send protocol party ep msg next) := by
  cases port : net.ports ep with
  | idle => simpa [Net.send, port, Port.send, Port.queued] using Moves.blockSend ready commanded (by simp [port])
  | senders queue =>
    simpa [Net.send, port, Port.send, Port.queued] using Moves.blockSend ready commanded (by simp [port])
  | receivers queue =>
    cases queue with
    | nil => simpa [Net.send, port, Port.send, setPort_same port] using Moves.lose ready commanded port
    | cons receiver rest => simpa [Net.send, port, Port.send] using Moves.deliver ready commanded port

theorem moves_receive {state : Local party} {ep : Endpoint} (ready : net.status party = .ready state)
    (commanded : protocol.command party state input net.shared = some (.receive ep)) :
    Moves protocol net party input (net.receive protocol party state ep) := by
  cases port : net.ports ep with
  | idle =>
    simpa [Net.receive, port, Port.receive, Port.waiting] using Moves.blockReceive ready commanded (by simp [port])
  | receivers queue =>
    simpa [Net.receive, port, Port.receive, Port.waiting] using Moves.blockReceive ready commanded (by simp [port])
  | senders queue =>
    cases queue with
    | nil => simpa [Net.receive, port, Port.receive, setPort_same port] using Moves.starve ready commanded port
    | cons entry rest => simpa [Net.receive, port, Port.receive] using Moves.take ready commanded port

theorem moves_of_step (taken : net.step protocol (party, input) = some after) :
    Moves protocol net party input after := by
  unfold step command at taken
  cases status : net.status party with
  | ready state =>
    simp only [status, Option.map_eq_some_iff] at taken
    obtain ⟨command, commanded, rfl⟩ := taken
    cases command with
    | compute next shared => exact .compute status commanded
    | send ep msg next => exact moves_send status commanded
    | receive ep => exact moves_receive status commanded
  | sending ep next => simp [status] at taken
  | receiving ep state => simp [status] at taken

/-! ## Waiting parties and queues agree -/

/-- The queue of a port lists exactly the parties that wait there, each once. -/
structure Coherent (net : Net Party Endpoint Msg Shared Local) : Prop where
  sends : ∀ ep party, party ∈ (net.ports ep).queued.map Prod.fst ↔ (net.status party).sendsTo = some ep
  receives : ∀ ep party, party ∈ (net.ports ep).waiting ↔ (net.status party).receivesFrom = some ep
  sendersOnce : ∀ ep, ((net.ports ep).queued.map Prod.fst).Nodup
  receiversOnce : ∀ ep, (net.ports ep).waiting.Nodup

omit [DecidableEq Party] [DecidableEq Endpoint] in
theorem Coherent.not_queued (coherent : net.Coherent) (mute : (net.status party).sendsTo = none) (ep : Endpoint)
    (msg : Msg) : (party, msg) ∉ (net.ports ep).queued := by
  intro member
  have sends := (coherent.sends ep party).mp (List.mem_map_of_mem member)
  rw [mute] at sends
  cases sends

omit [DecidableEq Party] [DecidableEq Endpoint] in
theorem Coherent.not_again (coherent : net.Coherent) {ep : Endpoint} {sent : Msg} {rest : List (Party × Msg)}
    (port : net.ports ep = .senders ((party, sent) :: rest)) (msg : Msg) : (party, msg) ∉ rest := by
  intro member
  have once := coherent.sendersOnce ep
  rw [port, Port.queued_senders, List.map_cons, List.nodup_cons] at once
  exact once.1 (List.mem_map.mpr ⟨(party, msg), member, rfl⟩)

omit [DecidableEq Endpoint] in
theorem sendsTo_update (status : (party : Party) → Status Endpoint (Local party)) (party other : Party)
    (new : Status Endpoint (Local party)) :
    (Function.update status party new other).sendsTo = if other = party then new.sendsTo
    else (status other).sendsTo := by
  by_cases same : other = party
  · subst same
    simp
  · simp [same]

omit [DecidableEq Endpoint] in
theorem receivesFrom_update (status : (party : Party) → Status Endpoint (Local party)) (party other : Party)
    (new : Status Endpoint (Local party)) :
    (Function.update status party new other).receivesFrom =
      if other = party then new.receivesFrom else (status other).receivesFrom := by
  by_cases same : other = party
  · subst same
    simp
  · simp [same]

omit [DecidableEq Party] in
theorem queued_update (ports : Endpoint → Port Party Msg) (ep other : Endpoint) (port : Port Party Msg) :
    (Function.update ports ep port other).queued = if other = ep then port.queued else (ports other).queued := by
  rw [Function.update_apply, apply_ite Port.queued]

omit [DecidableEq Party] in
theorem waiting_update (ports : Endpoint → Port Party Msg) (ep other : Endpoint) (port : Port Party Msg) :
    (Function.update ports ep port other).waiting = if other = ep then port.waiting else (ports other).waiting := by
  rw [Function.update_apply, apply_ite Port.waiting]

omit [DecidableEq Endpoint] in
theorem Coherent.release (coherent : net.Coherent) (awake : (net.status party).Awake) (state : Local party) :
    (net.release party state).Coherent := by
  obtain ⟨sends, receives, sendersOnce, receiversOnce⟩ := coherent
  constructor
  · intro ep other
    simp only [Net.release, setStatus, sendsTo_update, sends ep other]
    grind [Status.Awake]
  · intro ep other
    simp only [Net.release, setStatus, receivesFrom_update, receives ep other]
    grind [Status.Awake]
  · exact sendersOnce
  · exact receiversOnce

theorem Coherent.handed (coherent : net.Coherent) {ep : Endpoint} {receiver : Party} {rest : List Party}
    (port : net.ports ep = .receivers (receiver :: rest)) (state : Local receiver) :
    ((net.setPort ep (.receivers rest)).release receiver state).Coherent := by
  obtain ⟨sends, receives, sendersOnce, receiversOnce⟩ := coherent
  -- a port that queues receivers queues no sender, so the receiver waits nowhere else
  have once := receiversOnce ep
  have waits := receives ep
  have nobody := sends ep
  simp only [port, Port.waiting_receivers, Port.queued_receivers, List.map_nil] at once waits nobody
  have mute := Status.sendsTo_of_receives ((waits receiver).mp (by simp))
  constructor
  · intro other party
    simp only [Net.release, setStatus, setPort, sendsTo_update, queued_update]
    grind
  · intro other party
    simp only [Net.release, setStatus, setPort, receivesFrom_update, waiting_update]
    grind
  · intro other
    simp only [Net.release, setStatus, setPort, queued_update]
    grind
  · intro other
    simp only [Net.release, setStatus, setPort, waiting_update]
    grind

/-- Taking the first message lets its sender, and nobody else, off the queue. -/
theorem Coherent.taken (coherent : net.Coherent) {ep : Endpoint} {sender : Party} {msg : Msg}
    {rest : List (Party × Msg)} (port : net.ports ep = .senders ((sender, msg) :: rest)) (state : Local sender) :
    ((net.setPort ep (.senders rest)).release sender state).Coherent := by
  obtain ⟨sends, receives, sendersOnce, receiversOnce⟩ := coherent
  have once := sendersOnce ep
  have waits := sends ep
  have nobody := receives ep
  simp only [port, Port.waiting_senders, Port.queued_senders, List.map_cons] at once waits nobody
  have deaf := Status.receivesFrom_of_sends ((waits sender).mp (by simp))
  constructor
  · intro other party
    simp only [Net.release, setStatus, setPort, sendsTo_update, queued_update]
    grind
  · intro other party
    simp only [Net.release, setStatus, setPort, receivesFrom_update, waiting_update]
    grind
  · intro other
    simp only [Net.release, setStatus, setPort, queued_update]
    grind
  · intro other
    simp only [Net.release, setStatus, setPort, waiting_update]
    grind

theorem Coherent.joinSenders (coherent : net.Coherent) (awake : (net.status party).Awake) {ep : Endpoint}
    (port : ∀ queue, net.ports ep ≠ .receivers queue) (msg : Msg) (next : Local party) :
    ((net.setPort ep (.senders ((net.ports ep).queued ++ [(party, msg)]))).setStatus party
      (.sending ep next)).Coherent := by
  obtain ⟨sends, receives, sendersOnce, receiversOnce⟩ := coherent
  have nobody := Port.waiting_of_not_receivers port
  constructor
  · intro other party
    simp only [setStatus, setPort, sendsTo_update, queued_update]
    grind [Status.Awake]
  · intro other party
    simp only [setStatus, setPort, receivesFrom_update, waiting_update]
    grind [Status.Awake]
  · intro other
    simp only [setStatus, setPort, queued_update]
    grind [Status.Awake]
  · intro other
    simp only [setStatus, setPort, waiting_update]
    grind

theorem Coherent.joinReceivers (coherent : net.Coherent) (awake : (net.status party).Awake) {ep : Endpoint}
    (port : ∀ queue, net.ports ep ≠ .senders queue) (state : Local party) :
    ((net.setPort ep (.receivers ((net.ports ep).waiting ++ [party]))).setStatus party
      (.receiving ep state)).Coherent := by
  obtain ⟨sends, receives, sendersOnce, receiversOnce⟩ := coherent
  have nobody := Port.queued_of_not_senders port
  constructor
  · intro other party
    simp only [setStatus, setPort, sendsTo_update, queued_update]
    grind [Status.Awake]
  · intro other party
    simp only [setStatus, setPort, receivesFrom_update, waiting_update]
    grind [Status.Awake]
  · intro other
    simp only [setStatus, setPort, queued_update]
    grind
  · intro other
    simp only [setStatus, setPort, waiting_update]
    grind [Status.Awake]

theorem Coherent.step (coherent : net.Coherent) (moves : Moves protocol net party input after) : after.Coherent := by
  cases moves with
  | @compute _ next shared ready _ =>
    have released := coherent.release (by simp [ready, Status.Awake]) next
    exact ⟨released.sends, released.receives, released.sendersOnce, released.receiversOnce⟩
  | deliver ready _ port =>
    apply (coherent.handed port _).release
    simp [Net.release, setStatus, setPort, Status.Awake, sendsTo_update, receivesFrom_update, ready]
  | blockSend ready _ port => exact coherent.joinSenders (by simp [ready, Status.Awake]) port _ _
  | lose ready _ _ => exact coherent.release (by simp [ready, Status.Awake]) _
  | take ready _ port =>
    apply (coherent.taken port _).release
    simp [Net.release, setStatus, setPort, Status.Awake, sendsTo_update, receivesFrom_update, ready]
  | blockReceive ready _ port => exact coherent.joinReceivers (by simp [ready, Status.Awake]) port _
  | starve ready _ _ => exact coherent.release (by simp [ready, Status.Awake]) _

/-! ## Starting and running -/

def start (states : (party : Party) → Local party) (shared : Shared) : Net Party Endpoint Msg Shared Local :=
  ⟨fun _ => .idle, fun party => .ready (states party), shared⟩

omit [DecidableEq Party] [DecidableEq Endpoint] in
theorem coherent_start (states : (party : Party) → Local party) (shared : Shared) :
    (start states shared : Net Party Endpoint Msg Shared Local).Coherent := by
  constructor <;> simp [start]

theorem coherent_of_run {first last : Net Party Endpoint Msg Shared Local}
    {history : List (Net Party Endpoint Msg Shared Local × (Party × Input))} (coherent : first.Coherent)
    (run : Run (step protocol) first history last) : last.Coherent :=
  run.always Coherent coherent fun coherent taken => coherent.step (moves_of_step taken)

/-! ## Ports nobody sends to first -/

/-- A port keeps its kind unless it is fresh, so senders wait only where one came first. -/
theorem Moves.receiversFirst (moves : Moves protocol net party input after) {ep : Endpoint}
    (first : (net.ports ep).receiversFirst = true) (guarded : net.sendsFirst protocol ep (party, input) = false) :
    (after.ports ep).receiversFirst = true := by
  have replaced : ∀ target port, (target = ep → port.receiversFirst = true) →
      (Function.update net.ports target port ep).receiversFirst = true := by
    intro target port kept
    rw [Function.update_apply]
    split
    · exact kept (by simp_all)
    · exact first
  cases moves with
  | compute => exact first
  | deliver => exact replaced _ _ fun _ => rfl
  | blockSend ready commanded port =>
    apply replaced
    rintro rfl
    -- the only fresh port a send may find is another one
    simp only [sendsFirst, command, ready, commanded] at guarded
    cases kind : net.ports _ <;> simp_all [Port.receiversFirst]
  | lose => exact first
  | take _ _ port =>
    apply replaced
    rintro rfl
    -- a message can be taken only where a send came first
    simp [port, Port.receiversFirst] at first
  | blockReceive => exact replaced _ _ fun _ => rfl
  | starve => exact first

omit [DecidableEq Party] [DecidableEq Endpoint] in
theorem Coherent.nobody_sends (coherent : net.Coherent) {ep : Endpoint}
    (first : (net.ports ep).receiversFirst = true) : (net.status party).sendsTo ≠ some ep := by
  rw [Ne, ← coherent.sends]
  cases port : net.ports ep with
  | senders queue => simp [port, Port.receiversFirst] at first
  | _ => simp

theorem nobody_sends_of_run {states : (party : Party) → Local party} {shared : Shared}
    {last : Net Party Endpoint Msg Shared Local}
    {history : List (Net Party Endpoint Msg Shared Local × (Party × Input))} {ep : Endpoint}
    (run : Run (step protocol) (start states shared) history last)
    (guarded : Run.Guarded (fun net label => net.sendsFirst protocol ep label = false) history) (party : Party) :
    (last.status party).sendsTo ≠ some ep := by
  have first : (last.ports ep).receiversFirst = true := by
    apply run.invariant (fun net => (net.ports ep).receiversFirst = true) _ rfl _ guarded
    intro net label after first unsent taken
    exact (moves_of_step taken).receiversFirst first unsent
  exact (coherent_of_run (coherent_start states shared) run).nobody_sends first

/-! ## Local states and queues -/

/-- A property of local states holds on if every command and every message lead to states
that have it. -/
theorem Moves.states {Holds : (party : Party) → Local party → Prop} (moves : Moves protocol net party input after)
    (before : ∀ other, Holds other (net.status other).state)
    (computes : ∀ {next shared}, net.command protocol (party, input) = some (.compute next shared) → Holds party next)
    (sends : ∀ {ep msg next}, net.command protocol (party, input) = some (.send ep msg next) → Holds party next)
    (hands : ∀ {other state msg}, Holds other state → Holds other (protocol.resume other state msg)) (other : Party) :
    Holds other (after.status other).state := by
  have replaced : ∀ {net : Net Party Endpoint Msg Shared Local} {changed : Party}
      {status : Status Endpoint (Local changed)}, (∀ other, Holds other (net.status other).state) →
        Holds changed status.state → ∀ other, Holds other ((net.setStatus changed status).status other).state := by
    intro net changed status before new other
    by_cases same : other = changed
    · subst same
      simpa [setStatus] using new
    · simpa [setStatus, same] using before other
  have own : ∀ {state}, net.status party = .ready state → Holds party state := by
    intro state ready
    simpa [ready] using before party
  cases moves with
  | compute ready commanded =>
    apply replaced before
    exact computes ((command_of_ready ready).trans commanded)
  | deliver ready commanded port =>
    apply replaced
    · exact replaced before (hands (before _))
    · exact sends ((command_of_ready ready).trans commanded)
  | blockSend ready commanded port => exact replaced before (sends ((command_of_ready ready).trans commanded)) other
  | lose ready commanded port => exact replaced before (sends ((command_of_ready ready).trans commanded)) other
  | take ready commanded port =>
    apply replaced
    · exact replaced before (before _)
    · exact hands (own ready)
  | @blockReceive state ep ready commanded port =>
    apply replaced before
    rw [Status.state_receiving]
    exact own ready
  | starve ready commanded port => exact replaced before (hands (own ready)) other

theorem Moves.shared (moves : Moves protocol net party input after) :
    after.shared = match net.command protocol (party, input) with
      | some (.compute _ shared) => shared
      | _ => net.shared := by
  cases moves with
  | compute ready commanded | deliver ready commanded | blockSend ready commanded | lose ready commanded
  | take ready commanded | blockReceive ready commanded | starve ready commanded =>
    rw [command_of_ready ready, commanded]
    rfl

/-- A message gets into a queue only under the name of the party that sends it. -/
theorem Moves.queued (moves : Moves protocol net party input after) {ep : Endpoint} {sender : Party} {msg : Msg}
    (member : (sender, msg) ∈ (after.ports ep).queued) :
    (sender, msg) ∈ (net.ports ep).queued ∨
      sender = party ∧ ∃ next, net.command protocol (party, input) = some (.send ep msg next) := by
  cases moves with
  | compute | lose | starve => exact .inl member
  | deliver | blockReceive =>
    left
    simp only [setStatus, setPort, queued_update] at member
    split at member
    · simp at member
    · exact member
  | @blockSend state next target sent ready commanded port =>
    simp only [setStatus, setPort, queued_update] at member
    split at member
    next same =>
      subst same
      rw [Port.queued_senders, List.mem_append, List.mem_singleton, Prod.mk.injEq] at member
      rcases member with earlier | ⟨rfl, rfl⟩
      · exact .inl earlier
      · exact .inr ⟨rfl, next, (command_of_ready ready).trans commanded⟩
    next => exact .inl member
  | @take state target sent first rest ready commanded port =>
    left
    simp only [setStatus, setPort, queued_update] at member
    split at member
    next same =>
      subst same
      rw [port]
      exact List.mem_cons_of_mem _ member
    next => exact member

/-! ## Messages under way -/

def Carried (holds : (party : Party) → Local party → Msg → Prop) (net : Net Party Endpoint Msg Shared Local)
    (msg : Msg) :
    Prop :=
  (∃ party, holds party (net.status party).state msg) ∨ ∃ ep, msg ∈ (net.ports ep).queued.map Prod.snd

section Carried

variable {holds : (party : Party) → Local party → Msg → Prop} {msg : Msg}

omit [DecidableEq Endpoint] in
theorem carried_setStatus {status : Status Endpoint (Local party)}
    (carried : (net.setStatus party status).Carried holds msg) :
    holds party status.state msg ∨ net.Carried holds msg := by
  rcases carried with ⟨other, held⟩ | queued
  · by_cases same : other = party
    · subst same
      left
      simpa [setStatus] using held
    · right
      exact .inl ⟨other, by simpa [setStatus, same] using held⟩
  · exact .inr (.inr queued)

omit [DecidableEq Endpoint] in
theorem carried_release {state : Local party} (carried : (net.release party state).Carried holds msg) :
    holds party state msg ∨ net.Carried holds msg := carried_setStatus carried

omit [DecidableEq Party] in
theorem carried_setPort {ep : Endpoint} {port : Port Party Msg} (carried : (net.setPort ep port).Carried holds msg) :
    msg ∈ port.queued.map Prod.snd ∨ net.Carried holds msg := by
  rcases carried with held | ⟨other, queued⟩
  · exact .inr (.inl held)
  · rw [setPort, queued_update] at queued
    split at queued
    · exact .inl queued
    · exact .inr (.inr ⟨other, queued⟩)

omit [DecidableEq Party] [DecidableEq Endpoint] in
theorem carried_ready {state : Local party} (ready : net.status party = .ready state) (held : holds party state msg) :
    net.Carried holds msg := .inl ⟨party, by simpa [ready, Status.state] using held⟩

/-- Sends and receives only move messages: what is carried after a step was carried before,
is being sent, has just been composed, or is the blank message. -/
theorem Moves.carried
    (sends : ∀ {party state input shared ep sent next msg},
      protocol.command party state input shared = some (.send ep sent next) → holds party next msg →
      holds party state msg)
    (hands : ∀ {party state handed msg}, holds party (protocol.resume party state handed) msg →
      msg = handed ∨ holds party state msg)
    (moves : Moves protocol net party input after) (carried : after.Carried holds msg) :
    net.Carried holds msg ∨ msg = protocol.blank ∨
      (∃ ep next, net.command protocol (party, input) = some (.send ep msg next)) ∨
      ∃ next shared, net.command protocol (party, input) = some (.compute next shared) ∧ holds party next msg := by
  cases moves with
  | @compute state next shared ready commanded =>
    rcases carried_release carried with composed | carried
    · exact .inr (.inr (.inr ⟨next, shared, (command_of_ready ready).trans commanded, composed⟩))
    · exact .inl carried
  | @deliver state next ep sent receiver rest ready commanded port =>
    rcases carried_release carried with kept | carried
    · exact .inl (carried_ready ready (sends commanded kept))
    · rcases carried_release carried with handed | carried
      · rcases hands handed with rfl | kept
        · exact .inr (.inr (.inl ⟨ep, next, (command_of_ready ready).trans commanded⟩))
        · exact .inl (.inl ⟨receiver, kept⟩)
      · exact .inl ((carried_setPort carried).resolve_left (by simp))
  | @blockSend state next ep sent ready commanded port =>
    rcases carried_setStatus carried with kept | carried
    · exact .inl (carried_ready ready (sends commanded kept))
    · rcases carried_setPort carried with queued | carried
      · rw [Port.queued_senders, List.map_append, List.mem_append] at queued
        rcases queued with earlier | last
        · exact .inl (.inr ⟨ep, earlier⟩)
        · obtain rfl : msg = sent := by simpa using last
          exact .inr (.inr (.inl ⟨ep, next, (command_of_ready ready).trans commanded⟩))
      · exact .inl carried
  | lose ready commanded port =>
    rcases carried_release carried with kept | carried
    · exact .inl (carried_ready ready (sends commanded kept))
    · exact .inl carried
  | @take state ep sent sender rest ready commanded port =>
    rcases carried_release carried with handed | carried
    · rcases hands handed with rfl | kept
      · exact .inl (.inr ⟨ep, by simp [port]⟩)
      · exact .inl (carried_ready ready kept)
    · rcases carried_release carried with kept | carried
      · exact .inl (.inl ⟨sender, kept⟩)
      · rcases carried_setPort carried with queued | carried
        · exact .inl (.inr ⟨ep, by rw [port]; exact List.mem_cons_of_mem _ queued⟩)
        · exact .inl carried
  | blockReceive ready commanded port =>
    rcases carried_setStatus carried with kept | carried
    · exact .inl (carried_ready ready kept)
    · exact .inl ((carried_setPort carried).resolve_left (by simp))
  | starve ready commanded port =>
    rcases carried_release carried with handed | carried
    · rcases hands handed with blank | kept
      · exact .inr (.inl blank)
      · exact .inl (carried_ready ready kept)
    · exact .inl carried

end Carried

end Step

end Net

end ElseOS.Base
