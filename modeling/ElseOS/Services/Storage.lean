import ElseOS.Base.Net
import ElseOS.Task.Thread

/-! The ATA service and the callers of `read_sector` and `write_sector`.

Requests and replies travel through one endpoint. A message is read together with its
origin, which the programs never look at: a request names the caller and which of its calls
it belongs to, a reply names the request it answers, and the message a receive makes up on a
drained queue comes from nobody.
-/

set_option autoImplicit false

namespace ElseOS.Storage

open Base (Command Net Port Protocol Run Status)

/-! ## Requests and the service's answer -/

def msgBlockRead : UInt64 := 1
def msgBlockWrite : UInt64 := 2
def msgBlockFlush : UInt64 := 3

inductive SectorCall where
  | readSector (lba : UInt32) (offset : UInt64)
  | writeSector (lba : UInt32) (offset : UInt64)
  deriving DecidableEq, Repr

def SectorCall.message : SectorCall → Message
  | .readSector lba offset => ⟨msgBlockRead, lba.toUInt64, offset, 0, 0, 0⟩
  | .writeSector lba offset => ⟨msgBlockWrite, lba.toUInt64, offset, 0, 0, 0⟩

/-- The reply of the service loop; `none` where the slice of the shared page panics, which
happens when `offset + 512` wraps around. -/
def ataReply (msg : Message) : Option Message :=
  let lba := msg.rsi.toUInt32
  let offset := msg.rdx
  if offset + 512 > 4096 then some { msg with rdi := 1 }
  else if lba ≥ 20480 then some { msg with rdi := 1 }
  else if msg.rdi = msgBlockRead ∨ msg.rdi = msgBlockWrite then
    if offset > offset + 512 then none else some { msg with rdi := 0 }
  else if msg.rdi = msgBlockFlush then some { msg with rdi := 0 }
  else some { msg with rdi := 1 }

/-! ## Programs -/

variable {Client : Type}

inductive Origin (Client : Type) where
  | request (client : Client) (round : Nat)
  | reply (answers : Origin Client)
  | nobody
  deriving DecidableEq, Repr

structure Parcel (Client : Type) where
  msg : Message
  origin : Origin Client
  deriving DecidableEq, Repr

inductive Party (Client : Type) where
  | ata
  | client (name : Client)
  deriving DecidableEq, Repr

def Party.isAta : Party Client → Bool
  | .ata => true
  | .client _ => false

inductive Ata (Client : Type) where
  | listening
  | serving (request : Parcel Client)
  | replying (reply : Parcel Client)
  | gone
  deriving DecidableEq, Repr

/-- Where a client stands: between calls, with what the last one returned; after the send of
a call; or with the message it takes as the reply. -/
inductive Caller (Client : Type) where
  | idle (round : Nat) (returned : Option Bool)
  | asked (round : Nat) (request : Message)
  | answered (round : Nat) (request : Message) (reply : Parcel Client)
  deriving DecidableEq, Repr

def Caller.isAnswered : Caller Client → Bool
  | .answered _ _ _ => true
  | _ => false

abbrev Local : Party Client → Type
  | .ata => Ata Client
  | .client _ => Caller Client

def Ata.serve (request : Parcel Client) : Ata Client :=
  match ataReply request.msg with
  | some msg => .replying ⟨msg, .reply request.origin⟩
  | none => .gone

def protocol : Protocol (Party Client) Unit (Parcel Client) Unit SectorCall Local where
  command
    | .ata, .listening, _, _ => some (.receive ())
    | .ata, .serving request, _, _ => some (.compute (Ata.serve request) ())
    | .ata, .replying reply, _, _ => some (.send () reply Ata.listening)
    | .ata, .gone, _, _ => none
    | .client c, .idle round _, call, _ =>
      some (.send () ⟨call.message, .request c round⟩ (Caller.asked round call.message))
    | .client _, .asked _ _, _, _ => some (.receive ())
    | .client _, .answered round _ reply, _, _ =>
      some (.compute (Caller.idle (round + 1) (some (reply.msg.rdi == 0))) ())
  resume
    | .ata, .listening, parcel => Ata.serving parcel
    | .ata, state, _ => state
    | .client _, .asked round request, parcel => Caller.answered round request parcel
    | .client _, state, _ => state
  blank := ⟨.zero, .nobody⟩

abbrev Store (Client : Type) := Net (Party Client) Unit (Parcel Client) Unit Local

def start : Store Client :=
  Net.start (fun
    | .ata => Ata.listening
    | .client _ => Caller.idle 0 none) ()

abbrev StoreRun (Client : Type) [DecidableEq Client] :=
  Run (Net.step protocol) (start : Store Client)

structure View (Client : Type) where
  ata : Status Unit (Ata Client)
  caller : Client → Status Unit (Caller Client)
  queue : List (Party Client × Parcel Client)

def Store.view (net : Store Client) : View Client :=
  ⟨net.status .ata, fun c => net.status (.client c), (net.ports ()).queued⟩

/-- What a client takes as its reply answers its latest request, in name and in content, and
the service takes no reply for a request. -/
structure Corresponds (view : View Client) : Prop where
  replies : ∀ c round request reply, (view.caller c).state = .answered round request reply →
    reply.origin = .reply (.request c round) ∧ ataReply request = some reply.msg
  requests : ∀ parcel, view.ata.state = .serving parcel → ∀ answers, parcel.origin ≠ .reply answers

/-- The step neither loses a message nor makes one up, and a message it hands over goes
between the service and a client. -/
def Store.inPairs [DecidableEq Client] (net : Store Client) (label : Party Client × SectorCall) : Bool :=
  !net.loses protocol label && !net.starves protocol label &&
    (net.partner protocol label).all fun partner => label.1.isAta || partner.isAta

/-! ## The call the service owes a reply -/

def Answers (owed : Option (Client × Nat × Message)) (reply : Parcel Client) : Prop :=
  ∃ c round request, owed = some (c, round, request) ∧ reply.origin = .reply (.request c round) ∧
    ataReply request = some reply.msg

/-- One call at a time is past its request and not answered, and the service works on it or
has its reply under way; every other call still waits to be taken. -/
structure Serves (view : View Client) (owed : Option (Client × Nat × Message)) : Prop where
  asked : ∀ c round request, (view.caller c).state = .asked round request →
    (view.caller c).sendsTo = some () ∨ owed = some (c, round, request)
  owes : ∀ c round request, owed = some (c, round, request) →
    (view.caller c).state = .asked round request ∧ (view.caller c).sendsTo = none
  receivers : ∀ c, (view.caller c).receivesFrom = some () → ∃ round request,
    (view.caller c).state = .asked round request
  listening : view.ata.state = .listening → view.ata.sendsTo = none → owed = none
  waiting : view.ata.sendsTo = some () ∨ view.ata.receivesFrom = some () → view.ata.state = .listening
  serving : ∀ parcel, view.ata.state = .serving parcel →
    ∃ c round, owed = some (c, round, parcel.msg) ∧ parcel.origin = .request c round
  replying : ∀ parcel, view.ata.state = .replying parcel → Answers owed parcel
  queuedReply : ∀ parcel, (.ata, parcel) ∈ view.queue → Answers owed parcel
  queuedRequest : ∀ c parcel, (.client c, parcel) ∈ view.queue →
    ∃ round, parcel.origin = .request c round ∧ (view.caller c).state = .asked round parcel.msg
  answered : ∀ c round request reply, (view.caller c).state = .answered round request reply →
    reply.origin = .reply (.request c round) ∧ ataReply request = some reply.msg

theorem serves_start : Serves (start : Store Client).view none := by
  constructor <;> simp [start, Net.start, Store.view]

namespace Serves

variable {owed : Option (Client × Nat × Message)} {view : View Client}

theorem corresponds (serves : Serves view owed) : Corresponds view where
  replies := serves.answered
  requests := by
    intro parcel serving answers reply
    obtain ⟨c, round, _, request⟩ := serves.serving parcel serving
    rw [request] at reply
    cases reply

/-! ## One step of the service or of a client -/

theorem serve {request : Parcel Client} (serves : Serves view owed) (ready : view.ata = .ready (.serving request)) :
    Serves { view with ata := .ready (Ata.serve request) } owed := by
  cases serves
  unfold Ata.serve
  constructor <;> grind [Answers]

theorem queueReply {reply : Parcel Client} (serves : Serves view owed) (ready : view.ata = .ready (.replying reply)) :
    Serves { view with ata := .sending () .listening, queue := view.queue ++ [(.ata, reply)] } owed := by
  cases serves
  constructor <;> grind

theorem awaitRequest (serves : Serves view owed) (ready : view.ata = .ready .listening) :
    Serves { view with ata := .receiving () .listening, queue := [] } owed := by
  cases serves
  constructor <;> grind

variable [DecidableEq Client] {c : Client} {round : Nat}

theorem finish {request : Message} {reply : Parcel Client} (serves : Serves view owed)
    (ready : view.caller c = .ready (.answered round request reply)) (returned : Option Bool) :
    Serves { view with caller := Function.update view.caller c (.ready (.idle (round + 1) returned)) } owed := by
  cases serves
  constructor <;> grind [Function.update_apply]

theorem queueRequest {returned : Option Bool} (serves : Serves view owed)
    (ready : view.caller c = .ready (.idle round returned)) (msg : Message) :
    Serves { view with
      caller := Function.update view.caller c (.sending () (.asked round msg))
      queue := view.queue ++ [(.client c, ⟨msg, .request c round⟩)] } owed := by
  cases serves
  constructor <;> grind [Function.update_apply]

theorem awaitReply {request : Message} (serves : Serves view owed)
    (ready : view.caller c = .ready (.asked round request)) :
    Serves { view with
      caller := Function.update view.caller c (.receiving () (.asked round request))
      queue := [] } owed := by
  cases serves
  constructor <;> grind [Function.update_apply]

theorem deliverReply {reply : Parcel Client} (serves : Serves view owed) (ready : view.ata = .ready (.replying reply))
    (waits : (view.caller c).receivesFrom = some ()) :
    Serves ⟨.ready .listening,
      Function.update view.caller c (.ready (protocol.resume (.client c) (view.caller c).state reply)), []⟩ none := by
  have answers := serves.replying reply (by simp [ready])
  obtain ⟨round, request, state⟩ := serves.receivers c waits
  have mute := Status.sendsTo_of_receives waits
  -- its request was taken, and only one such call is open at a time
  have isOwed := (serves.asked c round request state).resolve_left (by simp [mute])
  cases serves
  simp only [state, protocol]
  constructor <;> grind [Function.update_apply, Answers]

theorem deliverRequest (serves : Serves view owed) (waits : view.ata.receivesFrom = some ()) (msg : Message) :
    Serves ⟨.ready (protocol.resume .ata view.ata.state ⟨msg, .request c round⟩),
      Function.update view.caller c (.ready (.asked round msg)), []⟩ (some (c, round, msg)) := by
  have state := serves.waiting (.inr waits)
  have free := serves.listening state (Status.sendsTo_of_receives waits)
  cases serves
  simp only [state, protocol]
  constructor <;> grind [Function.update_apply, Answers]

/-- The service takes a request only while nothing is owed, so no reply is in the queue. -/
theorem takeRequest {parcel : Parcel Client} {rest : List (Party Client × Parcel Client)} (serves : Serves view owed)
    (ready : view.ata = .ready .listening) (queue : view.queue = (.client c, parcel) :: rest) :
    ∃ owed, Serves ⟨.ready (.serving parcel), Function.update view.caller c (.ready (view.caller c).state),
      rest⟩ owed := by
  obtain ⟨round, origin, state⟩ := serves.queuedRequest c parcel (by simp [queue])
  have free := serves.listening (by simp [ready]) (by simp [ready])
  refine ⟨some (c, round, parcel.msg), ?_⟩
  cases serves
  constructor <;> grind [Function.update_apply, Answers]

theorem takeReply {request : Message} {reply : Parcel Client} {rest : List (Party Client × Parcel Client)}
    (serves : Serves view owed) (ready : view.caller c = .ready (.asked round request))
    (queue : view.queue = (.ata, reply) :: rest) (sends : view.ata.sendsTo = some ())
    (once : ∀ parcel, (.ata, parcel) ∉ rest) (absent : ∀ parcel, (.client c, parcel) ∉ rest) :
    Serves ⟨.ready view.ata.state, Function.update view.caller c (.ready (.answered round request reply)),
      rest⟩ none := by
  have answers := serves.queuedReply reply (by simp [queue])
  have isOwed := (serves.asked c round request (by simp [ready])).resolve_left (by simp [ready])
  cases serves
  constructor <;> grind [Function.update_apply, Answers]

end Serves

namespace Store

variable [DecidableEq Client] {net after : Store Client} {owed : Option (Client × Nat × Message)}

omit [DecidableEq Client] in
@[simp] theorem view_setPort (ep : Unit) (port : Port (Party Client) (Parcel Client)) :
    view (net.setPort ep port) = { net.view with queue := port.queued } := by
  simp [view, Net.setPort]

omit [DecidableEq Client] in
@[simp] theorem view_setShared (shared : Unit) : view (net.setShared shared) = net.view := rfl

@[simp] theorem view_setStatus_ata (status : Status Unit (Ata Client)) :
    view (net.setStatus .ata status) = { net.view with ata := status } := by
  simp [view, Net.setStatus]

@[simp] theorem view_setStatus_client (c : Client) (status : Status Unit (Caller Client)) :
    view (net.setStatus (.client c) status) = { net.view with caller := Function.update net.view.caller c status } := by
  have callers : (fun other => Function.update net.status (.client c) status (.client other)) =
      Function.update net.view.caller c status := by
    funext other
    by_cases same : other = c
    · subst same
      simp
    · simp [same, view]
  simp only [view, Net.setStatus, callers]
  simp

theorem serves_step {label : Party Client × SectorCall} (coherent : net.Coherent) (serves : Serves net.view owed)
    (paired : net.inPairs label = true) (taken : net.step protocol label = some after) :
    ∃ owed, Serves after.view owed := by
  obtain ⟨party, call⟩ := label
  have moves := Net.moves_of_step taken
  -- by kind of step, then by who makes it and in which state; the other states do not command it
  cases moves with
  | @compute state next shared ready commanded =>
    cases party with
    | ata =>
      cases state with
      | serving request =>
        obtain ⟨rfl, _⟩ := by simpa [protocol] using commanded
        exact ⟨owed, by simpa using serves.serve ready⟩
      | _ => simp [protocol] at commanded
    | client c =>
      cases state with
      | answered round request reply =>
        obtain ⟨rfl, _⟩ := by simpa [protocol] using commanded
        exact ⟨owed, by simpa using serves.finish ready _⟩
      | _ => simp [protocol] at commanded
  | @deliver state next ep msg receiver rest ready commanded port =>
    have waits := (coherent.receives () receiver).mp (by simp [port])
    cases party with
    | ata =>
      cases state with
      | replying reply =>
        obtain ⟨rfl, rfl⟩ := by simpa [protocol] using commanded
        cases receiver with
        -- the service is sending and cannot be waiting as well
        | ata => simp [ready] at waits
        | client c =>
          refine ⟨none, ?_⟩
          simp only [view_setStatus_ata, view_setStatus_client, view_setPort]
          exact serves.deliverReply ready waits
      | _ => simp [protocol] at commanded
    | client c =>
      cases state with
      | idle round returned =>
        obtain ⟨rfl, rfl⟩ := by simpa [protocol] using commanded
        cases receiver with
        | ata =>
          refine ⟨some (c, round, call.message), ?_⟩
          simp only [view_setStatus_ata, view_setStatus_client, view_setPort]
          exact serves.deliverRequest waits call.message
        | client other => simp [inPairs, Net.partner, Net.command, ready, commanded, port, Party.isAta] at paired
      | _ => simp [protocol] at commanded
  | @blockSend state next ep msg ready commanded port =>
    cases party with
    | ata =>
      cases state with
      | replying reply =>
        obtain ⟨rfl, rfl⟩ := by simpa [protocol] using commanded
        refine ⟨owed, ?_⟩
        simp only [view_setStatus_ata, view_setPort]
        exact serves.queueReply ready
      | _ => simp [protocol] at commanded
    | client c =>
      cases state with
      | idle round returned =>
        obtain ⟨rfl, rfl⟩ := by simpa [protocol] using commanded
        refine ⟨owed, ?_⟩
        simp only [view_setStatus_client, view_setPort]
        exact serves.queueRequest ready call.message
      | _ => simp [protocol] at commanded
  | lose ready commanded port => simp [inPairs, Net.loses, Net.command, ready, commanded, port] at paired
  | @take state ep parcel sender rest ready commanded port =>
    have queue : net.view.queue = (sender, parcel) :: rest := by simp [view, port]
    have sends := (coherent.sends () sender).mp (by simp [port])
    cases party with
    | ata =>
      cases state with
      | listening =>
        cases sender with
        | ata => simp [ready] at sends
        | client c =>
          obtain ⟨owed, serves⟩ := serves.takeRequest ready queue
          refine ⟨owed, ?_⟩
          simp only [view_setStatus_ata, view_setStatus_client, view_setPort]
          exact serves
      | _ => simp [protocol] at commanded
    | client c =>
      cases state with
      | asked round request =>
        cases sender with
        | ata =>
          refine ⟨none, ?_⟩
          simp only [view_setStatus_ata, view_setStatus_client, view_setPort]
          apply serves.takeReply ready queue sends (coherent.not_again port)
          -- a client that is receiving has no request in the queue
          intro other member
          have mute : (net.status (.client c)).sendsTo = none := by simp [ready]
          exact coherent.not_queued mute () other (by simp [port, member])
        | client other => simp [inPairs, Net.partner, Net.command, ready, commanded, port, Party.isAta] at paired
      | _ => simp [protocol] at commanded
  | @blockReceive state ep ready commanded port =>
    cases party with
    | ata =>
      cases state with
      | listening =>
        refine ⟨owed, ?_⟩
        simp only [view_setStatus_ata, view_setPort]
        exact serves.awaitRequest ready
      | _ => simp [protocol] at commanded
    | client c =>
      cases state with
      | asked round request =>
        refine ⟨owed, ?_⟩
        simp only [view_setStatus_client, view_setPort]
        exact serves.awaitReply ready
      | _ => simp [protocol] at commanded
  | starve ready commanded port => simp [inPairs, Net.starves, Net.command, ready, commanded, port] at paired

variable {history : List (Store Client × (Party Client × SectorCall))}

theorem serves_of_run (run : StoreRun Client history net)
    (paired : Run.Guarded (fun net label => net.inPairs label = true) history) :
    net.Coherent ∧ ∃ owed, Serves net.view owed := by
  apply run.invariant (fun net : Store Client => net.Coherent ∧ ∃ owed, Serves net.view owed) _ _ _ paired
  · exact ⟨Net.coherent_start _ _, none, serves_start⟩
  · rintro state ⟨party, call⟩ after ⟨coherent, owed, serves⟩ guarded taken
    exact ⟨coherent.step (Net.moves_of_step taken), serves_step coherent serves guarded taken⟩

/-- Where no message is lost or made up and every handover is between the service and a
client, clients get the replies to their own calls. -/
theorem corresponds_of_run (run : StoreRun Client history net)
    (paired : Run.Guarded (fun net label => net.inPairs label = true) history) : Corresponds net.view := by
  obtain ⟨_, owed, serves⟩ := serves_of_run run paired
  exact serves.corresponds

/-- One client whose call comes to the endpoint before the service does: its receive finds
the queue that the service has just emptied and returns without any reply. -/
theorem answered_by_nobody : ∃ history, ∃ net : Store Unit, StoreRun Unit history net ∧ ¬ Corresponds net.view := by
  obtain ⟨history, net, run, _, _, wrong⟩ := Run.of_check (Net.step protocol) (fun _ _ => true) (start : Store Unit)
    [(.client (), .readSector 2000 0), (.ata, .readSector 0 0), (.client (), .readSector 0 0)]
    (fun net : Store Unit => match (net.view.caller ()).state with
      | .answered _ _ reply => decide (reply.origin = .nobody)
      | _ => false) (by decide +kernel)
  refine ⟨history, net, run, ?_⟩
  intro corresponds
  cases state : (view net |>.caller ()).state with
  | answered round request reply =>
    have answers := (corresponds.replies () round request reply state).1
    simp [state, answers] at wrong
  | _ => simp [state] at wrong

/-- Two clients served one after the other. -/
theorem corresponds_two_clients : ∃ history, ∃ net : Store Bool, StoreRun Bool history net ∧
    (∀ c, (net.view.caller c).state.isAnswered = true) ∧ Corresponds net.view := by
  obtain ⟨history, net, run, _, paired, served⟩ := Run.of_check (Net.step protocol) (fun net label => inPairs net label)
    (start : Store Bool)
    ([true, false].flatMap fun c => [(.ata, .readSector 0 0), (.client c, .writeSector 2000 0),
      (.client c, .readSector 0 0), (.ata, .readSector 0 0), (.ata, .readSector 0 0)])
    (fun net : Store Bool => decide (∀ c, (net.view.caller c).state.isAnswered = true)) (by decide +kernel)
  exact ⟨history, net, run, of_decide_eq_true served, corresponds_of_run run paired⟩

end Store

end ElseOS.Storage
