import ElseOS.Services.BlockStore

/-! `fat16_service` between its clients and the block service.

The service keeps one file, in sector 2000. For a read or write it sends a block request
and waits for the reply; the block service does what it is asked when it reports success,
and nothing otherwise. Clients fill the shared page at any time. -/

set_option autoImplicit false

namespace ElseOS.Fat16

open Ata (SectorStore)
open Storage (SectorCall)

def vfsRead : UInt64 := 11
def vfsWrite : UInt64 := 12

def blockCall (request : Message) : Option SectorCall :=
  if request.rdi = vfsWrite then some (.writeSector 2000 0)
  else if request.rdi = vfsRead then some (.readSector 2000 0)
  else none

/-- A block reply, with what the shared page held from 0 to 512 when the request was served. -/
structure Served where
  reply : Message
  bytes : List UInt8
  deriving DecidableEq, Repr

inductive Phase where
  | listening
  /-- In `read_sector` or `write_sector`, after the send. -/
  | asked (request : Message) (call : SectorCall)
  /-- About to answer, with the reply to the block request, if there was one. -/
  | answering (request : Message) (block : Option Served)
  deriving DecidableEq, Repr

def Served.succeeded (served : Served) : Bool := served.reply.rdi == 0

/-- The answer of the loop. What the block call returned is dropped. -/
def answer (request : Message) : Option Served → Message
  | some served =>
    let _ := served.succeeded
    { request with rdi := 0 }
  | none => { request with rdi := 1 }

structure State where
  phase : Phase
  store : SectorStore

inductive Act where
  /-- `sys_recv` returns a request of a client. -/
  | receive (request : Message)
  /-- The block service serves the request with this reply. -/
  | block (reply : Message)
  | answer
  | fill (page : Base.Buffer 4096 UInt8)

namespace State

def step (state : State) : Act → Option State
  | .receive request =>
    match state.phase with
    | .listening =>
      match blockCall request with
      | some call => some { state with phase := .asked request call }
      | none => some { state with phase := .answering request none }
    | _ => none
  | .block reply =>
    match state.phase with
    | .asked request call => some {
        phase := .answering request (some ⟨reply, (state.store.shm.read 0 512).getD []⟩)
        store := if reply.rdi = 0 then state.store.apply (.request call.message) else state.store }
    | _ => none
  | .answer =>
    match state.phase with
    | .answering _ _ => some { state with phase := .listening }
    | _ => none
  | .fill page => some { state with store := { state.store with shm := page } }

/-- An answer of success to a read or write stands on a block reply of success; after a write
the sector holds what the page held then. -/
def Truthful (state : State) : Prop :=
  ∀ request block, state.phase = .answering request block → (blockCall request).isSome = true →
    (Fat16.answer request block).rdi = 0 →
    ∃ served, block = some served ∧ served.reply.rdi = 0 ∧
      (request.rdi = vfsWrite → state.store.sectors 2000 = served.bytes)

variable {state after : State}

def Matched (state : State) : Prop := ∀ request call, state.phase = .asked request call → blockCall request = some call

theorem Matched.step (matched : state.Matched) {act : Act} (taken : state.step act = some after) : after.Matched := by
  intro request call asked
  cases act with
  | receive received =>
    simp only [State.step] at taken
    split at taken
    next =>
      split at taken
      next found =>
        cases taken
        cases asked
        exact found
      next =>
        cases taken
        cases asked
    next => cases taken
  | block reply =>
    simp only [State.step] at taken
    split at taken
    next =>
      cases taken
      cases asked
    next => cases taken
  | answer =>
    simp only [State.step] at taken
    split at taken
    next =>
      cases taken
      cases asked
    next => cases taken
  | fill page =>
    cases taken
    exact matched request call asked

theorem sectors_write (store : SectorStore) :
    (store.apply (.request (SectorCall.writeSector 2000 0).message)).sectors 2000 = (store.shm.read 0 512).getD [] := by
  have writes : (SectorCall.writeSector 2000 0).message.rdi = Storage.msgBlockWrite := rfl
  have other : ¬ (SectorCall.writeSector 2000 0).message.rdi = Storage.msgBlockRead := by decide
  have sector : (SectorCall.writeSector 2000 0).message.rsi.toUInt32 = 2000 := by decide
  have offset : (SectorCall.writeSector 2000 0).message.rdx.toNat = 0 := rfl
  rw [SectorStore.apply, if_neg other, if_pos writes, SectorStore.write, sector, offset]
  dsimp only
  rw [Function.update_self]

theorem Truthful.step (truthful : state.Truthful) (matched : state.Matched) {act : Act}
    (succeeds : ∀ reply, act = .block reply → reply.rdi = 0) (taken : state.step act = some after) :
    after.Truthful := by
  intro request block answering isCall success
  cases act with
  | receive received =>
    simp only [State.step] at taken
    split at taken
    next =>
      split at taken
      next =>
        cases taken
        cases answering
      next refused =>
        cases taken
        cases answering
        rw [refused] at isCall
        cases isCall
    next => cases taken
  | block reply =>
    simp only [State.step] at taken
    split at taken
    next asked call phase =>
      have found := matched asked call phase
      have zero := succeeds reply rfl
      cases taken
      cases answering
      refine ⟨_, rfl, zero, ?_⟩
      intro writes
      rw [blockCall, if_pos writes] at found
      dsimp only
      rw [if_pos zero, ← Option.some.inj found, sectors_write]
    next => cases taken
  | answer =>
    simp only [State.step] at taken
    split at taken
    next =>
      cases taken
      cases answering
    next => cases taken
  | fill page =>
    cases taken
    exact truthful request block answering isCall success

/-- In every run whose block replies all report success, the answers are truthful. -/
theorem truthful_of_run {store : SectorStore} {history : List (State × Act)}
    (run : Base.Run State.step ⟨.listening, store⟩ history state)
    (succeed : Base.Run.Guarded (fun _ act => ∀ reply, act = .block reply → reply.rdi = 0) history) :
    state.Truthful := by
  have both := run.invariant (fun state => state.Matched ∧ state.Truthful)
    (fun _ act => ∀ reply, act = .block reply → reply.rdi = 0) ⟨nofun, nofun⟩
    (fun ⟨matched, truthful⟩ succeeds taken => ⟨matched.step taken, truthful.step matched succeeds taken⟩) succeed
  exact both.2

/-- The requests of the service are ones the ATA service accepts. -/
theorem ataReply_blockCall {request : Message} {call : SectorCall} (found : blockCall request = some call) :
    Storage.ataReply call.message = some { call.message with rdi := 0 } := by
  unfold blockCall at found
  split at found
  next =>
    cases found
    decide
  next =>
    split at found
    next =>
      cases found
      decide
    next => cases found

/-- A round of the ATA service is a step of the block service here, and it reports success. -/
theorem block_by_ata {service : Ata.Service} (idle : service.Idle) (same : service.store = state.store)
    {request : Message} {call : SectorCall} (asked : state.phase = .asked request call)
    (found : blockCall request = some call) :
    ∃ served reply after, service.handle call.message = some (served, reply) ∧ served.Idle ∧ reply.rdi = 0 ∧
      state.step (.block reply) = some after ∧ after.store = served.store := by
  obtain ⟨served, handled, rests, stored⟩ := Ata.Service.handle_refines idle (ataReply_blockCall found)
  rw [if_pos rfl] at stored
  refine ⟨served, _, _, handled, rests, rfl, by rw [State.step, asked], ?_⟩
  dsimp only
  rw [if_pos rfl, stored, same]

def blankStore : SectorStore := ⟨fun _ => [], fun i => UInt8.ofNat i⟩

def writeRequest : Message := ⟨vfsWrite, 0, 0, 0, 0, 0⟩

def afterBlock (reply : Message) : State where
  phase := .answering writeRequest (some ⟨reply, (blankStore.shm.read 0 512).getD []⟩)
  store := if reply.rdi = 0 then blankStore.apply (.request (SectorCall.writeSector 2000 0).message) else blankStore

theorem run_afterBlock (reply : Message) : Base.Run State.step ⟨.listening, blankStore⟩
    [(⟨.listening, blankStore⟩, .receive writeRequest),
      (⟨.asked writeRequest (.writeSector 2000 0), blankStore⟩, .block reply)] (afterBlock reply) := by
  have received : State.step ⟨.listening, blankStore⟩ (.receive writeRequest) =
      some ⟨.asked writeRequest (.writeSector 2000 0), blankStore⟩ := rfl
  exact (Base.Run.single received).next rfl

/-- A write that the block service performs. -/
theorem truthful_write : (afterBlock .zero).Truthful ∧
    (Fat16.answer writeRequest (some ⟨.zero, (blankStore.shm.read 0 512).getD []⟩)).rdi = 0 := by
  refine ⟨truthful_of_run (run_afterBlock .zero) ?_, rfl⟩
  intro entry member reply isBlock
  simp only [List.mem_cons, List.not_mem_nil, or_false] at member
  rcases member with rfl | rfl
  · cases isBlock
  · cases isBlock
    rfl

/-- A write that the block service refuses is answered with success all the same. -/
theorem refused_write_succeeds : ∃ history, Base.Run State.step ⟨.listening, blankStore⟩ history
      (afterBlock ⟨1, 2000, 0, 0, 0, 0⟩) ∧
    (afterBlock ⟨1, 2000, 0, 0, 0, 0⟩).store.sectors 2000 = [] ∧ ¬ (afterBlock ⟨1, 2000, 0, 0, 0, 0⟩).Truthful := by
  refine ⟨_, run_afterBlock _, rfl, ?_⟩
  intro truthful
  obtain ⟨served, same, success, _⟩ := truthful writeRequest _ rfl rfl rfl
  cases same
  cases success

end State

end ElseOS.Fat16
