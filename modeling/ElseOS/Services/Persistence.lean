import ElseOS.Base.Token
import ElseOS.Services.Fat16

/-! `storage_test`, `fat16_service` and the ATA service, end to end.

The test fills the shared page, has the file written, clears the page, has the file read and
compares. The page is shared by all three and nothing guards it; what keeps them apart is that
one of them at a time has something to do. The transfers and the loops of the test go byte by
byte here, so that others could come in between. -/

set_option autoImplicit false

namespace ElseOS.Persistence

open Ata (SectorStore Service)
open Base (Command Config Net Passes Protocol Run Turns Word)
open Storage (SectorCall ataReply msgBlockFlush msgBlockRead msgBlockWrite)

inductive Part where
  | storageTest | fat16 | ata
  deriving DecidableEq, Repr

inductive Ep where
  | vfs | ata
  deriving DecidableEq, Repr

def signature : List UInt8 :=
  [0x45, 0x4C, 0x53, 0x45, 0x5F, 0x50, 0x45, 0x52, 0x53, 0x49, 0x53, 0x54, 0x45, 0x4E, 0x43, 0x45, 0x5F,
    0x54, 0x45, 0x53, 0x54, 0x5F, 0x76, 0x31]

/-! ## The shared page -/

/-- `shm_buf[i]`; no program here goes past the page. -/
def byteAt (shm : Base.Buffer 4096 UInt8) (i : Nat) : UInt8 := if inside : i < 4096 then shm ⟨i, inside⟩ else 0

def store (state : SectorStore) (i : Nat) (value : UInt8) : SectorStore :=
  { state with shm := state.shm.write i [value] }

theorem byteAt_store (state : SectorStore) (i j : Nat) (value : UInt8) (inside : i < 4096) :
    byteAt (store state i value).shm j = if j = i then value else byteAt state.shm j := by
  unfold byteAt store Base.Buffer.write
  by_cases same : j = i
  · subst same
    simp [inside]
  · by_cases inPage : j < 4096
    · by_cases later : i ≤ j
      · have past : ([value] : List UInt8)[j - i]? = none := List.getElem?_eq_none (by simp; omega)
        simp [inPage, same, later, past]
      · simp [inPage, same, later]
    · simp [inPage, same]

/-! ## The programs -/

inductive Verdict where
  | writeFailed | readFailed | success | mismatch
  deriving DecidableEq, Repr

inductive Test where
  | filling (done : Nat)
  | sendingWrite
  | awaitingWrite
  | wrote (reply : Message)
  | clearing (reply : Message) (done : Nat)
  | sendingRead (request : Message)
  | awaitingRead
  | readBack (reply : Message)
  | comparing (done : Nat)
  | exited (verdict : Verdict)
  deriving DecidableEq, Repr

inductive Fat where
  | listening
  | received (request : Message)
  | asking (request : Message) (call : SectorCall)
  | awaiting (request : Message)
  | answering (reply : Message)
  deriving DecidableEq, Repr

inductive Disk where
  | listening
  | received (request : Message)
  | reading (request : Message) (done : Nat)
  | writing (request : Message) (bytes : List UInt8)
  | replying (reply : Message)
  | gone
  deriving DecidableEq, Repr

abbrev Local : Part → Type
  | .storageTest => Test
  | .fat16 => Fat
  | .ata => Disk

abbrev Step (Local : Type) := Option (Command Ep Message SectorStore Local)

def Test.command (state : Test) (page : SectorStore) : Step Test :=
  match state with
  | .filling i =>
    if i < signature.length then some (.compute (.filling (i + 1)) (store page i (signature.getD i 0)))
    else some (.compute .sendingWrite page)
  | .sendingWrite => some (.send .vfs ⟨Fat16.vfsWrite, 0, 0, 0, 0, 0⟩ .awaitingWrite)
  | .awaitingWrite => some (.receive .vfs)
  | .wrote reply => some (.compute (if reply.rdi ≠ 0 then .exited .writeFailed else .clearing reply 0) page)
  | .clearing reply i =>
    if i < 512 then some (.compute (.clearing reply (i + 1)) (store page i 0))
    else some (.compute (.sendingRead { reply with rdi := Fat16.vfsRead }) page)
  | .sendingRead request => some (.send .vfs request .awaitingRead)
  | .awaitingRead => some (.receive .vfs)
  | .readBack reply => some (.compute (if reply.rdi ≠ 0 then .exited .readFailed else .comparing 0) page)
  | .comparing i =>
    if i < signature.length then
      some (.compute (if byteAt page.shm i ≠ signature.getD i 0 then .exited .mismatch else .comparing (i + 1)) page)
    else some (.compute (.exited .success) page)
  | .exited _ => none

def Fat.command (state : Fat) (page : SectorStore) : Step Fat :=
  match state with
  | .listening => some (.receive .vfs)
  | .received request =>
    some (.compute (match Fat16.blockCall request with
      | some call => .asking request call
      | none => .answering { request with rdi := 1 }) page)
  | .asking request call => some (.send .ata call.message (.awaiting request))
  | .awaiting _ => some (.receive .ata)
  | .answering reply => some (.send .vfs reply .listening)

/-- The checks of the ATA service on a request. The slice panics when `offset + 512` wraps around. -/
def Disk.accept (request : Message) : Disk :=
  let lba := request.rsi.toUInt32
  let offset := request.rdx
  if offset + 512 > 4096 then .replying { request with rdi := 1 }
  else if lba ≥ 20480 then .replying { request with rdi := 1 }
  else if request.rdi = msgBlockRead then if offset > offset + 512 then .gone else .reading request 0
  else if request.rdi = msgBlockWrite then if offset > offset + 512 then .gone else .writing request []
  else if request.rdi = msgBlockFlush then .replying { request with rdi := 0 }
  else .replying { request with rdi := 1 }

def Disk.command (state : Disk) (page : SectorStore) : Step Disk :=
  match state with
  | .listening => some (.receive .ata)
  | .received request => some (.compute (.accept request) page)
  | .reading request i =>
    if i < 512 then
      some (.compute (.reading request (i + 1))
        (store page (request.rdx.toNat + i) ((page.sectors request.rsi.toUInt32).getD i 0)))
    else some (.compute (.replying { request with rdi := 0 }) page)
  | .writing request bytes =>
    if bytes.length < 512 then
      some (.compute (.writing request (bytes ++ [byteAt page.shm (request.rdx.toNat + bytes.length)])) page)
    else some (.compute (.replying { request with rdi := 0 })
      { page with sectors := Function.update page.sectors request.rsi.toUInt32 bytes })
  | .replying reply => some (.send .ata reply .listening)
  | .gone => none

/-! ## A request that nobody disturbs -/

def Disk.alone : Nat → Disk → SectorStore → Disk × SectorStore
  | 0, state, page => (state, page)
  | steps + 1, state, page =>
    match state.command page with
    | some (.compute next changed) => Disk.alone steps next changed
    | _ => (state, page)

theorem byteAt_of_read {shm : Base.Buffer 4096 UInt8} {offset len i : Nat} {bytes : List UInt8}
    (slice : shm.read offset len = some bytes) (inside : i < len) : byteAt shm (offset + i) = bytes.getD i 0 := by
  have bound := Base.Buffer.inside_of_read slice
  unfold Base.Buffer.read at slice
  rw [dif_pos bound] at slice
  obtain rfl := Option.some.inj slice
  rw [List.getD_eq_getElem _ _ (by simpa using inside), List.getElem_ofFn, byteAt, dif_pos (by omega)]

/-- What was copied so far, and the rest. -/
theorem Disk.alone_reading {request : Message} {page : SectorStore} {done left : Nat} (all : done + left = 512)
    (whole : (page.sectors request.rsi.toUInt32).length = 512) :
    Disk.alone (left + 1) (.reading request done)
      { page with shm := page.shm.write request.rdx.toNat ((page.sectors request.rsi.toUInt32).take done) } =
    (.replying { request with rdi := 0 }, page.read request.rsi.toUInt32 request.rdx.toNat) := by
  induction left generalizing done with
  | zero =>
    obtain rfl : done = 512 := by omega
    simp [Disk.alone, Disk.command, SectorStore.read, ← whole]
  | succ left ih =>
    have more : done < 512 := by omega
    have length : ((page.sectors request.rsi.toUInt32).take done).length = done := by
      rw [List.length_take]
      omega
    have grown : (page.sectors request.rsi.toUInt32).take (done + 1) =
        (page.sectors request.rsi.toUInt32).take done ++ [(page.sectors request.rsi.toUInt32).getD done 0] := by
      rw [List.take_add_one, List.getD_eq_getElem _ _ (by omega), List.getElem?_eq_getElem (by omega)]
      rfl
    rw [← @ih (done + 1) (by omega), grown, ← Base.Buffer.write_append, length]
    rw [Disk.alone, Disk.command, if_pos more]
    rfl

theorem Disk.alone_writing {request : Message} {page : SectorStore} {bytes : List UInt8} {done left : Nat}
    (all : done + left = 512) (slice : page.shm.read request.rdx.toNat 512 = some bytes) :
    Disk.alone (left + 1) (.writing request (bytes.take done)) page =
    (.replying { request with rdi := 0 }, page.write request.rsi.toUInt32 request.rdx.toNat) := by
  have whole := Base.Buffer.length_of_read slice
  induction left generalizing done with
  | zero =>
    obtain rfl : done = 512 := by omega
    rw [List.take_of_length_le (by omega)]
    simp [Disk.alone, Disk.command, SectorStore.write, slice, whole]
  | succ left ih =>
    have more : done < 512 := by omega
    have length : (bytes.take done).length = done := by
      rw [List.length_take]
      omega
    have grown : bytes.take (done + 1) = bytes.take done ++ [byteAt page.shm (request.rdx.toNat + done)] := by
      rw [byteAt_of_read slice more, List.take_add_one, List.getD_eq_getElem _ _ (by omega),
        List.getElem?_eq_getElem (by omega)]
      rfl
    rw [← @ih (done + 1) (by omega), grown]
    rw [Disk.alone, Disk.command, length, if_pos more]

theorem Disk.alone_replying (reply : Message) (page : SectorStore) :
    Disk.alone 513 (.replying reply) page = (.replying reply, page) := rfl

theorem Disk.alone_received (steps : Nat) (request : Message) (page : SectorStore) :
    Disk.alone (steps + 1) (.received request) page = Disk.alone steps (.accept request) page := rfl

theorem Disk.alone_accept {request reply : Message} {page : SectorStore} (replies : ataReply request = some reply)
    (whole : (page.sectors request.rsi.toUInt32).length = 512) :
    Disk.alone 513 (.accept request) page =
      (.replying reply, if reply.rdi = 0 then page.apply (.request request) else page) := by
  unfold ataReply at replies
  unfold Disk.accept
  dsimp only at replies ⊢
  split at replies
  next beyond =>
    obtain rfl := Option.some.inj replies
    rw [if_pos beyond, Disk.alone_replying]
    rfl
  next inside =>
    rw [if_neg inside]
    split at replies
    next invalid =>
      obtain rfl := Option.some.inj replies
      rw [if_pos invalid, Disk.alone_replying]
      rfl
    next valid =>
      rw [if_neg valid]
      split at replies
      next transfers =>
        split at replies
        · cases replies
        next straight =>
          obtain rfl := Option.some.inj replies
          rw [if_neg straight, if_neg straight, if_pos rfl, SectorStore.apply]
          by_cases asked : request.rdi = msgBlockRead
          · rw [if_pos asked, if_pos asked, ← Disk.alone_reading (Nat.zero_add 512) whole, List.take_zero,
              Base.Buffer.write_nil]
          · have sliced := Service.slice_of_bound inside page.shm
            rw [if_neg straight] at sliced
            obtain ⟨bytes, slice⟩ := sliced
            have writes := transfers.resolve_left asked
            rw [if_neg asked, if_neg asked, if_pos writes, if_pos writes,
              ← Disk.alone_writing (Nat.zero_add 512) slice, List.take_zero]
      next neither =>
        rw [not_or] at neither
        rw [if_neg neither.1, if_neg neither.2]
        split at replies
        next asked =>
          obtain rfl := Option.some.inj replies
          rw [if_pos asked, Disk.alone_replying, if_pos rfl, SectorStore.apply, if_neg neither.1, if_neg neither.2]
        next unknown =>
          obtain rfl := Option.some.inj replies
          rw [if_neg unknown, Disk.alone_replying]
          rfl

/-- While nobody else writes to the page, the service that moves one byte at a time does what the service
that takes the whole request at once does. -/
theorem Disk.alone_eq_handle {service : Service} {request reply : Message} (idle : service.Idle)
    (replies : ataReply request = some reply) :
    ∃ served, service.handle request = some (served, reply) ∧
      Disk.alone 514 (.received request) service.store = (.replying reply, served.store) := by
  obtain ⟨served, handled, -, stored⟩ := Service.handle_refines idle replies
  refine ⟨served, handled, ?_⟩
  have whole : (service.store.sectors request.rsi.toUInt32).length = 512 := by
    have words : (List.ofFn (service.system.disk.medium request.rsi.toUInt32)).length = 256 := List.length_ofFn
    show ((List.ofFn (service.system.disk.medium request.rsi.toUInt32)).flatMap Ata.wordBytes).length = 512
    rw [Ata.length_flatMap_wordBytes, words]
  rw [Disk.alone_received, Disk.alone_accept replies whole]
  split at stored
  next succeeds => rw [if_pos succeeds, stored]
  next fails => rw [if_neg fails, stored]

def protocol : Protocol Part Ep Message SectorStore Unit Local where
  command
    | .storageTest, state, _, page => Test.command state page
    | .fat16, state, _, page => Fat.command state page
    | .ata, state, _, page => Disk.command state page
  resume
    | .storageTest, .awaitingWrite, reply => Test.wrote reply
    | .storageTest, .awaitingRead, reply => Test.readBack reply
    | .storageTest, state, _ => state
    | .fat16, .listening, request => Fat.received request
    -- what `read_sector` and `write_sector` return is dropped
    | .fat16, .awaiting request, _ => Fat.answering { request with rdi := 0 }
    | .fat16, state, _ => state
    | .ata, .listening, request => Disk.received request
    | .ata, state, _ => state
  blank := .zero

def begins : (part : Part) → Local part
  | .storageTest => Test.filling 0
  | .fat16 => Fat.listening
  | .ata => Disk.listening

def start (page : SectorStore) : Net Part Ep Message SectorStore Local :=
  Net.start begins page

/-! ## One of them at a time -/

def listens : (part : Part) → Local part → Option Ep
  | .storageTest, .awaitingWrite => some .vfs
  | .storageTest, .awaitingRead => some .vfs
  | .storageTest, _ => none
  | .fat16, .listening => some .vfs
  | .fat16, .awaiting _ => some .ata
  | .fat16, _ => none
  | .ata, .listening => some .ata
  | .ata, _ => none

theorem Test.keeps {state next : Test} {page changed : SectorStore}
    (commanded : state.command page = some (.compute next changed)) : listens .storageTest next = none := by
  cases state <;> simp only [Test.command, Option.some.injEq, Command.compute.injEq, reduceCtorEq] at commanded
  case wrote | readBack =>
    obtain ⟨rfl, _⟩ := commanded
    split <;> rfl
  case comparing =>
    split at commanded
    · simp only [Option.some.injEq, Command.compute.injEq] at commanded
      obtain ⟨rfl, _⟩ := commanded
      split <;> rfl
    · cases commanded
      rfl
  all_goals
    split at commanded <;>
      (cases commanded
       rfl)

theorem Fat.keeps {state next : Fat} {page changed : SectorStore}
    (commanded : state.command page = some (.compute next changed)) : listens .fat16 next = none := by
  cases state with
  | received request =>
    simp only [Fat.command, Option.some.injEq, Command.compute.injEq] at commanded
    obtain ⟨rfl, _⟩ := commanded
    cases Fat16.blockCall request <;> rfl
  | _ => cases commanded

theorem Disk.keeps {state next : Disk} {page changed : SectorStore}
    (commanded : state.command page = some (.compute next changed)) : listens .ata next = none := by
  cases state with
  | received request =>
    simp only [Disk.command, Option.some.injEq, Command.compute.injEq] at commanded
    rw [← commanded.1, Disk.accept]
    repeat' split
    all_goals rfl
  | reading request done | writing request bytes =>
    simp only [Disk.command] at commanded
    split at commanded <;>
      (cases commanded
       rfl)
  | _ => cases commanded

def turns : Turns protocol where
  listens := listens
  receives := by
    intro part state ep input page found
    cases part <;> cases state <;> first | cases found; rfl | cases found
  speaks := by
    intro part state input page ep found commanded
    cases part with
    | storageTest =>
      change Test.command state page = _ at commanded
      cases state with
      | awaitingWrite | awaitingRead => cases found
      | filling _ | clearing _ _ | comparing _ =>
        simp only [Test.command] at commanded
        split at commanded <;> cases commanded
      | _ => cases commanded
    | fat16 => cases state <;> cases commanded <;> cases found
    | ata =>
      change Disk.command state page = _ at commanded
      cases state with
      | listening => cases found
      | reading _ _ | writing _ _ =>
        simp only [Disk.command] at commanded
        split at commanded <;> cases commanded
      | _ => cases commanded
  keeps := by
    intro part state input page next changed commanded
    cases part with
    | storageTest => exact Test.keeps commanded
    | fat16 => exact Fat.keeps commanded
    | ata => exact Disk.keeps commanded
  yields := by
    intro part state input page ep msg next commanded
    cases part with
    | storageTest =>
      change Test.command state page = _ at commanded
      cases state with
      | sendingWrite | sendingRead _ =>
        cases commanded
        rfl
      | filling _ | clearing _ _ | comparing _ =>
        simp only [Test.command] at commanded
        split at commanded <;> cases commanded
      | _ => cases commanded
    | fat16 => cases state <;> cases commanded <;> rfl
    | ata =>
      change Disk.command state page = _ at commanded
      cases state with
      | replying _ =>
        cases commanded
        rfl
      | reading _ _ | writing _ _ =>
        simp only [Disk.command] at commanded
        split at commanded <;> cases commanded
      | _ => cases commanded
  resumes := by
    intro part state ep msg found
    cases part <;> cases state <;> first | (cases found; done) | rfl

/-! ## What holds while who has the word -/

def Filled (page : SectorStore) : Prop := ∀ i < signature.length, byteAt page.shm i = signature.getD i 0

def Stored (page : SectorStore) : Prop := ∀ i < signature.length, (page.sectors 2000).getD i 0 = signature.getD i 0

inductive Mode where
  | write | read
  deriving DecidableEq, Repr

namespace Mode

def request : Mode → UInt64
  | .write => Fat16.vfsWrite
  | .read => Fat16.vfsRead

def call : Mode → SectorCall
  | .write => .writeSector 2000 0
  | .read => .readSector 2000 0

def awaiting : Mode → Test
  | .write => .awaitingWrite
  | .read => .awaitingRead

def Before (page : SectorStore) : Mode → Prop
  | .write => Filled page
  | .read => Stored page

def After (page : SectorStore) : Mode → Prop
  | .write => Stored page
  | .read => Stored page ∧ Filled page

end Mode

def Test.Holds (page : SectorStore) : Test → Prop
  | .filling i => ∀ j < i, byteAt page.shm j = signature.getD j 0
  | .sendingWrite => Filled page
  | .wrote reply => reply.rdi = 0 ∧ Stored page
  | .clearing _ _ => Stored page
  | .sendingRead request => request.rdi = Fat16.vfsRead ∧ Stored page
  | .readBack reply => reply.rdi = 0 ∧ Stored page ∧ Filled page
  | .comparing _ => Stored page ∧ Filled page
  | .exited verdict => verdict = .success ∧ Stored page
  | .awaitingWrite | .awaitingRead => False

def Fat.Holds (mode : Mode) (page : SectorStore) : Fat → Prop
  | .received request => request.rdi = mode.request ∧ mode.Before page
  | .asking _ call => call = mode.call ∧ mode.Before page
  | .answering reply => reply.rdi = 0 ∧ mode.After page
  | .listening | .awaiting _ => False

def Disk.Holds (mode : Mode) (page : SectorStore) : Disk → Prop
  | .received request => request = mode.call.message ∧ mode.Before page
  | .reading request i => mode = .read ∧ request = mode.call.message ∧ Stored page ∧
      ∀ j < signature.length, j < i → byteAt page.shm j = signature.getD j 0
  | .writing request bytes => mode = .write ∧ request = mode.call.message ∧ Filled page ∧
      ∀ j < signature.length, j < bytes.length → bytes.getD j 0 = signature.getD j 0
  | .replying _ => mode.After page
  | .listening | .gone => False

/-- The invariant of the sequential machine. -/
def Stage (config : Config Part Ep Message SectorStore Local) : Prop :=
  match config.word with
  | .held .storageTest =>
    Test.Holds config.shared (config.states .storageTest) ∧ config.states .fat16 = Fat.listening ∧
      config.states .ata = Disk.listening
  | .held .fat16 => ∃ mode : Mode, config.states .storageTest = mode.awaiting ∧
      Fat.Holds mode config.shared (config.states .fat16) ∧ config.states .ata = Disk.listening
  | .held .ata => ∃ mode : Mode, config.states .storageTest = mode.awaiting ∧
      (∃ request, config.states .fat16 = Fat.awaiting request) ∧ Disk.Holds mode config.shared (config.states .ata)
  | .flying .storageTest .vfs msg => ∃ mode : Mode, config.states .storageTest = mode.awaiting ∧
      config.states .fat16 = Fat.listening ∧ config.states .ata = Disk.listening ∧ msg.rdi = mode.request ∧
      mode.Before config.shared
  | .flying .fat16 .vfs msg => ∃ mode : Mode, config.states .storageTest = mode.awaiting ∧
      config.states .fat16 = Fat.listening ∧ config.states .ata = Disk.listening ∧ msg.rdi = 0 ∧
      mode.After config.shared
  | .flying .fat16 .ata msg => ∃ mode : Mode, config.states .storageTest = mode.awaiting ∧
      (∃ request, config.states .fat16 = Fat.awaiting request) ∧ config.states .ata = Disk.listening ∧
      msg = mode.call.message ∧ mode.Before config.shared
  | .flying .ata .ata _ => ∃ mode : Mode, config.states .storageTest = mode.awaiting ∧
      (∃ request, config.states .fat16 = Fat.awaiting request) ∧ config.states .ata = Disk.listening ∧
      mode.After config.shared
  | .lost => ∀ verdict, config.states .storageTest ≠ Test.exited verdict
  | _ => False

/-! ### The loops -/

theorem Test.holds_compute {state next : Test} {page changed : SectorStore} (holds : state.Holds page)
    (commanded : state.command page = some (.compute next changed)) : next.Holds changed := by
  cases state with
  | filling i =>
    simp only [Test.command] at commanded
    split at commanded
    next more =>
      cases commanded
      intro j small
      rw [byteAt_store _ _ _ _ (Nat.lt_trans more (by decide))]
      split
      next same => rw [same]
      next other => exact holds j (by omega)
    next done =>
      cases commanded
      exact fun j small => holds j (by omega)
  | wrote reply =>
    cases commanded
    rw [if_neg (not_not.mpr holds.1)]
    exact holds.2
  | clearing reply i =>
    simp only [Test.command] at commanded
    split at commanded
    · cases commanded
      exact holds
    · cases commanded
      exact ⟨rfl, holds⟩
  | readBack reply =>
    cases commanded
    rw [if_neg (not_not.mpr holds.1)]
    exact holds.2
  | comparing i =>
    simp only [Test.command] at commanded
    split at commanded
    next more =>
      simp only [Option.some.injEq, Command.compute.injEq] at commanded
      obtain ⟨rfl, rfl⟩ := commanded
      rw [if_neg (not_not.mpr (holds.2 i more))]
      exact holds
    next =>
      cases commanded
      exact ⟨rfl, holds.1⟩
  | _ => cases commanded

theorem blockCall_mode {request : Message} {mode : Mode} (same : request.rdi = mode.request) :
    Fat16.blockCall request = some mode.call := by
  unfold Fat16.blockCall
  rw [same]
  cases mode <;> rfl

theorem Fat.holds_compute {state next : Fat} {mode : Mode} {page changed : SectorStore} (holds : state.Holds mode page)
    (commanded : state.command page = some (.compute next changed)) : next.Holds mode changed := by
  cases state with
  | received request =>
    simp only [Fat.command, blockCall_mode holds.1, Option.some.injEq, Command.compute.injEq] at commanded
    obtain ⟨rfl, rfl⟩ := commanded
    exact ⟨rfl, holds.2⟩
  | _ => cases commanded

theorem accept_call (mode : Mode) : Disk.accept mode.call.message = match mode with
    | .write => .writing mode.call.message []
    | .read => .reading mode.call.message 0 := by
  cases mode <;> decide

theorem call_sector (mode : Mode) : mode.call.message.rsi.toUInt32 = 2000 := by cases mode <;> decide

theorem call_offset (mode : Mode) : mode.call.message.rdx.toNat = 0 := by cases mode <;> rfl

theorem signature_short : signature.length < 512 := by decide

theorem Disk.holds_compute {state next : Disk} {mode : Mode} {page changed : SectorStore}
    (holds : state.Holds mode page)
    (commanded : state.command page = some (.compute next changed)) : next.Holds mode changed := by
  cases state with
  | received request =>
    simp only [Disk.command, Option.some.injEq, Command.compute.injEq] at commanded
    obtain ⟨rfl, rfl⟩ := commanded
    rw [holds.1, accept_call]
    cases mode with
    | write => exact ⟨rfl, rfl, holds.2, fun _ _ none => absurd none (Nat.not_lt_zero _)⟩
    | read => exact ⟨rfl, rfl, holds.2, fun _ _ none => absurd none (Nat.not_lt_zero _)⟩
  | reading request i =>
    obtain ⟨isRead, isCall, stored, copied⟩ := holds
    have sector : request.rsi.toUInt32 = 2000 := by rw [isCall, call_sector]
    have offset : request.rdx.toNat = 0 := by rw [isCall, call_offset]
    simp only [Disk.command, sector, offset, Nat.zero_add] at commanded
    split at commanded
    next more =>
      simp only [Option.some.injEq, Command.compute.injEq] at commanded
      obtain ⟨rfl, rfl⟩ := commanded
      refine ⟨isRead, isCall, stored, fun j small earlier => ?_⟩
      rw [byteAt_store _ _ _ _ (by omega)]
      split
      next same => rw [← same, stored j small]
      next other => exact copied j small (by omega)
    next done =>
      simp only [Option.some.injEq, Command.compute.injEq] at commanded
      obtain ⟨rfl, rfl⟩ := commanded
      rw [isRead]
      have short := signature_short
      exact ⟨stored, fun j small => copied j small (by omega)⟩
  | writing request bytes =>
    obtain ⟨isWrite, isCall, filled, gathered⟩ := holds
    have sector : request.rsi.toUInt32 = 2000 := by rw [isCall, call_sector]
    have offset : request.rdx.toNat = 0 := by rw [isCall, call_offset]
    simp only [Disk.command, sector, offset, Nat.zero_add] at commanded
    split at commanded
    next more =>
      simp only [Option.some.injEq, Command.compute.injEq] at commanded
      obtain ⟨rfl, rfl⟩ := commanded
      refine ⟨isWrite, isCall, filled, fun j small earlier => ?_⟩
      rcases Nat.lt_or_ge j bytes.length with old | new
      · rw [List.getD_append _ _ _ _ old]
        exact gathered j small old
      · have last : j = bytes.length := by simp at earlier; omega
        rw [last, List.getD_append_right _ _ _ _ (Nat.le_refl _), Nat.sub_self, ← last]
        exact filled j small
    next done =>
      simp only [Option.some.injEq, Command.compute.injEq] at commanded
      obtain ⟨rfl, rfl⟩ := commanded
      rw [isWrite]
      have short := signature_short
      intro j small
      dsimp only
      rw [Function.update_self]
      exact gathered j small (by omega)
  | _ => cases commanded

/-! ### The messages -/

theorem Test.holds_send {state next : Test} {page : SectorStore} {ep : Ep} {msg : Message} (holds : state.Holds page)
    (commanded : state.command page = some (.send ep msg next)) :
    ep = .vfs ∧ ∃ mode : Mode, next = mode.awaiting ∧ msg.rdi = mode.request ∧ mode.Before page := by
  cases state with
  | sendingWrite =>
    cases commanded
    exact ⟨rfl, .write, rfl, rfl, holds⟩
  | sendingRead request =>
    cases commanded
    exact ⟨rfl, .read, rfl, holds.1, holds.2⟩
  | filling _ | clearing _ _ | comparing _ =>
    simp only [Test.command] at commanded
    split at commanded <;> cases commanded
  | _ => cases commanded

theorem Fat.holds_send {state next : Fat} {mode : Mode} {page : SectorStore} {ep : Ep} {msg : Message}
    (holds : state.Holds mode page) (commanded : state.command page = some (.send ep msg next)) :
    (ep = .ata ∧ (∃ request, next = .awaiting request) ∧ msg = mode.call.message ∧ mode.Before page) ∨
      (ep = .vfs ∧ next = .listening ∧ msg.rdi = 0 ∧ mode.After page) := by
  cases state with
  | asking request call =>
    simp only [Fat.command, Option.some.injEq, Command.send.injEq] at commanded
    obtain ⟨rfl, rfl, rfl⟩ := commanded
    exact .inl ⟨rfl, ⟨request, rfl⟩, by rw [holds.1], holds.2⟩
  | answering reply =>
    cases commanded
    exact .inr ⟨rfl, rfl, holds⟩
  | _ => cases commanded

theorem Disk.holds_send {state next : Disk} {mode : Mode} {page : SectorStore} {ep : Ep} {msg : Message}
    (holds : state.Holds mode page) (commanded : state.command page = some (.send ep msg next)) :
    ep = .ata ∧ next = .listening ∧ mode.After page := by
  cases state with
  | replying reply =>
    cases commanded
    exact ⟨rfl, rfl, holds⟩
  | reading _ _ | writing _ _ =>
    simp only [Disk.command] at commanded
    split at commanded <;> cases commanded
  | _ => cases commanded

theorem resume_awaiting (mode : Mode) {reply : Message} {page : SectorStore} (success : reply.rdi = 0)
    (after : mode.After page) :
    Test.Holds page (protocol.resume .storageTest mode.awaiting reply) := by
  cases mode with
  | write => exact ⟨success, after⟩
  | read => exact ⟨success, after⟩

variable {config after : Config Part Ep Message SectorStore Local}

/-- Who listens at the port and did not send is the one the message is for. -/
theorem Stage.receiver {states : (part : Part) → Local part} {shared : SectorStore} {sender receiver : Part} {ep : Ep}
    {msg : Message} (stage : Stage ⟨states, shared, .flying sender ep msg⟩) (apart : receiver ≠ sender)
    (listens : listens receiver (states receiver) = some ep) :
    (sender = .storageTest ∧ ep = .vfs ∧ receiver = .fat16) ∨ (sender = .fat16 ∧ ep = .vfs ∧ receiver = .storageTest) ∨
      (sender = .fat16 ∧ ep = .ata ∧ receiver = .ata) ∨ (sender = .ata ∧ ep = .ata ∧ receiver = .fat16) := by
  have test : ∀ {mode : Mode}, states .storageTest = mode.awaiting →
      Persistence.listens .storageTest (states .storageTest) = some .vfs := by
    rintro mode waits
    rw [waits]
    cases mode <;> rfl
  have ata : states .ata = Disk.listening → Persistence.listens .ata (states .ata) = some .ata := by
    intro waits
    rw [waits]
    rfl
  cases sender <;> cases ep <;> cases receiver <;>
    try (first | exact absurd rfl apart | (cases stage; done) | simp; done)
  · obtain ⟨_, _, _, waits, _⟩ := stage
    cases (ata waits).symm.trans listens
  · obtain ⟨_, _, _, waits, _⟩ := stage
    cases (ata waits).symm.trans listens
  · obtain ⟨_, waits, _⟩ := stage
    cases (test waits).symm.trans listens
  · obtain ⟨_, waits, _⟩ := stage
    cases (test waits).symm.trans listens

theorem Stage.step (stage : Stage config) (passes : Passes protocol config after) : Stage after := by
  cases passes with
  | @compute states shared changed part input next commanded =>
    cases part with
    | storageTest =>
      obtain ⟨holds, fat, ata⟩ := stage
      exact ⟨Test.holds_compute holds commanded, fat, ata⟩
    | fat16 =>
      obtain ⟨mode, test, holds, ata⟩ := stage
      exact ⟨mode, test, Fat.holds_compute holds commanded, ata⟩
    | ata =>
      obtain ⟨mode, test, fat, holds⟩ := stage
      exact ⟨mode, test, fat, Disk.holds_compute holds commanded⟩
  | @send states shared part input next ep msg commanded =>
    cases part with
    | storageTest =>
      obtain ⟨holds, fat, ata⟩ := stage
      obtain ⟨rfl, mode, isNext, request, before⟩ := Test.holds_send holds commanded
      exact ⟨mode, isNext, fat, ata, request, before⟩
    | fat16 =>
      obtain ⟨mode, test, holds, ata⟩ := stage
      rcases Fat.holds_send holds commanded with ⟨rfl, isNext, isCall, before⟩ | ⟨rfl, isNext, success, served⟩
      · exact ⟨mode, test, isNext, ata, isCall, before⟩
      · exact ⟨mode, test, isNext, ata, success, served⟩
    | ata =>
      obtain ⟨mode, test, fat, holds⟩ := stage
      obtain ⟨rfl, isNext, served⟩ := Disk.holds_send holds commanded
      exact ⟨mode, test, fat, isNext, served⟩
  | @hand states shared sender receiver input ep msg apart commanded =>
    have listens : listens receiver (states receiver) = some ep := Net.listens_of_receive turns commanded
    rcases stage.receiver apart listens with ⟨rfl, rfl, rfl⟩ | ⟨rfl, rfl, rfl⟩ | ⟨rfl, rfl, rfl⟩ | ⟨rfl, rfl, rfl⟩
    · obtain ⟨mode, test, fat, ata, request, before⟩ := stage
      dsimp only at fat
      rw [fat]
      exact ⟨mode, test, ⟨request, before⟩, ata⟩
    · obtain ⟨mode, test, fat, ata, success, served⟩ := stage
      dsimp only at test
      rw [test]
      exact ⟨resume_awaiting mode success served, fat, ata⟩
    · obtain ⟨mode, test, fat, ata, isCall, before⟩ := stage
      dsimp only at ata
      rw [ata]
      exact ⟨mode, test, fat, isCall, before⟩
    · obtain ⟨mode, test, ⟨request, fat⟩, ata, served⟩ := stage
      dsimp only at fat
      rw [fat]
      exact ⟨mode, test, ⟨rfl, served⟩, ata⟩
  | @lose states shared sender ep msg =>
    have waits : ∃ mode : Mode, states .storageTest = mode.awaiting := by
      cases sender <;> cases ep <;> first | cases stage; done | exact ⟨stage.choose, stage.choose_spec.1⟩
    obtain ⟨mode, test⟩ := waits
    intro verdict exited
    have same := test.symm.trans exited
    cases mode <;> cases same

theorem listen_begins : ∀ part, part ≠ .storageTest → (turns.listens part (begins part)).isSome = true := by
  intro part other
  cases part with
  | storageTest => exact absurd rfl other
  | fat16 | ata => rfl

theorem stage_of_passes {page : SectorStore}
    (passed : Relation.ReflTransGen (Passes protocol) ⟨begins, page, .held .storageTest⟩ config) : Stage config := by
  induction passed with
  | refl => exact ⟨nofun, rfl, rfl⟩
  | tail _ passes ih => exact ih.step passes

theorem Stage.verdict (stage : Stage config) {verdict : Verdict}
    (exited : config.states .storageTest = Test.exited verdict) :
    verdict = .success ∧ Stored config.shared := by
  obtain ⟨states, shared, word⟩ := config
  dsimp only at exited
  have silent : ∀ {mode : Mode}, states .storageTest ≠ mode.awaiting := by
    intro mode waits
    have same := exited.symm.trans waits
    cases mode <;> cases same
  cases word with
  | held part =>
    cases part with
    | storageTest =>
      have holds := stage.1
      dsimp only at holds
      rw [exited] at holds
      exact holds
    | fat16 | ata => exact absurd stage.choose_spec.1 silent
  | flying sender ep msg =>
    cases sender <;> cases ep <;> first | (cases stage; done) | exact absurd stage.choose_spec.1 silent
  | lost => exact absurd exited (stage verdict)

theorem take_of_stored {page : SectorStore} (stored : Stored page) :
    (page.sectors 2000).take signature.length = signature := by
  have long : signature.length ≤ (page.sectors 2000).length := by
    by_contra short
    have last := stored (signature.length - 1) (by decide)
    rw [List.getD_eq_default _ _ (by omega)] at last
    cases last
  apply List.ext_getElem
  · rw [List.length_take, Nat.min_eq_left long]
  · intro i inTake inside
    have same := stored i inside
    rw [List.getD_eq_getElem _ _ (by omega), List.getD_eq_getElem _ _ inside] at same
    rw [List.getElem_take, same]

/-! ## How far it is -/

/-- Steps of the sequential machine to the verdict, while the test has the word. -/
def Test.rest : Test → Nat
  | .filling i => (signature.length - i) + 1587
  | .sendingWrite => 1586
  | .wrote _ => 1063
  | .clearing _ i => (512 - i) + 550
  | .sendingRead _ => 549
  | .readBack _ => 26
  | .comparing i => (signature.length - i) + 1
  | .awaitingWrite | .awaitingRead | .exited _ => 0

def Test.ahead : Test → Nat
  | .awaitingWrite => 1063
  | .awaitingRead => 26
  | _ => 0

def Fat.rest : Fat → Nat
  | .received _ => 521
  | .asking _ _ => 520
  | .answering _ => 2
  | .listening | .awaiting _ => 0

def Disk.rest : Disk → Nat
  | .received _ => 518
  | .reading _ i => (512 - i) + 5
  | .writing _ bytes => (512 - bytes.length) + 5
  | .replying _ => 4
  | .listening | .gone => 0

def rank (config : Config Part Ep Message SectorStore Local) : Nat :=
  match config.word with
  | .held .storageTest => Test.rest (config.states .storageTest)
  | .held .fat16 => Test.ahead (config.states .storageTest) + Fat.rest (config.states .fat16)
  | .held .ata => Test.ahead (config.states .storageTest) + Disk.rest (config.states .ata)
  | .flying .storageTest _ _ => Test.ahead (config.states .storageTest) + 522
  | .flying .fat16 .vfs _ => Test.ahead (config.states .storageTest) + 1
  | .flying .fat16 .ata _ => Test.ahead (config.states .storageTest) + 519
  | .flying .ata _ _ => Test.ahead (config.states .storageTest) + 3
  | .lost => 0

theorem Test.rest_compute {state next : Test} {page changed : SectorStore} (holds : state.Holds page)
    (commanded : state.command page = some (.compute next changed)) : next.rest < state.rest := by
  cases state with
  | filling i | clearing reply i =>
    simp only [Test.command] at commanded
    split at commanded <;>
      (cases commanded
       simp only [Test.rest]
       omega)
  | wrote reply | readBack reply =>
    cases commanded
    rw [if_neg (not_not.mpr holds.1)]
    simp [Test.rest, signature]
  | comparing i =>
    simp only [Test.command] at commanded
    split at commanded
    next more =>
      simp only [Option.some.injEq, Command.compute.injEq] at commanded
      rw [← commanded.1, if_neg (not_not.mpr (holds.2 i more))]
      simp only [Test.rest]
      omega
    next =>
      cases commanded
      exact Nat.succ_pos _
  | _ => cases commanded

theorem Test.rest_send {state next : Test} {page : SectorStore} {ep : Ep} {msg : Message}
    (commanded : state.command page = some (.send ep msg next)) : next.ahead + 522 < state.rest := by
  cases state with
  | sendingWrite | sendingRead request =>
    cases commanded
    exact Nat.lt_succ_self _
  | filling _ | clearing _ _ | comparing _ =>
    simp only [Test.command] at commanded
    split at commanded <;> cases commanded
  | _ => cases commanded

theorem Fat.rest_compute {state next : Fat} {mode : Mode} {page changed : SectorStore} (holds : state.Holds mode page)
    (commanded : state.command page = some (.compute next changed)) : next.rest < state.rest := by
  cases state with
  | received request =>
    simp only [Fat.command, blockCall_mode holds.1, Option.some.injEq, Command.compute.injEq] at commanded
    rw [← commanded.1]
    exact Nat.lt_succ_self _
  | _ => cases commanded

theorem Disk.rest_compute {state next : Disk} {mode : Mode} {page changed : SectorStore} (holds : state.Holds mode page)
    (commanded : state.command page = some (.compute next changed)) : next.rest < state.rest := by
  cases state with
  | received request =>
    simp only [Disk.command, Option.some.injEq, Command.compute.injEq] at commanded
    rw [← commanded.1, holds.1, accept_call]
    cases mode <;> decide
  | reading request i | writing request bytes =>
    simp only [Disk.command] at commanded
    split at commanded <;>
      (simp only [Option.some.injEq, Command.compute.injEq] at commanded
       rw [← commanded.1]
       simp only [Disk.rest, List.length_append, List.length_singleton]
       omega)
  | _ => cases commanded

theorem rest_resume (mode : Mode) (reply : Message) :
    Test.rest (protocol.resume .storageTest mode.awaiting reply) < mode.awaiting.ahead + 1 := by
  cases mode <;> exact Nat.lt_succ_self _

theorem Fat.rest_send {state next : Fat} {page : SectorStore} {ep : Ep} {msg : Message}
    (commanded : state.command page = some (.send ep msg next)) (ahead : Nat) :
    (match ep with
      | .vfs => ahead + 1
      | .ata => ahead + 519) < ahead + state.rest := by
  cases state <;> cases commanded <;> exact Nat.lt_succ_self _

theorem Disk.rest_send {state next : Disk} {page : SectorStore} {ep : Ep} {msg : Message}
    (commanded : state.command page = some (.send ep msg next)) : 3 < state.rest := by
  cases state with
  | replying reply => exact Nat.lt_succ_self _
  | reading _ _ | writing _ _ =>
    simp only [Disk.command] at commanded
    split at commanded <;> cases commanded
  | _ => cases commanded

theorem Stage.nearer (stage : Stage config) (goes : Base.Goes protocol config after) : rank after < rank config := by
  obtain ⟨passes, kept⟩ := goes
  cases passes with
  | @compute states shared changed part input next commanded =>
    cases part with
    | storageTest => exact Test.rest_compute stage.1 commanded
    | fat16 =>
      obtain ⟨mode, _, holds, _⟩ := stage
      exact Nat.add_lt_add_left (Fat.rest_compute holds commanded) _
    | ata =>
      obtain ⟨mode, _, _, holds⟩ := stage
      exact Nat.add_lt_add_left (Disk.rest_compute holds commanded) _
  | @send states shared part input next ep msg commanded =>
    cases part with
    | storageTest => exact Test.rest_send commanded
    | fat16 =>
      have fewer := Fat.rest_send commanded (Test.ahead (states .storageTest))
      cases ep <;> exact fewer
    | ata => exact Nat.add_lt_add_left (Disk.rest_send commanded) _
  | @hand states shared sender receiver input ep msg apart commanded =>
    have listens : listens receiver (states receiver) = some ep := Net.listens_of_receive turns commanded
    rcases stage.receiver apart listens with ⟨rfl, rfl, rfl⟩ | ⟨rfl, rfl, rfl⟩ | ⟨rfl, rfl, rfl⟩ | ⟨rfl, rfl, rfl⟩
    · obtain ⟨mode, test, fat, ata, request, before⟩ := stage
      dsimp only at fat
      rw [fat]
      exact Nat.lt_succ_self _
    · obtain ⟨mode, test, fat, ata, success, served⟩ := stage
      dsimp only at test
      have fewer := rest_resume mode msg
      rw [← test] at fewer
      exact fewer
    · obtain ⟨mode, test, fat, ata, isCall, before⟩ := stage
      dsimp only at ata
      rw [ata]
      exact Nat.lt_succ_self _
    · obtain ⟨mode, test, ⟨request, fat⟩, ata, served⟩ := stage
      dsimp only at fat
      rw [fat]
      exact Nat.lt_succ_self _
  | lose => exact absurd rfl kept

theorem Stage.heard (stage : Stage config) (sender : Part) (ep : Ep) (msg : Message)
    (flying : config.word = .flying sender ep msg) :
    ∃ receiver, receiver ≠ sender ∧ turns.listens receiver (config.states receiver) = some ep := by
  obtain ⟨states, shared, word⟩ := config
  dsimp only at flying
  subst flying
  cases sender with
  | storageTest =>
    cases ep with
    | vfs =>
      obtain ⟨_, _, fat, _⟩ := stage
      exact ⟨.fat16, nofun, by rw [fat]; rfl⟩
    | ata => cases stage
  | fat16 =>
    cases ep with
    | vfs =>
      obtain ⟨mode, test, _⟩ := stage
      exact ⟨.storageTest, nofun, by rw [test]; cases mode <;> rfl⟩
    | ata =>
      obtain ⟨_, _, _, ata, _⟩ := stage
      exact ⟨.ata, nofun, by rw [ata]; rfl⟩
  | ata =>
    cases ep with
    | vfs => cases stage
    | ata =>
      obtain ⟨_, _, ⟨request, fat⟩, _⟩ := stage
      exact ⟨.fat16, nofun, by rw [fat]; rfl⟩

theorem goes_of_command {part : Part} {states : (part : Part) → Local part} {shared : SectorStore}
    (speaks : listens part (states part) = none)
    (acts : (protocol.command part (states part) () shared).isSome = true) :
    ∃ after, Base.Goes protocol ⟨states, shared, .held part⟩ after := by
  obtain ⟨command, commanded⟩ := Option.isSome_iff_exists.mp acts
  cases command with
  | compute next changed => exact ⟨_, .compute commanded, nofun⟩
  | send ep msg next => exact ⟨_, .send commanded, nofun⟩
  | receive ep => exact absurd commanded (turns.speaks speaks)

theorem Test.acts {state : Test} {page : SectorStore} (holds : state.Holds page)
    (going : ∀ verdict, state ≠ .exited verdict) :
    listens .storageTest state = none ∧ (state.command page).isSome = true := by
  cases state with
  | awaitingWrite | awaitingRead => cases holds
  | exited verdict => exact absurd rfl (going verdict)
  | filling _ | clearing _ _ | comparing _ =>
    refine ⟨rfl, ?_⟩
    simp only [Test.command]
    split <;> rfl
  | _ => exact ⟨rfl, rfl⟩

theorem Fat.acts {state : Fat} {mode : Mode} {page : SectorStore} (holds : state.Holds mode page) :
    listens .fat16 state = none ∧ (state.command page).isSome = true := by
  cases state <;> first | (cases holds; done) | exact ⟨rfl, rfl⟩

theorem Disk.acts {state : Disk} {mode : Mode} {page : SectorStore} (holds : state.Holds mode page) :
    listens .ata state = none ∧ (state.command page).isSome = true := by
  cases state with
  | listening | gone => cases holds
  | reading _ _ | writing _ _ =>
    refine ⟨rfl, ?_⟩
    simp only [Disk.command]
    split <;> rfl
  | _ => exact ⟨rfl, rfl⟩

/-- Until the verdict somebody has something to do. -/
theorem Stage.lives (stage : Stage config) (kept : config.word ≠ .lost)
    (going : ¬ ∃ verdict, config.states .storageTest = Test.exited verdict) :
    ∃ after, Base.Goes protocol config after := by
  have heard := stage.heard
  obtain ⟨states, shared, word⟩ := config
  cases word with
  | held part =>
    cases part with
    | storageTest =>
      obtain ⟨speaks, acts⟩ := Test.acts stage.1 fun verdict exited => going ⟨verdict, exited⟩
      exact goes_of_command speaks acts
    | fat16 =>
      obtain ⟨mode, _, holds, _⟩ := stage
      exact goes_of_command (Fat.acts holds).1 (Fat.acts holds).2
    | ata =>
      obtain ⟨mode, _, _, holds⟩ := stage
      exact goes_of_command (Disk.acts holds).1 (Disk.acts holds).2
  | flying sender ep msg =>
    obtain ⟨receiver, apart, listens⟩ := heard sender ep msg rfl
    exact ⟨_, .hand apart (turns.receives () shared listens), nofun⟩
  | lost => exact absurd rfl kept

def Succeeds (net : Net Part Ep Message SectorStore Local) : Prop :=
  ∃ later last, Run (Net.step protocol) net later last ∧
    Run.Guarded (fun net label => net.faultless protocol label = true) later ∧
    (last.status .storageTest).state = Test.exited .success ∧
    (last.shared.sectors 2000).take signature.length = signature

theorem succeeds_of_stage {net : Net Part Ep Message SectorStore Local} {word : Word Part Ep Message}
    (inTurn : Net.InTurn turns net word) (coherent : net.Coherent) (stage : Stage (net.config word))
    (kept : word ≠ .lost) :
    Succeeds net := by
  obtain ⟨later, last, word', run, sound, _, stage, verdict, exited⟩ := inTurn.completes
    (fun stage goes => ⟨stage.step goes.1, stage.nearer goes⟩) Stage.lives Stage.heard coherent stage kept
  obtain ⟨rfl, stored⟩ := stage.verdict exited
  exact ⟨later, last, run, sound, exited, take_of_stored stored⟩

theorem fed_of_faultless {history : List (Net Part Ep Message SectorStore Local × (Part × Unit))}
    (sound : Run.Guarded (fun net label => net.faultless protocol label = true) history) :
    Run.Guarded (fun net label => net.starves protocol label = false) history := by
  intro entry member
  have clean := sound entry member
  simp only [Net.faultless, Bool.and_eq_true, Bool.not_eq_true'] at clean
  exact clean.2

def blankPage : SectorStore := ⟨fun _ => [], fun _ => 0⟩

/-- In every run in which no receive returns without a message, however the three interleave and whatever messages are
lost, the test exits only when it has read back what it wrote, and the sector holds it. -/
theorem persistence_verified {page : SectorStore} {net : Net Part Ep Message SectorStore Local}
    {history : List (Net Part Ep Message SectorStore Local × (Part × Unit))}
    (run : Run (Net.step protocol) (start page) history net)
    (fed : Run.Guarded (fun net label => net.starves protocol label = false) history) {verdict : Verdict}
    (exited : (net.status .storageTest).state = Test.exited verdict) :
    verdict = .success ∧ (net.shared.sectors 2000).take signature.length = signature := by
  obtain ⟨word, _, passed, _⟩ := Net.passes_of_run turns listen_begins run fed
  obtain ⟨success, stored⟩ := (stage_of_passes passed).verdict exited
  exact ⟨success, take_of_stored stored⟩

theorem persistence_verified_finished : ∃ history net, Run (Net.step protocol) (start blankPage) history net ∧
    (net.status .storageTest).state = Test.exited .success ∧
    (net.shared.sectors 2000).take signature.length = signature := by
  obtain ⟨word, inTurn, passed, lost⟩ := Net.passes_of_run turns listen_begins (.start : Run _ (start blankPage) [] _)
    (Run.guarded_nil _)
  obtain ⟨history, net, run, sound, exited, _⟩ :=
    succeeds_of_stage inTurn (Net.coherent_start _ _) (stage_of_passes passed)
    fun gone => nomatch (lost gone).choose_spec.1
  exact ⟨history, net, run, exited, (persistence_verified run (fed_of_faultless sound) exited).2⟩

/-- As long as nothing went astray the test can still be brought to its end without a fault: from every such state,
whatever the three have done so far, some schedule leads to success. -/
theorem persistence_completes {page : SectorStore} {net : Net Part Ep Message SectorStore Local}
    {history : List (Net Part Ep Message SectorStore Local × (Part × Unit))}
    (run : Run (Net.step protocol) (start page) history net)
    (sound : Run.Guarded (fun net label => net.faultless protocol label = true) history) : Succeeds net := by
  obtain ⟨word, inTurn, passed, lost⟩ := Net.passes_of_run turns listen_begins run (fed_of_faultless sound)
  have kept : word ≠ .lost := by
    intro gone
    obtain ⟨entry, member, loses⟩ := lost gone
    have clean := sound entry member
    simp [Net.faultless, loses] at clean
  exact succeeds_of_stage inTurn (Net.coherent_of_run (Net.coherent_start _ _) run) (stage_of_passes passed) kept

theorem persistence_completes_start : Succeeds (start blankPage) := persistence_completes .start (Run.guarded_nil _)

end ElseOS.Persistence
