import ElseOS.Base.Bytes
import ElseOS.Services.Ata

/-! The block service as a store of sectors.

The store has no registers, no commands and no interrupts: a write request puts 512 bytes of
the shared page in a sector, a read request puts a sector in the shared page. -/

set_option autoImplicit false

namespace ElseOS.Ata

open Storage (msgBlockRead msgBlockWrite msgBlockFlush)

/-! ## The store -/

structure SectorStore where
  sectors : UInt32 → List UInt8
  shm : Base.Buffer 4096 UInt8

inductive Event where
  | request (msg : Message)
  | fill (page : Base.Buffer 4096 UInt8)

def Event.InRange : Event → Prop
  | .request msg =>
    (msg.rdi = msgBlockRead ∨ msg.rdi = msgBlockWrite) ∧ msg.rsi.toUInt32 < 20480 ∧ msg.rdx ≤ 3584
  | .fill _ => True

namespace SectorStore

def read (store : SectorStore) (lba : UInt32) (offset : Nat) : SectorStore :=
  { store with shm := store.shm.write offset (store.sectors lba) }

def write (store : SectorStore) (lba : UInt32) (offset : Nat) : SectorStore :=
  { store with sectors := Function.update store.sectors lba ((store.shm.read offset 512).getD []) }

def apply (store : SectorStore) : Event → SectorStore
  | .request msg =>
    if msg.rdi = msgBlockRead then store.read msg.rsi.toUInt32 msg.rdx.toNat
    else if msg.rdi = msgBlockWrite then store.write msg.rsi.toUInt32 msg.rdx.toNat
    else store
  | .fill page => { store with shm := page }

end SectorStore

/-! ## Words and bytes -/

def wordBytes (word : UInt16) : List UInt8 := [word.toUInt8, (word >>> 8).toUInt8]

def sectorBytes (sector : Sector) : List UInt8 := (List.ofFn sector).flatMap wordBytes

def wordAt (buf : List UInt8) (i : Nat) : UInt16 :=
  (buf.getD (i * 2) 0).toUInt16 ||| (buf.getD (i * 2 + 1) 0).toUInt16 <<< 8

theorem wordBytes_join (low high : UInt8) : wordBytes (low.toUInt16 ||| high.toUInt16 <<< 8) = [low, high] := by
  have lowSmall := low.toNat_lt
  have highSmall := high.toNat_lt
  have value : (low.toUInt16 ||| high.toUInt16 <<< 8).toNat = high.toNat * 256 + low.toNat := by
    rw [UInt16.or_comm]
    exact Base.Bytes.toNat_word16 high low
  have first : (low.toUInt16 ||| high.toUInt16 <<< 8).toUInt8 = low := by
    apply UInt8.toNat_inj.mp
    rw [UInt16.toNat_toUInt8, value]
    omega
  have second : ((low.toUInt16 ||| high.toUInt16 <<< 8) >>> 8).toUInt8 = high := by
    apply UInt8.toNat_inj.mp
    rw [Base.Bytes.toNat_high16, value]
    omega
  rw [wordBytes, first, second]

theorem length_flatMap_wordBytes (words : List UInt16) : (words.flatMap wordBytes).length = words.length * 2 := by
  induction words with
  | nil => rfl
  | cons word rest ih =>
    rw [List.flatMap_cons, List.length_append, ih, List.length_cons, wordBytes]
    simp only [List.length_cons, List.length_nil]
    omega

theorem flatMap_wordAt {buf : List UInt8} {n : Nat} (long : n * 2 ≤ buf.length) :
    ((List.range n).map (wordAt buf)).flatMap wordBytes = buf.take (n * 2) := by
  induction n with
  | zero => simp
  | succ n ih =>
    have second : n * 2 + 1 < buf.length := by omega
    have first : n * 2 < buf.length := by omega
    have pair : wordBytes (wordAt buf n) = [buf.getD (n * 2) 0, buf.getD (n * 2 + 1) 0] := wordBytes_join _ _
    rw [List.range_succ, List.map_append, List.flatMap_append, ih (by omega)]
    rw [show (n + 1) * 2 = n * 2 + 1 + 1 by omega, List.take_add_one, List.take_add_one]
    simp only [List.map_cons, List.map_nil, List.flatMap_cons, List.flatMap_nil, pair, List.getD_eq_getElem?_getD,
      List.getElem?_eq_getElem first, List.getElem?_eq_getElem second, Option.getD_some, Option.toList_some,
      List.append_assoc, List.append_nil, List.cons_append, List.nil_append]

/-! ## The disk at work -/

namespace System

structure Stands (system : System) (phase : Phase) (medium : UInt32 → Sector) : Prop where
  phase : system.disk.phase = phase
  medium : system.disk.medium = medium
  quiet : system.irq = .quiet

variable {system : System} {phase : Phase} {medium : UInt32 → Sector} {lba : UInt32}

theorem react_of_same {disk : Disk} (same : disk.intrq = system.disk.intrq) :
    system.react disk = ⟨disk, system.irq⟩ := by
  cases line : system.disk.intrq <;> simp [react, same, line]

theorem react_of_low {disk : Disk} (low : disk.intrq = false) : system.react disk = ⟨disk, system.irq⟩ := by
  simp [react, low]

theorem react_of_rise {disk : Disk} (low : system.disk.intrq = false) (high : disk.intrq = true) :
    system.react disk = ⟨disk, system.irq.unblock⟩ := by
  simp [react, low, high]

theorem sysPortOut_resting (resting : system.disk.phase.working = false) (port : UInt16) (value : UInt32) :
    system.sysPortOut port value = system.react (system.disk.portOut port value) := by
  rw [sysPortOut, elapse_resting resting]

/-! ### Polling -/

theorem ataWaitReady_resting (resting : system.disk.phase.working = false) :
    system.ataWaitReady = ⟨{ system.disk with intrq := false }, system.irq⟩ := by
  have still := elapse_resting resting
  have now : system.ready = true := (ready_iff system).mpr (by rw [still, resting])
  rw [ataWaitReady, if_pos now, sysPortIn]
  dsimp only
  rw [still]
  exact react_of_low rfl

/-- Polling waits for the end of work that raises no interrupt. -/
theorem ataWaitReady_preparing {left : Nat} (stands : system.Stands (.preparing lba left) medium) :
    system.ataWaitReady.Stands (.taking lba left []) medium ∧ system.ataWaitReady.disk.intrq = false := by
  have works : system.disk.phase.working = true := by
    rw [stands.phase]
    rfl
  induction due : system.disk.busy generalizing system with
  | zero =>
    have finished : system.elapse = ⟨{ system.disk with phase := .taking lba left [] }, system.irq⟩ := by
      rw [elapse_last works due, Disk.finish, stands.phase]
      exact react_of_same rfl
    have now : system.ready = true := (ready_iff system).mpr (by rw [finished]; rfl)
    rw [ataWaitReady, if_pos now, sysPortIn]
    dsimp only
    rw [finished, react_of_low rfl]
    exact ⟨⟨rfl, stands.medium, stands.quiet⟩, rfl⟩
  | succ busy ih =>
    have later := elapse_working works due
    have notYet : ¬ system.ready = true := by
      rw [ready_iff, later]
      simp [works]
    have polled : (system.sysPortIn 0x1F7).2 = ⟨{ system.disk with busy := busy, intrq := false }, system.irq⟩ := by
      rw [sysPortIn]
      dsimp only
      rw [later]
      exact react_of_low rfl
    rw [ataWaitReady, if_neg notYet, polled]
    exact ih ⟨stands.phase, stands.medium, stands.quiet⟩ works rfl

/-! ### The command -/

theorem drive_register (small : lba < 0x10000000) :
    (((0xE0 : UInt32) ||| ((lba >>> 24) &&& 0x0F)).toUInt8 &&& 0x0F).toNat = lba.toNat / 16777216 ∧
      ((0xE0 : UInt32) ||| ((lba >>> 24) &&& 0x0F)).toUInt8 &&& 0x40 ≠ 0 := by
  have bound : lba.toNat < 268435456 := UInt32.lt_iff_toNat_lt.mp small
  have nibbles : ∀ n : Fin 16, (((0xE0 : UInt32) ||| (UInt32.ofNat n &&& 0x0F)).toUInt8 &&& 0x0F).toNat = n ∧
      ((0xE0 : UInt32) ||| (UInt32.ofNat n &&& 0x0F)).toUInt8 &&& 0x40 ≠ 0 := by decide
  have shifted : lba >>> 24 = UInt32.ofNat (lba.toNat / 16777216) := by
    apply UInt32.toNat_inj.mp
    rw [UInt32.toNat_shiftRight, UInt32.toNat_ofNat', Nat.shiftRight_eq_div_pow]
    show lba.toNat / 16777216 = _
    omega
  rw [shifted]
  exact nibbles ⟨lba.toNat / 16777216, by omega⟩

theorem lba_registers (small : lba < 0x10000000) :
    (((0xE0 : UInt32) ||| ((lba >>> 24) &&& 0x0F)).toUInt8 &&& 0x0F).toUInt32 <<< 24 |||
      ((lba >>> 16) &&& 0xFF).toUInt8.toUInt32 <<< 16 ||| ((lba >>> 8) &&& 0xFF).toUInt8.toUInt32 <<< 8 |||
      (lba &&& 0xFF).toUInt8.toUInt32 = lba := by
  have high : (lba >>> 16).toNat = lba.toNat / 65536 := by
    rw [UInt32.toNat_shiftRight, Nat.shiftRight_eq_div_pow]
    rfl
  have mid : (lba >>> 8).toNat = lba.toNat / 256 := by
    rw [UInt32.toNat_shiftRight, Nat.shiftRight_eq_div_pow]
    rfl
  apply UInt32.toNat_inj.mp
  rw [Base.Bytes.toNat_join32, (drive_register small).1, Base.Bytes.toNat_low8, Base.Bytes.toNat_low8,
    Base.Bytes.toNat_low8, high, mid]
  omega

theorem issue_resting (resting : system.disk.phase.working = false) (small : lba < 0x10000000) (command : UInt32) :
    ∃ disk : Disk, system.issue lba command = System.react ⟨disk, system.irq⟩ (disk.command command.toUInt8) ∧
      disk.lba = some lba ∧ disk.sectors = 1 ∧ disk.medium = system.disk.medium := by
  unfold issue
  simp only [sysPortOut_resting, Disk.portOut, react_of_same, resting]
  refine ⟨_, rfl, ?_, rfl, rfl⟩
  rw [Disk.lba, if_pos (drive_register small).2, lba_registers small]

theorem issue_idle (stands : system.Stands .idle medium) (small : lba < 0x10000000) {command : UInt32} {phase : Phase}
    (begins : ∀ disk : Disk, disk.lba = some lba → disk.sectors = 1 →
      disk.command command.toUInt8 = { disk with intrq := false }.begin phase) :
    (system.ataWaitReady.issue lba command).Stands phase medium ∧
      (system.ataWaitReady.issue lba command).disk.intrq = false := by
  obtain ⟨idle, rfl, quiet⟩ := stands
  have resting : system.disk.phase.working = false := by
    rw [idle]
    rfl
  have ready := ataWaitReady_resting resting
  have still : system.ataWaitReady.disk.phase.working = false := by
    rw [ready]
    exact resting
  obtain ⟨disk, issued, address, one, same⟩ := issue_resting still small command
  rw [issued, begins disk address one, react_of_low rfl]
  refine ⟨⟨rfl, ?_, ?_⟩, rfl⟩
  · show disk.medium = _
    rw [same, ready]
  · show system.ataWaitReady.irq = _
    rw [ready]
    exact quiet

/-! ### Waiting for the interrupt -/

/-- Work that ends in an interrupt ends the wait, whether it is done before or during it. -/
theorem sysWaitIrq_working {next : Phase} {stored : UInt32 → Sector} (stands : system.Stands phase medium)
    (low : system.disk.intrq = false) (works : phase.working = true)
    (finishes : ∀ disk : Disk, disk.phase = phase → disk.medium = medium →
      disk.finish.phase = next ∧ disk.finish.medium = stored ∧ disk.finish.intrq = true) :
    ∃ after, system.sysWaitIrq = some after ∧ after.Stands next stored := by
  obtain ⟨rfl, rfl, quiet⟩ := stands
  cases due : system.disk.busy with
  | zero =>
    obtain ⟨done, kept, high⟩ := finishes system.disk rfl rfl
    refine ⟨⟨system.disk.finish, .quiet⟩, ?_, done, kept, rfl⟩
    rw [sysWaitIrq, elapse_last works due, react_of_rise low high, quiet]
    rfl
  | succ busy =>
    obtain ⟨done, kept, high⟩ := finishes { system.disk with busy := busy } rfl rfl
    refine ⟨⟨{ system.disk with busy := busy }.finish, .quiet⟩, ?_, done, kept, rfl⟩
    have risen : System.react ⟨{ system.disk with busy := busy }, IrqLine.quiet.wait⟩
        { system.disk with busy := busy }.finish = ⟨_, IrqLine.quiet.wait.unblock⟩ := react_of_rise low high
    rw [sysWaitIrq, elapse_working works due, quiet]
    dsimp only
    rw [risen]
    rfl

/-! ### Reading a sector -/

def sendingRest (lba : UInt32) (words : List UInt16) : Phase := if words = [] then .idle else .sending lba 1 words

theorem sysPortIn_data {word : UInt16} {rest : List UInt16}
    (phase : system.disk.phase = .sending lba 1 (word :: rest)) :
    system.sysPortIn 0x1F0 = (word.toUInt32, ⟨{ system.disk with phase := sendingRest lba rest }, system.irq⟩) := by
  have resting : system.disk.phase.working = false := by rw [phase]; rfl
  have taken : system.disk.readData = (word, { system.disk with phase := sendingRest lba rest }) := by
    unfold sendingRest
    by_cases last : rest = [] <;> simp [Disk.readData, phase, last]
  rw [sysPortIn, elapse_resting resting]
  simp only [Disk.portIn, taken]
  exact congrArg (Prod.mk _) (react_of_same rfl)

theorem readWord_sending {word : UInt16} {rest : List UInt16}
    (phase : system.disk.phase = .sending lba 1 (word :: rest)) (buf : List UInt8) (i : Nat) :
    readWord (system, buf) i = (⟨{ system.disk with phase := sendingRest lba rest }, system.irq⟩,
      (buf.set (i * 2) word.toUInt8).set (i * 2 + 1) (word >>> 8).toUInt8) := by
  have low : (word &&& 0xFF).toUInt8 = word.toUInt8 := by
    apply UInt8.toNat_inj.mp
    rw [UInt16.toNat_toUInt8, UInt16.toNat_toUInt8, UInt16.toNat_and]
    show (word.toNat &&& (2 ^ 8 - 1)) % 256 = word.toNat % 256
    rw [Nat.and_two_pow_sub_one_eq_mod, Nat.mod_mod]
  rw [readWord, sysPortIn_data phase]
  simp [low]

theorem set_word {front buf : List UInt8} {i : Nat} (here : front.length = i * 2) (inside : i * 2 + 1 < buf.length)
    (low high : UInt8) :
    ((front ++ buf.drop (i * 2)).set (i * 2) low).set (i * 2 + 1) high = front ++ [low, high] ++
    buf.drop ((i + 1) * 2) := by
  obtain ⟨first, second, split⟩ : ∃ first second, buf.drop (i * 2) = first :: second :: buf.drop ((i + 1) * 2) := by
    rw [List.drop_eq_getElem_cons (Nat.lt_of_succ_lt inside), List.drop_eq_getElem_cons inside]
    exact ⟨_, _, by rw [Nat.succ_mul]⟩
  rw [split, ← here]
  simp

theorem foldl_readWord {words : List UInt16} {buf : List UInt8} (phase : system.disk.phase = sendingRest lba words)
    (long : buf.length = words.length * 2) {n : Nat} (inside : n ≤ words.length) :
    (List.range n).foldl readWord (system, buf) =
      (⟨{ system.disk with phase := sendingRest lba (words.drop n) }, system.irq⟩,
        (words.take n).flatMap wordBytes ++ buf.drop (n * 2)) := by
  induction n with
  | zero => simp [← phase]
  | succ n ih =>
    have here : n < words.length := inside
    have front : ((words.take n).flatMap wordBytes).length = n * 2 := by
      rw [length_flatMap_wordBytes, List.length_take_of_le (Nat.le_of_lt here)]
    obtain ⟨word, split⟩ : ∃ word, words.drop n = word :: words.drop (n + 1) := ⟨_, List.drop_eq_getElem_cons here⟩
    have taken : words.take (n + 1) = words.take n ++ [word] := by
      rw [List.take_add_one, ← List.head?_drop, split]
      rfl
    have next : sendingRest lba (words.drop n) = .sending lba 1 (word :: words.drop (n + 1)) := by
      simp [sendingRest, split]
    rw [List.range_succ, List.foldl_append, ih (Nat.le_of_lt here), List.foldl_cons, List.foldl_nil,
      readWord_sending next, set_word front (by omega), taken, List.flatMap_append]
    rfl

theorem readWords_spec {words : List UInt16} {buf : List UInt8} (stands : system.Stands (sendingRest lba words) medium)
    (long : buf.length = words.length * 2) :
    ∃ after, (List.range words.length).foldl readWord (system, buf) = (after, words.flatMap wordBytes) ∧
      after.Stands .idle medium := by
  have copied := foldl_readWord stands.phase long (Nat.le_refl _)
  rw [List.drop_eq_nil_of_le (Nat.le_refl _), List.take_length, List.drop_eq_nil_of_le (Nat.le_of_eq long),
    List.append_nil] at copied
  exact ⟨_, copied, rfl, stands.medium, stands.quiet⟩

theorem ataReadSector_spec (stands : system.Stands .idle medium) (small : lba < 0x10000000) {buf : List UInt8}
    (long : buf.length = 512) :
    ∃ after, system.ataReadSector lba buf = some (after, sectorBytes (medium lba)) ∧ after.Stands .idle medium := by
  have begins (disk : Disk) (address : disk.lba = some lba) (one : disk.sectors = 1) :
      disk.command (0x20 : UInt32).toUInt8 = { disk with intrq := false }.begin (.fetching lba 1) := by
    show disk.command 0x20 = _
    simp [Disk.command, address, one]
  obtain ⟨fetching, low⟩ := issue_idle stands small begins
  have full : (List.ofFn (medium lba)).length = 256 := List.length_ofFn
  have some : List.ofFn (medium lba) ≠ [] := fun empty => by simp [empty] at full
  have sends (disk : Disk) (phase : disk.phase = .fetching lba 1) (same : disk.medium = medium) :
      disk.finish.phase = sendingRest lba (List.ofFn (medium lba)) ∧ disk.finish.medium = medium ∧
        disk.finish.intrq = true := by
    simp [Disk.finish, phase, same, sendingRest, some]
  obtain ⟨woken, waited, sending⟩ := sysWaitIrq_working fetching low rfl sends
  obtain ⟨after, copied, idle⟩ := readWords_spec sending (by rw [long, full])
  rw [full] at copied
  refine ⟨after, ?_, idle⟩
  rw [ataReadSector, waited, Option.map_some, copied]
  rfl

/-! ### Writing a sector -/

theorem sysPortOut_data {words : List UInt16} (phase : system.disk.phase = .taking lba 1 words)
    (few : words.length + 1 < 256) (value : UInt32) :
    system.sysPortOut 0x1F0 value =
      ⟨{ system.disk with phase := .taking lba 1 (words ++ [value.toUInt16]) }, system.irq⟩ := by
  rw [sysPortOut_resting (by rw [phase]; rfl)]
  simp only [Disk.portOut, Disk.writeData, phase, if_pos few]
  exact react_of_same rfl

theorem sysPortOut_last {words : List UInt16} (phase : system.disk.phase = .taking lba 1 words)
    (last : words.length = 255) (value : UInt32) :
    system.sysPortOut 0x1F0 value = ⟨system.disk.begin (.storing lba 1 (words ++ [value.toUInt16])), system.irq⟩ := by
  rw [sysPortOut_resting (by rw [phase]; rfl)]
  simp only [Disk.portOut, Disk.writeData, phase, if_neg (show ¬ words.length + 1 < 256 by omega)]
  exact react_of_same rfl

theorem foldl_writeWord (phase : system.disk.phase = .taking lba 1 []) (buf : List UInt8) {n : Nat} (few : n < 256) :
    (List.range n).foldl (writeWord buf) system =
      ⟨{ system.disk with phase := .taking lba 1 ((List.range n).map (wordAt buf)) }, system.irq⟩ := by
  induction n with
  | zero => simp [← phase]
  | succ n ih =>
    rw [List.range_succ, List.foldl_append, ih (by omega), List.foldl_cons, List.foldl_nil, writeWord,
      sysPortOut_data rfl (by simpa using few), List.map_append]
    simp only [List.map_cons, List.map_nil, wordAt, UInt16.toUInt16_toUInt32]

theorem writeWords_spec (stands : system.Stands (.taking lba 1 []) medium) (low : system.disk.intrq = false)
    (buf : List UInt8) :
    ((List.range 256).foldl (writeWord buf) system).Stands (.storing lba 1 ((List.range 256).map (wordAt buf))) medium ∧
      ((List.range 256).foldl (writeWord buf) system).disk.intrq = false := by
  -- the last word is the one that begins the work
  have all : List.range 256 = List.range 255 ++ [255] := List.range_succ
  rw [all, List.foldl_append, foldl_writeWord stands.phase buf (by decide), List.foldl_cons, List.foldl_nil, writeWord,
    sysPortOut_last rfl (by simp), List.map_append]
  refine ⟨⟨?_, stands.medium, stands.quiet⟩, low⟩
  simp only [Disk.begin, List.map_cons, List.map_nil, wordAt, UInt16.toUInt16_toUInt32]

def sectorOf (buf : List UInt8) : Sector := fun i => wordAt buf i

theorem sectorBytes_sectorOf {buf : List UInt8} (long : buf.length = 512) : sectorBytes (sectorOf buf) = buf := by
  have words (n : Nat) : List.ofFn (fun i : Fin n => wordAt buf i) = (List.range n).map (wordAt buf) := by
    apply List.ext_getElem (by simp)
    intro i _ _
    simp
  have all : List.ofFn (sectorOf buf) = _ := words 256
  rw [sectorBytes, all, flatMap_wordAt (by omega), List.take_of_length_le (by omega)]

theorem ataWriteSector_spec (stands : system.Stands .idle medium) (small : lba < 0x10000000) (buf : List UInt8) :
    ∃ after, system.ataWriteSector lba buf = some after ∧
      after.Stands .idle (Function.update medium lba (sectorOf buf)) := by
  have begins (disk : Disk) (address : disk.lba = some lba) (one : disk.sectors = 1) :
      disk.command (0x30 : UInt32).toUInt8 = { disk with intrq := false }.begin (.preparing lba 1) := by
    show disk.command 0x30 = _
    simp [Disk.command, address, one]
  obtain ⟨preparing, _⟩ := issue_idle stands small begins
  obtain ⟨taking, open_⟩ := ataWaitReady_preparing preparing
  obtain ⟨storing, low⟩ := writeWords_spec taking open_ buf
  have stores (disk : Disk) (phase : disk.phase = .storing lba 1 ((List.range 256).map (wordAt buf)))
      (same : disk.medium = medium) :
      disk.finish.phase = .idle ∧ disk.finish.medium = Function.update medium lba (sectorOf buf) ∧
        disk.finish.intrq = true := by
    have words : (fun i : Fin 256 => ((List.range 256).map (wordAt buf)).getD i 0) = sectorOf buf := by
      funext i
      simp [sectorOf]
    refine ⟨by simp [Disk.finish, phase], ?_, by simp [Disk.finish, phase]⟩
    simp only [Disk.finish, phase, same, words]
  unfold ataWriteSector
  exact sysWaitIrq_working storing low rfl stores

theorem ataFlush_spec (stands : system.Stands .idle medium) :
    ∃ after, system.ataFlush = some after ∧ after.Stands .idle medium := by
  have resting : system.disk.phase.working = false := by
    rw [stands.phase]
    rfl
  have ready := ataWaitReady_resting resting
  have still : system.ataWaitReady.disk.phase.working = false := by
    rw [ready]
    exact resting
  have begins (disk : Disk) : disk.portOut 0x1F7 0xE7 = { disk with intrq := false }.begin .flushing := by
    show disk.command 0xE7 = _
    simp [Disk.command]
  have flushing : (system.ataWaitReady.sysPortOut 0x1F7 0xE7).Stands .flushing medium ∧
      (system.ataWaitReady.sysPortOut 0x1F7 0xE7).disk.intrq = false := by
    rw [sysPortOut_resting still, begins, react_of_low rfl, ready]
    exact ⟨⟨rfl, stands.medium, stands.quiet⟩, rfl⟩
  exact sysWaitIrq_working flushing.1 flushing.2 rfl fun disk phase same => by simp [Disk.finish, phase, same]

end System

/-! ## The service loop -/

namespace Service

/-- No command is under way and no interrupt is noted. -/
def Idle (service : Service) : Prop := service.system.disk.phase = .idle ∧ service.system.irq = .quiet

def store (service : Service) : SectorStore :=
  ⟨fun lba => sectorBytes (service.system.disk.medium lba), service.shm⟩

def step (service : Service) : Event → Option Service
  | .request msg => (service.handle msg).map Prod.fst
  | .fill page => some { service with shm := page }

variable {service : Service} {msg : Message}

theorem Idle.stands (idle : service.Idle) : service.system.Stands .idle service.system.disk.medium :=
  ⟨idle.1, rfl, idle.2⟩

/-- The slice that the bounds check lets through, unless its end wraps around. -/
theorem slice_of_bound {offset : UInt64} (inside : ¬ offset + 512 > 4096) (shm : Base.Buffer 4096 UInt8) :
    if offset > offset + 512 then shm.read offset.toNat 512 = none
    else ∃ buf, shm.read offset.toNat 512 = some buf := by
  have small := offset.toNat_lt
  have sum : (offset + 512).toNat = (offset.toNat + 512) % 2 ^ 64 := by
    rw [UInt64.toNat_add]
    rfl
  have fits : (offset + 512).toNat ≤ 4096 := UInt64.le_iff_toNat_le.mp (UInt64.not_lt.mp inside)
  split
  next wraps =>
    have less : (offset + 512).toNat < offset.toNat := UInt64.lt_iff_toNat_lt.mp wraps
    rw [Base.Buffer.read, dif_neg]
    omega
  next straight =>
    have most : offset.toNat ≤ (offset + 512).toNat := UInt64.le_iff_toNat_le.mp (UInt64.not_lt.mp straight)
    rw [Base.Buffer.read, dif_pos (by omega)]
    exact ⟨_, rfl⟩

theorem small_of_lt {lba : UInt32} (valid : ¬ lba ≥ 20480) : lba < 0x10000000 :=
  UInt32.lt_trans (UInt32.not_le.mp valid) (by decide)

structure Valid (msg : Message) : Prop where
  inside : ¬ msg.rdx + 512 > 4096
  lba : ¬ msg.rsi.toUInt32 ≥ 20480

theorem handle_read (idle : service.Idle) (valid : Valid msg) (asked : msg.rdi = msgBlockRead)
    (straight : ¬ msg.rdx > msg.rdx + 512) :
    ∃ after, service.handle msg = some (after, { msg with rdi := 0 }) ∧ after.Idle ∧
      after.store = service.store.apply (.request msg) := by
  have sliced := slice_of_bound valid.inside service.shm
  rw [if_neg straight] at sliced
  obtain ⟨buf, sliced⟩ := sliced
  obtain ⟨system, done, stands⟩ := System.ataReadSector_spec idle.stands (small_of_lt valid.lba)
    (Base.Buffer.length_of_read sliced)
  refine ⟨⟨system, service.shm.write msg.rdx.toNat (sectorBytes (service.system.disk.medium msg.rsi.toUInt32))⟩, ?_,
    ⟨stands.phase, stands.quiet⟩, ?_⟩
  · rw [handle, if_neg valid.inside, if_neg valid.lba, if_pos asked, sliced, Option.bind_some, done]
    rfl
  · rw [SectorStore.apply, if_pos asked]
    simp only [store, SectorStore.read, stands.medium]

theorem handle_write (idle : service.Idle) (valid : Valid msg) (asked : msg.rdi = msgBlockWrite)
    (straight : ¬ msg.rdx > msg.rdx + 512) :
    ∃ after, service.handle msg = some (after, { msg with rdi := 0 }) ∧ after.Idle ∧
      after.store = service.store.apply (.request msg) := by
  have other : ¬ msg.rdi = msgBlockRead := by
    rw [asked]
    decide
  have sliced := slice_of_bound valid.inside service.shm
  rw [if_neg straight] at sliced
  obtain ⟨buf, sliced⟩ := sliced
  obtain ⟨system, done, stands⟩ := System.ataWriteSector_spec idle.stands (small_of_lt valid.lba) buf
  refine ⟨{ service with system := system }, ?_, ⟨stands.phase, stands.quiet⟩, ?_⟩
  · rw [handle, if_neg valid.inside, if_neg valid.lba, if_neg other, if_pos asked, sliced, Option.bind_some, done]
    rfl
  · rw [SectorStore.apply, if_neg other, if_pos asked]
    simp only [store, SectorStore.write, stands.medium, sliced, Option.getD_some, SectorStore.mk.injEq, and_true]
    funext lba
    by_cases same : lba = msg.rsi.toUInt32
    · subst same
      rw [Function.update_self, Function.update_self, System.sectorBytes_sectorOf (Base.Buffer.length_of_read sliced)]
    · rw [Function.update_of_ne same, Function.update_of_ne same]

theorem handle_flush (idle : service.Idle) (valid : Valid msg) (asked : msg.rdi = msgBlockFlush) :
    ∃ after, service.handle msg = some (after, { msg with rdi := 0 }) ∧ after.Idle ∧
      after.store = service.store.apply (.request msg) := by
  have notRead : ¬ msg.rdi = msgBlockRead := by
    rw [asked]
    decide
  have notWrite : ¬ msg.rdi = msgBlockWrite := by
    rw [asked]
    decide
  obtain ⟨system, done, stands⟩ := System.ataFlush_spec idle.stands
  refine ⟨{ service with system := system }, ?_, ⟨stands.phase, stands.quiet⟩, ?_⟩
  · rw [handle, if_neg valid.inside, if_neg valid.lba, if_neg notRead, if_neg notWrite, if_pos asked, done]
    rfl
  · rw [SectorStore.apply, if_neg notRead, if_neg notWrite]
    simp only [store, stands.medium]

/-- Every round answers as `ataReply` says. One that reports success has done to the store
what the request says, any other leaves the service alone. -/
theorem handle_refines (idle : service.Idle) {reply : Message} (replies : Storage.ataReply msg = some reply) :
    ∃ after, service.handle msg = some (after, reply) ∧ after.Idle ∧
      if reply.rdi = 0 then after.store = service.store.apply (.request msg) else after = service := by
  unfold Storage.ataReply at replies
  dsimp only at replies
  split at replies
  next beyond =>
    obtain rfl := Option.some.inj replies
    exact ⟨service, by rw [handle, if_pos beyond], idle, rfl⟩
  next inside =>
    split at replies
    next invalid =>
      obtain rfl := Option.some.inj replies
      exact ⟨service, by rw [handle, if_neg inside, if_pos invalid], idle, rfl⟩
    next lba =>
      have valid : Valid msg := ⟨inside, lba⟩
      split at replies
      next transfers =>
        split at replies
        · cases replies
        next straight =>
          obtain rfl := Option.some.inj replies
          rcases transfers with asked | asked
          · exact handle_read idle valid asked straight
          · exact handle_write idle valid asked straight
      next neither =>
        split at replies
        next asked =>
          obtain rfl := Option.some.inj replies
          exact handle_flush idle valid asked
        next unknown =>
          obtain rfl := Option.some.inj replies
          rw [not_or] at neither
          refine ⟨service, ?_, idle, rfl⟩
          rw [handle, if_neg inside, if_neg lba, if_neg neither.1, if_neg neither.2, if_neg unknown]

theorem ataReply_of_inRange (inRange : (Event.request msg).InRange) :
    Storage.ataReply msg = some { msg with rdi := 0 } := by
  obtain ⟨asked, lba, offset⟩ := inRange
  have bound : msg.rdx.toNat ≤ 3584 := UInt64.le_iff_toNat_le.mp offset
  have sum : (msg.rdx + 512).toNat = msg.rdx.toNat + 512 := by
    rw [UInt64.toNat_add]
    show (msg.rdx.toNat + 512) % 2 ^ 64 = _
    omega
  have inside : ¬ msg.rdx + 512 > 4096 := by
    apply UInt64.not_lt.mpr
    apply UInt64.le_iff_toNat_le.mpr
    rw [sum]
    show msg.rdx.toNat + 512 ≤ 4096
    omega
  have straight : ¬ msg.rdx > msg.rdx + 512 := by
    apply UInt64.not_lt.mpr
    apply UInt64.le_iff_toNat_le.mpr
    omega
  rw [Storage.ataReply, if_neg inside, if_neg (UInt32.not_le.mpr lba), if_pos asked, if_neg straight]

theorem step_refines (idle : service.Idle) {event : Event} (inRange : event.InRange) :
    ∃ after, service.step event = some after ∧ after.Idle ∧ after.store = service.store.apply event := by
  cases event with
  | request msg =>
    obtain ⟨after, handled, rests, stored⟩ := handle_refines idle (ataReply_of_inRange inRange)
    refine ⟨after, ?_, rests, stored⟩
    rw [step, handled]
    rfl
  | fill page => exact ⟨{ service with shm := page }, rfl, idle, by simp only [store, SectorStore.apply]⟩

/-- Any sequence of requests in range does to the disk and the shared page what it does to a
store of sectors. -/
theorem refines_store (idle : service.Idle) {events : List Event} (inRange : ∀ event ∈ events, event.InRange) :
    ∃ after, events.foldlM step service = some after ∧ after.store = events.foldl SectorStore.apply service.store := by
  induction events generalizing service with
  | nil => exact ⟨service, rfl, rfl⟩
  | cons event rest ih =>
    obtain ⟨next, stepped, rests, applied⟩ := step_refines idle (inRange event List.mem_cons_self)
    obtain ⟨after, run, stored⟩ := ih rests fun later member => inRange later (List.mem_cons_of_mem event member)
    refine ⟨after, ?_, ?_⟩
    · rw [List.foldlM_cons, stepped]
      exact run
    · rw [stored, applied, List.foldl_cons]

def blank : Service := ⟨⟨⟨0, 0, 0, 0, 0, .idle, 0, fun n => n + 2, false, fun _ _ => 0⟩, .quiet⟩, fun _ => 0⟩

def writeAndRead : List Event :=
  [.fill fun i => UInt8.ofNat i, .request ⟨msgBlockWrite, 2000, 512, 0, 0, 0⟩, .fill fun _ => 0,
    .request ⟨msgBlockRead, 2000, 3584, 0, 0, 0⟩]

theorem refines_store_blank : ∃ after, writeAndRead.foldlM step blank = some after ∧
    after.store = writeAndRead.foldl SectorStore.apply blank.store := by
  apply refines_store ⟨rfl, rfl⟩
  intro event member
  simp only [writeAndRead, List.mem_cons, List.not_mem_nil, or_false] at member
  rcases member with rfl | rfl | rfl | rfl
  · exact True.intro
  · exact ⟨.inr rfl, by decide, by decide⟩
  · exact True.intro
  · exact ⟨.inl rfl, by decide, by decide⟩

end Service

end ElseOS.Ata
