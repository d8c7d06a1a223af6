import Mathlib.Data.List.FinRange
import ElseOS.Base.Region
import ElseOS.Services.Rtl8139

/-! Who owns a transmit descriptor.

`tx_thread` goes round the four descriptors and never asks whether the device has sent the
frame that was handed to it four requests ago. -/

set_option autoImplicit false

namespace ElseOS.Rtl8139

open Base (Region)
open Network (Page Area msgNetTx)

def TxWrite.Touches (desc : Fin 4) : TxWrite → Prop
  | .buffer offset bytes => ¬ Region.Disjoint ⟨offset, bytes.length⟩ ⟨desc * 2048, 2048⟩
  | .address written _ | .status written _ => written = desc

def Tx.filling : Tx → Bool
  | .copied _ | .addressed _ => true
  | _ => false

namespace State

def owned (state : State) (desc : Fin 4) : Bool := (state.nic.descriptors desc).owned

def Spares (txBufPhys : UInt64) (state : State) : Act → Prop
  | .tx page => ∀ write ∈ txWrites txBufPhys state page, ∀ desc, state.owned desc = true → ¬ write.Touches desc
  | _ => True

def outstanding (state : State) : Nat := (List.finRange 4).countP state.owned

/-- A request is copied to its buffer only while fewer than four frames are outstanding. -/
def roomy (state : State) : Act → Bool
  | .tx _ =>
    match state.tx with
    | .received _ => state.outstanding < 4
    | _ => true
  | _ => true

/-! ## Descriptors in turn -/

def Owns (owned : Fin 4 → Bool) (oldest : Fin 4) (count : Nat) : Prop :=
  count ≤ 4 ∧ ∀ desc, owned desc = true ↔ (desc - oldest).val < count

structure InTurn (state : State) (count : Nat) : Prop where
  owns : Owns state.owned state.nic.oldest count
  next : state.turn.val = (state.nic.oldest.val + count) % 4
  free : state.tx.filling = true → count < 4

variable {state after : State} {txBufPhys : UInt64} {count : Nat}

theorem Owns.complete {owned : Fin 4 → Bool} {oldest : Fin 4} (owns : Owns owned oldest (count + 1)) :
    Owns (Function.update owned oldest false) (oldest + 1) count := by
  refine ⟨Nat.le_of_succ_le owns.1, ?_⟩
  intro desc
  have bound := owns.1
  by_cases same : desc = oldest
  · subst same
    rw [Function.update_self]
    simp only [Fin.sub_def, Fin.val_add, Bool.false_eq_true, false_iff]
    omega
  · rw [Function.update_of_ne same, owns.2 desc]
    have apart : desc.val ≠ oldest.val := fun equal => same (Fin.ext equal)
    simp only [Fin.sub_def, Fin.val_add]
    omega

theorem Owns.hand {owned : Fin 4 → Bool} {oldest next : Fin 4} (owns : Owns owned oldest count)
    (isNext : next.val = (oldest.val + count) % 4) (room : count < 4) :
    Owns (Function.update owned next true) oldest (count + 1) := by
  refine ⟨room, ?_⟩
  intro desc
  by_cases same : desc = next
  · subst same
    rw [Function.update_self]
    simp only [Fin.sub_def, true_iff]
    omega
  · rw [Function.update_of_ne same, owns.2 desc]
    have apart : desc.val ≠ next.val := fun equal => same (Fin.ext equal)
    simp only [Fin.sub_def]
    omega

/-- With room left the next descriptor is not the device's. -/
theorem Owns.next_free {owned : Fin 4 → Bool} {oldest next : Fin 4} (owns : Owns owned oldest count)
    (isNext : next.val = (oldest.val + count) % 4) (room : count < 4) : owned next = false := by
  rw [Bool.eq_false_iff, Ne, owns.2 next]
  simp only [Fin.sub_def]
  omega

theorem InTurn.room (inTurn : state.InTurn count) (few : state.outstanding < 4) : count < 4 := by
  by_contra full
  have all : state.outstanding = (List.finRange 4).length := by
    refine List.countP_eq_length.mpr ?_
    intro desc _
    rw [inTurn.owns.2 desc]
    exact Nat.lt_of_lt_of_le (desc - state.nic.oldest).isLt (Nat.not_lt.mp full)
  rw [all, List.length_finRange] at few
  exact Nat.lt_irrefl 4 few

/-! ## The copy -/

/-- A copy keeps to the buffer of its descriptor: the packet page ends before the buffer does. -/
theorem copyWrites_within {page : Page} {desc : Fin 4} {length : UInt64} {write : TxWrite}
    (member : write ∈ copyWrites page desc length) :
    ∃ offset bytes, write = .buffer offset bytes ∧
      Region.Within ⟨offset, bytes.length⟩ ⟨desc * 2048, 2048⟩ := by
  unfold copyWrites at member
  split at member
  next frame reads =>
    have long : frame.length = length.toNat := page.length_of_read reads
    have inside : 2048 + length.toNat ≤ 4096 := page.inside_of_read reads
    rcases List.mem_cons.mp member with rfl | member
    · refine ⟨_, _, rfl, Nat.le_refl _, ?_⟩
      simp only [Region.stop]
      omega
    · split at member
      next short =>
        obtain rfl := List.mem_singleton.mp member
        have fewer : length.toNat < 60 := UInt64.lt_iff_toNat_lt.mp short
        refine ⟨_, _, rfl, Nat.le_add_right _ _, ?_⟩
        simp only [Region.stop, List.length_replicate]
        omega
      next => cases member
  next =>
    obtain rfl := List.mem_singleton.mp member
    refine ⟨_, _, rfl, Nat.le_refl _, ?_⟩
    cases reads : page.read Area.tx.offset 2048 with
    | none => simp [Region.stop]
    | some bytes => simp [Region.stop, page.length_of_read reads]

theorem buffers_disjoint {first second : Fin 4} (different : first ≠ second) :
    Region.Disjoint ⟨first * 2048, 2048⟩ ⟨second * 2048, 2048⟩ := by
  have apart : first.val ≠ second.val := fun equal => different (Fin.ext equal)
  rcases Nat.lt_or_gt_of_ne apart with before | behind
  · apply Region.disjoint_of_le
    simp only [Region.stop]
    omega
  · apply Region.Disjoint.symm
    apply Region.disjoint_of_le
    simp only [Region.stop]
    omega

theorem nic_copyWrites (state : State) (page : Page) (desc : Fin 4) (length : UInt64) :
    ((copyWrites page desc length).foldl write state).nic = state.nic := by
  unfold copyWrites
  split
  · split <;> rfl
  · rfl

theorem owned_write_address (state : State) (desc : Fin 4) (value : UInt32) :
    (state.write (.address desc value)).owned = state.owned := by
  funext other
  by_cases same : other = desc
  · subst same
    simp [State.owned, write]
  · simp [State.owned, write, same]

theorem owned_write_status (state : State) (desc : Fin 4) (value : UInt32) :
    (state.write (.status desc value)).owned = Function.update state.owned desc true := by
  funext other
  by_cases same : other = desc
  · subst same
    simp [State.owned, write]
  · simp [State.owned, write, same]

/-! ## Steps -/

theorem touches_only_turn {page : Page} {write : TxWrite} (member : write ∈ txWrites txBufPhys state page)
    {desc : Fin 4} (touches : write.Touches desc) : desc = state.nextTxDesc := by
  unfold txWrites at member
  dsimp only at member
  split at member
  · obtain ⟨offset, bytes, rfl, within⟩ := copyWrites_within member
    by_contra different
    exact touches ((buffers_disjoint (Ne.symm different)).within within)
  · obtain rfl := List.mem_singleton.mp member
    exact touches.symm
  · obtain rfl := List.mem_singleton.mp member
    exact touches.symm
  · cases member

theorem InTurn.spares (inTurn : state.InTurn count) {act : Act} (roomy : state.roomy act = true) :
    state.Spares txBufPhys act := by
  cases act with
  | tx page =>
    intro write member desc owned touches
    obtain rfl := touches_only_turn member touches
    have writing : state.tx ≠ .handed ∧ count < 4 := by
      unfold txWrites at member
      dsimp only at member
      split at member
      next received =>
        simp only [State.roomy, received, decide_eq_true_eq] at roomy
        exact ⟨by simp [received], inTurn.room roomy⟩
      next copied => exact ⟨by simp [copied], inTurn.free (by rw [copied]; rfl)⟩
      next addressed => exact ⟨by simp [addressed], inTurn.free (by rw [addressed]; rfl)⟩
      next => cases member
    have next := inTurn.next
    rw [turn, if_neg writing.1] at next
    rw [inTurn.owns.next_free next writing.2] at owned
    cases owned
  | _ => exact True.intro

theorem InTurn.txStep (inTurn : state.InTurn count) {page : Page} (roomy : state.roomy (.tx page) = true)
    (stepped : state.txStep txBufPhys page = some after) : ∃ count, after.InTurn count := by
  obtain ⟨next, moved, rfl⟩ := Option.map_eq_some_iff.mp stepped
  have isNext := inTurn.next
  cases phase : state.tx with
  | listening =>
    rw [phase] at moved
    cases moved
  | gone =>
    rw [phase] at moved
    cases moved
  | received length =>
    -- the copy fills a buffer that the device does not own
    simp only [State.roomy, phase, decide_eq_true_eq] at roomy
    have room := inTurn.room roomy
    have nic : ((txWrites txBufPhys state page).foldl write state).nic = state.nic := by
      simp only [txWrites, phase]
      exact nic_copyWrites state page _ length
    have notHanded : next ≠ .handed := by
      rw [phase] at moved
      change (if _ then some (Tx.copied length) else some Tx.gone) = some next at moved
      split at moved <;> (obtain rfl := Option.some.inj moved; simp)
    refine ⟨count, ?_, ?_, fun _ => room⟩
    · simp only [nic]
      exact inTurn.owns
    · rw [turn, if_neg notHanded]
      simp only [nic]
      exact isNext
  | copied length =>
    -- the address register does not change who owns the descriptor
    have room := inTurn.free (by rw [phase]; rfl)
    rw [phase] at moved
    obtain rfl := Option.some.inj moved
    simp only [txWrites, phase, List.foldl_cons, List.foldl_nil]
    refine ⟨count, ?_, isNext, fun _ => room⟩
    show Owns (state.write (.address _ _)).owned state.nic.oldest count
    rw [owned_write_address]
    exact inTurn.owns
  | addressed length =>
    -- the status register hands it over, behind those the device has already
    have room := inTurn.free (by rw [phase]; rfl)
    have now : state.turn = state.nextTxDesc := by
      rw [turn, phase]
      exact if_neg (by simp)
    rw [phase] at moved
    obtain rfl := Option.some.inj moved
    simp only [txWrites, phase, List.foldl_cons, List.foldl_nil]
    refine ⟨count + 1, ?_, ?_, fun filling => by cases filling⟩
    · show Owns (state.write (.status _ _)).owned state.nic.oldest (count + 1)
      rw [owned_write_status, ← now]
      exact inTurn.owns.hand isNext room
    · show (state.turn + 1).val = (state.nic.oldest.val + (count + 1)) % 4
      rw [Fin.val_add]
      omega
  | handed =>
    rw [phase] at moved
    obtain rfl := Option.some.inj moved
    simp only [txWrites, phase, List.foldl_nil]
    exact ⟨count, inTurn.owns, isNext, fun filling => by cases filling⟩

theorem owned_complete {nic : Nic} (completed : state.nic.complete = some nic) :
    state.owned state.nic.oldest = true ∧ nic.oldest = state.nic.oldest + 1 ∧
      ({ state with nic := nic } : State).owned = Function.update state.owned state.nic.oldest false := by
  unfold Nic.complete at completed
  dsimp only at completed
  split at completed
  next sent =>
    obtain rfl := Option.some.inj completed
    refine ⟨sent, rfl, ?_⟩
    funext desc
    by_cases same : desc = state.nic.oldest
    · subst same
      simp [State.owned, Nic.cause]
    · simp [State.owned, Nic.cause, same]
  next => cases completed

theorem InTurn.complete (inTurn : state.InTurn count) {nic : Nic} (completed : state.nic.complete = some nic) :
    ∃ count, ({ state with nic := nic } : State).InTurn count := by
  obtain ⟨sent, oldest, released⟩ := owned_complete completed
  have some : 0 < count := by
    have first := (inTurn.owns.2 state.nic.oldest).mp sent
    omega
  obtain ⟨rest, rfl⟩ := Nat.exists_eq_succ_of_ne_zero (Nat.ne_of_gt some)
  refine ⟨rest, ?_, ?_, fun filling => Nat.lt_of_succ_lt (inTurn.free filling)⟩
  · rw [released]
    show Owns _ nic.oldest rest
    rw [oldest]
    exact inTurn.owns.complete
  · have next := inTurn.next
    show state.turn.val = (nic.oldest.val + rest) % 4
    rw [next, oldest, Fin.val_add]
    omega

def transmitting (state : State) : (Fin 4 → Bool) × Fin 4 × Fin 4 × Tx :=
  (state.owned, state.nic.oldest, state.nextTxDesc, state.tx)

theorem InTurn.of_transmitting (inTurn : state.InTurn count) (same : after.transmitting = state.transmitting) :
    after.InTurn count := by
  simp only [transmitting, Prod.mk.injEq] at same
  obtain ⟨owned, oldest, next, tx⟩ := same
  constructor
  · rw [owned, oldest]
    exact inTurn.owns
  · rw [turn, tx, next, oldest]
    exact inTurn.next
  · rw [tx]
    exact inTurn.free

theorem transmitting_mainStep (stepped : state.mainStep = some after) : after.transmitting = state.transmitting := by
  unfold mainStep at stepped
  split at stepped
  case h_5 =>
    split at stepped <;> (obtain rfl := Option.some.inj stepped; rfl)
  all_goals first
    | (obtain rfl := Option.some.inj stepped; rfl)
    | cases stepped

theorem InTurn.step (inTurn : state.InTurn count) {act : Act} (roomy : state.roomy act = true)
    (taken : state.step txBufPhys act = some after) : ∃ count, after.InTurn count := by
  cases act with
  | arrive frame =>
    obtain rfl := Option.some.inj taken
    exact ⟨count, inTurn.of_transmitting rfl⟩
  | complete =>
    obtain ⟨nic, completed, rfl⟩ := Option.map_eq_some_iff.mp taken
    exact inTurn.complete completed
  | interrupt =>
    simp only [State.step, State.interrupt] at taken
    split at taken
    · obtain rfl := Option.some.inj taken
      exact ⟨count, inTurn.of_transmitting rfl⟩
    · cases taken
  | main => exact ⟨count, inTurn.of_transmitting (transmitting_mainStep taken)⟩
  | request msg =>
    simp only [State.step] at taken
    split at taken
    next idle =>
      obtain rfl := Option.some.inj taken
      split
      · refine ⟨count, inTurn.owns, ?_, fun filling => by cases filling⟩
        have next := inTurn.next
        rw [turn, idle, if_neg (by simp)] at next
        exact next
      · exact ⟨count, inTurn⟩
    next => cases taken
  | tx page => exact inTurn.txStep roomy taken

/-- While fewer than four frames are outstanding at each copy, nothing the device owns is written. -/
theorem owned_descriptors_spared {buffers : Base.Buffer 8192 UInt8} {history : List (State × Act)} {state : State}
    (run : DriverRun txBufPhys buffers history state)
    (roomy : Base.Run.Guarded (fun state act => state.roomy act = true) history) :
    ∀ entry ∈ history, entry.1.Spares txBufPhys entry.2 := by
  intro entry member
  have initial : ∃ count, (start buffers).InTurn count := by
    refine ⟨0, ⟨Nat.zero_le 4, ?_⟩, rfl, fun filling => by cases filling⟩
    intro desc
    simp [start, State.owned, Nic.reset]
  have preserved {state after : State} {act : Act} (inTurn : ∃ count, state.InTurn count)
      (roomy : state.roomy act = true) (taken : state.step txBufPhys act = some after) :
      ∃ count, after.InTurn count := by
    obtain ⟨count, inTurn⟩ := inTurn
    exact inTurn.step roomy taken
  obtain ⟨count, inTurn⟩ := run.invariant_entry (fun state => ∃ count, state.InTurn count)
    (fun state act => state.roomy act = true) initial preserved roomy member
  exact inTurn.spares (roomy entry member)

def blank : Page := fun _ => 0

def serve (length : UInt64) : List Act :=
  [.request ⟨msgNetTx, length, 0, 0, 0, 0⟩, .tx blank, .tx blank, .tx blank, .tx blank]

/-- Four requests fill the descriptors; the fifth waits for the first frame to be sent. -/
theorem owned_descriptors_spared_after_send : ∃ history state, DriverRun 0 (fun _ => 0) history state ∧
    history.map Prod.snd = serve 64 ++ serve 64 ++ serve 64 ++ serve 64 ++ [.complete] ++ serve 20 ∧
    state.outstanding = 4 ∧ ∀ entry ∈ history, entry.1.Spares 0 entry.2 := by
  obtain ⟨history, state, run, labels, roomy, full⟩ := Base.Run.of_check (step 0) roomy (start fun _ => 0)
    (serve 64 ++ serve 64 ++ serve 64 ++ serve 64 ++ [.complete] ++ serve 20)
    (fun state => decide (state.outstanding = 4)) (by decide +kernel)
  exact ⟨history, state, run, labels, of_decide_eq_true full, owned_descriptors_spared run roomy⟩

/-- A fifth request overwrites the buffer of the first frame, which has not been sent. -/
theorem fifth_copy_overwrites : ∃ history state, DriverRun 0 (fun _ => 0) history state ∧
    history.map Prod.snd = serve 64 ++ serve 64 ++ serve 64 ++ serve 64 ++ [.request ⟨msgNetTx, 64, 0, 0, 0, 0⟩] ∧
    (state.step 0 (.tx blank)).isSome ∧ ¬ state.Spares 0 (.tx blank) := by
  obtain ⟨history, state, run, labels, _, checked⟩ := Base.Run.of_check (step 0) (fun _ _ => true) (start fun _ => 0)
    (serve 64 ++ serve 64 ++ serve 64 ++ serve 64 ++ [.request ⟨msgNetTx, 64, 0, 0, 0, 0⟩])
    (fun state => decide (state.tx = .received 64 ∧ state.nextTxDesc = 0 ∧ state.owned 0 = true)) (by decide +kernel)
  obtain ⟨phase, turn, owned⟩ := of_decide_eq_true checked
  refine ⟨history, state, run, labels, ?_, ?_⟩
  · simp only [step, State.txStep, phase, Option.isSome_map]
    decide
  · intro spares
    have copies : TxWrite.buffer 0 (List.replicate 64 0) ∈ txWrites 0 state blank := by
      simp only [txWrites, phase, turn]
      decide
    refine spares _ copies 0 owned ?_
    intro disjoint
    exact disjoint 0 (by decide) (by decide)

end State

end ElseOS.Rtl8139
