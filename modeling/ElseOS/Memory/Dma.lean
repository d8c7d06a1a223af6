import ElseOS.Base.Bytes
import ElseOS.Base.Region
import ElseOS.Base.Transition
import ElseOS.Memory.Address

/-! The DMA pool: sixteen contiguous frames, handed out from the bottom and never taken back. -/

set_option autoImplicit false

namespace ElseOS

structure DmaPool where
  phys : UInt64
  used : UInt64
  deriving DecidableEq, Repr

namespace DmaPool

/-- The request in whole pages, wrapping as the release build does. -/
def aligned (bytes : UInt64) : UInt64 := (bytes + PAGE_SIZE - 1) &&& ~~~(PAGE_SIZE - 1)

/-- `allocate_dma_frames`. The call does not return when zeroing the memory faults or the
address is no physical address; the counter has moved by then. -/
def allocateDmaFrames (pool : DmaPool) (ram : Ram) (hhdmOffset bytes : UInt64) :
    DmaPool × Ram × Option (Option UInt64) :=
  let aligned := aligned bytes
  if pool.used + aligned ≤ 65536 then
    let addr := pool.phys + pool.used
    let pool := { pool with used := pool.used + aligned }
    if writable (addr + hhdmOffset) aligned then
      (pool, ram.fill addr aligned 0, (PhysAddr.new addr).map some)
    else (pool, ram, none)
  else (pool, ram, some none)

/-! ## Rounding -/

theorem mask_toNat (addr : UInt64) : (addr &&& ~~~(PAGE_SIZE - 1)).toNat = addr.toNat / 4096 * 4096 := by
  have mask : (~~~(PAGE_SIZE - 1)).toNat = (2 ^ 52 - 1) * 2 ^ 12 := by decide
  rw [UInt64.toNat_and, mask]
  exact Base.Bytes.and_mask addr.toNat_lt

theorem aligned_toNat {bytes : UInt64} (small : bytes.toNat ≤ 2 ^ 64 - 4096) :
    (aligned bytes).toNat = (bytes.toNat + 4095) / 4096 * 4096 := by
  have sum : (bytes + PAGE_SIZE - 1).toNat = bytes.toNat + 4095 := by
    have one : (1 : UInt64).toNat = 1 := rfl
    rw [UInt64.toNat_sub, UInt64.toNat_add, PAGE_SIZE_toNat]
    omega
  rw [aligned, mask_toNat, sum]

/-- Beyond that the sum wraps and the request counts as nothing. -/
theorem aligned_wraps {bytes : UInt64} (large : 2 ^ 64 - 4096 < bytes.toNat) : aligned bytes = 0 := by
  have sum : (bytes + PAGE_SIZE - 1).toNat = bytes.toNat + 4095 - 2 ^ 64 := by
    have one : (1 : UInt64).toNat = 1 := rfl
    have bound := bytes.toNat_lt
    rw [UInt64.toNat_sub, UInt64.toNat_add, PAGE_SIZE_toNat]
    omega
  have bound := bytes.toNat_lt
  apply UInt64.toNat_inj.mp
  rw [aligned, mask_toNat, sum, UInt64.toNat_zero]
  omega

/-! ## One request -/

def region (pool : DmaPool) : Base.Region := ⟨pool.phys.toNat, 65536⟩

def grantRegion (grant : UInt64 × UInt64) : Base.Region := ⟨grant.1.toNat, grant.2.toNat⟩

variable {pool after : DmaPool} {ram zeroed : Ram} {hhdmOffset bytes : UInt64} {result : Option (Option UInt64)}

theorem allocate_phys (pool : DmaPool) (ram : Ram) (hhdmOffset bytes : UInt64) :
    (pool.allocateDmaFrames ram hhdmOffset bytes).1.phys = pool.phys := by
  unfold allocateDmaFrames
  dsimp only
  split
  · split <;> rfl
  · rfl

structure Allocates (pool after : DmaPool) (bytes : UInt64) (result : Option (Option UInt64)) : Prop where
  phys : after.phys = pool.phys
  used : after.used.toNat ≤ 65536
  granted : ∀ {phys}, result = some (some phys) →
    phys = pool.phys + pool.used ∧ pool.used.toNat + bytes.toNat ≤ after.used.toNat
  refused : result = some none → after = pool

theorem allocate_spec (small : bytes.toNat ≤ 2 ^ 64 - 4096) (room : pool.used.toNat ≤ 65536)
    (called : pool.allocateDmaFrames ram hhdmOffset bytes = (after, zeroed, result)) :
    Allocates pool after bytes result := by
  have pages := aligned_toNat small
  have sum := UInt64.toNat_add pool.used (aligned bytes)
  unfold allocateDmaFrames at called
  dsimp only at called
  split at called
  next fits =>
    have bound : (pool.used + aligned bytes).toNat ≤ 65536 := fits
    split at called
    next reaches =>
      -- a sum that wrapped would have zeroed nearly the whole address space
      have unwrapped : pool.used.toNat + (aligned bytes).toNat < 2 ^ 64 := by
        by_contra wrapped
        have start := (pool.phys + pool.used + hhdmOffset).toNat_lt
        simp only [writable, Bool.and_eq_true, Bool.not_eq_true', decide_eq_false_iff_not] at reaches
        omega
      cases called
      refine ⟨rfl, bound, ?_, ?_⟩
      · intro phys granted
        obtain ⟨addr, valid, same⟩ := Option.map_eq_some_iff.mp granted
        cases same
        refine ⟨(PhysAddr.new_eq valid).1, ?_⟩
        change pool.used.toNat + bytes.toNat ≤ (pool.used + aligned bytes).toNat
        omega
      · intro refused
        obtain ⟨addr, _, same⟩ := Option.map_eq_some_iff.mp refused
        cases same
    next =>
      cases called
      exact ⟨rfl, bound, by simp, by simp⟩
  next =>
    cases called
    exact ⟨rfl, room, by simp, fun _ => rfl⟩

/-- A request that wraps is granted in full and takes nothing from the pool. -/
theorem allocate_wraps (ram : Ram) (hhdmOffset : UInt64) (large : 2 ^ 64 - 4096 < bytes.toNat)
    (room : pool.used.toNat ≤ 65536) (narrow : pool.phys.toNat + 65536 < 2 ^ 52) :
    (pool.allocateDmaFrames ram hhdmOffset bytes).1 = pool ∧
    (pool.allocateDmaFrames ram hhdmOffset bytes).2.2 = some (some (pool.phys + pool.used)) := by
  have fits : pool.used + 0 ≤ 65536 := by
    rw [UInt64.add_zero, UInt64.le_iff_toNat_le]
    exact room
  have reaches : writable (pool.phys + pool.used + hhdmOffset) 0 = true := by
    have start := (pool.phys + pool.used + hhdmOffset).toNat_lt
    simp only [writable, UInt64.toNat_zero, Nat.add_zero, Bool.and_eq_true, Bool.not_eq_true', decide_eq_false_iff_not]
    omega
  have valid : PhysAddr.new (pool.phys + pool.used) = some (pool.phys + pool.used) := by
    rw [PhysAddr.new, if_pos]
    rw [UInt64.toNat_add]
    omega
  unfold allocateDmaFrames
  simp only [aligned_wraps large]
  rw [if_pos fits, if_pos reaches, valid]
  exact ⟨by simp, rfl⟩

end DmaPool

/-! ## Sequences of requests -/

open DmaPool

/-- The pool with the memory capabilities granted from it, newest first. -/
structure DmaLedger where
  pool : DmaPool
  ram : Ram
  granted : List (UInt64 × UInt64)
  halted : Bool

namespace DmaLedger

def new (phys : UInt64) (ram : Ram) : DmaLedger := ⟨⟨phys, 0⟩, ram, [], false⟩

/-- `SYS_DMA_ALLOC`: the capability names the size that was asked for. -/
def step (hhdmOffset : UInt64) (ledger : DmaLedger) (size : UInt64) : Option DmaLedger :=
  if ledger.halted then none
  else match ledger.pool.allocateDmaFrames ledger.ram hhdmOffset size with
    | (pool, ram, some (some phys)) => some ⟨pool, ram, (phys, size) :: ledger.granted, false⟩
    | (pool, ram, some none) => some ⟨pool, ram, ledger.granted, false⟩
    | (pool, ram, none) => some ⟨pool, ram, ledger.granted, true⟩

/-- Every grant lies in the pool, no two of them meet, and the counter stays in the pool. -/
structure Contained (ledger : DmaLedger) : Prop where
  inside : ∀ grant ∈ ledger.granted, (grantRegion grant).Within ledger.pool.region
  disjoint : (ledger.granted.map grantRegion).Pairwise Base.Region.Disjoint
  used : ledger.pool.used.toNat ≤ 65536

structure Stacked (ledger : DmaLedger) : Prop extends Contained ledger where
  addressable : ledger.pool.phys.toNat + 65536 < 2 ^ 64
  below : ledger.halted = false → ∀ grant ∈ ledger.granted,
    (grantRegion grant).stop ≤ ledger.pool.phys.toNat + ledger.pool.used.toNat

variable {hhdmOffset phys size : UInt64} {ram : Ram} {ledger after : DmaLedger} {history : List (DmaLedger × UInt64)}

theorem Stacked.step (stacked : ledger.Stacked) (small : size.toNat ≤ 2 ^ 64 - 4096)
    (taken : step hhdmOffset ledger size = some after) : after.Stacked := by
  unfold DmaLedger.step at taken
  split at taken
  next => cases taken
  next running =>
    have below := stacked.below (by simpa using running)
    have addressable := stacked.addressable
    rcases called : ledger.pool.allocateDmaFrames ledger.ram hhdmOffset size with ⟨pool, ram, result⟩
    have allocates := allocate_spec small stacked.used called
    have same : pool.region = ledger.pool.region := by rw [region, region, allocates.phys]
    rw [called] at taken
    match result, allocates with
    | some (some phys), allocates =>
      -- the new grant begins where the counter stood, behind all earlier ones
      cases taken
      obtain ⟨rfl, moved⟩ := allocates.granted rfl
      have room := stacked.used
      have bound := allocates.used
      have start : (ledger.pool.phys + ledger.pool.used).toNat = ledger.pool.phys.toNat + ledger.pool.used.toNat := by
        rw [UInt64.toNat_add]
        omega
      refine ⟨⟨?_, ?_, bound⟩, by rw [allocates.phys]; exact addressable, ?_⟩
      · intro grant member
        rw [same]
        rcases List.mem_cons.mp member with rfl | earlier
        · simp only [grantRegion, region, Base.Region.Within, Base.Region.stop, start]
          omega
        · exact stacked.inside grant earlier
      · rw [List.map_cons, List.pairwise_cons]
        refine ⟨?_, stacked.disjoint⟩
        intro other member
        obtain ⟨grant, earlier, rfl⟩ := List.mem_map.mp member
        apply Base.Region.Disjoint.symm
        apply Base.Region.disjoint_of_le
        rw [show (grantRegion (ledger.pool.phys + ledger.pool.used, size)).start = _ from start]
        exact below grant earlier
      · intro _ grant member
        rw [allocates.phys]
        rcases List.mem_cons.mp member with rfl | earlier
        · simp only [grantRegion, Base.Region.stop, start]
          omega
        · have old := below grant earlier
          change (grantRegion grant).stop ≤ ledger.pool.phys.toNat + pool.used.toNat
          omega
    | some none, allocates =>
      cases taken
      cases allocates.refused rfl
      exact ⟨⟨stacked.inside, stacked.disjoint, stacked.used⟩, addressable, fun _ => below⟩
    | none, allocates =>
      cases taken
      refine ⟨⟨?_, stacked.disjoint, allocates.used⟩, by rw [allocates.phys]; exact addressable,
        fun halted => by cases halted⟩
      intro grant member
      rw [same]
      exact stacked.inside grant member

theorem stacked_new (addressable : phys.toNat + 65536 < 2 ^ 64) : (new phys ram).Stacked :=
  ⟨⟨by simp [new], by simp [new], by simp [new]⟩, addressable, by simp [new]⟩

theorem step_keeps (taken : step hhdmOffset ledger size = some after) :
    after.pool.phys = ledger.pool.phys ∧ ∀ grant ∈ ledger.granted, grant ∈ after.granted := by
  have phys := allocate_phys ledger.pool ledger.ram hhdmOffset size
  unfold DmaLedger.step at taken
  split at taken
  next => cases taken
  next =>
    split at taken <;> (cases taken; simp_all)

theorem phys_of_run (run : Base.Run (step hhdmOffset) (new phys ram) history ledger) : ledger.pool.phys = phys :=
  run.always (fun ledger => ledger.pool.phys = phys) rfl fun held taken => (step_keeps taken).1.trans held

theorem step_wraps (stacked : ledger.Stacked) (narrow : ledger.pool.phys.toNat + 65536 < 2 ^ 52)
    (large : 2 ^ 64 - 4096 < size.toNat) (taken : step hhdmOffset ledger size = some after) :
    after.pool = ledger.pool ∧ (ledger.pool.phys + ledger.pool.used, size) ∈ after.granted := by
  obtain ⟨kept, granted⟩ := allocate_wraps ledger.ram hhdmOffset large stacked.used narrow
  unfold DmaLedger.step at taken
  split at taken
  next => cases taken
  next =>
    split at taken <;> (cases taken; simp_all)

/-- Either every request so far was rounded up, or one was granted whole. -/
theorem stacked_or_breached (narrow : phys.toNat + 65536 < 2 ^ 52)
    (run : Base.Run (step hhdmOffset) (new phys ram) history ledger) :
    ((∀ entry ∈ history, entry.2.toNat ≤ 2 ^ 64 - 4096) ∧ ledger.Stacked) ∨
    ((∃ entry ∈ history, 2 ^ 64 - 4096 < entry.2.toNat) ∧
      ∃ grant ∈ ledger.granted, 2 ^ 64 - 4096 < grant.2.toNat) := by
  refine run.induct (fun history ledger =>
    ((∀ entry ∈ history, entry.2.toNat ≤ 2 ^ 64 - 4096) ∧ ledger.Stacked) ∨
    ((∃ entry ∈ history, 2 ^ 64 - 4096 < entry.2.toNat) ∧
      ∃ grant ∈ ledger.granted, 2 ^ 64 - 4096 < grant.2.toNat)) ?_ ?_
  · exact .inl ⟨by simp, stacked_new (by omega)⟩
  · intro past before size after earlier held taken
    rcases held with ⟨small, stacked⟩ | ⟨⟨entry, member, large⟩, grant, given, whole⟩
    · by_cases fits : size.toNat ≤ 2 ^ 64 - 4096
      · refine .inl ⟨?_, stacked.step fits taken⟩
        intro entry member
        rcases List.mem_append.mp member with old | new
        · exact small entry old
        · rw [List.mem_singleton] at new
          subst new
          exact fits
      · have large : 2 ^ 64 - 4096 < size.toNat := Nat.lt_of_not_le fits
        have granted := (step_wraps stacked (phys_of_run earlier ▸ narrow) large taken).2
        exact .inr ⟨⟨(before, size), by simp, large⟩, _, granted, large⟩
    · exact .inr ⟨⟨entry, List.mem_append_left _ member, large⟩, grant, (step_keeps taken).2 grant given, whole⟩

/-- The grants stay in the pool exactly as long as every size asked for leaves room to be rounded up. -/
theorem granted_inside_iff (narrow : phys.toNat + 65536 < 2 ^ 52)
    (run : Base.Run (step hhdmOffset) (new phys ram) history ledger) :
    ledger.Contained ↔ ∀ entry ∈ history, entry.2.toNat ≤ 2 ^ 64 - 4096 := by
  rcases stacked_or_breached narrow run with ⟨small, stacked⟩ | ⟨⟨entry, member, large⟩, grant, given, whole⟩
  · exact ⟨fun _ => small, fun _ => stacked.toContained⟩
  · constructor
    · intro contained
      have inside := (contained.inside grant given).2
      simp only [grantRegion, region, Base.Region.stop, phys_of_run run] at inside
      omega
    · intro small
      have fits := small entry member
      omega

/-- One request for the largest size is granted over all of physical memory. -/
theorem dma_granted_whole : ∃ history ledger,
    Base.Run (step 0xFFFF800000000000) (new 0x100000 fun _ => 0) history ledger ∧
    history.map Prod.snd = [0xFFFFFFFFFFFFFFFF] ∧ ledger.granted = [(0x100000, 0xFFFFFFFFFFFFFFFF)] ∧
    ¬ ledger.Contained := by
  obtain ⟨history, ledger, run, sizes, _, granted⟩ := Base.Run.of_check (step 0xFFFF800000000000)
    (fun _ _ => true) (new 0x100000 fun _ => 0) [0xFFFFFFFFFFFFFFFF]
    (fun ledger => ledger.pool == ⟨0x100000, 0⟩ && ledger.granted ==
      [(0x100000, 0xFFFFFFFFFFFFFFFF)]) (by decide +kernel)
  rw [Bool.and_eq_true, beq_iff_eq, beq_iff_eq] at granted
  refine ⟨history, ledger, run, sizes, granted.2, ?_⟩
  intro contained
  have inside := contained.inside (0x100000, 0xFFFFFFFFFFFFFFFF) (by simp [granted.2])
  rw [granted.1] at inside
  revert inside
  decide

/-- Three requests, the last of them refused. -/
theorem granted_inside_twice : ∃ history ledger,
    Base.Run (step 0xFFFF800000000000) (new 0x100000 fun _ => 0) history ledger ∧
    history.map Prod.snd = [100, 0xE000, 0x2000] ∧ ledger.granted = [(0x101000, 0xE000), (0x100000, 100)] ∧
    ledger.Contained := by
  obtain ⟨history, ledger, run, sizes, guarded, granted⟩ := Base.Run.of_check (step 0xFFFF800000000000)
    (fun _ size => decide (size.toNat ≤ 2 ^ 64 - 4096)) (new 0x100000 fun _ => 0) [100, 0xE000, 0x2000]
    (fun ledger => ledger.granted == [(0x101000, 0xE000), (0x100000, 100)]) (by decide +kernel)
  refine ⟨history, ledger, run, sizes, eq_of_beq granted, ?_⟩
  exact (granted_inside_iff (by decide) run).mpr fun entry member => of_decide_eq_true (guarded entry member)

end DmaLedger

end ElseOS
