import ElseOS.Services.BlockStore

/-! Which block requests the ATA service accepts.

The checks look at the low half of the sector number and at an end offset that may have
wrapped around. -/

set_option autoImplicit false

namespace ElseOS.Ata

open Storage (ataReply msgBlockRead msgBlockWrite msgBlockFlush)

def Known (command : UInt64) : Prop := command = msgBlockRead ∨ command = msgBlockWrite ∨ command = msgBlockFlush

/-- A request for a sector of the disk and a place in the shared page. -/
def Acceptable (msg : Message) : Prop := Known msg.rdi ∧ msg.rsi.toNat < 20480 ∧ msg.rdx.toNat + 512 ≤ 4096

def Passes (msg : Message) : Prop := Known msg.rdi ∧ msg.rsi.toUInt32 < 20480 ∧ msg.rdx + 512 ≤ 4096

/-- Neither the sector number nor the end offset is cut. -/
def Uncut (msg : Message) : Prop := msg.rsi.toNat < 2 ^ 32 ∧ msg.rdx.toNat + 512 < 2 ^ 64

namespace Service

/-- The round ends with a reply; it reports success for acceptable requests and for no others,
and otherwise neither the disk nor the shared page is touched. -/
def Validates (service : Service) (msg : Message) : Prop :=
  ∃ after reply, service.handle msg = some (after, reply) ∧ (reply.rdi = 0 ↔ Acceptable msg) ∧
    (reply.rdi ≠ 0 → after = service)

variable {start service : Service} {msg : Message} {history : List (Service × Event)}

theorem end_toNat (offset : UInt64) : (offset + 512).toNat = (offset.toNat + 512) % 2 ^ 64 := by
  rw [UInt64.toNat_add]
  rfl

theorem end_le_iff (offset : UInt64) : offset + 512 ≤ 4096 ↔ (offset.toNat + 512) % 2 ^ 64 ≤ 4096 := by
  rw [UInt64.le_iff_toNat_le, end_toNat]
  rfl

theorem lba_lt_iff (sector : UInt64) : sector.toUInt32 < 20480 ↔ sector.toNat % 2 ^ 32 < 20480 := by
  rw [UInt32.lt_iff_toNat_lt, UInt64.toNat_toUInt32]
  rfl

/-- For a request that is not cut, the checks are the right ones. -/
theorem passes_iff (uncut : Uncut msg) : Passes msg ↔ Acceptable msg := by
  obtain ⟨sector, offset⟩ := uncut
  rw [Passes, Acceptable, end_le_iff, lba_lt_iff, Nat.mod_eq_of_lt sector, Nat.mod_eq_of_lt offset]

theorem Acceptable.uncut (acceptable : Acceptable msg) : Uncut msg := by
  obtain ⟨_, sector, offset⟩ := acceptable
  exact ⟨by omega, by omega⟩

theorem reply_zero_iff {reply : Message} (replies : ataReply msg = some reply) : reply.rdi = 0 ↔ Passes msg := by
  unfold ataReply at replies
  dsimp only at replies
  split at replies
  next beyond =>
    obtain rfl := Option.some.inj replies
    exact ⟨nofun, fun passes => absurd passes.2.2 (UInt64.not_le.mpr beyond)⟩
  next inside =>
    split at replies
    next invalid =>
      obtain rfl := Option.some.inj replies
      exact ⟨nofun, fun passes => absurd passes.2.1 (UInt32.not_lt.mpr invalid)⟩
    next valid =>
      have checked : msg.rsi.toUInt32 < 20480 ∧ msg.rdx + 512 ≤ 4096 :=
        ⟨UInt32.not_le.mp valid, UInt64.not_lt.mp inside⟩
      split at replies
      next transfers =>
        split at replies
        next => cases replies
        next =>
          obtain rfl := Option.some.inj replies
          exact ⟨fun _ => ⟨transfers.elim .inl fun write => .inr (.inl write), checked⟩, fun _ => rfl⟩
      next neither =>
        rw [not_or] at neither
        split at replies
        next flush =>
          obtain rfl := Option.some.inj replies
          exact ⟨fun _ => ⟨.inr (.inr flush), checked⟩, fun _ => rfl⟩
        next other =>
          obtain rfl := Option.some.inj replies
          refine ⟨nofun, ?_⟩
          rintro ⟨read | write | flush, _⟩
          · exact absurd read neither.1
          · exact absurd write neither.2
          · exact absurd flush other

/-- The loop panics only where an end offset that wrapped around has passed the check. -/
theorem ataReply_eq_none (panics : ataReply msg = none) :
    Passes msg ∧ ¬ Uncut msg ∧ ∀ service, handle service msg = none := by
  unfold ataReply at panics
  dsimp only at panics
  split at panics
  next => cases panics
  next inside =>
    split at panics
    next => cases panics
    next valid =>
      split at panics
      next transfers =>
        split at panics
        next wraps =>
          have known : Known msg.rdi := transfers.elim .inl fun write => .inr (.inl write)
          refine ⟨⟨known, UInt32.not_le.mp valid, UInt64.not_lt.mp inside⟩, ?_, ?_⟩
          · rintro ⟨_, offset⟩
            have less := UInt64.lt_iff_toNat_lt.mp wraps
            rw [end_toNat, Nat.mod_eq_of_lt offset] at less
            omega
          · intro service
            have sliced := slice_of_bound inside service.shm
            rw [if_pos wraps] at sliced
            unfold handle
            dsimp only
            rw [if_neg inside, if_neg valid, sliced]
            split
            next => rfl
            next notRead => rw [if_pos (transfers.resolve_left notRead)]; rfl
        next => cases panics
      next => split at panics <;> cases panics

theorem Idle.handle (idle : service.Idle) {after : Service} {reply : Message}
    (handled : service.handle msg = some (after, reply)) : after.Idle := by
  cases replies : ataReply msg with
  | none =>
    rw [(ataReply_eq_none replies).2.2] at handled
    cases handled
  | some expected =>
    obtain ⟨_, same, rests, _⟩ := handle_refines idle replies
    rw [same] at handled
    cases handled
    exact rests

theorem Idle.step (idle : service.Idle) {event : Event} {after : Service} (taken : service.step event = some after) :
    after.Idle := by
  cases event with
  | request msg =>
    change (service.handle msg).map Prod.fst = some after at taken
    obtain ⟨⟨rested, reply⟩, handled, same⟩ := Option.map_eq_some_iff.mp taken
    obtain rfl : rested = after := same
    exact idle.handle handled
  | fill page =>
    cases taken
    exact idle

/-- In every state the service reaches and for every message: the request is validated, unless
it passes the checks because it was cut. -/
theorem validates_iff (idle : start.Idle) (run : Base.Run Service.step start history service) (msg : Message) :
    service.Validates msg ↔ (Passes msg → Uncut msg) := by
  have rests : service.Idle := run.always Idle idle fun idle taken => Idle.step idle taken
  constructor
  · rintro ⟨after, reply, handled, status, _⟩ passes
    cases replies : ataReply msg with
    | none =>
      rw [(ataReply_eq_none replies).2.2] at handled
      cases handled
    | some expected =>
      obtain ⟨_, same, _⟩ := handle_refines rests replies
      rw [same] at handled
      cases handled
      exact Acceptable.uncut (status.mp ((reply_zero_iff replies).mpr passes))
  · intro uncut
    cases replies : ataReply msg with
    | none =>
      obtain ⟨passes, cut, _⟩ := ataReply_eq_none replies
      exact absurd (uncut passes) cut
    | some reply =>
      obtain ⟨after, handled, _, effect⟩ := handle_refines rests replies
      refine ⟨after, reply, handled, ?_, ?_⟩
      · rw [reply_zero_iff replies]
        constructor
        · exact fun passes => (passes_iff (uncut passes)).mp passes
        · exact fun acceptable => (passes_iff (Acceptable.uncut acceptable)).mpr acceptable
      · intro failed
        rw [if_neg failed] at effect
        exact effect

theorem blank_idle : blank.Idle := ⟨rfl, rfl⟩

/-- A write to sector 2000 and a read beyond the end of the disk. -/
theorem validates_iff_blank : blank.Validates ⟨msgBlockWrite, 2000, 0, 0, 0, 0⟩ ∧
    blank.Validates ⟨msgBlockRead, 20480, 0, 0, 0, 0⟩ :=
  ⟨(validates_iff blank_idle .start _).mpr fun _ => ⟨by decide, by decide⟩,
    (validates_iff blank_idle .start _).mpr fun _ => ⟨by decide, by decide⟩⟩

/-- Sector 2 ^ 32 is read as sector 0, and an offset just below 2 ^ 64 kills the service. -/
theorem cut_requests_pass :
    (∃ after reply, blank.handle ⟨msgBlockRead, 0x100000000, 0, 0, 0, 0⟩ = some (after, reply) ∧ reply.rdi = 0 ∧
      ¬ Acceptable ⟨msgBlockRead, 0x100000000, 0, 0, 0, 0⟩) ∧
    blank.handle ⟨msgBlockWrite, 0, 0xFFFFFFFFFFFFFFFF, 0, 0, 0⟩ = none := by
  constructor
  · have replies : ataReply ⟨msgBlockRead, 0x100000000, 0, 0, 0, 0⟩ = some ⟨0, 0x100000000, 0, 0, 0, 0⟩ := by decide
    obtain ⟨after, handled, _⟩ := handle_refines blank_idle replies
    refine ⟨after, _, handled, rfl, ?_⟩
    rintro ⟨_, sector, _⟩
    revert sector
    decide
  · have panics : ataReply ⟨msgBlockWrite, 0, 0xFFFFFFFFFFFFFFFF, 0, 0, 0⟩ = none := by decide
    exact (ataReply_eq_none panics).2.2 blank

end Service

end ElseOS.Ata
