import ElseOS.Arch.Crossings
import Mathlib.Logic.Relation

/-! The base of `gs` on every way into the kernel and out of it. -/

set_option autoImplicit false

namespace ElseOS.Arch

open Base (ByteMemory)
open Base.X86

variable {cpu final : Cpu}

/-! ## The invariant -/

def bases (perCpu userGs : UInt64) : List Activation → UInt64 × UInt64
  | [] => (userGs, perCpu)
  | _ :: _ => (perCpu, userGs)

structure Settled (perCpu userGs : UInt64) (cpu : Cpu) (running : List Activation) (live : List (UInt64 × UInt64)) :
    Prop where
  gs : (cpu.gsBase, cpu.kernelGsBase) = bases perCpu userGs running
  cs : cpu.cs = selector running
  masked : ∀ top rest, running = top :: rest → ¬ top.Open → cpu.interrupts = false
  framed : Framed cpu.mem live

/-- Only the outermost `without_interrupts` of a thread of the kernel can have found interrupts enabled. -/
def Nested (own : Prop) : List Bool → Prop
  | [] => True
  | found :: outer => (own ∧ outer = [] ∨ found = false) ∧ Nested own outer

structure Activation.Fine (activation : Activation) : Prop where
  sections : Nested (activation.origin = .thread) activation.sections
  resume : activation.resume = []

structure Orderly (stack : List Activation) : Prop where
  fine : ∀ activation ∈ stack, activation.Fine
  below : ∀ activation ∈ stack.tail, activation.Open

def Saved.Orderly : Saved → Prop
  | .cooperative stack => stack ≠ [] ∧ Arch.Orderly stack
  | .preemptive stack _ resume => Arch.Orderly stack ∧ (∀ activation ∈ stack, activation.Open) ∧ resume = []

/-- Assembly runs with interrupts masked, and where it leads everything is as it should be. -/
structure Inv (perCpu userGs : UInt64) (state : State) : Prop where
  running : Orderly state.running
  saved : ∀ saved ∈ state.saved, saved.Orderly
  here : state.code = [] ∧ Settled perCpu userGs state.cpu state.running state.live ∨
    ∃ code, state.code = [code] ∧ state.cpu.interrupts = false ∧
      ∀ final, exec code state.cpu = some final → Settled perCpu userGs final state.running state.live

variable {perCpu userGs : UInt64} {state after : State} {running rest : List Activation} {top : Activation}
  {live further : List (UInt64 × UInt64)}

theorem Inv.settled (inv : Inv perCpu userGs state) (idle : state.code = []) :
    Settled perCpu userGs state.cpu state.running state.live := by
  rcases inv.here with ⟨_, settled⟩ | ⟨code, pending, _⟩
  · exact settled
  · rw [idle] at pending
    cases pending

theorem Framed.mono {mem : ByteMemory} (framed : Framed mem live) (fewer : ∀ frame ∈ further, frame ∈ live) :
    Framed mem further := fun frame member => framed frame (fewer frame member)

theorem userCs_ne_kernelCs : userCs ≠ kernelCs := by decide

/-- An interrupt frame leads back to the code it was made for, with that code's base. -/
theorem settled_iret {slot : UInt64} (kernel : (cpu.gsBase, cpu.kernelGsBase) = (perCpu, userGs))
    (isSlot : cpu.mem.load slot = selector running) (cs : final.cs = cpu.mem.load slot)
    (gs : (final.gsBase, final.kernelGsBase) =
      if cpu.mem.load slot = kernelCs then (cpu.gsBase, cpu.kernelGsBase) else (cpu.kernelGsBase, cpu.gsBase))
    (isOpen : ∀ activation ∈ running, activation.Open) (framed : Framed final.mem live) :
    Settled perCpu userGs final running live := by
  obtain ⟨first, second⟩ := Prod.mk.inj kernel
  rw [isSlot, first, second] at gs
  refine ⟨?_, cs.trans isSlot, ?_, framed⟩
  · cases running with
    | nil =>
      rw [gs]
      exact if_neg userCs_ne_kernelCs
    | cons top rest =>
      rw [gs]
      exact if_pos rfl
  · rintro top rest rfl closed
    exact absurd (isOpen top List.mem_cons_self) closed

theorem Settled.of_mode (settled : Settled perCpu userGs cpu running live) (same : final.mode = cpu.mode)
    (framed : Framed final.mem further) : Settled perCpu userGs final running further := by
  obtain ⟨cs, gs⟩ := Prod.mk.inj same
  obtain ⟨base, gs⟩ := Prod.mk.inj gs
  obtain ⟨other, flag⟩ := Prod.mk.inj gs
  refine ⟨?_, cs.trans settled.cs, ?_, framed⟩
  · rw [base, other]
    exact settled.gs
  · intro top rest isTop closed
    rw [flag]
    exact settled.masked top rest isTop closed

theorem Settled.switch {stack : List Activation} (settled : Settled perCpu userGs cpu (top :: rest) live)
    (masked : cpu.interrupts = false) (same : final.mode = cpu.mode) (inKernel : stack ≠ [])
    (framed : Framed final.mem further) : Settled perCpu userGs final stack further := by
  obtain ⟨cs, gs⟩ := Prod.mk.inj same
  obtain ⟨base, gs⟩ := Prod.mk.inj gs
  obtain ⟨other, flag⟩ := Prod.mk.inj gs
  cases stack with
  | nil => exact absurd rfl inKernel
  | cons next others =>
    refine ⟨?_, cs.trans settled.cs, ?_, framed⟩
    · rw [base, other]
      exact settled.gs
    · intro _ _ _ _
      rw [flag]
      exact masked

/-! ## Entries -/

theorem Settled.isOpen (settled : Settled perCpu userGs cpu running live) (orderly : Orderly running)
    (enabled : cpu.interrupts = true) : ∀ activation ∈ running, activation.Open := by
  intro activation member
  cases running with
  | nil => cases member
  | cons top rest =>
    rcases List.mem_cons.mp member with rfl | below
    · by_contra closed
      have masked := settled.masked _ rest rfl closed
      rw [enabled] at masked
      cases masked
    · exact orderly.below activation below

theorem interrupt_spec (cpu : Cpu) (stack handler : UInt64) (error : Option UInt64) :
    let entered := cpu.interrupt stack handler kernelCs error
    entered.mode = (kernelCs, cpu.gsBase, cpu.kernelGsBase, false) ∧
      entered.mem.load (entered.rsp + csOffset error.isSome) = cpu.cs := by
  have flag := interrupts_masked cpu.rflags
  have frame := interrupt_holds cpu stack handler kernelCs error
  constructor
  · unfold Cpu.mode Cpu.interrupts Cpu.interrupt
    dsimp only
    rw [flag]
    cases error <;> rfl
  · generalize cpu.interrupt stack handler kernelCs error = entered at *
    cases error with
    | none => exact frame.2.1
    | some code =>
      have sum : entered.rsp + csOffset true = entered.rsp + 8 + 8 := by grind [csOffset]
      rw [Option.isSome_some, sum]
      exact frame.2.2.1

theorem settled_interrupt {stack handler : UInt64} {error : Option UInt64} {final : Cpu}
    (settled : Settled perCpu userGs cpu running live)
    (mode : final.mode = (checkGs (cpu.interrupt stack handler kernelCs error) (csOffset error.isSome)).mode)
    (agree : ByteMemory.Agree (cpu.interrupt stack handler kernelCs error).rsp (2 ^ 32)
      (cpu.interrupt stack handler kernelCs error).mem final.mem)
    (framed : Framed final.mem live) :
    Settled perCpu userGs final (top :: running)
      (((cpu.interrupt stack handler kernelCs error).rsp + csOffset error.isSome, selector running) :: live) := by
  obtain ⟨entered, slot⟩ := interrupt_spec cpu stack handler error
  generalize cpu.interrupt stack handler kernelCs error = frame at *
  rw [mode_checkGs, slot, entered, settled.cs] at mode
  have small : (csOffset error.isSome).toNat + 8 ≤ 2 ^ 32 := by
    cases error.isSome <;> decide
  have near : ByteMemory.Agree (frame.rsp + csOffset error.isSome) 8 frame.mem final.mem := by
    apply agree.part _ (by decide)
    rw [show frame.rsp + csOffset error.isSome - frame.rsp = csOffset error.isSome by grind]
    exact small
  have gs := settled.gs
  have kernel : final.mode = (kernelCs, perCpu, userGs, false) := by
    rw [mode]
    -- the frame has the segment of what was interrupted: from user code the bases are swapped,
    -- from the kernel they are left
    cases running with
    | nil =>
      obtain ⟨base, other⟩ := Prod.mk.inj gs
      rw [base, other]
      exact if_neg userCs_ne_kernelCs
    | cons next rest =>
      obtain ⟨base, other⟩ := Prod.mk.inj gs
      rw [base, other]
      exact if_pos rfl
  obtain ⟨cs, kernel⟩ := Prod.mk.inj kernel
  obtain ⟨base, kernel⟩ := Prod.mk.inj kernel
  obtain ⟨other, flag⟩ := Prod.mk.inj kernel
  refine ⟨Prod.ext base other, cs, fun _ _ _ _ => flag, ?_⟩
  intro entry member
  rcases List.mem_cons.mp member with rfl | older
  · rw [← near.load, slot, settled.cs]
  · exact framed entry older

/-! ## Steps -/

theorem Inv.idle_of_interrupts (inv : Inv perCpu userGs state) (enabled : state.cpu.interrupts = true) :
    state.code = [] := by
  rcases inv.here with ⟨idle, _⟩ | ⟨_, _, masked, _⟩
  · exact idle
  · rw [enabled] at masked
    cases masked

theorem Inv.start {code : List Instr} {saved : List Saved} (orderly : Orderly running)
    (savedOrderly : ∀ thread ∈ saved, thread.Orderly) (masked : cpu.interrupts = false)
    (leads : ∀ final, exec code cpu = some final →
      Settled perCpu userGs final running (frames running ++ saved.flatMap Saved.frames)) :
    Inv perCpu userGs ⟨cpu, running, saved, [code]⟩ := ⟨orderly, savedOrderly, .inr ⟨code, rfl, masked, leads⟩⟩

theorem Orderly.tail (orderly : Orderly (top :: rest)) : Orderly rest :=
  ⟨fun activation member => orderly.fine activation (List.mem_cons_of_mem _ member),
    fun activation member => orderly.below activation (List.mem_of_mem_tail member)⟩

theorem Orderly.push {origin : Origin} (orderly : Orderly running) (isOpen : ∀ activation ∈ running, activation.Open) :
    Orderly (⟨origin, [], false, []⟩ :: running) := by
  refine ⟨fun activation member => ?_, isOpen⟩
  rcases List.mem_cons.mp member with rfl | older
  · exact ⟨trivial, rfl⟩
  · exact orderly.fine activation older

theorem Orderly.replace {next : Activation} (orderly : Orderly (top :: rest)) (fine : next.Fine) :
    Orderly (next :: rest) := by
  refine ⟨fun activation member => ?_, orderly.below⟩
  rcases List.mem_cons.mp member with rfl | older
  · exact fine
  · exact orderly.fine activation (List.mem_cons_of_mem _ older)

theorem orderly_nil : Orderly [] :=
  ⟨fun _ member => absurd member List.not_mem_nil, fun _ member => absurd member List.not_mem_nil⟩

theorem orderly_single (origin : Origin) : Orderly [⟨origin, [], false, []⟩] :=
  orderly_nil.push fun _ member => absurd member List.not_mem_nil

theorem closed_of_origin {origin : Origin} {resume : List (List Instr)} (other : origin ≠ .thread) :
    ¬ Activation.Open ⟨origin, [], false, resume⟩ := by
  rintro (halting | ⟨thread, _⟩)
  · cases halting
  · exact other thread

theorem flatMap_frames_subset {left saved : List Saved} (fewer : ∀ thread ∈ left, thread ∈ saved) :
    ∀ frame ∈ left.flatMap Saved.frames, frame ∈ saved.flatMap Saved.frames := by
  intro frame member
  obtain ⟨thread, isLeft, inside⟩ := List.mem_flatMap.mp member
  exact List.mem_flatMap.mpr ⟨thread, fewer thread isLeft, inside⟩

/-- A thread that is resumed and those that are left have no frames but those that were live. -/
theorem frames_resumed {thread : Saved} {left saved : List Saved} {stack : List Activation}
    (chosen : thread ∈ saved) (own : ∀ frame ∈ frames stack, frame ∈ thread.frames)
    (fewer : ∀ other ∈ left, other ∈ saved) :
    ∀ frame ∈ frames stack ++ left.flatMap Saved.frames, frame ∈ saved.flatMap Saved.frames := by
  intro frame member
  rcases List.mem_append.mp member with mine | theirs
  · exact List.mem_flatMap.mpr ⟨thread, chosen, own frame mine⟩
  · exact flatMap_frames_subset fewer frame theirs

theorem Settled.kernel (settled : Settled perCpu userGs cpu (top :: rest) live) :
    (cpu.gsBase, cpu.kernelGsBase) = (perCpu, userGs) := settled.gs

theorem Inv.top_fine (inv : Inv perCpu userGs state) (isTop : state.running = top :: rest) : top.Fine := by
  apply inv.running.fine
  rw [isTop]
  exact List.mem_cons_self

theorem Inv.flags {sections : List Bool} {halting : Bool} (inv : Inv perCpu userGs state)
    (isTop : state.running = top :: rest) (idle : state.code = [])
    (only : cpu = { state.cpu with rflags := cpu.rflags }) (nested : Nested (top.origin = .thread) sections)
    (masked : ¬ Activation.Open { top with sections := sections, halting := halting } → cpu.interrupts = false) :
    Inv perCpu userGs { state with
      cpu := cpu
      running := { top with sections := sections, halting := halting } :: rest } := by
  have settled := inv.settled idle
  have orderly := inv.running
  have framed := settled.framed
  rw [State.live, isTop] at framed
  rw [isTop] at settled orderly
  refine ⟨orderly.replace ⟨nested, (inv.top_fine isTop).resume⟩, inv.saved, .inl ⟨idle, ?_, ?_, ?_, ?_⟩⟩
  · rw [only]
    exact settled.gs
  · rw [only]
    exact settled.cs
  · rintro _ _ isNext closed
    obtain ⟨rfl, rfl⟩ := List.cons.inj isNext
    exact masked closed
  · rw [only]
    exact framed

theorem Inv.enter (inv : Inv perCpu userGs state) (isTop : state.running = top :: rest) (idle : state.code = [])
    (awake : top.halting = false) :
    Inv perCpu userGs { state with
      cpu := state.cpu.mask
      running := { top with sections := state.cpu.interrupts :: top.sections } :: rest } := by
  apply inv.flags isTop idle rfl _ fun _ => interrupts_mask _
  refine ⟨?_, (inv.top_fine isTop).sections⟩
  -- Code that is not open has interrupts masked, and then so does the section inside it.
  by_cases isOpen : top.Open
  · rcases isOpen with halting | thread
    · rw [awake] at halting
      cases halting
    · exact .inl thread
  · exact .inr ((inv.settled idle).masked top rest isTop isOpen)

theorem Inv.leave {found : Bool} {outer : List Bool} (inv : Inv perCpu userGs state)
    (isTop : state.running = top :: rest)
    (idle : state.code = []) (awake : top.halting = false) (inside : top.sections = found :: outer) :
    Inv perCpu userGs { state with
      cpu := if found then unmask state.cpu else state.cpu
      running := { top with sections := outer } :: rest } := by
  have nested := (inv.top_fine isTop).sections
  rw [inside] at nested
  obtain ⟨outermost, others⟩ := nested
  cases found with
  | true =>
    apply inv.flags isTop idle rfl others
    intro closed
    rcases outermost with thread | never
    · exact absurd (.inr thread) closed
    · cases never
  | false =>
    apply inv.flags isTop idle rfl others
    intro _
    apply (inv.settled idle).masked top rest isTop
    rintro (halting | ⟨_, empty⟩)
    · rw [awake] at halting
      cases halting
    · rw [inside] at empty
      cases empty

theorem Inv.compiled (inv : Inv perCpu userGs state) (idle : state.code = [])
    (undisturbed : Undisturbed state.live state.cpu cpu) : Inv perCpu userGs { state with cpu := cpu } :=
  ⟨inv.running, inv.saved, .inl ⟨idle, (inv.settled idle).of_mode undisturbed.mode undisturbed.framed⟩⟩

theorem Inv.spawn {origin : Origin} (inv : Inv perCpu userGs state) (idle : state.code = [])
    (kind : origin = .thread ∨ origin = .launch) :
    Inv perCpu userGs { state with saved := .cooperative [⟨origin, [], false, []⟩] :: state.saved } := by
  have settled := inv.settled idle
  refine ⟨inv.running, fun saved member => ?_, .inl ⟨idle, settled.gs, settled.cs, settled.masked, ?_⟩⟩
  · rcases List.mem_cons.mp member with rfl | older
    · exact ⟨List.cons_ne_nil _ _, orderly_single origin⟩
    · exact inv.saved saved older
  · rcases kind with rfl | rfl <;> exact settled.framed

theorem Inv.step {code further : List Instr} {later : List (List Instr)} (inv : Inv perCpu userGs state)
    (pending : state.code = code :: later) (taken : advance code state.cpu = .next further cpu) :
    Inv perCpu userGs { state with cpu := cpu, code := further :: later } := by
  rcases inv.here with ⟨idle, _⟩ | ⟨_, only, masked, leads⟩
  · rw [pending] at idle
    cases idle
  · rw [pending] at only
    obtain ⟨rfl, rfl⟩ := List.cons.inj only
    apply Inv.start inv.running inv.saved ((interrupts_advance taken).trans masked)
    intro final left
    exact leads final ((exec_next taken).trans left)

theorem Inv.done {code : List Instr} {later : List (List Instr)} (inv : Inv perCpu userGs state)
    (pending : state.code = code :: later) (taken : advance code state.cpu = .left cpu) :
    Inv perCpu userGs { state with cpu := cpu, code := later } := by
  rcases inv.here with ⟨idle, _⟩ | ⟨_, only, _, leads⟩
  · rw [pending] at idle
    cases idle
  · rw [pending] at only
    obtain ⟨rfl, rfl⟩ := List.cons.inj only
    exact ⟨inv.running, inv.saved, .inl ⟨rfl, leads cpu (exec_left taken)⟩⟩

/-! ### Entries -/

theorem Inv.syscall {entry back : UInt64} (inv : Inv perCpu userGs state) (inUser : state.running = [])
    (idle : state.code = []) (spares : Spares (syscallEntry back) (state.cpu.syscall entry kernelCs) state.live) :
    Inv perCpu userGs { state with
      cpu := state.cpu.syscall entry kernelCs
      running := [⟨.syscall, [], false, []⟩]
      code := [syscallEntry back] } := by
  have masked : (state.cpu.syscall entry kernelCs).interrupts = false := interrupts_masked state.cpu.rflags
  apply Inv.start (orderly_single _) inv.saved masked
  intro final left
  have gs := (inv.settled idle).gs
  rw [inUser] at gs
  obtain ⟨base, other⟩ := Prod.mk.inj gs
  have framed := spares final left
  rw [State.live, inUser] at framed
  obtain ⟨reached, isReached, mode⟩ := exec_syscallEntry back (state.cpu.syscall entry kernelCs)
  obtain rfl := Option.some.inj (isReached.symm.trans left)
  obtain ⟨cs, mode⟩ := Prod.mk.inj mode
  obtain ⟨swapped, mode⟩ := Prod.mk.inj mode
  obtain ⟨kept, flag⟩ := Prod.mk.inj mode
  exact ⟨Prod.ext (swapped.trans other) (kept.trans base), cs, fun _ _ _ _ => flag.trans masked, framed⟩

theorem Inv.interrupt {stack handler : UInt64} {error : Option UInt64} {origin : Origin} {code : List Instr}
    (inv : Inv perCpu userGs state) (allowed : state.cpu.interrupts = true ∨ state.running = [] ∧ state.code = [])
    (newest : ∀ resume, frames (⟨origin, [], false, resume⟩ :: state.running) =
      ((state.cpu.interrupt stack handler kernelCs error).rsp + csOffset error.isSome, selector state.running) ::
        frames state.running)
    (entered : ∃ final, exec code (state.cpu.interrupt stack handler kernelCs error) = some final ∧
      final.mode = (checkGs (state.cpu.interrupt stack handler kernelCs error) (csOffset error.isSome)).mode ∧
      ByteMemory.Agree (state.cpu.interrupt stack handler kernelCs error).rsp (2 ^ 32)
        (state.cpu.interrupt stack handler kernelCs error).mem final.mem)
    (spares : Spares code (state.cpu.interrupt stack handler kernelCs error) state.live) :
    Inv perCpu userGs { state with
      cpu := state.cpu.interrupt stack handler kernelCs error
      running := ⟨origin, [], false, state.code⟩ :: state.running
      code := [code] } := by
  have idle : state.code = [] := by
    rcases allowed with enabled | ⟨_, idle⟩
    · exact inv.idle_of_interrupts enabled
    · exact idle
  have settled := inv.settled idle
  have isOpen : ∀ activation ∈ state.running, activation.Open := by
    rcases allowed with enabled | ⟨inUser, _⟩
    · exact settled.isOpen inv.running enabled
    · rw [inUser]
      exact fun _ member => absurd member List.not_mem_nil
  have flag : (state.cpu.interrupt stack handler kernelCs error).interrupts = false :=
    congrArg (fun mode => mode.2.2.2) (interrupt_spec state.cpu stack handler error).1
  rw [idle]
  apply Inv.start (inv.running.push isOpen) inv.saved flag
  intro final left
  obtain ⟨reached, isReached, mode, agree⟩ := entered
  obtain rfl := Option.some.inj (isReached.symm.trans left)
  rw [newest]
  exact settled_interrupt settled mode agree (spares reached left)

theorem Inv.trap {stack handler back : UInt64} {error : Option UInt64} (inv : Inv perCpu userGs state)
    (allowed : state.cpu.interrupts = true ∧ error = none ∨ state.running = [] ∧ state.code = [])
    (spares : Spares (wrapper error.isSome back) (state.cpu.interrupt stack handler kernelCs error) state.live) :
    Inv perCpu userGs { state with
      cpu := state.cpu.interrupt stack handler kernelCs error
      running := ⟨.trap ((state.cpu.interrupt stack handler kernelCs error).rsp + csOffset error.isSome) error.isSome,
        [], false, state.code⟩ :: state.running
      code := [wrapper error.isSome back] } := by
  obtain ⟨final, left, mode, _, agree⟩ :=
    exec_wrapper error.isSome back (state.cpu.interrupt stack handler kernelCs error)
  exact inv.interrupt (allowed.imp And.left id) (fun _ => rfl) ⟨final, left, mode, agree⟩ spares

theorem Inv.timer {stack handler back : UInt64} (inv : Inv perCpu userGs state) (enabled : state.cpu.interrupts = true)
    (spares : Spares (timerInterruptStub back) (state.cpu.interrupt stack handler kernelCs none) state.live) :
    Inv perCpu userGs { state with
      cpu := state.cpu.interrupt stack handler kernelCs none
      running := ⟨.timer ((state.cpu.interrupt stack handler kernelCs none).rsp + 8), [], false, state.code⟩ ::
        state.running
      code := [timerInterruptStub back] } :=
  inv.interrupt (.inl enabled) (fun _ => rfl) (exec_timerInterruptStub back _) spares

/-! ### Exits -/

theorem Inv.syscallReturn (inv : Inv perCpu userGs state) (isTop : state.running = [⟨.syscall, [], false, []⟩])
    (idle : state.code = []) (spares : Spares syscallExit state.cpu (state.saved.flatMap Saved.frames)) :
    Inv perCpu userGs { state with running := [], code := [syscallExit] } := by
  have settled := inv.settled idle
  have masked := settled.masked _ _ isTop (closed_of_origin Origin.noConfusion)
  rw [isTop] at settled
  obtain ⟨base, other⟩ := Prod.mk.inj settled.kernel
  apply Inv.start orderly_nil inv.saved masked
  intro final left
  obtain ⟨cs, gs⟩ := exec_syscallExit left
  rw [base, other] at gs
  exact ⟨gs, cs, fun _ _ isCons => absurd isCons.symm (List.cons_ne_nil _ _), spares final left⟩

/-- What an exit by `iretq` has in common: it leads to the code that its frame is about. -/
theorem Inv.iret {code : List Instr} {slot : UInt64} {stack : List Activation} {saved : List Saved}
    (settled : Settled perCpu userGs cpu (top :: rest) live) (masked : cpu.interrupts = false) (orderly : Orderly stack)
    (isOpen : ∀ activation ∈ stack, activation.Open) (savedOrderly : ∀ thread ∈ saved, thread.Orderly)
    (isSlot : cpu.mem.load slot = selector stack)
    (fewer : ∀ frame ∈ frames stack ++ saved.flatMap Saved.frames, frame ∈ live)
    (leaves : ∃ final, exec code cpu = some final ∧ final.mem = cpu.mem ∧
      final.cs = cpu.mem.load slot ∧ (final.gsBase, final.kernelGsBase) =
        if cpu.mem.load slot = kernelCs then (cpu.gsBase, cpu.kernelGsBase) else (cpu.kernelGsBase, cpu.gsBase)) :
    Inv perCpu userGs ⟨cpu, stack, saved, [code]⟩ := by
  apply Inv.start orderly savedOrderly masked
  intro final left
  obtain ⟨reached, isReached, mem, cs, gs⟩ := leaves
  obtain rfl := Option.some.inj (isReached.symm.trans left)
  apply settled_iret settled.kernel isSlot cs gs isOpen
  rw [mem]
  exact settled.framed.mono fewer

theorem Inv.newest {origin : Origin} {slot : UInt64} {resume : List (List Instr)} (inv : Inv perCpu userGs state)
    (isTop : state.running = ⟨origin, [], false, resume⟩ :: rest) (idle : state.code = [])
    (isFrame : frames (⟨origin, [], false, resume⟩ :: rest) = (slot, selector rest) :: frames rest) :
    state.live = (slot, selector rest) :: (frames rest ++ state.saved.flatMap Saved.frames) ∧
      state.cpu.mem.load slot = selector rest := by
  have live : state.live = (slot, selector rest) :: (frames rest ++ state.saved.flatMap Saved.frames) := by
    rw [State.live, isTop, isFrame, List.cons_append]
  refine ⟨live, ?_⟩
  apply (inv.settled idle).framed (slot, selector rest)
  rw [live]
  exact List.mem_cons_self

theorem Inv.trapReturn {slot : UInt64} {error : Bool} {resume : List (List Instr)} (inv : Inv perCpu userGs state)
    (isTop : state.running = ⟨.trap slot error, [], false, resume⟩ :: rest) (idle : state.code = [])
    (kept : state.cpu.regs .r12 = slot - csOffset error - 80) :
    Inv perCpu userGs { state with running := rest, code := wrapperEnd error :: resume } := by
  have settled := inv.settled idle
  have masked := settled.masked _ _ isTop (closed_of_origin Origin.noConfusion)
  obtain ⟨live, isSlot⟩ := inv.newest isTop idle rfl
  have orderly := inv.running
  obtain rfl : resume = [] := (inv.top_fine isTop).resume
  rw [isTop] at settled orderly
  apply Inv.iret settled masked orderly.tail orderly.below inv.saved isSlot _ (exec_wrapperEnd error kept)
  intro frame member
  rw [live]
  exact List.mem_cons_of_mem _ member

/-! ### Switches -/

section Switches

/-! The threads to choose from are the saved ones and the one that is switched away from. -/

variable {pool left : List Saved} {stack : List Activation} {code : List Instr}

theorem Inv.toCooperative (settled : Settled perCpu userGs cpu (top :: rest) live) (masked : cpu.interrupts = false)
    (orderly : ∀ thread ∈ pool, thread.Orderly) (poolFrames : pool.flatMap Saved.frames = live)
    (chosen : .cooperative stack ∈ pool) (fewer : ∀ thread ∈ left, thread ∈ pool)
    (leaves : ∃ final, exec code cpu = some final ∧ Framed final.mem live ∧ final.mode = cpu.mode) :
    Inv perCpu userGs ⟨cpu, stack, left, [code]⟩ := by
  obtain ⟨inKernel, stackOrderly⟩ := orderly _ chosen
  apply Inv.start stackOrderly (fun thread member => orderly thread (fewer thread member)) masked
  intro final isLeft
  obtain ⟨reached, isReached, framed, mode⟩ := leaves
  obtain rfl := Option.some.inj (isReached.symm.trans isLeft)
  apply settled.switch masked mode inKernel
  apply framed.mono
  rw [← poolFrames]
  exact frames_resumed chosen (fun _ member => member) fewer

theorem Inv.toPreemptive {next : UInt64} {further : List (List Instr)}
    (settled : Settled perCpu userGs cpu (top :: rest) live) (masked : cpu.interrupts = false)
    (orderly : ∀ thread ∈ pool, thread.Orderly) (poolFrames : pool.flatMap Saved.frames = live)
    (chosen : .preemptive stack next further ∈ pool) (fewer : ∀ thread ∈ left, thread ∈ pool)
    (leaves : ∃ final, exec code cpu = some final ∧ final.mem = cpu.mem ∧
      final.cs = cpu.mem.load next ∧ (final.gsBase, final.kernelGsBase) =
        if cpu.mem.load next = kernelCs then (cpu.gsBase, cpu.kernelGsBase) else (cpu.kernelGsBase, cpu.gsBase)) :
    Inv perCpu userGs ⟨cpu, stack, left, code :: further⟩ := by
  obtain ⟨stackOrderly, isOpen, rfl⟩ := orderly _ chosen
  have isSlot : cpu.mem.load next = selector stack := by
    apply settled.framed (next, selector stack)
    rw [← poolFrames]
    exact List.mem_flatMap.mpr ⟨_, chosen, List.mem_cons_self⟩
  apply Inv.iret settled masked stackOrderly isOpen (fun thread member => orderly thread (fewer thread member)) isSlot _
    leaves
  rw [← poolFrames]
  exact frames_resumed chosen (fun _ member => List.mem_cons_of_mem _ member) fewer

theorem Inv.timerPool {slot : UInt64} {resume : List (List Instr)} (inv : Inv perCpu userGs state)
    (isTop : state.running = ⟨.timer slot, [], false, resume⟩ :: rest) :
    (∀ thread ∈ Saved.preemptive rest slot resume :: state.saved, thread.Orderly) ∧
      (Saved.preemptive rest slot resume :: state.saved).flatMap Saved.frames = state.live := by
  have orderly := inv.running
  rw [isTop] at orderly
  constructor
  · intro thread member
    rcases List.mem_cons.mp member with rfl | older
    · exact ⟨orderly.tail, orderly.below, (inv.top_fine isTop).resume⟩
    · exact inv.saved thread older
  · rw [State.live, isTop]
    rfl

theorem Inv.timerCooperative {slot : UInt64} {resume : List (List Instr)} (inv : Inv perCpu userGs state)
    (isTop : state.running = ⟨.timer slot, [], false, resume⟩ :: rest) (idle : state.code = [])
    (tag : state.cpu.regs .rax = 0) (chosen : .cooperative stack ∈ state.saved)
    (fewer : ∀ thread ∈ left, thread ∈ .preemptive rest slot resume :: state.saved) :
    Inv perCpu userGs { state with running := stack, saved := left, code := [timerInterruptStubEnd] } := by
  have settled := inv.settled idle
  have masked := settled.masked _ _ isTop (closed_of_origin Origin.noConfusion)
  have framed := settled.framed
  obtain ⟨orderly, poolFrames⟩ := inv.timerPool isTop
  obtain ⟨final, isLeft, mem, mode⟩ := exec_timerCooperative tag
  rw [isTop] at settled
  apply Inv.toCooperative settled masked orderly poolFrames (List.mem_cons_of_mem _ chosen) fewer
  exact ⟨final, isLeft, mem ▸ framed, mode⟩

theorem Inv.timerPreemptive {slot next : UInt64} {resume further : List (List Instr)} (inv : Inv perCpu userGs state)
    (isTop : state.running = ⟨.timer slot, [], false, resume⟩ :: rest) (idle : state.code = [])
    (tag : state.cpu.regs .rax ≠ 0) (passed : state.cpu.regs .rdx = next - contextCs)
    (chosen : .preemptive stack next further ∈ .preemptive rest slot resume :: state.saved)
    (fewer : ∀ thread ∈ left, thread ∈ .preemptive rest slot resume :: state.saved) :
    Inv perCpu userGs { state with running := stack, saved := left, code := timerInterruptStubEnd :: further } := by
  have settled := inv.settled idle
  have masked := settled.masked _ _ isTop (closed_of_origin Origin.noConfusion)
  obtain ⟨orderly, poolFrames⟩ := inv.timerPool isTop
  rw [isTop] at settled
  exact Inv.toPreemptive settled masked orderly poolFrames chosen fewer (exec_timerPreemptive tag passed)

/-- A thread that gives up the processor is one of those to choose from later. -/
theorem Inv.switchPool (inv : Inv perCpu userGs state) (isTop : state.running = top :: rest) :
    (∀ thread ∈ Saved.cooperative (top :: rest) :: state.saved, thread.Orderly) ∧
      (Saved.cooperative (top :: rest) :: state.saved).flatMap Saved.frames = state.live := by
  have orderly := inv.running
  rw [isTop] at orderly
  constructor
  · intro thread member
    rcases List.mem_cons.mp member with rfl | older
    · exact ⟨List.cons_ne_nil _ _, orderly⟩
    · exact inv.saved thread older
  · rw [State.live, isTop]
    rfl

theorem Inv.switch (inv : Inv perCpu userGs state) (isTop : state.running = top :: rest) (idle : state.code = [])
    (closed : ¬ top.Open) (isSwitch : code = switchContext ∨ code = switchContextToCooperative)
    (spares : Spares code state.cpu state.live) (chosen : .cooperative stack ∈ state.saved)
    (fewer : ∀ thread ∈ left, thread ∈ .cooperative (top :: rest) :: state.saved) :
    Inv perCpu userGs { state with running := stack, saved := left, code := [code] } := by
  have settled := inv.settled idle
  have masked := settled.masked _ _ isTop closed
  obtain ⟨orderly, poolFrames⟩ := inv.switchPool isTop
  obtain ⟨final, isLeft, mode⟩ := exec_switch isSwitch state.cpu
  rw [isTop] at settled
  apply Inv.toCooperative settled masked orderly poolFrames (List.mem_cons_of_mem _ chosen) fewer
  exact ⟨final, isLeft, spares final isLeft, mode⟩

theorem Inv.switchPreemptive {back : UInt64} (inv : Inv perCpu userGs state) (isTop : state.running = top :: rest)
    (idle : state.code = []) (closed : ¬ top.Open)
    (spares : Spares (switchContextToPreemptive back) state.cpu state.live)
    (fewer : ∀ thread ∈ left, thread ∈ .cooperative (top :: rest) :: state.saved) :
    Inv perCpu userGs { state with
      running := [⟨.switching, [], false, []⟩]
      saved := left
      code := [switchContextToPreemptive back] } := by
  have settled := inv.settled idle
  have masked := settled.masked _ _ isTop closed
  obtain ⟨orderly, poolFrames⟩ := inv.switchPool isTop
  rw [isTop] at settled
  apply Inv.start (orderly_single _) (fun thread member => orderly thread (fewer thread member)) masked
  intro final isLeft
  have mode := mode_switchContextToPreemptive isLeft
  apply settled.switch masked mode (List.cons_ne_nil _ _)
  apply (spares final isLeft).mono
  rw [← poolFrames]
  exact flatMap_frames_subset fewer

theorem Inv.switchEnd {next : UInt64} {further : List (List Instr)} (inv : Inv perCpu userGs state)
    (isTop : state.running = [⟨.switching, [], false, []⟩]) (idle : state.code = [])
    (passed : state.cpu.regs .r9 = next - contextCs) (chosen : .preemptive stack next further ∈ state.saved)
    (fewer : ∀ thread ∈ left, thread ∈ state.saved) :
    Inv perCpu userGs
      { state with running := stack, saved := left, code := switchContextToPreemptiveEnd :: further } := by
  have settled := inv.settled idle
  have masked := settled.masked _ _ isTop (closed_of_origin Origin.noConfusion)
  have live : state.saved.flatMap Saved.frames = state.live := by
    rw [State.live, isTop]
    rfl
  rw [isTop] at settled
  exact Inv.toPreemptive settled masked inv.saved live chosen fewer (exec_switchContextToPreemptiveEnd passed)

end Switches

theorem Inv.switchStray {stack : List Activation} {slot : UInt64} (inv : Inv perCpu userGs state)
    (isTop : state.running = [⟨.switching, [], false, []⟩]) (idle : state.code = [])
    (passed : state.cpu.regs .r9 = slot - contextCs) (isSlot : state.cpu.mem.load slot = selector stack)
    (anywhere : stack = [] ∨ stack = [⟨.thread, [], false, []⟩]) :
    Inv perCpu userGs { state with running := stack, code := [switchContextToPreemptiveEnd] } := by
  have settled := inv.settled idle
  have masked := settled.masked _ _ isTop (closed_of_origin Origin.noConfusion)
  have live : state.live = state.saved.flatMap Saved.frames := by
    rw [State.live, isTop]
    rfl
  rw [isTop, live] at settled
  rcases anywhere with rfl | rfl
  · exact Inv.iret settled masked orderly_nil (fun _ member => absurd member List.not_mem_nil) inv.saved isSlot
      (fun _ member => member) (exec_switchContextToPreemptiveEnd passed)
  · apply Inv.iret settled masked (orderly_single .thread) _ inv.saved isSlot (fun _ member => member)
      (exec_switchContextToPreemptiveEnd passed)
    intro activation member
    obtain rfl := List.mem_singleton.mp member
    exact .inr ⟨rfl, rfl⟩

theorem Inv.launch {slot : UInt64} (inv : Inv perCpu userGs state) (isTop : state.running = [⟨.launch, [], false, []⟩])
    (idle : state.code = []) (passed : state.cpu.regs .rdi = slot - contextCs)
    (isSlot : state.cpu.mem.load slot = userCs) :
    Inv perCpu userGs { state with running := [], code := [enterUser] } := by
  have settled := inv.settled idle
  have masked := settled.masked _ _ isTop (closed_of_origin Origin.noConfusion)
  have live : state.live = state.saved.flatMap Saved.frames := by
    rw [State.live, isTop]
    rfl
  rw [isTop, live] at settled
  exact Inv.iret settled masked orderly_nil (fun _ member => absurd member List.not_mem_nil) inv.saved isSlot
    (fun _ member => member) (exec_enterUser passed)

theorem Inv.move (inv : Inv perCpu userGs state) (move : Move state after) : Inv perCpu userGs after := by
  cases move with
  | user inUser idle undisturbed => exact inv.compiled idle undisturbed
  | rust inKernel idle undisturbed => exact inv.compiled idle undisturbed
  | enter isTop idle awake => exact inv.enter isTop idle awake
  | leave isTop idle awake inside => exact inv.leave isTop idle awake inside
  | halt isTop idle awake inside =>
    exact inv.flags isTop idle rfl (inv.top_fine isTop).sections fun closed => absurd (.inl rfl) closed
  | wake isTop idle halting => exact inv.flags isTop idle rfl (inv.top_fine isTop).sections fun _ => interrupts_mask _
  | enable isTop idle awake own outside =>
    rw [isTop]
    exact inv.flags isTop idle rfl (inv.top_fine isTop).sections fun closed => absurd (.inr ⟨own, outside⟩) closed
  | spawn inKernel idle kind => exact inv.spawn idle kind
  | step pending taken => exact inv.step pending taken
  | done pending taken => exact inv.done pending taken
  | syscall entry back inUser idle spares => exact inv.syscall inUser idle spares
  | trap stack handler back error allowed spares => exact inv.trap allowed spares
  | timer stack handler back enabled spares => exact inv.timer enabled spares
  | syscallReturn isTop idle spares => exact inv.syscallReturn isTop idle spares
  | trapReturn isTop idle kept => exact inv.trapReturn isTop idle kept
  | timerCooperative isTop idle tag chosen fewer => exact inv.timerCooperative isTop idle tag chosen fewer
  | timerPreemptive isTop idle tag passed chosen fewer =>
    exact inv.timerPreemptive isTop idle tag passed chosen fewer
  | switch isTop idle closed isSwitch spares chosen fewer =>
    exact inv.switch isTop idle closed isSwitch spares chosen fewer
  | switchPreemptive back isTop idle closed spares fewer => exact inv.switchPreemptive isTop idle closed spares fewer
  | switchEnd isTop idle passed chosen fewer => exact inv.switchEnd isTop idle passed chosen fewer
  | switchStray isTop idle passed isSlot anywhere => exact inv.switchStray isTop idle passed isSlot anywhere
  | launch isTop idle passed isSlot => exact inv.launch isTop idle passed isSlot

/-- `init_per_cpu` has set the base, and no thread has been made yet. -/
structure Booted (perCpu userGs : UInt64) (state : State) : Prop where
  gsBase : state.cpu.gsBase = perCpu
  kernelGsBase : state.cpu.kernelGsBase = userGs
  cs : state.cpu.cs = kernelCs
  running : state.running = [⟨.thread, [], false, []⟩]
  saved : state.saved = []
  code : state.code = []

theorem Booted.inv (booted : Booted perCpu userGs state) : Inv perCpu userGs state := by
  refine ⟨?_, ?_, .inl ⟨booted.code, ?_, ?_, ?_, ?_⟩⟩
  · rw [booted.running]
    exact orderly_single _
  · rw [booted.saved]
    exact fun _ member => absurd member List.not_mem_nil
  · rw [booted.running, booted.gsBase, booted.kernelGsBase]
    rfl
  · rw [booted.running, booted.cs]
    rfl
  · intro top rest isTop closed
    rw [booted.running] at isTop
    obtain ⟨rfl, rfl⟩ := List.cons.inj isTop
    exact absurd (.inr ⟨rfl, rfl⟩) closed
  · rw [State.live, booted.running, booted.saved]
    exact fun _ member => absurd member List.not_mem_nil

theorem inv_of_reachable {boot : State} (booted : Booted perCpu userGs boot)
    (reachable : Relation.ReflTransGen Move boot state) : Inv perCpu userGs state := by
  induction reachable with
  | refl => exact booted.inv
  | tail _ move inv => exact inv.move move

/-- Whatever has been entered and left since boot, Rust code of the kernel runs with the kernel's base and
user code with the user's. -/
theorem gs_parity {boot : State} (booted : Booted perCpu userGs boot)
    (reachable : Relation.ReflTransGen Move boot state) (idle : state.code = []) :
    (state.running ≠ [] ∧ state.cpu.cs = kernelCs ∧ state.cpu.gsBase = perCpu) ∨
    (state.running = [] ∧ state.cpu.cs = userCs ∧ state.cpu.gsBase = userGs) := by
  have settled := (inv_of_reachable booted reachable).settled idle
  have gs := settled.gs
  have cs := settled.cs
  cases isRunning : state.running with
  | nil =>
    rw [isRunning] at gs cs
    exact .inr ⟨rfl, cs, congrArg Prod.fst gs⟩
  | cons top rest =>
    rw [isRunning] at gs cs
    exact .inl ⟨List.cons_ne_nil _ _, cs, congrArg Prod.fst gs⟩

theorem moves_exec {code : List Instr} {saved : List Saved} {final : Cpu} (left : exec code cpu = some final) :
    Relation.ReflTransGen Move ⟨cpu, running, saved, [code]⟩ ⟨final, running, saved, []⟩ := by
  induction h : code.length using Nat.strongRecOn generalizing code cpu with
  | ind length ih =>
    cases taken : advance code cpu with
    | next further after =>
      have shorter := advance_shorter taken
      rw [h] at shorter
      rw [exec_next taken] at left
      exact .head (.step rfl taken) (ih further.length shorter left rfl)
    | left after =>
      rw [exec_left taken] at left
      obtain rfl := Option.some.inj left
      exact .single (.done rfl taken)
    | halted =>
      rw [exec_halted taken] at left
      cases left

theorem launches (cpu : Cpu) : ∃ user,
    Relation.ReflTransGen Move ⟨cpu, [⟨.thread, [], false, []⟩], [], []⟩ ⟨user, [], [], []⟩ := by
  have clear (mem : ByteMemory) : Framed mem [] := fun _ member => absurd member List.not_mem_nil
  obtain ⟨switched, isSwitched, _⟩ := exec_switch (.inl rfl) cpu.mask
  obtain ⟨prepared, isPrepared⟩ : ∃ prepared,
      prepared = { switched.set .rdi (0x2000 - contextCs) with mem := switched.mem.store 0x2000 userCs } := ⟨_, rfl⟩
  have passed : prepared.regs .rdi = 0x2000 - contextCs := by
    rw [isPrepared]
    exact Function.update_self Reg.rdi _ switched.regs
  have isSlot : prepared.mem.load 0x2000 = userCs := by
    rw [isPrepared]
    exact ByteMemory.load_store_same _ _ _
  have mode : prepared.mode = switched.mode := by
    rw [isPrepared]
    rfl
  obtain ⟨user, isUser, _⟩ := exec_enterUser passed
  have closed : ¬ Activation.Open ⟨.thread, [cpu.interrupts], false, []⟩ := by
    rintro (halting | ⟨_, outside⟩)
    · cases halting
    · cases outside
  -- a thread is made, the first one switches to it, and it enters user code
  have spawned : Move ⟨cpu, [⟨.thread, [], false, []⟩], [], []⟩
      ⟨cpu, [⟨.thread, [], false, []⟩], [.cooperative [⟨.launch, [], false, []⟩]], []⟩ :=
    .spawn (List.cons_ne_nil _ _) rfl (.inr rfl)
  have entered : Move ⟨cpu, [⟨.thread, [], false, []⟩], [.cooperative [⟨.launch, [], false, []⟩]], []⟩
      ⟨cpu.mask, [⟨.thread, [cpu.interrupts], false, []⟩], [.cooperative [⟨.launch, [], false, []⟩]], []⟩ :=
    @Move.enter _ ⟨.thread, [], false, []⟩ [] rfl rfl rfl
  have left : Move ⟨cpu.mask, [⟨.thread, [cpu.interrupts], false, []⟩], [.cooperative [⟨.launch, [], false, []⟩]], []⟩
      ⟨cpu.mask, [⟨.launch, [], false, []⟩], [], [switchContext]⟩ :=
    .switch rfl rfl closed (.inl rfl) (fun final _ => clear final.mem) List.mem_cons_self
      fun _ member => absurd member List.not_mem_nil
  have wrote : Move ⟨switched, [⟨.launch, [], false, []⟩], [], []⟩ ⟨prepared, [⟨.launch, [], false, []⟩], [], []⟩ :=
    .rust (List.cons_ne_nil _ _) rfl ⟨mode, clear prepared.mem⟩
  have launched : Move ⟨prepared, [⟨.launch, [], false, []⟩], [], []⟩ ⟨prepared, [], [], [enterUser]⟩ :=
    .launch rfl rfl passed isSlot
  refine ⟨user, .head spawned (.head entered (.head left ?_))⟩
  exact (moves_exec isSwitched).trans (.head wrote (.head launched (moves_exec isUser)))

def bootState : State :=
  ⟨⟨fun _ => 0, 0, kernelCs, 0, 0, 0x1000, 0, fun _ => 0⟩, [⟨.thread, [], false, []⟩], [], []⟩

theorem gs_parity_launched : ∃ state, Relation.ReflTransGen Move bootState state ∧ state.code = [] ∧
    state.cpu.cs = userCs ∧ state.cpu.gsBase = 0 := by
  obtain ⟨user, run⟩ := launches bootState.cpu
  refine ⟨_, run, rfl, ?_⟩
  rcases gs_parity ⟨rfl, rfl, rfl, rfl, rfl, rfl⟩ run rfl with ⟨inKernel, _⟩ | ⟨_, cs, gsBase⟩
  · exact absurd rfl inKernel
  · exact ⟨cs, gsBase⟩

end ElseOS.Arch
