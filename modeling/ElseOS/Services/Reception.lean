import ElseOS.Services.Rtl8139

/-! Frames that nobody notices.

`main` clears `ROK` after it found the ring empty and leaves a `TOK` that it did not see
in the status. A frame that arrives between the two accesses, or while a cause bit is
left standing, raises no edge, and `main` goes to sleep over it. -/

set_option autoImplicit false

namespace ElseOS.Rtl8139

/-! ## Cause bits -/

theorem or_and_distrib (left right mask : UInt16) : (left ||| right) &&& mask = (left &&& mask) ||| (right &&& mask) :=
  UInt16.toBitVec_inj.mp BitVec.and_or_distrib_right

theorem rok_set (isr : UInt16) : (isr ||| ROK) &&& ROK ≠ 0 := by
  intro zero
  have both : (isr &&& ROK ||| ROK &&& ROK) = 0 := (or_and_distrib isr ROK ROK).symm.trans zero
  have bits := congrArg UInt16.toBitVec both
  rw [UInt16.toBitVec_or] at bits
  have own := (BitVec.or_eq_zero_iff.mp bits).2
  exact absurd own (by decide)

theorem rok_or_tok (isr : UInt16) : (isr ||| TOK) &&& ROK = isr &&& ROK := by
  rw [or_and_distrib]
  exact UInt16.or_zero

theorem rok_clear_tok (isr : UInt16) : (isr &&& ~~~TOK) &&& ROK = isr &&& ROK := by
  rw [UInt16.and_assoc]
  rfl

theorem Nic.asserted_of_rok {nic : Nic} (rok : nic.isr &&& ROK ≠ 0) : nic.asserted = true := by
  refine decide_eq_true ?_
  intro masked
  refine rok ?_
  have part : nic.isr &&& ROK = (nic.isr &&& imr) &&& ROK := by
    rw [UInt16.and_assoc]
    rfl
  rw [part, masked]
  exact UInt16.zero_and

/-! ## The states of the loop -/

namespace Main

def drains : Main → Bool
  | .clearingTok status => status &&& ROK ≠ 0
  | .polling | .announcing _ | .advancing _ => true
  | _ => false

@[simp] theorem drains_waiting : waiting.drains = false := rfl

@[simp] theorem drains_blocked : blocked.drains = false := rfl

@[simp] theorem drains_reading : reading.drains = false := rfl

@[simp] theorem drains_clearingTok (status : UInt16) : (clearingTok status).drains = decide (status &&& ROK ≠ 0) := rfl

theorem drains_afterTok {status : UInt16} (rok : status &&& ROK ≠ 0) : (afterTok status).drains = true := by
  rw [afterTok, if_pos rok]
  rfl

theorem of_drains_afterTok {status : UInt16} (drains : (afterTok status).drains = true) : status &&& ROK ≠ 0 := by
  intro clear
  rw [afterTok, if_neg (not_not.mpr clear)] at drains
  cases drains

theorem afterTok_ne {status : UInt16} : afterTok status ≠ .blocked ∧ afterTok status ≠ .clearingRok := by
  unfold afterTok
  split <;> exact ⟨by simp, by simp⟩

theorem of_drains_afterStatus {status : UInt16} (drains : (afterStatus status).drains = true) : status &&& ROK ≠ 0 := by
  unfold afterStatus at drains
  split at drains
  · exact of_decide_eq_true drains
  · exact of_drains_afterTok drains

theorem afterStatus_ne {status : UInt16} : afterStatus status ≠ .blocked ∧ afterStatus status ≠ .clearingRok := by
  unfold afterStatus
  split
  · exact ⟨by simp, by simp⟩
  · exact afterTok_ne

theorem drains_afterStatus {status : UInt16} (rok : status &&& ROK ≠ 0) : (afterStatus status).drains = true := by
  unfold afterStatus
  split
  · exact decide_eq_true rok
  · exact drains_afterTok rok

end Main

namespace State

/-- `main` will read the cause bits again: it is about to, or an interrupt is on its way or noted. -/
def summoned (state : State) : Bool := state.main == .reading || state.irq.pending || state.nic.raised

/-- The service sleeps over a frame: no interrupt is noted or on its way, and the cause bits
as they stand give no further edge. -/
def Unnoticed (state : State) : Prop :=
  state.main = .blocked ∧ state.irq.pending = false ∧ state.nic.raised = false ∧ state.nic.ring ≠ []

/-- Where a frame can arrive: it raises an edge, or the loop is still going to look at the
ring, or it will read the cause bits again with `ROK` still set. -/
def attentive (state : State) : Bool :=
  !state.nic.asserted || state.main.drains || (state.summoned && state.main != .clearingRok)

def timely (state : State) : Act → Bool
  | .arrive _ => state.attentive
  | _ => true

structure Watched (state : State) : Prop where
  /-- The kernel and the program agree on who waits. -/
  aligned : state.irq.waiting = true ↔ state.main = .blocked
  /-- `ROK` stands from the status read to its own clear. -/
  standing : state.main.drains = true ∨ state.main = .clearingRok → state.nic.isr &&& ROK ≠ 0
  noticed : state.nic.ring ≠ [] → state.main.drains = true ∨
    (state.nic.isr &&& ROK ≠ 0 ∧ state.summoned = true ∧ state.main ≠ .clearingRok)

theorem Watched.not_unnoticed {state : State} (watched : state.Watched) : ¬ state.Unnoticed := by
  rintro ⟨asleep, clear, quiet, frames⟩
  rcases watched.noticed frames with drains | ⟨_, summoned, _⟩
  · rw [asleep] at drains
    cases drains
  · simp [State.summoned, asleep, clear, quiet] at summoned

variable {state after : State} {txBufPhys : UInt64}

/-! ## The device -/

theorem raised_cause {nic : Nic} {bits : UInt16} (raised : nic.raised = true) : (nic.cause bits).raised = true := by
  simp [Nic.cause, raised]

theorem Watched.arrive (watched : state.Watched) (frame : List UInt8) (attentive : state.attentive = true) :
    ({ state with nic := state.nic.arrive frame } : State).Watched := by
  have rok : (state.nic.arrive frame).isr &&& ROK ≠ 0 := rok_set state.nic.isr
  constructor
  · exact watched.aligned
  · exact fun _ => rok
  · intro _
    by_cases drains : state.main.drains = true
    · exact .inl drains
    · have edge (silent : state.nic.asserted = false) : (state.nic.arrive frame).raised = true := by
        have now : (state.nic.arrive frame).asserted = true := Nic.asserted_of_rok rok
        show (state.nic.raised || (!state.nic.asserted && (state.nic.arrive frame).asserted)) = true
        rw [silent, now, Bool.or_eq_true]
        exact .inr rfl
      have summons (summoned : state.summoned = true) :
          ({ state with nic := state.nic.arrive frame } : State).summoned = true := by
        simp only [State.summoned, Bool.or_eq_true] at summoned ⊢
        exact summoned.imp_right raised_cause
      refine .inr ⟨rok, ?_⟩
      rcases silent : state.nic.asserted with _ | _
      · refine ⟨by simp [State.summoned, edge silent], ?_⟩
        intro clearing
        have asserted := Nic.asserted_of_rok (watched.standing (.inr clearing))
        rw [silent] at asserted
        cases asserted
      · simp only [State.attentive, silent, drains, Bool.not_true, Bool.false_or, Bool.and_eq_true,
          bne_iff_ne] at attentive
        exact ⟨summons attentive.1, attentive.2⟩

theorem Watched.complete (watched : state.Watched) {nic : Nic} (completed : state.nic.complete = some nic) :
    ({ state with nic := nic } : State).Watched := by
  unfold Nic.complete at completed
  dsimp only at completed
  split at completed
  · obtain rfl := Option.some.inj completed
    constructor
    · exact watched.aligned
    · intro saw
      show (state.nic.isr ||| TOK) &&& ROK ≠ 0
      rw [rok_or_tok]
      exact watched.standing saw
    · intro frames
      refine (watched.noticed frames).imp_right ?_
      rintro ⟨rok, summoned, elsewhere⟩
      refine ⟨?_, ?_, elsewhere⟩
      · show (state.nic.isr ||| TOK) &&& ROK ≠ 0
        rw [rok_or_tok]
        exact rok
      · simp only [State.summoned, Bool.or_eq_true] at summoned ⊢
        exact summoned.imp_right fun raised => by simp [Nic.cause, raised]
  · cases completed

theorem Watched.interrupt (watched : state.Watched) (delivered : state.interrupt = some after) : after.Watched := by
  unfold State.interrupt at delivered
  split at delivered
  · obtain rfl := Option.some.inj delivered
    cases waits : state.irq.waiting with
    | true =>
      -- `main` wakes up and reads the status next
      have asleep := watched.aligned.mp waits
      constructor
      · simp [IrqLine.unblock, waits]
      · intro saw
        simp at saw
      · intro frames
        rcases watched.noticed frames with drains | ⟨rok, _, _⟩
        · rw [asleep] at drains
          cases drains
        · exact .inr ⟨rok, by simp [State.summoned], by simp⟩
    | false =>
      have awake : state.main ≠ .blocked := fun asleep => by
        rw [watched.aligned.mpr asleep] at waits
        cases waits
      constructor
      · simpa [IrqLine.unblock, waits] using awake
      · simpa [waits] using watched.standing
      · intro frames
        rcases watched.noticed frames with drains | ⟨rok, _, elsewhere⟩
        · exact .inl (by simpa [waits] using drains)
        · exact .inr ⟨rok, by simp [State.summoned, IrqLine.unblock, waits], by simpa [waits] using elsewhere⟩
  · cases delivered

/-! ## The service -/

theorem Watched.awake (watched : state.Watched) (awake : state.main ≠ .blocked) : state.irq.waiting = false := by
  cases waits : state.irq.waiting with
  | true => exact absurd (watched.aligned.mp waits) awake
  | false => rfl

/-- A loop that is neither draining nor about to read the status has been called by an interrupt. -/
theorem Watched.called (watched : state.Watched) (frames : state.nic.ring ≠ []) (idle : state.main.drains = false)
    (elsewhere : state.main ≠ .reading) :
    state.nic.isr &&& ROK ≠ 0 ∧ (state.irq.pending = true ∨ state.nic.raised = true) := by
  rcases watched.noticed frames with drains | ⟨rok, summoned, _⟩
  · rw [idle] at drains
    cases drains
  · refine ⟨rok, ?_⟩
    simpa [State.summoned, elsewhere] using summoned

theorem Watched.mainStep (watched : state.Watched) (stepped : state.mainStep = some after) : after.Watched := by
  unfold State.mainStep at stepped
  cases phase : state.main with
  | waiting =>
    rw [phase] at stepped
    obtain rfl := Option.some.inj stepped
    have free := watched.awake (by simp [phase])
    cases noted : state.irq.pending with
    | true =>
      constructor
      · simp [IrqLine.wait, noted, free]
      · intro saw
        simp at saw
      · intro frames
        have called := watched.called frames (by rw [phase]; rfl) (by simp [phase])
        exact .inr ⟨called.1, by simp [State.summoned], by simp⟩
    | false =>
      constructor
      · simp [IrqLine.wait, noted]
      · intro saw
        simp at saw
      · intro frames
        obtain ⟨rok, called⟩ := watched.called frames (by rw [phase]; rfl) (by simp [phase])
        have raised : state.nic.raised = true := by simpa [noted] using called
        exact .inr ⟨rok, by simp [State.summoned, raised], by simp⟩
  | blocked =>
    rw [phase] at stepped
    cases stepped
  | reading =>
    rw [phase] at stepped
    obtain rfl := Option.some.inj stepped
    have free := watched.awake (by simp [phase])
    constructor
    · simp [free, Main.afterStatus_ne]
    · rintro (drains | clearing)
      · exact Main.of_drains_afterStatus drains
      · exact absurd clearing Main.afterStatus_ne.2
    · intro frames
      rcases watched.noticed frames with drains | ⟨rok, _, _⟩
      · rw [phase] at drains
        cases drains
      · exact .inl (Main.drains_afterStatus rok)
  | clearingTok status =>
    rw [phase] at stepped
    obtain rfl := Option.some.inj stepped
    have free := watched.awake (by simp [phase])
    have kept : (state.nic.clear TOK).isr &&& ROK = state.nic.isr &&& ROK := rok_clear_tok state.nic.isr
    constructor
    · simp [free, Main.afterTok_ne]
    · rintro (drains | clearing)
      · dsimp only
        rw [kept]
        refine watched.standing (.inl ?_)
        rw [phase]
        exact decide_eq_true (Main.of_drains_afterTok drains)
      · exact absurd clearing Main.afterTok_ne.2
    · intro frames
      by_cases rok : status &&& ROK = 0
      · -- the status had no `ROK`: only a further interrupt makes the loop look again
        have idle : state.main.drains = false := by simp [phase, rok]
        obtain ⟨stands, called⟩ := watched.called frames idle (by simp [phase])
        refine .inr ⟨by rw [kept]; exact stands, ?_, Main.afterTok_ne.2⟩
        simp only [State.summoned, Bool.or_eq_true]
        exact called.elim (fun noted => .inl (.inr noted)) fun raised => .inr raised
      · exact .inl (Main.drains_afterTok rok)
  | polling =>
    rw [phase] at stepped
    have free := watched.awake (by simp [phase])
    have rok := watched.standing (.inl (by rw [phase]; rfl))
    dsimp only at stepped
    split at stepped
    next empty =>
      obtain rfl := Option.some.inj stepped
      exact ⟨by simp [free], fun _ => rok, fun frames => absurd empty frames⟩
    next frame rest _ =>
      obtain rfl := Option.some.inj stepped
      exact ⟨by simp [free], fun _ => rok, fun _ => .inl rfl⟩
  | announcing frame =>
    rw [phase] at stepped
    obtain rfl := Option.some.inj stepped
    have rok := watched.standing (.inl (by rw [phase]; rfl))
    exact ⟨by simp [watched.awake (by simp [phase])], fun _ => rok, fun _ => .inl rfl⟩
  | advancing frame =>
    rw [phase] at stepped
    obtain rfl := Option.some.inj stepped
    have rok := watched.standing (.inl (by rw [phase]; rfl))
    exact ⟨by simp [watched.awake (by simp [phase])], fun _ => rok, fun _ => .inl rfl⟩
  | clearingRok =>
    rw [phase] at stepped
    obtain rfl := Option.some.inj stepped
    constructor
    · simp [watched.awake (by simp [phase])]
    · intro saw
      simp at saw
    · intro frames
      -- `ROK` is cleared only with the ring empty
      rcases watched.noticed frames with drains | ⟨_, _, elsewhere⟩
      · rw [phase] at drains
        cases drains
      · exact absurd phase elsewhere

def receiving (state : State) : UInt16 × List (List UInt8) × Bool × IrqLine × Main :=
  (state.nic.isr, state.nic.ring, state.nic.raised, state.irq, state.main)

theorem Watched.of_receiving (watched : state.Watched) (same : after.receiving = state.receiving) : after.Watched := by
  simp only [receiving, Prod.mk.injEq] at same
  obtain ⟨isr, ring, raised, irq, main⟩ := same
  constructor
  · rw [irq, main]
    exact watched.aligned
  · rw [main, isr]
    exact watched.standing
  · rw [ring, main, isr, State.summoned, main, irq, raised]
    exact watched.noticed

theorem receiving_writes (writes : List TxWrite) (state : State) :
    (writes.foldl write state).receiving = state.receiving := by
  induction writes generalizing state with
  | nil => rfl
  | cons first rest ih =>
    rw [List.foldl_cons, ih]
    cases first <;> rfl

theorem Watched.step (watched : state.Watched) {act : Act} (timely : state.timely act = true)
    (taken : state.step txBufPhys act = some after) : after.Watched := by
  cases act with
  | arrive frame =>
    obtain rfl := Option.some.inj taken
    exact watched.arrive frame timely
  | complete =>
    obtain ⟨nic, completed, rfl⟩ := Option.map_eq_some_iff.mp taken
    exact watched.complete completed
  | interrupt => exact watched.interrupt taken
  | main => exact watched.mainStep taken
  | request msg =>
    simp only [State.step] at taken
    split at taken
    · obtain rfl := Option.some.inj taken
      split
      · exact watched.of_receiving rfl
      · exact watched
    · cases taken
  | tx page =>
    obtain ⟨next, _, rfl⟩ := Option.map_eq_some_iff.mp taken
    exact watched.of_receiving (receiving_writes _ state)

/-- As long as frames arrive where the loop attends to them, none is left unnoticed. -/
theorem no_frame_unnoticed {buffers : Base.Buffer 8192 UInt8} {history : List (State × Act)} {state : State}
    (run : DriverRun txBufPhys buffers history state)
    (timely : Base.Run.Guarded (fun state act => state.timely act = true) history) : ¬ state.Unnoticed := by
  have initial : (start buffers).Watched :=
    ⟨by simp [start, IrqLine.quiet], by simp [start], by simp [start, Nic.reset]⟩
  have watched := run.invariant Watched (fun state act => state.timely act = true) initial
    (fun watched timely taken => watched.step timely taken) timely
  exact watched.not_unnoticed

instance (state : State) : Decidable state.Unnoticed := inferInstanceAs (Decidable (_ ∧ _))

/-- A frame of the least length, check sum included. -/
def leastFrame (byte : UInt8) : List UInt8 := List.replicate 64 byte

/-- A frame arrives while `main` sleeps and is drained to the end. -/
theorem frame_noticed_asleep : ∃ history state, DriverRun 0 (fun _ => 0) history state ∧
    history.map Prod.snd = [.main, .arrive (leastFrame 1), .interrupt, .main, .main, .main, .main, .main,
      .main, .main] ∧
    state.main = .blocked ∧ ¬ state.Unnoticed := by
  obtain ⟨history, state, run, labels, timely, asleep⟩ := Base.Run.of_check (step 0) timely (start fun _ => 0)
    [.main, .arrive (leastFrame 1), .interrupt, .main, .main, .main, .main, .main, .main, .main]
    (fun state => decide (state.main = .blocked)) (by decide +kernel)
  exact ⟨history, state, run, labels, of_decide_eq_true asleep, no_frame_unnoticed run timely⟩

/-- A second frame arrives after the ring was read as empty and before `ROK` is cleared. -/
theorem frame_unnoticed_behind_clear : ∃ history state, DriverRun 0 (fun _ => 0) history state ∧
    history.map Prod.snd =
      [.main, .arrive (leastFrame 1), .interrupt, .main, .main, .main, .main, .main, .arrive (leastFrame 2),
        .main, .main] ∧
    state.nic.ring = [leastFrame 2] ∧ state.Unnoticed := by
  obtain ⟨history, state, run, labels, _, checked⟩ := Base.Run.of_check (step 0) (fun _ _ => true) (start fun _ => 0)
    [.main, .arrive (leastFrame 1), .interrupt, .main, .main, .main, .main, .main, .arrive (leastFrame 2), .main, .main]
    (fun state => decide (state.nic.ring = [leastFrame 2]) && decide state.Unnoticed) (by decide +kernel)
  rw [Bool.and_eq_true, decide_eq_true_eq, decide_eq_true_eq] at checked
  exact ⟨history, state, run, labels, checked.1, checked.2⟩

end State

end ElseOS.Rtl8139
