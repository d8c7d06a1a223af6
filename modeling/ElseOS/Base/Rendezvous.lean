import Mathlib.Algebra.Order.Group.Multiset
import Mathlib.Tactic.Abel
import ElseOS.Base.Transition

/-! A channel on which senders and receivers meet.

A send hands its message to the longest waiting receiver or waits; a receive takes
the message of the longest waiting sender or waits, and a waiting receiver finishes
once a message was handed to it. Two further acts describe an implementation that
misses the meeting: `drop` ends a send that handed nothing over, and `conjure` ends a
receive that was handed nothing. The log lists the events of a run, newest first.
-/

set_option autoImplicit false

namespace ElseOS.Base.Rendezvous

inductive Event (Party Msg : Type) where
  | sent (party : Party) (msg : Msg)
  | senderBlocked (party : Party) (msg : Msg)
  | sendCompleted (party : Party) (msg : Msg)
  | receiving (party : Party)
  | receiverBlocked (party : Party)
  | delivered (sender receiver : Party) (msg : Msg)
  | taken (sender receiver : Party) (msg : Msg)
  | received (party : Party) (msg : Msg)
  deriving DecidableEq

variable {Party Msg : Type}

namespace Event

def sent? : Event Party Msg → Option (Party × Msg)
  | .sent party msg => some (party, msg)
  | _ => none

def completed? : Event Party Msg → Option (Party × Msg)
  | .sendCompleted party msg => some (party, msg)
  | _ => none

def handed? : Event Party Msg → Option (Party × Msg)
  | .delivered sender _ msg => some (sender, msg)
  | .taken sender _ msg => some (sender, msg)
  | _ => none

def supplied? : Event Party Msg → Option (Party × Msg)
  | .delivered _ receiver msg => some (receiver, msg)
  | .taken _ receiver msg => some (receiver, msg)
  | _ => none

def returned? : Event Party Msg → Option (Party × Msg)
  | .received party msg => some (party, msg)
  | _ => none

def senderBlocked? : Event Party Msg → Option (Party × Msg)
  | .senderBlocked party msg => some (party, msg)
  | _ => none

def senderServed? : Event Party Msg → Option (Party × Msg)
  | .taken sender _ msg => some (sender, msg)
  | _ => none

def receiverBlocked? : Event Party Msg → Option Party
  | .receiverBlocked party => some party
  | _ => none

def receiverServed? : Event Party Msg → Option Party
  | .delivered _ receiver _ => some receiver
  | _ => none

end Event

def tally {α : Type} (select : Event Party Msg → Option α) (log : List (Event Party Msg)) : Multiset α :=
  (log.filterMap select : List α)

def sends (log : List (Event Party Msg)) : Multiset (Party × Msg) := tally Event.sent? log
def completed (log : List (Event Party Msg)) : Multiset (Party × Msg) := tally Event.completed? log
def handed (log : List (Event Party Msg)) : Multiset (Party × Msg) := tally Event.handed? log
def supplied (log : List (Event Party Msg)) : Multiset (Party × Msg) := tally Event.supplied? log
def returned (log : List (Event Party Msg)) : Multiset (Party × Msg) := tally Event.returned? log

def chronicle {α : Type} (select : Event Party Msg → Option α) (log : List (Event Party Msg)) : List α :=
  (log.filterMap select).reverse

theorem tally_cons {α : Type} (select : Event Party Msg → Option α) (event : Event Party Msg)
    (log : List (Event Party Msg)) :
    tally select (event :: log) = ((select event).toList : Multiset α) + tally select log := by
  unfold tally
  cases selected : select event with
  | none => simp [List.filterMap_cons_none selected]
  | some value => simp [List.filterMap_cons_some selected, ← Multiset.cons_coe]

@[simp] theorem sends_cons (event : Event Party Msg) (log : List (Event Party Msg)) :
    sends (event :: log) = (event.sent?.toList : Multiset (Party × Msg)) + sends log := tally_cons _ _ _

@[simp] theorem completed_cons (event : Event Party Msg) (log : List (Event Party Msg)) :
    completed (event :: log) = (event.completed?.toList : Multiset (Party × Msg)) + completed log :=
  tally_cons _ _ _

@[simp] theorem handed_cons (event : Event Party Msg) (log : List (Event Party Msg)) :
    handed (event :: log) = (event.handed?.toList : Multiset (Party × Msg)) + handed log := tally_cons _ _ _

@[simp] theorem supplied_cons (event : Event Party Msg) (log : List (Event Party Msg)) :
    supplied (event :: log) = (event.supplied?.toList : Multiset (Party × Msg)) + supplied log := tally_cons _ _ _

@[simp] theorem returned_cons (event : Event Party Msg) (log : List (Event Party Msg)) :
    returned (event :: log) = (event.returned?.toList : Multiset (Party × Msg)) + returned log := tally_cons _ _ _

theorem supplied_messages (log : List (Event Party Msg)) :
    (supplied log).map Prod.snd = (handed log).map Prod.snd := by
  induction log with
  | nil => rfl
  | cons event log ih =>
    rw [supplied_cons, handed_cons, Multiset.map_add, Multiset.map_add, ih]
    cases event <;> rfl

theorem chronicle_cons {α : Type} (select : Event Party Msg → Option α) (event : Event Party Msg)
    (log : List (Event Party Msg)) :
    chronicle select (event :: log) = chronicle select log ++ (select event).toList := by
  unfold chronicle
  cases selected : select event with
  | none => simp [List.filterMap_cons_none selected]
  | some value => simp [List.filterMap_cons_some selected]

variable [DecidableEq Party]

/-- The message last handed to the party, until its receive returns. -/
def pending (party : Party) : List (Event Party Msg) → Option Msg
  | [] => none
  | .delivered _ receiver msg :: rest => if receiver = party then some msg else pending party rest
  | .taken _ receiver msg :: rest => if receiver = party then some msg else pending party rest
  | .received receiver _ :: rest => if receiver = party then none else pending party rest
  | _ :: rest => pending party rest

structure Channel (Party Msg : Type) where
  senders : List (Party × Msg)
  receivers : List Party
  log : List (Event Party Msg)

def Channel.new : Channel Party Msg := ⟨[], [], []⟩

inductive Act (Party Msg : Type) where
  | send (party : Party) (msg : Msg)
  | receive (party : Party)
  | finish (party : Party)
  | drop (party : Party) (msg : Msg)
  | conjure (party : Party) (msg : Msg)
  deriving DecidableEq

def Act.dropped? : Act Party Msg → Option (Party × Msg)
  | .drop party msg => some (party, msg)
  | _ => none

def Act.conjures : Act Party Msg → Bool
  | .conjure _ _ => true
  | _ => false

namespace Channel

def CanReceive (channel : Channel Party Msg) (party : Party) : Prop :=
  party ∉ channel.receivers ∧ pending party channel.log = none

instance (channel : Channel Party Msg) (party : Party) : Decidable (channel.CanReceive party) :=
  inferInstanceAs (Decidable (_ ∧ _))

def step (channel : Channel Party Msg) : Act Party Msg → Option (Channel Party Msg)
  | .send party msg =>
    match channel.receivers with
    | receiver :: rest => some { channel with
        receivers := rest
        log := .sendCompleted party msg :: .delivered party receiver msg :: .sent party msg :: channel.log }
    | [] => some { channel with
        senders := channel.senders ++ [(party, msg)]
        log := .senderBlocked party msg :: .sent party msg :: channel.log }
  | .receive party =>
    if channel.CanReceive party then
      match channel.senders with
      | (sender, msg) :: rest => some { channel with
          senders := rest
          log := .received party msg :: .sendCompleted sender msg :: .taken sender party msg ::
            .receiving party :: channel.log }
      | [] => some { channel with
          receivers := channel.receivers ++ [party]
          log := .receiverBlocked party :: .receiving party :: channel.log }
    else none
  | .finish party =>
    match pending party channel.log with
    | some msg => some { channel with log := .received party msg :: channel.log }
    | none => none
  | .drop party msg => some { channel with log := .sendCompleted party msg :: .sent party msg :: channel.log }
  | .conjure party msg =>
    if channel.CanReceive party then
      some { channel with log := .received party msg :: .receiving party :: channel.log }
    else none

inductive Moves (channel : Channel Party Msg) : Act Party Msg → Channel Party Msg → Prop where
  | deliver {party receiver : Party} {msg : Msg} {rest : List Party} :
      channel.receivers = receiver :: rest → Moves channel (.send party msg) { channel with
        receivers := rest
        log := .sendCompleted party msg :: .delivered party receiver msg :: .sent party msg :: channel.log }
  | blockSender {party : Party} {msg : Msg} :
      channel.receivers = [] → Moves channel (.send party msg) { channel with
        senders := channel.senders ++ [(party, msg)]
        log := .senderBlocked party msg :: .sent party msg :: channel.log }
  | take {party sender : Party} {msg : Msg} {rest : List (Party × Msg)} :
      channel.CanReceive party → channel.senders = (sender, msg) :: rest →
      Moves channel (.receive party) { channel with
        senders := rest
        log := .received party msg :: .sendCompleted sender msg :: .taken sender party msg ::
          .receiving party :: channel.log }
  | blockReceiver {party : Party} :
      channel.CanReceive party → channel.senders = [] → Moves channel (.receive party) { channel with
        receivers := channel.receivers ++ [party]
        log := .receiverBlocked party :: .receiving party :: channel.log }
  | finish {party : Party} {msg : Msg} :
      pending party channel.log = some msg →
      Moves channel (.finish party) { channel with log := .received party msg :: channel.log }
  | drop {party : Party} {msg : Msg} :
      Moves channel (.drop party msg) { channel with
        log := .sendCompleted party msg :: .sent party msg :: channel.log }
  | conjure {party : Party} {msg : Msg} :
      channel.CanReceive party → Moves channel (.conjure party msg) { channel with
        log := .received party msg :: .receiving party :: channel.log }

variable {channel after : Channel Party Msg} {act : Act Party Msg}

theorem moves_of_step (taken : channel.step act = some after) : channel.Moves act after := by
  cases act with
  | send party msg =>
    simp only [step] at taken
    split at taken
    next waiting => cases taken; exact .deliver waiting
    next empty => cases taken; exact .blockSender empty
  | receive party =>
    simp only [step] at taken
    split at taken
    next able =>
      split at taken
      next waiting => cases taken; exact .take able waiting
      next empty => cases taken; exact .blockReceiver able empty
    next => cases taken
  | finish party =>
    simp only [step] at taken
    split at taken
    next ready => cases taken; exact .finish ready
    next => cases taken
  | drop party msg => cases taken; exact .drop
  | conjure party msg =>
    simp only [step] at taken
    split at taken
    next able => cases taken; exact .conjure able
    next => cases taken

end Channel

/-! ## Accounting -/

def Channel.Balanced (channel : Channel Party Msg) : Prop :=
  sends channel.log = completed channel.log + (channel.senders : Multiset (Party × Msg))

theorem Channel.Moves.balanced {channel after : Channel Party Msg} {act : Act Party Msg}
    (moves : channel.Moves act after) (balanced : channel.Balanced) : after.Balanced := by
  unfold Balanced at *
  cases moves with
  | deliver waiting =>
    simp [Event.sent?, Event.completed?, balanced]
  | blockSender empty =>
    simp only [sends_cons, completed_cons, Event.sent?, Event.completed?, balanced, ← Multiset.coe_add,
      Option.toList_none, Option.toList_some, Multiset.coe_nil]
    abel
  | take able waiting =>
    simp only [sends_cons, completed_cons, Event.sent?, Event.completed?, balanced, waiting,
      ← Multiset.cons_coe, ← Multiset.singleton_add, Option.toList_none, Option.toList_some, Multiset.coe_nil,
      zero_add]
    abel
  | blockReceiver able empty => simpa [Event.sent?, Event.completed?] using balanced
  | finish ready => simpa [Event.sent?, Event.completed?] using balanced
  | drop => simp [Event.sent?, Event.completed?, balanced]
  | conjure able => simpa [Event.sent?, Event.completed?] using balanced

/-- Every completed send was handed over, or is the one the act dropped. -/
theorem Channel.Moves.handover {channel after : Channel Party Msg} {act : Act Party Msg}
    {dropped : Multiset (Party × Msg)} (moves : channel.Moves act after)
    (accounted : completed channel.log = handed channel.log + dropped) :
    completed after.log = handed after.log + (dropped + (act.dropped?.toList : Multiset (Party × Msg))) := by
  cases moves with
  | deliver waiting => simp [Event.completed?, Event.handed?, Act.dropped?, accounted]
  | blockSender empty => simpa [Event.completed?, Event.handed?, Act.dropped?] using accounted
  | take able waiting => simp [Event.completed?, Event.handed?, Act.dropped?, accounted]
  | blockReceiver able empty => simpa [Event.completed?, Event.handed?, Act.dropped?] using accounted
  | finish ready => simpa [Event.completed?, Event.handed?, Act.dropped?] using accounted
  | drop =>
    simp only [completed_cons, handed_cons, Event.completed?, Event.handed?, Act.dropped?, accounted,
      Option.toList_none, Option.toList_some, Multiset.coe_nil]
    abel
  | conjure able => simpa [Event.completed?, Event.handed?, Act.dropped?] using accounted

/-! ## Order of service -/

def Channel.SendersInOrder (channel : Channel Party Msg) : Prop :=
  chronicle Event.senderBlocked? channel.log = chronicle Event.senderServed? channel.log ++ channel.senders

def Channel.ReceiversInOrder (channel : Channel Party Msg) : Prop :=
  chronicle Event.receiverBlocked? channel.log = chronicle Event.receiverServed? channel.log ++ channel.receivers

theorem Channel.Moves.sendersInOrder {channel after : Channel Party Msg} {act : Act Party Msg}
    (moves : channel.Moves act after) (ordered : channel.SendersInOrder) : after.SendersInOrder := by
  unfold SendersInOrder at *
  cases moves with
  | deliver waiting => simpa [chronicle_cons, Event.senderBlocked?, Event.senderServed?] using ordered
  | blockSender empty => simp [chronicle_cons, Event.senderBlocked?, Event.senderServed?, ordered]
  | take able waiting => simp [chronicle_cons, Event.senderBlocked?, Event.senderServed?, ordered, waiting]
  | blockReceiver able empty => simpa [chronicle_cons, Event.senderBlocked?, Event.senderServed?] using ordered
  | finish ready => simpa [chronicle_cons, Event.senderBlocked?, Event.senderServed?] using ordered
  | drop => simpa [chronicle_cons, Event.senderBlocked?, Event.senderServed?] using ordered
  | conjure able => simpa [chronicle_cons, Event.senderBlocked?, Event.senderServed?] using ordered

theorem Channel.Moves.receiversInOrder {channel after : Channel Party Msg} {act : Act Party Msg}
    (moves : channel.Moves act after) (ordered : channel.ReceiversInOrder) : after.ReceiversInOrder := by
  unfold ReceiversInOrder at *
  cases moves with
  | deliver waiting =>
    simp [chronicle_cons, Event.receiverBlocked?, Event.receiverServed?, ordered, waiting]
  | blockSender empty => simpa [chronicle_cons, Event.receiverBlocked?, Event.receiverServed?] using ordered
  | take able waiting => simpa [chronicle_cons, Event.receiverBlocked?, Event.receiverServed?] using ordered
  | blockReceiver able empty =>
    simp [chronicle_cons, Event.receiverBlocked?, Event.receiverServed?, ordered]
  | finish ready => simpa [chronicle_cons, Event.receiverBlocked?, Event.receiverServed?] using ordered
  | drop => simpa [chronicle_cons, Event.receiverBlocked?, Event.receiverServed?] using ordered
  | conjure able => simpa [chronicle_cons, Event.receiverBlocked?, Event.receiverServed?] using ordered

/-! ## Accounting and order over whole runs -/

section

variable {history : List (Channel Party Msg × Act Party Msg)} {channel : Channel Party Msg}

theorem run_balanced (run : Run Channel.step Channel.new history channel) : channel.Balanced :=
  run.always Channel.Balanced (by simp [Channel.Balanced, Channel.new, sends, completed, tally])
    fun balanced taken => (Channel.moves_of_step taken).balanced balanced

theorem run_sendersInOrder (run : Run Channel.step Channel.new history channel) : channel.SendersInOrder :=
  run.always Channel.SendersInOrder (by simp [Channel.SendersInOrder, Channel.new, chronicle])
    fun ordered taken => (Channel.moves_of_step taken).sendersInOrder ordered

theorem run_receiversInOrder (run : Run Channel.step Channel.new history channel) : channel.ReceiversInOrder :=
  run.always Channel.ReceiversInOrder (by simp [Channel.ReceiversInOrder, Channel.new, chronicle])
    fun ordered taken => (Channel.moves_of_step taken).receiversInOrder ordered

def dropped (history : List (Channel Party Msg × Act Party Msg)) : Multiset (Party × Msg) :=
  (history.filterMap fun entry => entry.2.dropped? : List (Party × Msg))

omit [DecidableEq Party] in
theorem dropped_append (history : List (Channel Party Msg × Act Party Msg)) (state : Channel Party Msg)
    (act : Act Party Msg) :
    dropped (history ++ [(state, act)]) = dropped history + (act.dropped?.toList : Multiset (Party × Msg)) := by
  unfold dropped
  rw [List.filterMap_append, ← Multiset.coe_add]
  cases act <;> rfl

theorem run_handover (run : Run Channel.step Channel.new history channel) :
    completed channel.log = handed channel.log + dropped history := by
  refine run.induct (fun past state => completed state.log = handed state.log + dropped past) rfl ?_
  intro past state act after _ accounted taken
  rw [dropped_append]
  exact (Channel.moves_of_step taken).handover accounted

/-- A run loses no message exactly when no act of it drops one. -/
theorem run_lossless_iff (run : Run Channel.step Channel.new history channel) :
    completed channel.log = handed channel.log ↔ ∀ entry ∈ history, entry.2.dropped? = none := by
  rw [run_handover run, add_eq_left, dropped, Multiset.coe_eq_zero, List.filterMap_eq_nil_iff]

end

/-! ## What a receive returns -/

inductive Phase (Msg : Type) where
  | out
  | asking
  | supplied (msg : Msg)
  deriving DecidableEq

def Channel.status (channel : Channel Party Msg) (party : Party) : Phase Msg :=
  if party ∈ channel.receivers then .asking
  else match pending party channel.log with
    | some msg => .supplied msg
    | none => .out

theorem Channel.status_of_canReceive {channel : Channel Party Msg} {party : Party}
    (able : channel.CanReceive party) : channel.status party = .out := by
  simp [status, able.1, able.2]

variable [DecidableEq Msg]

/-- Follow the party's receives through the log. `none` when a receive returned something
other than the one message handed to it since it asked. -/
def phase (party : Party) : List (Event Party Msg) → Option (Phase Msg)
  | [] => some .out
  | .receiving receiver :: rest =>
    if receiver = party then (if phase party rest = some .out then some .asking else none)
    else phase party rest
  | .delivered _ receiver msg :: rest =>
    if receiver = party then (if phase party rest = some .asking then some (.supplied msg) else none)
    else phase party rest
  | .taken _ receiver msg :: rest =>
    if receiver = party then (if phase party rest = some .asking then some (.supplied msg) else none)
    else phase party rest
  | .received receiver msg :: rest =>
    if receiver = party then (if phase party rest = some (.supplied msg) then some .out else none)
    else phase party rest
  | _ :: rest => phase party rest

structure Channel.Sound (channel : Channel Party Msg) : Prop where
  distinct : channel.receivers.Nodup
  unsupplied : ∀ party ∈ channel.receivers, pending party channel.log = none
  phases : ∀ party, phase party channel.log = some (channel.status party)

theorem Channel.Moves.sound {channel after : Channel Party Msg} {act : Act Party Msg}
    (moves : channel.Moves act after) (honest : act.conjures = false) (sound : channel.Sound) :
    after.Sound := by
  obtain ⟨distinct, unsupplied, phases⟩ := sound
  cases moves with
  | @deliver party receiver msg rest waiting =>
    rw [waiting, List.nodup_cons] at distinct
    have asking : phase receiver channel.log = some .asking := by simp [phases, status, waiting]
    refine ⟨distinct.2, ?_, ?_⟩
    · intro other member
      have different : receiver ≠ other := fun same => distinct.1 (same ▸ member)
      simpa [pending, different] using unsupplied other (by simp [waiting, member])
    · intro other
      by_cases same : receiver = other
      · subst same
        simp [phase, asking, status, pending, distinct.1]
      · have different : other ≠ receiver := fun equal => same equal.symm
        simp [phase, phases, same, status, pending, waiting, different]
  | blockSender empty => exact ⟨distinct, unsupplied, phases⟩
  | @take party sender msg rest able waiting =>
    have out := phases party |>.trans (congrArg some (status_of_canReceive able))
    refine ⟨distinct, ?_, ?_⟩
    · intro other member
      have different : party ≠ other := fun same => able.1 (same ▸ member)
      simpa [pending, different] using unsupplied other member
    · intro other
      by_cases same : party = other
      · subst same
        simp [phase, out, status, pending, able.1]
      · simp [phase, phases, same, status, pending]
  | @blockReceiver party able empty =>
    have out := phases party |>.trans (congrArg some (status_of_canReceive able))
    refine ⟨?_, ?_, ?_⟩
    · rw [List.nodup_append]
      refine ⟨distinct, List.nodup_singleton party, ?_⟩
      intro other member last singleton
      rw [List.mem_singleton] at singleton
      subst singleton
      exact fun same => able.1 (same ▸ member)
    · intro other member
      rcases List.mem_append.mp member with member | member
      · simpa [pending] using unsupplied other member
      · rw [List.mem_singleton] at member
        subst member
        simpa [pending] using able.2
    · intro other
      by_cases same : party = other
      · subst same
        simp [phase, out, status]
      · have different : other ≠ party := fun equal => same equal.symm
        simp [phase, phases, same, status, pending, different]
  | @finish party msg ready =>
    have outside : party ∉ channel.receivers := by
      intro member
      rw [unsupplied party member] at ready
      cases ready
    have supplied : phase party channel.log = some (.supplied msg) := by simp [phases, status, outside, ready]
    refine ⟨distinct, ?_, ?_⟩
    · intro other member
      have different : party ≠ other := fun same => outside (same ▸ member)
      simpa [pending, different] using unsupplied other member
    · intro other
      by_cases same : party = other
      · subst same
        simp [phase, supplied, status, pending, outside]
      · simp [phase, phases, same, status, pending]
  | drop => exact ⟨distinct, unsupplied, phases⟩
  | conjure able => cases honest

theorem phase_cons_none {party : Party} {log : List (Event Party Msg)}
    (wrong : phase party log = none) (event : Event Party Msg) : phase party (event :: log) = none := by
  cases event <;> simp [phase, wrong]

theorem Channel.Moves.phase_none {channel after : Channel Party Msg} {act : Act Party Msg}
    (moves : channel.Moves act after) {party : Party} (wrong : phase party channel.log = none) :
    phase party after.log = none := by
  cases moves with
  | deliver => exact phase_cons_none (phase_cons_none (phase_cons_none wrong _) _) _
  | blockSender => exact phase_cons_none (phase_cons_none wrong _) _
  | take => exact phase_cons_none (phase_cons_none (phase_cons_none (phase_cons_none wrong _) _) _) _
  | blockReceiver => exact phase_cons_none (phase_cons_none wrong _) _
  | finish => exact phase_cons_none wrong _
  | drop => exact phase_cons_none (phase_cons_none wrong _) _
  | conjure => exact phase_cons_none (phase_cons_none wrong _) _

/-- A conjured receive asks and returns with nothing handed over in between. -/
theorem Channel.Moves.conjured {channel after : Channel Party Msg} {party : Party} {msg : Msg}
    (moves : channel.Moves (.conjure party msg) after) : phase party after.log = none := by
  cases moves with
  | conjure able =>
    simp only [phase, if_true]
    by_cases out : phase party channel.log = some .out
    · simp [out]
    · simp [out]

/-- The receives of a run all return what was handed to them exactly when none is conjured. -/
theorem run_returns_iff {history : List (Channel Party Msg × Act Party Msg)} {channel : Channel Party Msg}
    (run : Run Channel.step Channel.new history channel) :
    (∀ party, phase party channel.log ≠ none) ↔ ∀ entry ∈ history, entry.2.conjures = false := by
  have sound : (∀ entry ∈ history, entry.2.conjures = false) → channel.Sound := by
    refine run.invariant Channel.Sound (fun _ act => act.conjures = false) ?_ ?_
    · exact ⟨List.nodup_nil, by simp [Channel.new], fun party => rfl⟩
    · intro state act after sound honest taken
      exact (Channel.moves_of_step taken).sound honest sound
  have stained : (∃ entry ∈ history, entry.2.conjures = true) → ∃ party, phase party channel.log = none := by
    refine run.induct (fun past state => (∃ entry ∈ past, entry.2.conjures = true) →
      ∃ party, phase party state.log = none) (by simp) ?_
    intro past state act after _ ih taken found
    have moves := Channel.moves_of_step taken
    obtain ⟨entry, member, conjures⟩ := found
    rcases List.mem_append.mp member with member | member
    · obtain ⟨party, wrong⟩ := ih ⟨entry, member, conjures⟩
      exact ⟨party, moves.phase_none wrong⟩
    · rw [List.mem_singleton] at member
      subst member
      cases act with
      | conjure party msg => exact ⟨party, moves.conjured⟩
      | send => cases conjures
      | receive => cases conjures
      | finish => cases conjures
      | drop => cases conjures
  constructor
  · intro truthful entry member
    by_contra lie
    obtain ⟨party, wrong⟩ := stained ⟨entry, member, by simpa using lie⟩
    exact truthful party wrong
  · intro honest party wrong
    rw [(sound honest).phases party] at wrong
    cases wrong

/-- A party was supplied with what its receives returned and with the message it has yet to return. -/
theorem count_supplied {log : List (Event Party Msg)} {party : Party}
    (right : phase party log ≠ none) (msg : Msg) :
    (supplied log).count (party, msg) =
      (returned log).count (party, msg) + if phase party log = some (.supplied msg) then 1 else 0 := by
  induction log with
  | nil => simp [supplied, returned, tally, phase]
  | cons event log ih =>
    have earlier := ih fun wrong => right (phase_cons_none wrong event)
    rw [supplied_cons, returned_cons, Multiset.count_add, Multiset.count_add, earlier]
    cases event with
    | delivered sender receiver given =>
      by_cases own : receiver = party
      · subst own
        have asking : phase receiver log = some .asking := by simpa [phase] using right
        by_cases same : msg = given <;> simp [Event.supplied?, Event.returned?, phase, asking, same, eq_comm,
          Nat.add_comm]
      · have other : party ≠ receiver := fun equal => own equal.symm
        simp [Event.supplied?, Event.returned?, phase, own, other]
    | taken sender receiver given =>
      by_cases own : receiver = party
      · subst own
        have asking : phase receiver log = some .asking := by simpa [phase] using right
        by_cases same : msg = given <;> simp [Event.supplied?, Event.returned?, phase, asking, same, eq_comm,
          Nat.add_comm]
      · have other : party ≠ receiver := fun equal => own equal.symm
        simp [Event.supplied?, Event.returned?, phase, own, other]
    | received receiver given =>
      by_cases own : receiver = party
      · subst own
        have holds : phase receiver log = some (.supplied given) := by simpa [phase] using right
        by_cases same : msg = given <;> simp [Event.supplied?, Event.returned?, phase, holds, same, eq_comm,
          Nat.add_comm]
      · have other : party ≠ receiver := fun equal => own equal.symm
        simp [Event.supplied?, Event.returned?, phase, own, other]
    | receiving receiver =>
      by_cases own : receiver = party
      · subst own
        have out : phase receiver log = some .out := by simpa [phase] using right
        simp [Event.supplied?, Event.returned?, phase, out]
      · simp [Event.supplied?, Event.returned?, phase, own]
    | sent => simp [Event.supplied?, Event.returned?]; rfl
    | senderBlocked => simp [Event.supplied?, Event.returned?]; rfl
    | sendCompleted => simp [Event.supplied?, Event.returned?]; rfl
    | receiverBlocked => simp [Event.supplied?, Event.returned?]; rfl

theorem returned_le_supplied {log : List (Event Party Msg)} (right : ∀ party, phase party log ≠ none) :
    returned log ≤ supplied log := by
  rw [Multiset.le_iff_count]
  rintro ⟨party, msg⟩
  rw [count_supplied (right party)]
  exact Nat.le_add_right _ _

/-- Every receive returned the message handed to it after it asked, no message was returned more
often than it was sent, and both queues were served in order. -/
structure Channel.Truthful (channel : Channel Party Msg) : Prop where
  returns : ∀ party, phase party channel.log ≠ none
  sent : (returned channel.log).map Prod.snd ≤ (sends channel.log).map Prod.snd
  senders : channel.SendersInOrder
  receivers : channel.ReceiversInOrder

theorem run_truthful_iff {history : List (Channel Party Msg × Act Party Msg)} {channel : Channel Party Msg}
    (run : Run Channel.step Channel.new history channel) :
    channel.Truthful ↔ ∀ entry ∈ history, entry.2.conjures = false := by
  rw [← run_returns_iff run]
  refine ⟨Channel.Truthful.returns, fun right => ⟨right, ?_, run_sendersInOrder run, run_receiversInOrder run⟩⟩
  have handedSent : handed channel.log ≤ sends channel.log := by
    calc
      handed channel.log ≤ completed channel.log := by
        rw [run_handover run]
        exact Multiset.le_add_right _ _
      _ ≤ sends channel.log := by
        rw [run_balanced run]
        exact Multiset.le_add_right _ _
  calc
    (returned channel.log).map Prod.snd ≤ (supplied channel.log).map Prod.snd :=
      Multiset.map_le_map (returned_le_supplied right)
    _ = (handed channel.log).map Prod.snd := supplied_messages _
    _ ≤ (sends channel.log).map Prod.snd := Multiset.map_le_map handedSent

end ElseOS.Base.Rendezvous
