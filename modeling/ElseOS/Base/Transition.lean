import Mathlib.Data.List.Induction

/-! Finite runs of a partial labelled transition function.

A run keeps its history: the states it left, each with the label taken there,
oldest first. Conditions on the steps of a run are conditions on the entries of
its history, so they speak about the state before a step and its label only.
-/

set_option autoImplicit false

namespace ElseOS.Base

variable {State Label : Type}

inductive Run (step : State → Label → Option State) (first : State) :
    List (State × Label) → State → Prop where
  | start : Run step first [] first
  | next {history : List (State × Label)} {state after : State} {label : Label} :
      Run step first history state → step state label = some after →
      Run step first (history ++ [(state, label)]) after

namespace Run

variable {step : State → Label → Option State} {first last : State} {history : List (State × Label)}

/-- The invariant rule for histories: what holds at the start and survives every
step holds of every run. -/
theorem induct (Holds : List (State × Label) → State → Prop) (initial : Holds [] first)
    (preserved : ∀ {past state label after}, Run step first past state → Holds past state →
      step state label = some after → Holds (past ++ [(state, label)]) after)
    (run : Run step first history last) : Holds history last := by
  induction run with
  | start => exact initial
  | next earlier taken ih => exact preserved earlier ih taken

theorem single {state after : State} {label : Label} (taken : step state label = some after) :
    Run step state [(state, label)] after := next start taken

theorem trans {middle : State} {past later : List (State × Label)} (earlier : Run step first past middle)
    (run : Run step middle later last) : Run step first (past ++ later) last := by
  induction run with
  | start =>
    rw [List.append_nil]
    exact earlier
  | next _ taken ih =>
    rw [← List.append_assoc]
    exact next ih taken

def Guarded (guard : State → Label → Prop) (history : List (State × Label)) : Prop :=
  ∀ entry ∈ history, guard entry.1 entry.2

@[simp] theorem guarded_nil (guard : State → Label → Prop) : Guarded guard [] := by
  intro entry member
  cases member

@[simp] theorem guarded_append (guard : State → Label → Prop) (history : List (State × Label))
    (state : State) (label : Label) :
    Guarded guard (history ++ [(state, label)]) ↔ Guarded guard history ∧ guard state label := by
  constructor
  · intro guarded
    exact ⟨fun entry member => guarded entry (List.mem_append_left _ member),
      guarded (state, label) (by simp)⟩
  · rintro ⟨earlier, now⟩ entry member
    rcases List.mem_append.mp member with member | member
    · exact earlier entry member
    · rw [List.mem_singleton] at member
      subst member
      exact now

theorem invariant (Inv : State → Prop) (guard : State → Label → Prop) (initial : Inv first)
    (preserved : ∀ {state label after}, Inv state → guard state label →
      step state label = some after → Inv after)
    (run : Run step first history last) (guarded : Guarded guard history) : Inv last := by
  induction run with
  | start => exact initial
  | next earlier taken ih =>
    rw [guarded_append] at guarded
    exact preserved (ih guarded.1) guarded.2 taken

theorem invariant_entry (Inv : State → Prop) (guard : State → Label → Prop) (initial : Inv first)
    (preserved : ∀ {state label after}, Inv state → guard state label →
      step state label = some after → Inv after)
    (run : Run step first history last) (guarded : Guarded guard history) {entry : State × Label}
    (member : entry ∈ history) : Inv entry.1 := by
  induction run with
  | start => cases member
  | next earlier taken ih =>
    rw [guarded_append] at guarded
    rcases List.mem_append.mp member with member | member
    · exact ih guarded.1 member
    · rw [List.mem_singleton] at member
      subst member
      exact earlier.invariant Inv guard initial preserved guarded.1

theorem always (Inv : State → Prop) (initial : Inv first)
    (preserved : ∀ {state label after}, Inv state → step state label = some after → Inv after)
    (run : Run step first history last) : Inv last := by
  induction run with
  | start => exact initial
  | next earlier taken ih => exact preserved ih taken

theorem reaches_entry (run : Run step first history last) {state : State} {label : Label}
    (member : (state, label) ∈ history) : ∃ past, Run step first past state := by
  induction run with
  | start => cases member
  | @next past before after taken earlier moved ih =>
    rcases List.mem_append.mp member with member | member
    · exact ih member
    · rw [List.mem_singleton] at member
      cases member
      exact ⟨past, earlier⟩

/-- What stands before an entry of a history is the history of a run to it. -/
theorem before_entry {past later : List (State × Label)} {state : State} {label : Label}
    (run : Run step first (past ++ (state, label) :: later) last) : Run step first past state := by
  generalize split : past ++ (state, label) :: later = history at run
  induction run generalizing later with
  | start => simp at split
  | next earlier taken ih =>
    rcases List.eq_nil_or_concat later with rfl | ⟨front, final, rfl⟩
    · obtain rfl := List.append_inj_left' split rfl
      cases List.append_inj_right' split rfl
      exact earlier
    · rw [List.concat_eq_append, ← List.cons_append, ← List.append_assoc] at split
      exact ih (List.append_inj_left' split rfl)

/-- A run projects to a run of another system when every step is seen there as one act or
as nothing. The faults of the acts are the faults of the steps, kind by kind. -/
theorem simulate {View Act Kind : Type} (absStep : View → Act → Option View) (view : State → View)
    (fault : State → Label → Kind → Prop) (actFault : Act → Kind → Prop)
    (matched : ∀ {past state label after}, Run step first past state → step state label = some after →
      (view after = view state ∧ ∀ kind, ¬ fault state label kind) ∨
      ∃ act, absStep (view state) act = some (view after) ∧ ∀ kind, actFault act kind ↔ fault state label kind)
    (run : Run step first history last) :
    ∃ acts, Run absStep (view first) acts (view last) ∧
      ∀ kind, (∃ entry ∈ acts, actFault entry.2 kind) ↔ ∃ entry ∈ history, fault entry.1 entry.2 kind := by
  induction run with
  | start => exact ⟨[], .start, by simp⟩
  | @next past state after label earlier taken ih =>
    obtain ⟨acts, projected, faults⟩ := ih
    rcases matched earlier taken with ⟨same, none⟩ | ⟨act, acted, fault⟩
    · rw [same]
      exact ⟨acts, projected, by simp [faults, none, or_and_right, exists_or]⟩
    · exact ⟨acts ++ [(view state, act)], projected.next acted, by simp [faults, fault, or_and_right, exists_or]⟩

end Run

def execute (step : State → Label → Option State) (guard : State → Label → Bool) (state : State) :
    List Label → Option State
  | [] => some state
  | label :: labels =>
    if guard state label then (step state label).bind fun after => execute step guard after labels else none

theorem execute_append (step : State → Label → Option State) (guard : State → Label → Bool) (state : State)
    (labels more : List Label) :
    execute step guard state (labels ++ more) =
      (execute step guard state labels).bind fun after => execute step guard after more := by
  induction labels generalizing state with
  | nil => rfl
  | cons label labels ih =>
    simp only [List.cons_append, execute]
    split
    · rw [Option.bind_assoc]
      exact congrArg _ (funext fun after => ih after)
    · rfl

theorem Run.of_execute {step : State → Label → Option State} {guard : State → Label → Bool} {first last : State}
    {labels : List Label} (executed : execute step guard first labels = some last) :
    ∃ history, Run step first history last ∧ history.map Prod.snd = labels ∧
      Run.Guarded (fun state label => guard state label = true) history := by
  induction labels using List.reverseRecOn generalizing last with
  | nil =>
    cases executed
    exact ⟨[], .start, rfl, guarded_nil _⟩
  | append_singleton labels label ih =>
    rw [execute_append] at executed
    obtain ⟨middle, earlier, taken⟩ := Option.bind_eq_some_iff.mp executed
    obtain ⟨history, run, same, guarded⟩ := ih earlier
    simp only [execute] at taken
    split at taken
    next passes =>
      obtain ⟨after, moved, rfl⟩ : ∃ after, step middle label = some after ∧ after = last := by
        simpa [Option.bind_eq_some_iff] using taken
      exact ⟨history ++ [(middle, label)], run.next moved, by simp [same],
        (guarded_append _ _ _ _).mpr ⟨guarded, passes⟩⟩
    next => cases taken

theorem Run.of_check (step : State → Label → Option State) (guard : State → Label → Bool) (first : State)
    (labels : List Label) (check : State → Bool) (passed : (execute step guard first labels).any check = true) :
    ∃ history last, Run step first history last ∧ history.map Prod.snd = labels ∧
      Run.Guarded (fun state label => guard state label = true) history ∧ check last = true := by
  cases executed : execute step guard first labels with
  | none => simp [executed] at passed
  | some last =>
    obtain ⟨history, run, same, guarded⟩ := Run.of_execute executed
    exact ⟨history, last, run, same, guarded, by simpa [executed] using passed⟩

end ElseOS.Base
