import ElseOS.Base.Action

/-! Computations that go through together.

A computation is compared with a model of it that does less: it may fail where the model
does not, but only for a reason that has nothing to do with the state. And it is compared
with itself, run from two states. -/

set_option autoImplicit false

namespace ElseOS.Base.Action

variable {State Other Value Result Item : Type} {relation : State → Other → Prop} {condition further : Prop}

/-- From related states, the computation goes through exactly when the condition holds and the
model goes through; then both have the same value and end in related states. -/
def Mirrors (relation : State → Other → Prop) (condition : Prop) (action : Action State Value)
    (model : Action Other Value) : Prop :=
  ∀ state other, relation state other →
    (∀ after value, action state = (after, some value) →
      condition ∧ ∃ last, model other = (last, some value) ∧ relation after last) ∧
    (condition → ∀ last value, model other = (last, some value) →
      ∃ after, action state = (after, some value) ∧ relation after last)

theorem Mirrors.congr {action : Action State Value} {model : Action Other Value}
    (mirrors : Mirrors relation condition action model) (same : condition ↔ further) :
    Mirrors relation further action model := by
  rw [← same]
  exact mirrors

theorem mirrors_same {action : Action State Value} {model : Action Other Value}
    (agree : ∀ state other, relation state other →
      (action state).2 = (model other).2 ∧ relation (action state).1 (model other).1) :
    Mirrors relation True action model := by
  intro state other related
  obtain ⟨same, stillRelated⟩ := agree state other related
  constructor
  · intro after value finished
    rw [finished] at same stillRelated
    exact ⟨trivial, (model other).1, Prod.ext rfl same.symm, stillRelated⟩
  · intro _ last value finished
    rw [finished] at same stillRelated
    exact ⟨(action state).1, Prod.ext rfl same, stillRelated⟩

theorem mirrors_pure (value : Value) : Mirrors relation True (pure value) (pure value) :=
  mirrors_same fun _ _ related => ⟨rfl, related⟩

theorem mirrors_expect (option : Option Value) : Mirrors relation True (expect option) (expect option) := by
  apply mirrors_same
  intro state other related
  cases option with
  | none => exact ⟨rfl, related⟩
  | some value => exact ⟨rfl, related⟩

/-- A computation that never goes through mirrors anything. -/
theorem mirrors_stops {action : Action State Value} (stops : Stops action) (model : Action Other Value) :
    Mirrors relation False action model := by
  intro state other _
  constructor
  · intro after value finished
    have stopped := stops state
    rw [finished] at stopped
    cases stopped
  · exact False.elim

theorem stops_panic : Stops (panic : Action State Value) := fun _ => rfl

theorem Mirrors.bind {action : Action State Value} {model : Action Other Value} {next : Value → Action State Result}
    {modelNext : Value → Action Other Result} (first : Mirrors relation condition action model)
    (rest : ∀ value, Mirrors relation further (next value) (modelNext value)) :
    Mirrors relation (condition ∧ further) (action >>= next) (model >>= modelNext) := by
  intro state other related
  constructor
  · intro after result finished
    obtain ⟨middle, value, ran, continued⟩ := bind_eq_some finished
    obtain ⟨holds, modelMiddle, modelRan, stillRelated⟩ := (first state other related).1 middle value ran
    obtain ⟨also, last, modelContinued, lastRelated⟩ :=
      (rest value middle modelMiddle stillRelated).1 after result continued
    refine ⟨⟨holds, also⟩, last, ?_, lastRelated⟩
    rw [bind_some modelRan]
    exact modelContinued
  · rintro ⟨holds, also⟩ last result finished
    obtain ⟨modelMiddle, value, modelRan, modelContinued⟩ := bind_eq_some finished
    obtain ⟨middle, ran, stillRelated⟩ := (first state other related).2 holds modelMiddle value modelRan
    obtain ⟨after, continued, lastRelated⟩ :=
      (rest value middle modelMiddle stillRelated).2 also last result modelContinued
    refine ⟨after, ?_, lastRelated⟩
    rw [bind_some ran]
    exact continued

theorem Mirrors.follow {action : Action State Value} {model : Action Other Value}
    (mirrors : Mirrors relation condition action model) {state twin after last : State} {other : Other}
    {value result : Value}
    (related : relation state other) (twinRelated : relation twin other) (ran : action state = (after, some value))
    (twinRan : action twin = (last, some result)) :
    value = result ∧ ∃ final, relation after final ∧ relation last final := by
  obtain ⟨_, final, modelRan, stillRelated⟩ := (mirrors state other related).1 after value ran
  obtain ⟨_, again, modelAgain, alsoRelated⟩ := (mirrors twin other twinRelated).1 last result twinRan
  rw [modelRan] at modelAgain
  cases modelAgain
  exact ⟨rfl, final, stillRelated, alsoRelated⟩

theorem Mirrors.guarded {check : Bool} {next : Unit → Action State Value} {model : Action Other Value}
    (rest : Mirrors relation condition (next ()) model) :
    Mirrors relation (check = true ∧ condition) (require check >>= next) model := by
  cases check with
  | true =>
    have passed : (require true >>= next) = next () := rfl
    rw [passed]
    exact rest.congr (by simp)
  | false => exact (mirrors_stops (stops_panic.first next) model).congr (by simp)

theorem mirrors_modify {change : State → State}
    (keeps : ∀ state other, relation state other → relation (change state) other)
    {next : Unit → Action State Value} {model : Action Other Value}
    (rest : Mirrors relation condition (next ()) model) :
    Mirrors relation condition (modify change >>= next) model := by
  intro state other related
  exact rest (change state) other (keeps state other related)

/-! ## Loops over lists -/

def forEach (body : Item → Action State Unit) : List Item → Action State Unit
  | [] => pure ()
  | item :: rest => do
    body item
    forEach body rest

theorem bind_assoc {Third : Type} (action : Action State Value) (next : Value → Action State Result)
    (last : Result → Action State Third) :
    (action >>= next >>= last) = (action >>= fun value => next value >>= last) := by
  funext state
  rcases ran : action state with ⟨middle, _ | value⟩
  · rw [bind_none ran, bind_none (bind_none ran)]
  · rw [bind_some ran]
    rcases continued : next value middle with ⟨after, _ | result⟩
    · rw [bind_none continued, bind_none]
      rw [bind_some ran]
      exact continued
    · rw [bind_some continued, bind_some]
      rw [bind_some ran]
      exact continued

theorem forEach_append (body : Item → Action State Unit) (first second : List Item) :
    forEach body (first ++ second) = (forEach body first >>= fun _ => forEach body second) := by
  induction first with
  | nil => rfl
  | cons item rest ih =>
    rw [List.cons_append, forEach, forEach, ih, bind_assoc]

theorem mirrors_forEach {body : Item → Action State Unit} {each : Item → Action Other Unit} (condition : Item → Prop)
    (once : ∀ item, Mirrors relation (condition item) (body item) (each item)) (items : List Item) :
    Mirrors relation (∀ item ∈ items, condition item) (forEach body items) (forEach each items) := by
  induction items with
  | nil => exact (mirrors_pure ()).congr (by simp)
  | cons item rest ih => exact ((once item).bind fun _ => ih).congr (by simp)

/-- Each pass of a counted loop is a stretch of the list. -/
theorem mirrors_forRange {body : Nat → Action State Unit} {each : Item → Action Other Unit} {items : Nat → List Item}
    {condition : Nat → Prop} {count i : Nat}
    (once : ∀ j, i ≤ j → j < i + count → Mirrors relation (condition j) (body j) (forEach each (items j))) :
    Mirrors relation (∀ j, i ≤ j → j < i + count → condition j) (forRange body count i)
      (forEach each ((List.range' i count).flatMap items)) := by
  induction count generalizing i with
  | zero =>
    apply (mirrors_pure ()).congr
    simp only [true_iff]
    intro j above below
    omega
  | succ count ih =>
    have first := once i (Nat.le_refl i) (by omega)
    have rest := ih (i := i + 1) fun j above below => once j (by omega) (by omega)
    rw [List.range'_succ, List.flatMap_cons, forEach_append, forRange]
    apply (first.bind fun _ => rest).congr
    constructor
    · rintro ⟨holds, later⟩ j above below
      rcases Nat.eq_or_lt_of_le above with rfl | behind
      · exact holds
      · exact later j behind (by omega)
    · intro all
      exact ⟨all i (Nat.le_refl i) (by omega), fun j above below => all j (by omega) (by omega)⟩

/-! ## Two runs of one computation -/

section Couples

variable {twins : State → State → Prop}

/-- Where both runs go through they have the same value, and their states are still alike. -/
def Couples (twins : State → State → Prop) (action : Action State Value) : Prop :=
  ∀ state twin, twins state twin → ∀ after last value result, action state = (after, some value) →
    action twin = (last, some result) → value = result ∧ twins after last

theorem couples_pure (value : Value) : Couples twins (pure value) := by
  intro state twin alike after last _ _ finished twinFinished
  cases finished
  cases twinFinished
  exact ⟨rfl, alike⟩

theorem couples_expect (option : Option Value) : Couples twins (expect option) := by
  intro state twin alike after last _ _ finished twinFinished
  cases option with
  | none => cases finished
  | some value =>
    cases finished
    cases twinFinished
    exact ⟨rfl, alike⟩

theorem Couples.bind {action : Action State Value} {next : Value → Action State Result} (first : Couples twins action)
    (rest : ∀ value, Couples twins (next value)) : Couples twins (action >>= next) := by
  intro state twin alike after last value result finished twinFinished
  obtain ⟨middle, between, ran, continued⟩ := bind_eq_some finished
  obtain ⟨twinMiddle, _, twinRan, twinContinued⟩ := bind_eq_some twinFinished
  obtain ⟨rfl, stillAlike⟩ := first state twin alike middle twinMiddle between _ ran twinRan
  exact rest between middle twinMiddle stillAlike after last value result continued twinContinued

theorem couples_forRange {body : Nat → Action State Unit} (once : ∀ i, Couples twins (body i)) (count i : Nat) :
    Couples twins (forRange body count i) := by
  induction count generalizing i with
  | zero => exact couples_pure ()
  | succ count ih => exact (once i).bind fun _ => ih (i + 1)

end Couples

end ElseOS.Base.Action
