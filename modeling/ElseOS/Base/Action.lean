import Mathlib.Order.Defs.Unbundled

/-! Computations on a state that may stop for good on the way.

A stopped computation keeps the state it stopped in: what it did before is done. -/

set_option autoImplicit false

namespace ElseOS.Base

def Action (State Value : Type) : Type := State → State × Option Value

namespace Action

variable {State Value Result : Type}

instance : Monad (Action State) where
  pure value := fun state => (state, some value)
  bind action next := fun state =>
    match action state with
    | (after, some value) => next value after
    | (after, none) => (after, none)

def panic : Action State Value := fun state => (state, none)

/-- `expect` and `unwrap`: go on with the value, or stop. -/
def expect : Option Value → Action State Value
  | some value => pure value
  | none => panic

def modify (change : State → State) : Action State Unit := fun state => (change state, some ())

def require (condition : Bool) : Action State Unit := if condition then pure () else panic

def forRange (body : Nat → Action State Unit) : (count i : Nat) → Action State Unit
  | 0, _ => pure ()
  | count + 1, i => do
    body i
    forRange body count (i + 1)

@[simp] theorem expect_some_bind (value : Value) (next : Value → Action State Result) :
    (expect (some value) >>= next) = next value := rfl

@[simp] theorem expect_none_bind (next : Value → Action State Result) :
    (expect (none : Option Value) >>= next : Action State Result) = panic := rfl

theorem require_bind {condition : Bool} (met : condition = true) (next : Unit → Action State Result) :
    (require condition >>= next) = next () := by
  subst met
  rfl

theorem bind_some {action : Action State Value} {next : Value → Action State Result} {state middle : State}
    {value : Value} (first : action state = (middle, some value)) : (action >>= next) state = next value middle := by
  change (match action state with
    | (after, some value) => next value after
    | (after, none) => (after, none)) = _
  rw [first]

theorem bind_none {action : Action State Value} {next : Value → Action State Result} {state middle : State}
    (first : action state = (middle, none)) : (action >>= next) state = (middle, none) := by
  change (match action state with
    | (after, some value) => next value after
    | (after, none) => (after, none)) = _
  rw [first]

theorem bind_pure (action : Action State Value) : (action >>= pure) = action := by
  funext state
  rcases ran : action state with ⟨after, _ | value⟩
  · exact bind_none ran
  · exact bind_some ran

theorem bind_eq_some {action : Action State Value} {next : Value → Action State Result} {state after : State}
    {result : Result} (finished : (action >>= next) state = (after, some result)) :
    ∃ middle value, action state = (middle, some value) ∧ next value middle = (after, some result) := by
  rcases first : action state with ⟨middle, _ | value⟩
  · rw [bind_none first] at finished
    cases finished
  · rw [bind_some first] at finished
    exact ⟨middle, value, rfl, finished⟩

theorem require_eq_some {condition : Bool} {state after : State} {value : Unit}
    (finished : require condition state = (after, some value)) : condition = true ∧ after = state := by
  cases condition with
  | false => cases finished
  | true =>
    cases finished
    exact ⟨rfl, rfl⟩

/-- Wherever the computation ends or stops, the last state is related to the first. -/
def Keeps (relation : State → State → Prop) (action : Action State Value) : Prop :=
  ∀ state, relation state (action state).1

section Keeps

variable {relation : State → State → Prop} [Std.Refl relation]

theorem keeps_pure (value : Value) : Keeps relation (pure value : Action State Value) :=
  fun state => Std.Refl.refl state

theorem keeps_panic : Keeps relation (panic : Action State Value) := fun state => Std.Refl.refl state

theorem keeps_expect (value : Option Value) : Keeps relation (expect value : Action State Value) := by
  cases value with
  | none => exact keeps_panic
  | some value => exact keeps_pure value

theorem keeps_require (condition : Bool) : Keeps relation (require condition : Action State Unit) := by
  unfold require
  split
  · exact keeps_pure ()
  · exact keeps_panic

omit [Std.Refl relation] in
theorem Keeps.bind [IsTrans State relation] {action : Action State Value} {next : Value → Action State Result}
    (first : Keeps relation action) (rest : ∀ value, Keeps relation (next value)) :
    Keeps relation (action >>= next) := by
  intro state
  have start := first state
  rcases reached : action state with ⟨middle, _ | value⟩
  · rw [reached] at start
    rw [bind_none reached]
    exact start
  · rw [reached] at start
    rw [bind_some reached]
    exact IsTrans.trans _ _ _ start (rest value middle)

theorem forRange_congr {body other : Nat → Action State Unit} {count i : Nat}
    (same : ∀ j, i ≤ j → j < i + count → body j = other j) : forRange body count i = forRange other count i := by
  induction count generalizing i with
  | zero => rfl
  | succ count ih =>
    rw [forRange, forRange, same i (Nat.le_refl i) (by omega),
      ih fun j above below => same j (by omega) (by omega)]

theorem keeps_forRange [IsTrans State relation] {body : Nat → Action State Unit}
    (once : ∀ i, Keeps relation (body i)) (count i : Nat) : Keeps relation (forRange body count i) := by
  induction count generalizing i with
  | zero => exact keeps_pure ()
  | succ count ih => exact (once i).bind fun _ => ih (i + 1)

end Keeps

def Returns (action : Action State Value) (state : State) (post : Value → State → Prop) : Prop :=
  ∃ after value, action state = (after, some value) ∧ post value after

section Returns

variable {state : State} {post : Value → State → Prop}

theorem returns_pure {value : Value} (holds : post value state) : Returns (pure value) state post :=
  ⟨state, value, rfl, holds⟩

theorem returns_modify {change : State → State} {post : Unit → State → Prop} (holds : post () (change state)) :
    Returns (modify change) state post :=
  ⟨change state, (), rfl, holds⟩

theorem Returns.bind {action : Action State Value} {next : Value → Action State Result}
    {post : Result → State → Prop} {middle : Value → State → Prop} (first : Returns action state middle)
    (rest : ∀ value after, middle value after → Returns (next value) after post) :
    Returns (action >>= next) state post := by
  obtain ⟨after, value, ran, holds⟩ := first
  obtain ⟨last, result, continued, done⟩ := rest value after holds
  refine ⟨last, result, ?_, done⟩
  rw [bind_some ran]
  exact continued

theorem Returns.mono {action : Action State Value} {weaker : Value → State → Prop} (returns : Returns action state post)
    (weaken : ∀ value after, post value after → weaker value after) : Returns action state weaker := by
  obtain ⟨after, value, ran, holds⟩ := returns
  exact ⟨after, value, ran, weaken value after holds⟩

/-- A loop whose passes all go through goes through; the invariant counts the passes. -/
theorem returns_forRange {body : Nat → Action State Unit} (Inv : Nat → State → Prop) {last : Nat}
    (once : ∀ i state, i < last → Inv i state → Returns (body i) state fun _ => Inv (i + 1)) {count i : Nat}
    (ends : i + count = last) (holds : Inv i state) : Returns (forRange body count i) state fun _ => Inv last := by
  induction count generalizing i state with
  | zero =>
    subst ends
    exact returns_pure holds
  | succ count ih =>
    apply (once i state (by omega) holds).bind
    intro _ after next
    exact ih (by omega) next

end Returns

def Stops (action : Action State Value) : Prop := ∀ state, (action state).2 = none

theorem stops_expect {option : Option Value} (nothing : option = none) :
    Stops (expect option : Action State Value) := by
  subst nothing
  exact fun _ => rfl

theorem Stops.first {action : Action State Value} (stops : Stops action) (next : Value → Action State Result) :
    Stops (action >>= next) := by
  intro state
  have stopped := stops state
  rcases ran : action state with ⟨middle, _ | value⟩ <;> rw [ran] at stopped
  · rw [bind_none ran]
  · cases stopped

theorem Stops.rest {next : Value → Action State Result} (stops : ∀ value, Stops (next value))
    (action : Action State Value) :
    Stops (action >>= next) := by
  intro state
  rcases ran : action state with ⟨middle, _ | value⟩
  · rw [bind_none ran]
  · rw [bind_some ran]
    exact stops value middle

theorem stops_forRange {body : Nat → Action State Unit} {pass : Nat} (stops : Stops (body pass)) {count i : Nat}
    (begun : i ≤ pass) (inside : pass < i + count) : Stops (forRange body count i) := by
  induction count generalizing i with
  | zero => omega
  | succ count ih =>
    by_cases now : i = pass
    · subst now
      exact stops.first _
    · exact Stops.rest (fun _ => ih (by omega) (by omega)) (body i)

end Action

end ElseOS.Base
