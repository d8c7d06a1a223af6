import Mathlib.Algebra.Group.Nat.Defs
import Mathlib.Data.List.Basic

/-! Computations that fail at an operation out of range, and loops of them.

An addition or a product fails where it does not fit in the machine word, a slice where it
ends before it starts or behind the data, a store where there is no such place. A round of a
loop fails, leaves the loop with a result, or goes on from a new state. -/

set_option autoImplicit false

namespace ElseOS.Base.Checked

def fits (value : Nat) : Option Nat := if value < 2 ^ 64 then some value else none

def add (first second : Nat) : Option Nat := fits (first + second)

def mul (first second : Nat) : Option Nat := fits (first * second)

def sub (first second : Nat) : Option Nat := if second ≤ first then some (first - second) else none

variable {α : Type}

def slice (data : List α) (first last : Nat) : Option (List α) :=
  if first ≤ last ∧ last ≤ data.length then some (data.extract first last) else none

def store (data : List α) (index : Nat) (value : α) : Option (List α) :=
  if index < data.length then some (data.set index value) else none

theorem add_eq {first second : Nat} (small : first + second < 2 ^ 64) : add first second = some (first + second) :=
  if_pos small

theorem mul_eq {first second : Nat} (small : first * second < 2 ^ 64) : mul first second = some (first * second) :=
  if_pos small

theorem sub_eq {first second : Nat} (enough : second ≤ first) : sub first second = some (first - second) :=
  if_pos enough

theorem slice_eq {data : List α} {first last : Nat} (order : first ≤ last) (inside : last ≤ data.length) :
    slice data first last = some (data.extract first last) :=
  if_pos ⟨order, inside⟩

theorem store_eq {data : List α} {index : Nat} (inside : index < data.length) (value : α) :
    store data index value = some (data.set index value) :=
  if_pos inside

/-! ## Loops -/

inductive Outcome (Result : Type) where
  | finished (result : Result)
  | failed
  | running
  deriving DecidableEq, Repr

variable {State Result : Type}

def Outcome.ofOption : Option Result → Outcome Result
  | some result => .finished result
  | none => .failed

def Finishes (computation : (rounds : Nat) → Outcome Result) (result : Result) : Prop :=
  ∃ bound, ∀ rounds, bound < rounds → computation rounds = .finished result

theorem Finishes.unique {computation : Nat → Outcome Result} {first second : Result}
    (once : Finishes computation first) (again : Finishes computation second) : first = second := by
  obtain ⟨bound, ends⟩ := once
  obtain ⟨other, alsoEnds⟩ := again
  have same := (ends (bound + other + 1) (by omega)).symm.trans (alsoEnds (bound + other + 1) (by omega))
  injection same

def run (round : State → Option (Result ⊕ State)) : (rounds : Nat) → State → Outcome Result
  | 0, _ => .running
  | rounds + 1, state =>
    match round state with
    | none => .failed
    | some (.inl result) => .finished result
    | some (.inr next) => run round rounds next

variable {round : State → Option (Result ⊕ State)} {state next : State}

theorem run_leaves {result : Result} (leaves : round state = some (.inl result)) (rounds : Nat) :
    run round (rounds + 1) state = .finished result := by rw [run, leaves]

theorem run_next (goes : round state = some (.inr next)) (rounds : Nat) :
    run round (rounds + 1) state = run round rounds next := by rw [run, goes]

/-- Total correctness of a loop: every round keeps the invariant and lowers the measure, or
leaves with what was asked for. -/
theorem run_finishes (Inv : State → Prop) (Post : Result → Prop) (measure : State → Nat)
    (step : ∀ state, Inv state → (∃ result, round state = some (.inl result) ∧ Post result) ∨
      ∃ next, round state = some (.inr next) ∧ Inv next ∧ measure next < measure state)
    (holds : Inv state) :
    ∃ result, Post result ∧ ∀ rounds, measure state < rounds → run round rounds state = .finished result := by
  -- strong induction on the measure
  obtain ⟨bound, below⟩ : ∃ bound, measure state < bound := ⟨measure state + 1, Nat.lt_succ_self _⟩
  induction bound generalizing state with
  | zero => exact absurd below (Nat.not_lt_zero _)
  | succ bound ih =>
    rcases step state holds with ⟨result, leaves, post⟩ | ⟨next, goes, kept, lower⟩
    · refine ⟨result, post, ?_⟩
      intro rounds enough
      obtain ⟨rounds, rfl⟩ : ∃ fewer, rounds = fewer + 1 := ⟨rounds - 1, by omega⟩
      exact run_leaves leaves rounds
    · obtain ⟨result, post, finishes⟩ := ih kept (by omega)
      refine ⟨result, post, ?_⟩
      intro rounds enough
      obtain ⟨rounds, rfl⟩ : ∃ fewer, rounds = fewer + 1 := ⟨rounds - 1, by omega⟩
      rw [run_next goes]
      exact finishes rounds (by omega)

theorem run_ne_failed (Inv : State → Prop)
    (step : ∀ state, Inv state → (∃ result, round state = some (.inl result)) ∨
      ∃ next, round state = some (.inr next) ∧ Inv next)
    (holds : Inv state) (rounds : Nat) : run round rounds state ≠ .failed := by
  induction rounds generalizing state with
  | zero => exact nofun
  | succ rounds ih =>
    rcases step state holds with ⟨result, leaves⟩ | ⟨next, goes, kept⟩
    · rw [run_leaves leaves]
      exact nofun
    · rw [run_next goes]
      exact ih kept

end ElseOS.Base.Checked
