import Mathlib.Logic.Function.Basic
import Mathlib.Data.List.Count

/-! Tokens that move between places.

`occupants p` lists the tokens at place `p`. The tokens are located by `loc` when each
stands once at the place `loc` gives it and nowhere else. The rules below follow a
token through the moves a program makes: taken from one list and put on another,
poured from one list into another, added and removed.
-/

set_option autoImplicit false

namespace ElseOS.Base

variable {Token Place : Type} [DecidableEq Token] [DecidableEq Place]

def Located (occupants : Place → List Token) (loc : Token → Option Place) : Prop :=
  ∀ token place, (occupants place).count token = if loc token = some place then 1 else 0

namespace Located

variable {occupants : Place → List Token} {loc : Token → Option Place}

theorem mem_iff (located : Located occupants loc) {token : Token} {place : Place} :
    token ∈ occupants place ↔ loc token = some place := by
  rw [← List.count_pos_iff, located token place]
  split
  · simp [*]
  · simp [*]

theorem place_unique (located : Located occupants loc) {token : Token} {first second : Place}
    (left : token ∈ occupants first) (right : token ∈ occupants second) : first = second := by
  have same := (located.mem_iff.mp left).symm.trans (located.mem_iff.mp right)
  exact Option.some.inj same

theorem transfer (located : Located occupants loc) {token : Token} {source target : Place}
    {left entered : List Token} (different : source ≠ target)
    (leaves : (occupants source).Perm (token :: left)) (enters : entered.Perm (token :: occupants target)) :
    Located (Function.update (Function.update occupants source left) target entered)
      (Function.update loc token (some target)) := by
  intro other place
  have here : loc token = some source := located.mem_iff.mp (leaves.mem_iff.mpr (by simp))
  have fromSource := located other source
  have atTarget := located other target
  rw [leaves.count_eq, List.count_cons] at fromSource
  by_cases same : other = token
  · subst same
    rw [here] at fromSource atTarget
    by_cases isTarget : place = target
    · subst isTarget
      simp only [Function.update_self, enters.count_eq, List.count_cons, atTarget]
      simp [different]
    · by_cases isSource : place = source
      · subst isSource
        rw [Function.update_of_ne isTarget, Function.update_self, Function.update_self]
        simp only [beq_self_eq_true, if_true] at fromSource
        rw [if_neg (by simpa using fun equal => isTarget equal.symm)]
        omega
      · rw [Function.update_of_ne isTarget, Function.update_of_ne isSource, Function.update_self,
          located other place, here, if_neg (by simpa using fun equal => isSource equal.symm),
          if_neg (by simpa using fun equal => isTarget equal.symm)]
  · have noted : (token == other) = false := by simpa using fun equal => same equal.symm
    rw [Function.update_of_ne same]
    by_cases isTarget : place = target
    · subst isTarget
      rw [Function.update_self, enters.count_eq, List.count_cons, noted]
      simpa using atTarget
    · by_cases isSource : place = source
      · subst isSource
        rw [Function.update_of_ne isTarget, Function.update_self]
        simpa [noted] using fromSource
      · rw [Function.update_of_ne isTarget, Function.update_of_ne isSource]
        exact located other place

theorem remove (located : Located occupants loc) {token : Token} {source : Place} {left : List Token}
    (leaves : (occupants source).Perm (token :: left)) :
    Located (Function.update occupants source left) (Function.update loc token none) := by
  intro other place
  have here : loc token = some source := located.mem_iff.mp (leaves.mem_iff.mpr (by simp))
  have fromSource := located other source
  rw [leaves.count_eq, List.count_cons] at fromSource
  by_cases same : other = token
  · subst same
    rw [here] at fromSource
    rw [Function.update_self, if_neg (by simp)]
    by_cases isSource : place = source
    · subst isSource
      simp only [beq_self_eq_true, if_true] at fromSource
      rw [Function.update_self]
      omega
    · rw [Function.update_of_ne isSource, located other place, here,
        if_neg (by simpa using fun equal => isSource equal.symm)]
  · have noted : (token == other) = false := by simpa using fun equal => same equal.symm
    rw [Function.update_of_ne same]
    by_cases isSource : place = source
    · subst isSource
      rw [Function.update_self]
      simpa [noted] using fromSource
    · rw [Function.update_of_ne isSource]
      exact located other place

theorem insert (located : Located occupants loc) {token : Token} {target : Place} {entered : List Token}
    (fresh : loc token = none) (enters : entered.Perm (token :: occupants target)) :
    Located (Function.update occupants target entered) (Function.update loc token (some target)) := by
  intro other place
  have atTarget := located other target
  by_cases same : other = token
  · subst same
    rw [Function.update_self]
    by_cases isTarget : place = target
    · subst isTarget
      rw [Function.update_self, enters.count_eq, List.count_cons, atTarget]
      simp [fresh]
    · rw [Function.update_of_ne isTarget, located other place, fresh]
      simpa using fun equal => isTarget equal.symm
  · have noted : (token == other) = false := by simpa using fun equal => same equal.symm
    rw [Function.update_of_ne same]
    by_cases isTarget : place = target
    · subst isTarget
      rw [Function.update_self, enters.count_eq, List.count_cons, noted]
      simpa using atTarget
    · rw [Function.update_of_ne isTarget]
      exact located other place

theorem pour (located : Located occupants loc) {source target : Place} {entered : List Token}
    (different : source ≠ target) (enters : entered.Perm (occupants target ++ occupants source)) :
    Located (Function.update (Function.update occupants source []) target entered)
      (fun token => if loc token = some source then some target else loc token) := by
  intro token place
  have fromSource := located token source
  have atTarget := located token target
  by_cases isTarget : place = target
  · subst isTarget
    rw [Function.update_self, enters.count_eq, List.count_append, fromSource, atTarget]
    by_cases moved : loc token = some source
    · simp [moved, different]
    · simp [moved]
  · rw [Function.update_of_ne isTarget]
    by_cases isSource : place = source
    · subst isSource
      rw [Function.update_self, List.count_nil]
      by_cases moved : loc token = some place
      · simpa [moved] using fun equal => isTarget equal.symm
      · simp [moved]
    · rw [Function.update_of_ne isSource, located token place]
      by_cases moved : loc token = some source
      · have left : source ≠ place := fun equal => isSource equal.symm
        have entered : target ≠ place := fun equal => isTarget equal.symm
        simp [moved, left, entered]
      · simp [moved]

end Located

/-- Tokens move between places; none appears and none disappears. -/
def Shuffles (before after : Place → List Token) : Prop :=
  ∀ loc, Located before loc → ∃ moved, Located after moved ∧ ∀ token, moved token = none ↔ loc token = none

namespace Shuffles

variable {first second third : Place → List Token}

theorem refl (occupants : Place → List Token) : Shuffles occupants occupants :=
  fun loc located => ⟨loc, located, fun _ => Iff.rfl⟩

theorem trans (left : Shuffles first second) (right : Shuffles second third) : Shuffles first third := by
  intro loc located
  obtain ⟨middle, reached, same⟩ := left loc located
  obtain ⟨moved, ended, again⟩ := right middle reached
  exact ⟨moved, ended, fun token => (again token).trans (same token)⟩

theorem transfer (token : Token) {source target : Place} {left entered : List Token}
    (different : source ≠ target) (leaves : (first source).Perm (token :: left))
    (enters : entered.Perm (token :: first target)) :
    Shuffles first (Function.update (Function.update first source left) target entered) := by
  intro loc located
  refine ⟨_, located.transfer different leaves enters, ?_⟩
  intro other
  by_cases same : other = token
  · subst same
    have here : loc other = some source := located.mem_iff.mp (leaves.mem_iff.mpr (by simp))
    simp [here]
  · rw [Function.update_of_ne same]

theorem pour (first : Place → List Token) {source target : Place} {entered : List Token}
    (different : source ≠ target) (enters : entered.Perm (first target ++ first source)) :
    Shuffles first (Function.update (Function.update first source []) target entered) := by
  intro loc located
  refine ⟨_, located.pour different enters, ?_⟩
  intro token
  by_cases moved : loc token = some source
  · simp [moved]
  · simp [moved]

end Shuffles

end ElseOS.Base
