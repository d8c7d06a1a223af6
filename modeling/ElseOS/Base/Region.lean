import Mathlib.Order.Basic

/-! Ranges of bytes over the natural numbers. -/

set_option autoImplicit false

namespace ElseOS.Base

structure Region where
  start : Nat
  len : Nat
  deriving DecidableEq, Repr

namespace Region

def stop (region : Region) : Nat := region.start + region.len

def Covers (region : Region) (byte : Nat) : Prop := region.start ≤ byte ∧ byte < region.stop

def Within (inner outer : Region) : Prop := outer.start ≤ inner.start ∧ inner.stop ≤ outer.stop

/-- No byte is in both; an empty range meets no other. -/
def Disjoint (first second : Region) : Prop := ∀ byte, first.Covers byte → ¬ second.Covers byte

instance (region : Region) (byte : Nat) : Decidable (region.Covers byte) := inferInstanceAs (Decidable (_ ∧ _))

instance (inner outer : Region) : Decidable (inner.Within outer) := inferInstanceAs (Decidable (_ ∧ _))

variable {first second inner outer : Region}

theorem Disjoint.symm (disjoint : first.Disjoint second) : second.Disjoint first :=
  fun byte covered also => disjoint byte also covered

theorem disjoint_of_le (before : first.stop ≤ second.start) : first.Disjoint second := by
  intro byte covered also
  have left := covered.2
  have right := also.1
  omega

theorem disjoint_of_empty (empty : second.len = 0) : first.Disjoint second := by
  intro byte _ covered
  unfold Covers stop at covered
  omega

theorem Within.covers (within : inner.Within outer) {byte : Nat} (covered : inner.Covers byte) : outer.Covers byte :=
  ⟨Nat.le_trans within.1 covered.1, Nat.lt_of_lt_of_le covered.2 within.2⟩

/-- What lies inside a range keeps clear of what the range keeps clear of. -/
theorem Disjoint.within (disjoint : outer.Disjoint second) (within : inner.Within outer) : inner.Disjoint second :=
  fun byte covered => disjoint byte (within.covers covered)

end Region

end ElseOS.Base
