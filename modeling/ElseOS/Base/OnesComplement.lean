import Mathlib.Algebra.BigOperators.Group.List.Basic
import Mathlib.Algebra.Ring.Nat

/-! Sums with an end-around carry.

Numbers up to `m` are added, and a carry out of the top is added back in at the bottom.
Zero has two representations, 0 and `m`; only a sum of nothing but zeros is 0. -/

set_option autoImplicit false

namespace ElseOS.Base.OnesComplement

variable {m : Nat}

def add (m a b : Nat) : Nat := if a + b ≤ m then a + b else a + b - m

def sum (m : Nat) (words : List Nat) : Nat := words.foldl (add m) 0

/-- The representative of a number that a sum ends in. -/
def residue (m total : Nat) : Nat := if total = 0 then 0 else (total - 1) % m + 1

theorem residue_zero (m : Nat) : residue m 0 = 0 := if_pos rfl

theorem residue_le (positive : 0 < m) (total : Nat) : residue m total ≤ m := by
  unfold residue
  split
  · omega
  · have := Nat.mod_lt (total - 1) positive
    omega

theorem add_residue (positive : 0 < m) (total : Nat) {word : Nat} (small : word ≤ m) :
    add m (residue m total) word = residue m (total + word) := by
  unfold residue add
  by_cases none : total = 0
  · subst none
    rw [if_pos rfl, Nat.zero_add, if_pos small]
    by_cases isZero : word = 0
    · rw [if_pos isZero, isZero]
    · rw [if_neg isZero, Nat.mod_eq_of_lt (by omega)]
      omega
  · have below := Nat.mod_lt (total - 1) positive
    have shift : total + word - 1 = (total - 1) + word := by omega
    have split : ((total - 1) + word) % m = ((total - 1) % m + word) % m := by rw [Nat.mod_add_mod]
    have some : ¬ total + word = 0 := by omega
    rw [if_neg none, if_neg some, shift, split]
    generalize (total - 1) % m = rest at below
    by_cases carries : rest + 1 + word ≤ m
    · rw [if_pos carries, Nat.mod_eq_of_lt (by omega)]
      omega
    · rw [if_neg carries, Nat.mod_eq_sub_mod (by omega), Nat.mod_eq_of_lt (by omega)]
      omega

/-- However the words are added, only their total counts. -/
theorem sum_eq_residue (positive : 0 < m) {words : List Nat} (small : ∀ word ∈ words, word ≤ m) :
    sum m words = residue m words.sum := by
  have folded (total : Nat) : words.foldl (add m) (residue m total) = residue m (total + words.sum) := by
    induction words generalizing total with
    | nil => rfl
    | cons word words ih =>
      rw [List.foldl_cons, add_residue positive total (small word List.mem_cons_self), List.sum_cons, ← Nat.add_assoc]
      exact ih (fun other member => small other (List.mem_cons_of_mem _ member)) _
  have whole := folded 0
  rw [residue_zero, Nat.zero_add] at whole
  exact whole

theorem residue_complement (positive : 0 < m) (total : Nat) : residue m (total + (m - residue m total)) = m := by
  have below := residue_le positive total
  unfold residue at *
  by_cases none : total = 0
  · subst none
    rw [if_pos rfl, Nat.zero_add, Nat.sub_zero, if_neg (by omega), Nat.mod_eq_of_lt (by omega)]
    omega
  · rw [if_neg none] at below ⊢
    have parts := Nat.div_add_mod (total - 1) m
    have shift : total + (m - ((total - 1) % m + 1)) - 1 = m * ((total - 1) / m) + (m - 1) := by omega
    rw [if_neg (by omega), shift, Nat.mul_add_mod, Nat.mod_eq_of_lt (by omega)]
    omega

end ElseOS.Base.OnesComplement
