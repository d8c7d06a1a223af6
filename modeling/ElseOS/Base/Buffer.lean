import Mathlib.Data.List.OfFn

/-! A buffer of fixed size, read and written in stretches.

A read past the end fails; a write past the end keeps what fits. -/

set_option autoImplicit false

namespace ElseOS.Base

def Buffer (size : Nat) (α : Type) := Fin size → α

namespace Buffer

variable {size : Nat} {α : Type}

def read (buffer : Buffer size α) (offset len : Nat) : Option (List α) :=
  if inside : offset + len ≤ size then
    some (List.ofFn fun i : Fin len =>
      buffer ⟨offset + i, Nat.lt_of_lt_of_le (Nat.add_lt_add_left i.isLt offset) inside⟩)
  else none

def write (buffer : Buffer size α) (offset : Nat) (values : List α) : Buffer size α := fun i =>
  if offset ≤ i then (values[i - offset]?).getD (buffer i) else buffer i

theorem length_of_read {buffer : Buffer size α} {offset len : Nat} {values : List α}
    (reads : buffer.read offset len = some values) : values.length = len := by
  unfold read at reads
  split at reads
  · obtain rfl := Option.some.inj reads
    exact List.length_ofFn
  · cases reads

theorem inside_of_read {buffer : Buffer size α} {offset len : Nat} {values : List α}
    (reads : buffer.read offset len = some values) : offset + len ≤ size := by
  unfold read at reads
  split at reads
  · assumption
  · cases reads

theorem read_part {buffer : Buffer size α} {offset len : Nat} {values : List α}
    (reads : buffer.read offset len = some values) (skip count : Nat) (inside : skip + count ≤ len) :
    buffer.read (offset + skip) count = some ((values.drop skip).take count) := by
  have whole := inside_of_read reads
  have length := length_of_read reads
  have bound : offset + skip + count ≤ size := by omega
  rw [read, dif_pos whole] at reads
  obtain rfl := Option.some.inj reads
  rw [read, dif_pos bound]
  congr 1
  apply List.ext_getElem
  · simp only [List.length_ofFn, List.length_take, List.length_drop]
    omega
  · intro i _ _
    simp [Nat.add_assoc]

theorem read_write_same (buffer : Buffer size α) {offset : Nat} {values : List α}
    (inside : offset + values.length ≤ size) :
    (buffer.write offset values).read offset values.length = some values := by
  unfold read write
  rw [dif_pos inside]
  congr 1
  apply List.ext_getElem (by simp)
  intro i _ _
  simp

@[simp] theorem write_nil (buffer : Buffer size α) (offset : Nat) : buffer.write offset [] = buffer := by
  funext i
  simp [write]

theorem write_append (buffer : Buffer size α) (offset : Nat) (values more : List α) :
    (buffer.write offset values).write (offset + values.length) more = buffer.write offset (values ++ more) := by
  funext i
  unfold write
  by_cases reached : offset ≤ i
  · by_cases further : offset + values.length ≤ i
    · have index : (i : Nat) - offset - values.length = i - (offset + values.length) := by omega
      rw [if_pos further, if_pos reached, if_pos reached, List.getElem?_append_right (by omega), index,
        List.getElem?_eq_none (show values.length ≤ i - offset by omega)]
      rfl
    · rw [if_neg further, if_pos reached, if_pos reached, List.getElem?_append_left (by omega)]
  · rw [if_neg (by omega), if_neg reached, if_neg reached]

theorem read_write_disjoint (buffer : Buffer size α) {offset other len : Nat} {values : List α}
    (apart : offset + values.length ≤ other ∨ other + len ≤ offset) :
    (buffer.write offset values).read other len = buffer.read other len := by
  unfold read write
  split
  · congr 2
    funext i
    have bound := i.isLt
    dsimp only
    split
    · have beyond : values.length ≤ other + i - offset := by omega
      simp [List.getElem?_eq_none beyond]
    · rfl
  · rfl

end Buffer

end ElseOS.Base
