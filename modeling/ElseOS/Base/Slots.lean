import Mathlib.Data.List.Basic

/-! Growable tables of optional entries addressed by position.

A table is read as a partial map from positions to values; positions past the end
hold nothing. Insertion takes the first empty position and grows the table only
when there is none.
-/

set_option autoImplicit false

namespace ElseOS.Base

variable {α : Type}

abbrev Slots (α : Type) := List (Option α)

namespace Slots

def get (slots : Slots α) (index : Nat) : Option α := slots[index]?.join

def insertFrom (index : Nat) (value : α) : Slots α → Slots α × Nat
  | [] => ([some value], index)
  | none :: rest => (some value :: rest, index)
  | some held :: rest =>
    let (grown, found) := insertFrom (index + 1) value rest
    (some held :: grown, found)

def insert (slots : Slots α) (value : α) : Slots α × Nat := insertFrom 0 value slots

def insertAt (slots : Slots α) (index : Nat) (value : α) : Slots α :=
  let grown := if slots.length ≤ index then
    slots ++ List.replicate (index + 1 - slots.length) none else slots
  grown.set index (some value)

def remove (slots : Slots α) (index : Nat) : Slots α × Option α :=
  match slots[index]? with
  | some held => (slots.set index none, held)
  | none => (slots, none)

def firstFree (slots : Slots α) : Nat := slots.findIdx Option.isNone

@[simp] theorem get_nil (index : Nat) : get ([] : Slots α) index = none := rfl

@[simp] theorem get_cons_zero (held : Option α) (rest : Slots α) : get (held :: rest) 0 = held := rfl

@[simp] theorem get_cons_succ (held : Option α) (rest : Slots α) (index : Nat) :
    get (held :: rest) (index + 1) = get rest index := rfl

theorem get_append_replicate_none (slots : Slots α) (count index : Nat) :
    get (slots ++ List.replicate count none) index = get slots index := by
  unfold get
  by_cases inside : index < slots.length
  · rw [List.getElem?_append_left inside]
  · have past : slots[index]? = none := List.getElem?_eq_none (by omega)
    rw [List.getElem?_append_right (by omega), past, List.getElem?_replicate]
    split
    · rfl
    · rfl

theorem get_insertAt (slots : Slots α) (index other : Nat) (value : α) :
    get (insertAt slots index value) other = if other = index then some value else get slots other := by
  have grown : ∀ table : Slots α, index < table.length →
      get (table.set index (some value)) other = if other = index then some value else get table other := by
    intro table inside
    unfold get
    by_cases same : other = index
    · subst same
      simp [inside]
    · rw [List.getElem?_set_ne (fun equal => same equal.symm), if_neg same]
  unfold insertAt
  by_cases short : slots.length ≤ index
  · rw [if_pos short, grown _ (by simp; omega), get_append_replicate_none]
  · rw [if_neg short, grown _ (by omega)]

theorem insertFrom_spec (index : Nat) (value : α) (slots : Slots α) :
    index ≤ (insertFrom index value slots).2 ∧
    get slots ((insertFrom index value slots).2 - index) = none ∧
    (∀ earlier, earlier < (insertFrom index value slots).2 - index → get slots earlier ≠ none) ∧
    ∀ other, get (insertFrom index value slots).1 other =
      if other = (insertFrom index value slots).2 - index then some value else get slots other := by
  induction slots generalizing index with
  | nil =>
    refine ⟨Nat.le_refl _, rfl, by simp [insertFrom], ?_⟩
    intro other
    cases other with
    | zero => simp [insertFrom]
    | succ other => simp [insertFrom]
  | cons held rest ih =>
    cases held with
    | none =>
      refine ⟨Nat.le_refl _, by simp [insertFrom], by simp [insertFrom], ?_⟩
      intro other
      cases other with
      | zero => simp [insertFrom]
      | succ other => simp [insertFrom]
    | some held =>
      obtain ⟨lower, empty, least, written⟩ := ih (index + 1)
      have shift : (insertFrom index value (some held :: rest)).2 - index =
          (insertFrom (index + 1) value rest).2 - (index + 1) + 1 := by
        simp only [insertFrom]
        omega
      refine ⟨by simp only [insertFrom]; omega, ?_, ?_, ?_⟩
      · rw [shift, get_cons_succ]
        exact empty
      · intro earlier below
        cases earlier with
        | zero => simp
        | succ earlier =>
          rw [get_cons_succ]
          exact least earlier (by omega)
      · intro other
        rw [shift]
        cases other with
        | zero => simp [insertFrom]
        | succ other =>
          simp only [insertFrom, get_cons_succ, written other, Nat.add_right_cancel_iff]

theorem insertFrom_index (index : Nat) (value : α) (slots : Slots α) :
    (insertFrom index value slots).2 = index + slots.firstFree := by
  induction slots generalizing index with
  | nil => rfl
  | cons held rest ih =>
    cases held with
    | none => simp [insertFrom, firstFree, List.findIdx_cons]
    | some held =>
      simp only [insertFrom, ih, firstFree, List.findIdx_cons, Option.isNone_some, cond_false]
      omega

theorem insert_index (slots : Slots α) (value : α) : (insert slots value).2 = slots.firstFree := by
  rw [insert, insertFrom_index, Nat.zero_add]

theorem get_insert (slots : Slots α) (value : α) (other : Nat) :
    get (insert slots value).1 other =
      if other = (insert slots value).2 then some value else get slots other := by
  exact (insertFrom_spec 0 value slots).2.2.2 other

theorem get_insert_fresh (slots : Slots α) (value : α) : get slots (insert slots value).2 = none := by
  exact (insertFrom_spec 0 value slots).2.1

theorem get_insert_cases {slots : Slots α} {value held : α} {other : Nat}
    (found : get (insert slots value).1 other = some held) :
    held = value ∨ get slots other = some held := by
  rw [get_insert] at found
  split at found
  · exact .inl (Option.some.inj found).symm
  · exact .inr found

theorem get_insertAt_cases {slots : Slots α} {value held : α} {index other : Nat}
    (found : get (insertAt slots index value) other = some held) :
    held = value ∨ get slots other = some held := by
  rw [get_insertAt] at found
  split at found
  · exact .inl (Option.some.inj found).symm
  · exact .inr found

/-- Every position before the one that an insertion takes was occupied. -/
theorem insert_least (slots : Slots α) (value : α) {earlier : Nat} (before : earlier < (insert slots value).2) :
    get slots earlier ≠ none := (insertFrom_spec 0 value slots).2.2.1 earlier before

theorem remove_eq (slots : Slots α) (index : Nat) : (remove slots index).2 = get slots index ∧
    ∀ other, get (remove slots index).1 other = if other = index then none else get slots other := by
  unfold remove get
  cases held : slots[index]? with
  | none =>
    refine ⟨rfl, fun other => ?_⟩
    by_cases same : other = index
    · rw [if_pos same, same]
      dsimp only
      rw [held]
      rfl
    · rw [if_neg same]
  | some entry =>
    refine ⟨rfl, fun other => ?_⟩
    by_cases same : other = index
    · obtain ⟨inside, _⟩ := List.getElem?_eq_some_iff.mp held
      rw [if_pos same, same]
      dsimp only
      rw [List.getElem?_set_self inside]
      rfl
    · rw [if_neg same]
      dsimp only
      rw [List.getElem?_set_ne fun equal => same equal.symm]

end Slots

end ElseOS.Base
