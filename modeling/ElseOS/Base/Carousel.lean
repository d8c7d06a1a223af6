import Mathlib.Data.List.Rotate

/-! A list whose head is marked and moved to the end, turn after turn.

A mark replaces the one before it, so an element is as it was at the beginning until its
place comes by, and from then on carries the mark of the last turn that took it. -/

set_option autoImplicit false

namespace ElseOS.Base.Carousel

variable {α β γ : Type} (mark : α → β → α)

def turn : List α → β → List α
  | [], _ => []
  | head :: rest, value => rest ++ [mark head value]

def turns (ring : List α) (values : List β) : List α := values.foldl (turn mark) ring

/-- What the element at place `m`, counted on around the ring of `n`, has become. -/
def marked (n : Nat) (values : List β) (m : Nat) (element : α) : α :=
  if m < n then element else (values[m - n]?).elim element (mark element)

theorem length_turn (ring : List α) (value : β) : (turn mark ring value).length = ring.length := by
  cases ring <;> simp [turn]

theorem turns_concat (ring : List α) (values : List β) (value : β) :
    turns mark ring (values ++ [value]) = turn mark (turns mark ring values) value := by
  simp [turns]

theorem length_turns (ring : List α) (values : List β) : (turns mark ring values).length = ring.length := by
  induction values generalizing ring with
  | nil => rfl
  | cons value rest ih =>
    rw [turns, List.foldl_cons, ← turns, ih, length_turn]

theorem getElem?_turn {ring : List α} (value : β) {j : Nat} (inside : j < ring.length) :
    (turn mark ring value)[j]? =
      if j + 1 < ring.length then ring[j + 1]? else ring.head?.map fun head => mark head value := by
  cases ring with
  | nil => cases inside
  | cons head rest =>
    rw [List.length_cons] at inside ⊢
    rw [turn]
    split
    next early => rw [List.getElem?_append_left (by omega), List.getElem?_cons_succ]
    next =>
      have last : j = rest.length := by omega
      rw [last, List.getElem?_append_right (Nat.le_refl _), Nat.sub_self]
      rfl

/-- The whole ring after any number of turns. -/
theorem getElem?_turns (override : ∀ element first second, mark (mark element first) second = mark element second)
    {ring : List α} (values : List β) {j : Nat} (inside : j < ring.length) :
    (turns mark ring values)[j]? =
      (ring[(values.length + j) % ring.length]?).map (marked mark ring.length values (values.length + j)) := by
  -- the last turn took the head and moved every other element one place forward
  induction values using List.reverseRecOn generalizing j with
  | nil =>
    rw [List.length_nil, Nat.zero_add, Nat.mod_eq_of_lt inside]
    rw [List.getElem?_eq_getElem inside, Option.map_some, marked, if_pos inside]
    exact List.getElem?_eq_getElem inside
  | append_singleton values value ih =>
    have here : j < (turns mark ring values).length := by rwa [length_turns]
    rw [turns_concat, getElem?_turn mark value here, length_turns, List.length_append, List.length_singleton]
    split
    next early =>
      have place : values.length + 1 + j = values.length + (j + 1) := by omega
      rw [ih early, place]
      congr 1
      funext element
      unfold marked
      split
      next => rfl
      next late => rw [List.getElem?_append_left (by omega)]
    next last =>
      have first : 0 < ring.length := by omega
      have place : values.length + 1 + j = values.length + ring.length := by omega
      rw [List.head?_eq_getElem?, ih first, Option.map_map, place, Nat.add_zero, Nat.add_mod_right]
      congr 1
      funext element
      have late : ¬ values.length + ring.length < ring.length := by omega
      rw [marked, if_neg late, Nat.add_sub_cancel_right, List.getElem?_concat_length, Function.comp_apply, marked]
      split
      next => rfl
      next =>
        cases values[values.length - ring.length]? with
        | none => rfl
        | some earlier => exact override element earlier value

variable {view : α → γ}

theorem view_marked (unseen : ∀ element value, view (mark element value) = view element) (n m : Nat) (values : List β)
    (element : α) : view (marked mark n values m element) = view element := by
  unfold marked
  split
  next => rfl
  next =>
    cases values[m - n]? with
    | none => rfl
    | some value => exact unseen element value

theorem map_turns (unseen : ∀ element value, view (mark element value) = view element) (ring : List α)
    (values : List β) : (turns mark ring values).map view = (ring.map view).rotate values.length := by
  induction values generalizing ring with
  | nil => rw [List.length_nil, List.rotate_zero]; rfl
  | cons value rest ih =>
    rw [turns, List.foldl_cons, ← turns, ih]
    cases ring with
    | nil => simp [turn]
    | cons head tail => simp [turn, unseen, List.rotate_cons_succ]

end ElseOS.Base.Carousel
