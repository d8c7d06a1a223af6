import ElseOS.Base.Carousel
import ElseOS.Task.Lineage

/-! Timer ticks with nothing in between.

`pick_next` puts the current thread behind the run queue and takes the front, so the
current thread and the queue together are a ring, and a tick is a turn of it. -/

set_option autoImplicit false

namespace ElseOS

open Base

def SavedThreadState.toReturn : SavedThreadState → Kernel.SchedulerReturn
  | .cooperative sp => ⟨0, sp⟩
  | .preemptive sp => ⟨1, sp⟩

def Thread.interrupt (thread : Thread) (rsp : UInt64) : Thread := { thread with state := .preemptive rsp }

namespace Kernel

def order (k : Kernel) : List Thread := k.scheduler.current.toList ++ k.scheduler.runQueue

def afterTicks (k : Kernel) (rsps : List UInt64) : Kernel := rsps.foldl (fun k rsp => (k.timerTickHandler rsp).1) k

def returnAt (k : Kernel) (rsps : List UInt64) (i : Nat) : Option SchedulerReturn :=
  rsps[i]?.map fun rsp => ((k.afterTicks (rsps.take i)).timerTickHandler rsp).2

def descheduledAt (k : Kernel) (rsps : List UInt64) (i : Nat) : Option Thread :=
  (k.afterTicks (rsps.take i)).scheduler.current

def dispatchedAt (k : Kernel) (rsps : List UInt64) (i : Nat) : Option Thread :=
  (k.afterTicks (rsps.take (i + 1))).scheduler.current

variable {k : Kernel} {current : Thread}

/-! ## One tick -/

theorem timerTickHandler_turns (isCurrent : k.scheduler.current = some current) (rsp : UInt64) :
    let called := k.timerTickHandler rsp
    called.1.order = Carousel.turn Thread.interrupt k.order rsp ∧
    ∃ next, called.1.scheduler.current = some next ∧ called.2 = next.state.toReturn := by
  obtain ⟨next, rest, queued⟩ : ∃ next rest, k.scheduler.runQueue ++ [current.interrupt rsp] = next :: rest := by
    cases k.scheduler.runQueue with
    | nil => exact ⟨_, _, rfl⟩
    | cons head tail => exact ⟨_, _, rfl⟩
  have picked := pickNext_current isCurrent queued
  have turned : (k.makeCurrent next rest).order = Carousel.turn Thread.interrupt k.order rsp := by
    rw [order, order, isCurrent]
    exact queued.symm
  unfold timerTickHandler
  rw [picked]
  cases state : next.state with
  | cooperative sp => exact ⟨turned, next, rfl, by rw [state]; rfl⟩
  | preemptive sp => exact ⟨turned, next, rfl, by rw [state]; rfl⟩

/-! ## Many ticks -/

theorem afterTicks_turns (isCurrent : k.scheduler.current = some current) (rsps : List UInt64) :
    (k.afterTicks rsps).order = Carousel.turns Thread.interrupt k.order rsps ∧
    ∃ now, (k.afterTicks rsps).scheduler.current = some now := by
  induction rsps generalizing k current with
  | nil => exact ⟨rfl, current, isCurrent⟩
  | cons rsp rest ih =>
    obtain ⟨turned, next, isNext, _⟩ := timerTickHandler_turns isCurrent rsp
    obtain ⟨same, now⟩ := ih isNext
    rw [turned] at same
    exact ⟨same, now⟩

theorem current_eq_head {k : Kernel} {now : Thread} (isCurrent : k.scheduler.current = some now) :
    k.scheduler.current = k.order[0]? := by
  rw [order, isCurrent]
  rfl

/-- Who runs after any number of ticks, and with which saved state. -/
theorem current_afterTicks (isCurrent : k.scheduler.current = some current) (rsps : List UInt64) :
    (k.afterTicks rsps).scheduler.current = (k.order[rsps.length % k.order.length]?).map
      (Carousel.marked Thread.interrupt k.order.length rsps rsps.length) := by
  obtain ⟨turned, now, isNow⟩ := afterTicks_turns isCurrent rsps
  have nonempty : 0 < k.order.length := by
    rw [order, isCurrent]
    exact Nat.succ_pos _
  rw [current_eq_head isNow, turned, Carousel.getElem?_turns Thread.interrupt (fun _ _ _ => rfl) rsps nonempty,
    Nat.add_zero]

theorem afterTicks_take_succ {rsps : List UInt64} {i : Nat} {rsp : UInt64} (found : rsps[i]? = some rsp) :
    k.afterTicks (rsps.take (i + 1)) = ((k.afterTicks (rsps.take i)).timerTickHandler rsp).1 := by
  rw [List.take_add_one, found, afterTicks, List.foldl_append]
  rfl

/-- Round robin for the given ticks: places are counted in the order at the beginning. -/
structure RoundRobin (k : Kernel) (rsps : List UInt64) : Prop where
  /-- The order turns by one place a tick. -/
  rotated : (k.afterTicks rsps).order.map Thread.identity = (k.order.map Thread.identity).rotate rsps.length
  /-- As many ticks as there are threads dispatch every one of them once. -/
  once : ∀ start, start + k.order.length ≤ rsps.length →
    ((List.range k.order.length).map fun j => (k.dispatchedAt rsps (start + j)).map Thread.identity).Perm
      (k.order.map fun thread => some thread.identity)
  descheduled : ∀ i < rsps.length,
    (k.descheduledAt rsps i).map Thread.identity = (k.order[i % k.order.length]?).map Thread.identity
  dispatched : ∀ i < rsps.length,
    (k.dispatchedAt rsps i).map Thread.identity = (k.order[(i + 1) % k.order.length]?).map Thread.identity
  /-- A thread comes back with what the last tick that interrupted it saved. -/
  saved : ∀ i < rsps.length, ∀ last ≤ i, last % k.order.length = (i + 1) % k.order.length →
    (∀ later, last < later → later ≤ i → later % k.order.length ≠ (i + 1) % k.order.length) →
    k.returnAt rsps i = rsps[last]?.map fun rsp => (SavedThreadState.preemptive rsp).toReturn
  /-- A thread that no tick has interrupted yet comes with the state it had. -/
  untouched : ∀ i < rsps.length, (∀ earlier ≤ i, earlier % k.order.length ≠ (i + 1) % k.order.length) →
    k.returnAt rsps i = (k.order[(i + 1) % k.order.length]?).map fun thread => thread.state.toReturn

theorem identity_interrupt (thread : Thread) (rsp : UInt64) : (thread.interrupt rsp).identity = thread.identity := rfl

theorem identity_afterTicks (isCurrent : k.scheduler.current = some current) (rsps : List UInt64) :
    (k.afterTicks rsps).scheduler.current.map Thread.identity =
      (k.order[rsps.length % k.order.length]?).map Thread.identity := by
  rw [current_afterTicks isCurrent, Option.map_map]
  congr 1
  funext thread
  exact Carousel.view_marked Thread.interrupt identity_interrupt _ _ _ thread

theorem identity_dispatchedAt (isCurrent : k.scheduler.current = some current) {rsps : List UInt64} {i : Nat}
    (inside : i < rsps.length) :
    (k.dispatchedAt rsps i).map Thread.identity = (k.order[(i + 1) % k.order.length]?).map Thread.identity := by
  rw [dispatchedAt, identity_afterTicks isCurrent, List.length_take, Nat.min_eq_left inside]

theorem returnAt_eq (isCurrent : k.scheduler.current = some current) {rsps : List UInt64} {i : Nat}
    (inside : i < rsps.length) :
    k.returnAt rsps i = (k.order[(i + 1) % k.order.length]?).map fun thread =>
      (Carousel.marked Thread.interrupt k.order.length (rsps.take (i + 1)) (i + 1) thread).state.toReturn := by
  have found : rsps[i]? = some rsps[i] := List.getElem?_eq_getElem inside
  obtain ⟨_, now, isNow⟩ := afterTicks_turns isCurrent (rsps.take i)
  obtain ⟨_, next, isNext, returned⟩ := timerTickHandler_turns isNow rsps[i]
  have dispatched := current_afterTicks isCurrent (rsps.take (i + 1))
  rw [afterTicks_take_succ found, isNext, List.length_take, Nat.min_eq_left inside] at dispatched
  rw [returnAt, found, Option.map_some, returned]
  have same := congrArg (Option.map fun thread : Thread => thread.state.toReturn) dispatched
  rw [Option.map_some, Option.map_map] at same
  exact same

theorem round_back {n i last : Nat} (before : last ≤ i) (same : last % n = (i + 1) % n)
    (latest : ∀ later, last < later → later ≤ i → later % n ≠ (i + 1) % n) : i + 1 = last + n := by
  obtain ⟨rounds, distance⟩ : n ∣ i + 1 - last := (Nat.modEq_iff_dvd' (by omega)).mp same
  have positive : 0 < n := by
    rcases Nat.eq_zero_or_pos n with rfl | positive
    · omega
    · exact positive
  have some : rounds ≠ 0 := by
    rintro rfl
    omega
  have single : rounds = 1 := by
    by_contra several
    have far : n * 2 ≤ n * rounds := Nat.mul_le_mul_left n (by omega)
    apply latest (last + n) (by omega) (by omega)
    rw [Nat.add_mod_right, same]
  rw [single, Nat.mul_one] at distance
  omega

theorem round_robin (isCurrent : k.scheduler.current = some current) (rsps : List UInt64) : k.RoundRobin rsps where
  rotated := by
    rw [(afterTicks_turns isCurrent rsps).1]
    exact Carousel.map_turns Thread.interrupt identity_interrupt k.order rsps
  once := by
    intro start room
    -- any so many ticks in a row dispatch a rotation of the order
    have turned : ((List.range k.order.length).map fun j => (k.dispatchedAt rsps (start + j)).map Thread.identity) =
        (k.order.map fun thread => some thread.identity).rotate (start + 1) := by
      apply List.ext_getElem?
      intro j
      by_cases inside : j < k.order.length
      · have before : start + j < rsps.length := by omega
        have place : (start + j + 1) % k.order.length < k.order.length := Nat.mod_lt _ (by omega)
        rw [List.getElem?_rotate (by rwa [List.length_map]), List.length_map, List.getElem?_map, List.getElem?_map,
          List.getElem?_range inside, Option.map_some, identity_dispatchedAt isCurrent before, Nat.add_comm j,
          Nat.add_right_comm start 1 j, List.getElem?_eq_getElem place, Option.map_some, Option.map_some]
      · rw [List.getElem?_eq_none (by simpa using Nat.not_lt.mp inside),
          List.getElem?_eq_none (by simpa using Nat.not_lt.mp inside)]
    rw [turned]
    exact List.rotate_perm _ _
  descheduled := by
    intro i inside
    rw [descheduledAt, identity_afterTicks isCurrent, List.length_take, Nat.min_eq_left (Nat.le_of_lt inside)]
  dispatched := fun i inside => identity_dispatchedAt isCurrent inside
  saved := by
    intro i inside last before same latest
    -- the thread was interrupted one round before, so that its mark is the one that tick left
    have back := round_back before same latest
    have place : (i + 1) % k.order.length < k.order.length := Nat.mod_lt _ (by omega)
    have late : ¬ i + 1 < k.order.length := by omega
    have index : i + 1 - k.order.length = last := by omega
    have found : rsps[last]? = some rsps[last] := List.getElem?_eq_getElem (by omega)
    rw [returnAt_eq isCurrent inside, List.getElem?_eq_getElem place, Option.map_some, Carousel.marked,
      if_neg late, index, List.getElem?_take_of_lt (by omega), found]
    rfl
  untouched := by
    intro i inside never
    have early : i + 1 < k.order.length := by
      by_contra late
      have positive : 0 < k.order.length := by
        rw [order, isCurrent]
        exact Nat.succ_pos _
      apply never (i + 1 - k.order.length) (by omega)
      exact (Nat.mod_eq_sub_mod (by omega)).symm
    rw [returnAt_eq isCurrent inside]
    congr 1
    funext thread
    rw [Carousel.marked, if_pos early]

def samplePair : Kernel :=
  (new 0x1000).makeCurrent ⟨0, 1, .cooperative 0x11F00, 0x10000, some 0x2000, some 0, some 0⟩
    [⟨1, 2, .cooperative 0x21F00, 0x20000, some 0x3000, some 1, some 1⟩]

theorem round_robin_pair : (∃ current, samplePair.scheduler.current = some current) ∧
    samplePair.RoundRobin [0x11E00, 0x21D00, 0x11C00] ∧
    (List.range 3).map (samplePair.returnAt [0x11E00, 0x21D00, 0x11C00]) =
      [some ⟨0, 0x21F00⟩, some ⟨1, 0x11E00⟩, some ⟨1, 0x21D00⟩] :=
  ⟨⟨_, rfl⟩, round_robin rfl _, by decide +kernel⟩

end Kernel

end ElseOS
