import Mathlib.Data.List.Induction
import ElseOS.Task.Thread

/-! The keyboard service.

It keeps one flag for the two shift keys. The physical side is a sequence of presses and
releases; which keys are held is read off that sequence and compared with what the
service sends. -/

set_option autoImplicit false

namespace ElseOS

def MSG_KEY_EVENT : UInt64 := 1

structure KeyEvent where
  key : UInt64
  pressed : UInt64
  modifiers : UInt64
  deriving DecidableEq, Repr

def KeyEvent.toMessage (event : KeyEvent) (rdtsc : UInt64) : Message :=
  ⟨MSG_KEY_EVENT, event.key, event.pressed, event.modifiers, rdtsc, 0⟩

def KeyEvent.fromMessage (msg : Message) : Option (KeyEvent × UInt64) :=
  if msg.rdi = MSG_KEY_EVENT then some (⟨msg.rsi, msg.rdx, msg.r10⟩, msg.r8) else none

theorem KeyEvent.fromMessage_toMessage (event : KeyEvent) (rdtsc : UInt64) :
    fromMessage (event.toMessage rdtsc) = some (event, rdtsc) := if_pos rfl

namespace Keyboard

def letters : List (UInt8 × Char × Char) :=
  [(0x10, 'Q', 'q'), (0x11, 'W', 'w'), (0x12, 'E', 'e'), (0x13, 'R', 'r'), (0x14, 'T', 't'), (0x15, 'Y', 'y'),
    (0x16, 'U', 'u'), (0x17, 'I', 'i'), (0x18, 'O', 'o'), (0x19, 'P', 'p'), (0x1E, 'A', 'a'), (0x1F, 'S', 's'),
    (0x20, 'D', 'd'), (0x21, 'F', 'f'), (0x22, 'G', 'g'), (0x23, 'H', 'h'), (0x24, 'J', 'j'), (0x25, 'K', 'k'),
    (0x26, 'L', 'l'), (0x2C, 'Z', 'z'), (0x2D, 'X', 'x'), (0x2E, 'C', 'c'), (0x2F, 'V', 'v'), (0x30, 'B', 'b'),
    (0x31, 'N', 'n'), (0x32, 'M', 'm')]

def ascii (char : Char) : UInt64 := UInt64.ofNat char.toNat

def keyOf (shiftPressed : Bool) (code : UInt8) : UInt64 :=
  match letters.lookup code with
  | some (upper, lower) => if shiftPressed then ascii upper else ascii lower
  | none =>
    if 0x02 ≤ code ∧ code ≤ 0x0A then (0x31 + code - 0x02).toUInt64
    else if code = 0x0B then ascii '0'
    else if code = 0x0E then 0x08
    else if code = 0x0F then ascii '\t'
    else if code = 0x1C then ascii '\n'
    else if code = 0x39 then ascii ' '
    else 0

/-- One round of the service's loop: the flag afterwards and what is sent. -/
def step (shiftPressed : Bool) (tsc : UInt64) (scancode : UInt8) : Bool × Option Message :=
  if scancode = 0xE0 then (shiftPressed, none)
  else
    let released := scancode &&& 0x80 ≠ 0
    let code := scancode &&& 0x7F
    if code = 0x2A ∨ code = 0x36 then (!released, none)
    else if released then (shiftPressed, none)
    else
      let key := keyOf shiftPressed code
      if key ≠ 0 then
        let event : KeyEvent := ⟨key, 1, if shiftPressed then 1 else 0⟩
        (shiftPressed, some (event.toMessage tsc))
      else (shiftPressed, none)

/-! ## The keys -/

structure Stroke where
  code : UInt8
  down : Bool
  plain : code < 0x80

def Stroke.scancode (stroke : Stroke) : UInt8 := if stroke.down then stroke.code else stroke.code ||| 0x80

def leftShift : UInt8 := 0x2A

def rightShift : UInt8 := 0x36

def Stroke.isShift (stroke : Stroke) : Bool := stroke.code == leftShift || stroke.code == rightShift

structure Arrival where
  tsc : UInt64
  stroke : Stroke

def shiftPressed (arrivals : List Arrival) : Bool :=
  arrivals.foldl (fun flag arrival => (step flag arrival.tsc arrival.stroke.scancode).1) false

def sent (before : List Arrival) (arrival : Arrival) : Option Message :=
  (step (shiftPressed before) arrival.tsc arrival.stroke.scancode).2

def held (code : UInt8) (arrivals : List Arrival) : Bool :=
  arrivals.foldl (fun down arrival => if arrival.stroke.code = code then arrival.stroke.down else down) false

def shiftHeld (arrivals : List Arrival) : Bool := held leftShift arrivals || held rightShift arrivals

def Reflects (arrivals : List Arrival) : Prop :=
  ∀ before arrival after, arrivals = before ++ arrival :: after →
    ∀ event tsc, (sent before arrival).bind KeyEvent.fromMessage = some (event, tsc) →
      event.modifiers = (if shiftHeld before then 1 else 0) ∧
      ∀ upper lower, letters.lookup arrival.stroke.code = some (upper, lower) →
        event.key = if shiftHeld before then ascii upper else ascii lower

def lastShift (arrivals : List Arrival) : Option Arrival :=
  (arrivals.filter fun arrival => arrival.stroke.isShift).getLast?

/-- The last stroke of a shift key was a release, with the other one still down. -/
def Overlap (arrivals : List Arrival) : Prop :=
  (∃ arrival, lastShift arrivals = some arrival ∧ arrival.stroke.down = false) ∧ shiftHeld arrivals = true

def Stroke.Types (stroke : Stroke) : Prop :=
  stroke.down = true ∧ stroke.isShift = false ∧ keyOf false stroke.code ≠ 0

/-! ## One round -/

variable {stroke : Stroke} {flag : Bool} {tsc : UInt64} {before : List Arrival} {arrival : Arrival}

theorem scancode_bits (stroke : Stroke) :
    stroke.scancode &&& 0x7F = stroke.code ∧ (stroke.scancode &&& 0x80 ≠ 0 ↔ stroke.down = false) := by
  have table : ∀ n < 128, (UInt8.ofNat n &&& 0x7F = UInt8.ofNat n ∧ UInt8.ofNat n &&& 0x80 = 0) ∧
      (UInt8.ofNat n ||| 0x80) &&& 0x7F = UInt8.ofNat n ∧ (UInt8.ofNat n ||| 0x80) &&& 0x80 ≠ 0 := by decide
  obtain ⟨code, down, plain⟩ := stroke
  have bits := table code.toNat (UInt8.lt_iff_toNat_lt.mp plain)
  rw [UInt8.ofNat_toNat] at bits
  obtain ⟨⟨make, clear⟩, broken, set⟩ := bits
  cases down with
  | false => exact ⟨broken, iff_of_true set rfl⟩
  | true => exact ⟨make, iff_of_false (not_not.mpr clear) nofun⟩

theorem scancode_extended (extended : stroke.scancode = 0xE0) : stroke.code = 0x60 ∧ stroke.down = false := by
  obtain ⟨code, released⟩ := scancode_bits stroke
  rw [extended] at code released
  exact ⟨code.symm, released.mp (by decide)⟩

theorem keyOf_ne_zero_iff (stroke : Stroke) : keyOf flag stroke.code ≠ 0 ↔ keyOf false stroke.code ≠ 0 := by
  have table : ∀ n < 128, keyOf true (UInt8.ofNat n) ≠ 0 ↔ keyOf false (UInt8.ofNat n) ≠ 0 := by decide +kernel
  have same := table stroke.code.toNat (UInt8.lt_iff_toNat_lt.mp stroke.plain)
  rw [UInt8.ofNat_toNat] at same
  cases flag with
  | false => exact Iff.rfl
  | true => exact same

theorem isShift_iff : stroke.isShift = true ↔ stroke.code = 0x2A ∨ stroke.code = 0x36 := by
  simp [Stroke.isShift, leftShift, rightShift]

theorem step_flag (flag : Bool) (tsc : UInt64) (stroke : Stroke) :
    (step flag tsc stroke.scancode).1 = if stroke.isShift then stroke.down else flag := by
  obtain ⟨code, released⟩ := scancode_bits stroke
  unfold step
  by_cases extended : stroke.scancode = 0xE0
  · have other : stroke.isShift = false := by
      rw [Stroke.isShift, (scancode_extended extended).1]
      rfl
    simp [extended, other]
  · dsimp only
    rw [if_neg extended, code]
    by_cases shift : stroke.isShift = true
    · rw [if_pos (isShift_iff.mp shift), if_pos shift]
      cases down : stroke.down with
      | false => simp [released.mpr down]
      | true =>
        rw [down] at released
        simpa using released
    · rw [if_neg (mt isShift_iff.mpr shift), if_neg shift]
      split_ifs <;> rfl

theorem step_sends (stroke : Stroke) (types : stroke.Types) :
    (step flag tsc stroke.scancode).2 =
      some (KeyEvent.toMessage ⟨keyOf flag stroke.code, 1, if flag then 1 else 0⟩ tsc) := by
  obtain ⟨code, released⟩ := scancode_bits stroke
  obtain ⟨down, other, key⟩ := types
  have plain : ¬ stroke.scancode = 0xE0 := by
    intro extended
    rw [(scancode_extended extended).2] at down
    cases down
  have pressed : ¬ (stroke.scancode &&& 0x80 ≠ 0) := by
    rw [released, down]
    exact nofun
  have notShift : ¬ (stroke.code = 0x2A ∨ stroke.code = 0x36) := by
    rw [← isShift_iff, other]
    exact nofun
  unfold step
  dsimp only
  rw [if_neg plain, code, if_neg notShift, if_neg pressed, if_pos ((keyOf_ne_zero_iff stroke).mpr key)]

theorem types_of_sends {msg : Message} (sends : (step flag tsc stroke.scancode).2 = some msg) : stroke.Types := by
  obtain ⟨code, released⟩ := scancode_bits stroke
  unfold step at sends
  dsimp only at sends
  rw [code] at sends
  -- of the ways through the round only the last one sends
  split at sends
  · cases sends
  split at sends
  · cases sends
  next shift =>
  split at sends
  · cases sends
  next up =>
  split at sends
  case isFalse => cases sends
  next key =>
  refine ⟨?_, ?_, (keyOf_ne_zero_iff stroke).mp key⟩
  · cases down : stroke.down with
    | false => exact absurd (released.mpr down) up
    | true => rfl
  · cases other : stroke.isShift with
    | false => rfl
    | true => exact absurd (isShift_iff.mp other) shift

/-! ## The flag and the keys -/

theorem shiftPressed_snoc :
    shiftPressed (before ++ [arrival]) = if arrival.stroke.isShift then arrival.stroke.down
    else shiftPressed before := by
  rw [shiftPressed, List.foldl_append, List.foldl_cons, List.foldl_nil, step_flag]
  rfl

theorem held_snoc (code : UInt8) :
    held code (before ++ [arrival]) = if arrival.stroke.code = code then arrival.stroke.down else held code before := by
  rw [held, List.foldl_append, List.foldl_cons, List.foldl_nil]
  rfl

theorem lastShift_snoc :
    lastShift (before ++ [arrival]) = if arrival.stroke.isShift then some arrival else lastShift before := by
  unfold lastShift
  rw [List.filter_append]
  by_cases shift : arrival.stroke.isShift = true
  · simp [shift]
  · simp [shift]

theorem untouched (none : lastShift before = none) : shiftPressed before = false ∧ shiftHeld before = false := by
  induction before using List.reverseRecOn with
  | nil => exact ⟨rfl, rfl⟩
  | append_singleton before arrival ih =>
    rw [lastShift_snoc] at none
    split at none
    · cases none
    next other =>
      obtain ⟨clear, neither⟩ := ih none
      rw [isShift_iff, not_or] at other
      unfold shiftHeld at neither ⊢
      rw [shiftPressed_snoc, held_snoc, held_snoc, if_neg (mt isShift_iff.mp (not_or.mpr other)),
        leftShift, rightShift, if_neg other.1, if_neg other.2]
      exact ⟨clear, neither⟩

/-- The last stroke of a shift key decides the flag, and whether that key is held. -/
theorem touched (last : lastShift before = some arrival) :
    shiftPressed before = arrival.stroke.down ∧ held arrival.stroke.code before = arrival.stroke.down ∧
      arrival.stroke.isShift = true := by
  induction before using List.reverseRecOn with
  | nil => cases last
  | append_singleton before latest ih =>
    rw [lastShift_snoc] at last
    split at last
    next shift =>
      obtain rfl := Option.some.inj last
      rw [shiftPressed_snoc, held_snoc, if_pos shift, if_pos rfl]
      exact ⟨rfl, rfl, shift⟩
    next other =>
      obtain ⟨flag, key, shift⟩ := ih last
      -- the latest stroke is not of a shift key, so not of that one either
      have different : latest.stroke.code ≠ arrival.stroke.code := by
        intro same
        rw [Stroke.isShift, same] at other
        exact other shift
      rw [shiftPressed_snoc, held_snoc, if_neg other, if_neg different]
      exact ⟨flag, key, shift⟩

theorem shiftPressed_eq (apart : ¬ Overlap before) : shiftPressed before = shiftHeld before := by
  cases last : lastShift before with
  | none =>
    obtain ⟨clear, neither⟩ := untouched last
    rw [clear, neither]
  | some arrival =>
    obtain ⟨flag, key, shift⟩ := touched last
    rw [flag]
    cases down : arrival.stroke.down with
    | false =>
      -- the other key may be held, but that would be an overlap
      symm
      rw [← Bool.not_eq_true]
      exact fun other => apart ⟨⟨arrival, last, down⟩, other⟩
    | true =>
      rw [down] at key
      unfold shiftHeld
      rcases isShift_iff.mp shift with left | right
      · rw [left] at key
        rw [leftShift, key, Bool.true_or]
      · rw [right] at key
        rw [rightShift, key, Bool.or_true]

theorem shiftPressed_of_overlap (overlap : Overlap before) : shiftPressed before = false := by
  obtain ⟨⟨arrival, last, up⟩, _⟩ := overlap
  rw [(touched last).1, up]

theorem keyOf_letter {code : UInt8} {upper lower : Char} (found : letters.lookup code = some (upper, lower)) :
    keyOf flag code = if flag then ascii upper else ascii lower := by
  rw [keyOf, found]

/-- The modifier is right for a sequence of strokes exactly if no key is typed in an overlap. -/
theorem shift_reflected_iff (arrivals : List Arrival) :
    Reflects arrivals ↔
      ∀ before arrival after, arrivals = before ++ arrival :: after → arrival.stroke.Types → ¬ Overlap before := by
  constructor
  · intro reflects before arrival after split types overlap
    have sends := @step_sends (shiftPressed before) arrival.tsc arrival.stroke types
    obtain ⟨modifiers, _⟩ := reflects before arrival after split _ _
      ((congrArg (Option.bind · KeyEvent.fromMessage) sends).trans (KeyEvent.fromMessage_toMessage _ _))
    rw [shiftPressed_of_overlap overlap, overlap.2] at modifiers
    cases modifiers
  · intro apart before arrival after split event tsc received
    cases sends : sent before arrival with
    | none =>
      rw [sends] at received
      cases received
    | some msg =>
      have types := types_of_sends sends
      have flag := shiftPressed_eq (apart before arrival after split types)
      have message := sends.symm.trans (step_sends arrival.stroke types)
      rw [sends, message, Option.bind_some, KeyEvent.fromMessage_toMessage, flag] at received
      obtain ⟨rfl, _⟩ := Prod.mk.inj (Option.some.inj received)
      exact ⟨rfl, fun upper lower found => keyOf_letter found⟩

/-- Both shift keys go down, the left one comes up again, and an A is typed. -/
def overlapping : List Arrival :=
  [⟨1, ⟨leftShift, true, by decide⟩⟩, ⟨2, ⟨rightShift, true, by decide⟩⟩, ⟨3, ⟨leftShift, false, by decide⟩⟩]

theorem shift_lost :
    shiftHeld overlapping = true ∧
      (sent overlapping ⟨4, ⟨0x1E, true, by decide⟩⟩).bind KeyEvent.fromMessage = some (⟨ascii 'a', 1, 0⟩, 4) ∧
      ¬ Reflects (overlapping ++ [⟨4, ⟨0x1E, true, by decide⟩⟩]) := by
  have typed : (sent overlapping ⟨4, ⟨0x1E, true, by decide⟩⟩).bind KeyEvent.fromMessage =
    some (⟨ascii 'a', 1, 0⟩, 4) := by
    decide
  refine ⟨by decide, typed, ?_⟩
  intro reflects
  exact absurd (reflects overlapping _ [] rfl _ _ typed).1 (by decide)

end Keyboard

end ElseOS
