import ElseOS.Base.Checked
import ElseOS.Base.Decimal
import ElseOS.Services.Keyboard
import ElseOS.Syscall.Handler

/-! The two printers of numbers in user space.

`sys_log_num` of the library fills a buffer of 32 bytes and handles zero apart. The terminal
service prints how long a key event was under way: it fills a buffer of 20 bytes, of which
its loop never reaches the first, and copies the digits behind a text. -/

set_option autoImplicit false

namespace ElseOS

open Base.Checked
open Base.Decimal

/-- What a printer has between two rounds: the rest of the number, the index and the buffer. -/
structure Digits where
  num : UInt64
  i : Nat
  buf : List UInt8

def sysLogNumRound (digits : Digits) : Option (List UInt8 ⊕ Digits) := do
  if 0 < digits.num then
    let i ← sub digits.i 1
    let buf ← store digits.buf i ((digits.num % 10).toUInt8 + 0x30)
    return .inr ⟨digits.num / 10, i, buf⟩
  else return .inl (← slice digits.buf digits.i digits.buf.length)

def sysLogNum (num : UInt64) (rounds : Nat) : Base.Checked.Outcome (List UInt8) :=
  if num = 0 then .finished [0x30]
  else run sysLogNumRound rounds ⟨num, 32, List.replicate 32 0⟩

namespace Terminal

def latencyPrefix : List UInt8 := [0x4C, 0x61, 0x74, 0x65, 0x6E, 0x63, 0x79, 0x3A, 0x20]

def latencyTemplate : List UInt8 := latencyPrefix ++ List.replicate 22 0

def copyDigits (buf : List UInt8) : (ks : List Nat) → (j : Nat) → (msgBuf : List UInt8) → Option (Nat × List UInt8)
  | [], j, msgBuf => some (j, msgBuf)
  | k :: ks, j, msgBuf => do
    let msgBuf ← store msgBuf j (← buf[k]?)
    copyDigits buf ks (← add j 1) msgBuf

def latencyMessage (i : Nat) (buf : List UInt8) : Option (List UInt8) := do
  let first ← add i 1
  let (j, msgBuf) ← copyDigits buf (List.range' first (20 - first)) 9 latencyTemplate
  slice msgBuf 0 j

def latencyRound (digits : Digits) : Option (List UInt8 ⊕ Digits) := do
  if 0 < digits.num ∧ 0 < digits.i then
    let buf ← store digits.buf digits.i (0x30 + (digits.num % 10).toUInt8)
    let i ← sub digits.i 1
    return .inr ⟨digits.num / 10, i, buf⟩
  else return .inl (← latencyMessage digits.i digits.buf)

def latencyText (diff : UInt64) (rounds : Nat) : Base.Checked.Outcome (List UInt8) :=
  if diff = 0 then .ofOption ((store (List.replicate 20 0x30) 19 0x30).bind (latencyMessage 19))
  else run latencyRound rounds ⟨diff, 19, List.replicate 20 0x30⟩

/-- What the loop of the service logs about a message that it received at the given time. -/
def logLatency (tscRecv : UInt64) (msg : Message) (rounds : Nat) : Option (Base.Checked.Outcome (List UInt8)) :=
  match KeyEvent.fromMessage msg with
  | some (event, tscSend) =>
    if event.pressed = 1 then some (latencyText (if tscSend ≤ tscRecv then tscRecv - tscSend else 0) rounds) else none
  | none => none

end Terminal

/-! ## The digits in a buffer -/

theorem toUInt8_mod_ten (num : UInt64) : 0x30 + (num % 10).toUInt8 = digit num.toNat := by
  have ten : (10 : UInt64).toNat = 10 := rfl
  have low : (num % 10).toUInt8 = UInt8.ofNat (num.toNat % 10) := by
    apply UInt8.toNat_inj.mp
    rw [UInt64.toNat_toUInt8, UInt64.toNat_mod, ten, UInt8.toNat_ofNat']
  rw [low, digit]

theorem positive_iff {num : UInt64} : 0 < num ↔ num.toNat ≠ 0 := by
  rw [UInt64.lt_iff_toNat_lt]
  exact Nat.pos_iff_ne_zero

structure Written (num : UInt64) (size start : Nat) (rest : UInt64) (buf : List UInt8) : Prop where
  length : buf.length = size
  inside : start ≤ size
  filled : Filled num.toNat rest.toNat buf start

variable {num rest : UInt64} {size start : Nat} {buf : List UInt8}

theorem written_empty (num : UInt64) (size : Nat) (fill : UInt8) :
    Written num size size num (List.replicate size fill) :=
  ⟨List.length_replicate, Nat.le_refl size, filled_empty _ (Nat.le_of_eq List.length_replicate)⟩

theorem Written.next (written : Written num size (start + 1) rest buf) (positive : 0 < rest) :
    Written num size start (rest / 10) (buf.set start (digit rest.toNat)) ∧ (rest / 10).toNat < rest.toNat := by
  have inside := written.inside
  have nonzero := positive_iff.mp positive
  have quotient : (rest / 10).toNat = rest.toNat / 10 := UInt64.toNat_div rest 10
  refine ⟨⟨?_, by omega, ?_⟩, by omega⟩
  · rw [List.length_set, written.length]
  · rw [quotient]
    apply written.filled.next nonzero
    rw [written.length]
    exact inside

/-- A number has twenty digits at most, and one of them is still ahead. -/
theorem Written.room (written : Written num size start rest buf) (positive : 0 < rest) : size < start + 20 := by
  have few := written.filled.length_le (show num.toNat < 10 ^ 20 from Nat.lt_trans num.toNat_lt (by decide))
  have one : 0 < (ahead rest.toNat).length := by
    rw [ahead_eq (positive_iff.mp positive), List.length_append]
    exact Nat.succ_pos _
  have whole := written.length
  omega

/-! ## The log of a number -/

theorem sysLogNumRound_written {digits : Digits} (written : Written num 32 digits.i digits.num digits.buf) :
    (∃ text, sysLogNumRound digits = some (.inl text) ∧ text = ahead num.toNat) ∨
      ∃ next, sysLogNumRound digits = some (.inr next) ∧ Written num 32 next.i next.num next.buf ∧
        next.num.toNat < digits.num.toNat := by
  obtain ⟨rest, i, buf⟩ := digits
  dsimp only at written
  have size := written.length
  have inside := written.inside
  unfold sysLogNumRound
  dsimp only
  by_cases positive : 0 < rest
  · have room := written.room positive
    obtain ⟨i, rfl⟩ : ∃ fewer, i = fewer + 1 := ⟨i - 1, by omega⟩
    rw [if_pos positive, sub_eq (show 1 ≤ i + 1 by omega), Nat.add_sub_cancel]
    simp only [Option.bind_eq_bind, Option.bind_some]
    rw [store_eq (by omega), UInt8.add_comm, toUInt8_mod_ten]
    exact Or.inr ⟨_, rfl, written.next positive⟩
  · have zero : rest.toNat = 0 := not_not.mp (mt positive_iff.mpr positive)
    have filled := written.filled
    rw [Filled, zero, ahead_zero, List.nil_append] at filled
    rw [if_neg positive, slice_eq (by omega) (Nat.le_refl _)]
    refine Or.inl ⟨_, rfl, ?_⟩
    rw [filled, List.extract_eq_take_drop, List.take_of_length_le (Nat.le_of_eq List.length_drop)]

theorem sysLogNum_finishes (num : UInt64) : Finishes (sysLogNum num) (decimal num.toNat) := by
  by_cases zero : num = 0
  · refine ⟨0, fun rounds _ => ?_⟩
    rw [sysLogNum, if_pos zero, zero]
    exact congrArg Base.Checked.Outcome.finished decimal_zero.symm
  · have nonzero : num.toNat ≠ 0 := fun none => zero (UInt64.toNat_inj.mp none)
    obtain ⟨text, same, ends⟩ := @run_finishes _ _ sysLogNumRound ⟨num, 32, List.replicate 32 0⟩
      (fun digits => Written num 32 digits.i digits.num digits.buf) (· = ahead num.toNat)
      (fun digits => digits.num.toNat) (fun _ => sysLogNumRound_written) (written_empty num 32 0)
    refine ⟨num.toNat, fun rounds enough => ?_⟩
    rw [sysLogNum, if_neg zero, ends rounds enough, same, ahead_of_ne_zero nonzero]

example : sysLogNum 1907 5 = .finished [0x31, 0x39, 0x30, 0x37] := by decide

/-! ## The latency -/

namespace Terminal

theorem copyDigits_eq {buf msgBuf : List UInt8} {first count j : Nat} (inside : first + count ≤ buf.length)
    (room : j + count ≤ msgBuf.length) (small : msgBuf.length < 2 ^ 64) :
    ∃ after, copyDigits buf (List.range' first count) j msgBuf = some (j + count, after) ∧
      after.length = msgBuf.length ∧ after.take (j + count) = msgBuf.take j ++ buf.extract first (first + count) := by
  induction count generalizing first j msgBuf with
  | zero =>
    refine ⟨msgBuf, rfl, rfl, ?_⟩
    simp
  | succ count ih =>
    have here : first < buf.length := by omega
    have place : j < (msgBuf.set j buf[first]).length := by
      rw [List.length_set]
      omega
    obtain ⟨after, copied, length, text⟩ := @ih (msgBuf.set j buf[first]) (first + 1) (j + 1) (by omega)
      (by rw [List.length_set]; omega) (by rwa [List.length_set])
    refine ⟨after, ?_, ?_, ?_⟩
    · rw [List.range'_succ, copyDigits, List.getElem?_eq_getElem here]
      simp only [Option.bind_eq_bind, Option.bind_some]
      rw [store_eq (by omega), Option.bind_some, add_eq (by omega), Option.bind_some, copied,
        Nat.add_right_comm j 1 count]
      rfl
    · rw [length, List.length_set]
    · rw [show j + (count + 1) = j + 1 + count by omega, text, List.take_succ_eq_append_getElem place,
        List.getElem_set_self, List.take_set_of_le (Nat.le_refl j), List.append_assoc, List.singleton_append,
        List.extract_eq_take_drop, List.extract_eq_take_drop, List.drop_eq_getElem_cons here,
        show first + (count + 1) - first = count + 1 by omega, List.take_succ_cons,
        show first + 1 + count - (first + 1) = count by omega]

theorem latencyMessage_eq {i : Nat} {buf : List UInt8} (size : buf.length = 20) (inside : i ≤ 19) :
    latencyMessage i buf = some (latencyPrefix ++ buf.drop (i + 1)) := by
  have template : latencyTemplate.length = 31 := rfl
  obtain ⟨after, copied, length, text⟩ :=
    @copyDigits_eq buf latencyTemplate (i + 1) (20 - (i + 1)) 9 (by omega) (by omega) (by omega)
  unfold latencyMessage
  rw [add_eq (by omega)]
  simp only [Option.bind_eq_bind, Option.bind_some]
  rw [copied, Option.bind_some]
  dsimp only
  rw [slice_eq (Nat.zero_le _) (by omega), List.extract_eq_take_drop, List.drop_zero, Nat.sub_zero, text,
    List.extract_eq_take_drop,
    List.take_of_length_le (show (buf.drop (i + 1)).length ≤ _ by rw [List.length_drop]; omega)]
  rfl

theorem digits_written {i : Nat} (written : Written num 20 (i + 1) rest buf) (ended : ¬ (0 < rest ∧ 0 < i)) :
    buf.drop (i + 1) = (ahead num.toNat).rtake 19 := by
  have inside := written.inside
  have filled := written.filled
  have length : (buf.drop (i + 1)).length = 19 - i := by
    rw [List.length_drop, written.length]
    omega
  rw [Filled] at filled
  rw [filled, List.rtake, List.length_append, length]
  by_cases first : i = 0
  · rw [first, Nat.sub_zero, Nat.add_sub_cancel, List.drop_left]
  · have zero : rest.toNat = 0 := by
      by_contra nonzero
      exact ended ⟨positive_iff.mpr nonzero, Nat.pos_of_ne_zero first⟩
    rw [zero, ahead_zero, List.length_nil, show 0 + (19 - i) - 19 = 0 by omega, List.nil_append, List.drop_zero]

theorem latencyRound_written {digits : Digits} (written : Written num 20 (digits.i + 1) digits.num digits.buf) :
    (∃ text, latencyRound digits = some (.inl text) ∧ text = latencyPrefix ++ (ahead num.toNat).rtake 19) ∨
      ∃ next, latencyRound digits = some (.inr next) ∧ Written num 20 (next.i + 1) next.num next.buf ∧
        next.num.toNat < digits.num.toNat := by
  have size := written.length
  have inside := written.inside
  by_cases goes : 0 < digits.num ∧ 0 < digits.i
  · obtain ⟨rest, i, buf⟩ := digits
    dsimp only at written size inside goes
    unfold latencyRound
    dsimp only
    rw [if_pos goes, store_eq (by omega), toUInt8_mod_ten, sub_eq goes.2]
    refine Or.inr ⟨_, rfl, ?_⟩
    dsimp only
    rw [Nat.sub_add_cancel goes.2]
    exact written.next goes.1
  · unfold latencyRound
    rw [if_neg goes, latencyMessage_eq size (by omega), digits_written written goes]
    exact Or.inl ⟨_, rfl, rfl⟩

theorem latencyText_finishes (diff : UInt64) :
    Finishes (latencyText diff) (latencyPrefix ++ (ahead diff.toNat).rtake 19) := by
  by_cases zero : diff = 0
  · refine ⟨0, fun rounds _ => ?_⟩
    rw [latencyText, if_pos zero, zero]
    rfl
  · obtain ⟨text, same, ends⟩ := @run_finishes _ _ latencyRound ⟨diff, 19, List.replicate 20 0x30⟩
      (fun digits => Written diff 20 (digits.i + 1) digits.num digits.buf)
      (· = latencyPrefix ++ (ahead diff.toNat).rtake 19) (fun digits => digits.num.toNat)
      (fun _ => latencyRound_written) (written_empty diff 20 0x30)
    refine ⟨diff.toNat, fun rounds enough => ?_⟩
    rw [latencyText, if_neg zero, ends rounds enough, same]

/-- Nineteen digits are all of them for the numbers from one on that have no more. -/
theorem rtake_ahead_iff (value : Nat) : (ahead value).rtake 19 = decimal value ↔ 0 < value ∧ value < 10 ^ 19 := by
  by_cases zero : value = 0
  · rw [zero, ahead_zero, decimal_zero]
    exact iff_of_false nofun fun both => absurd both.1 (Nat.lt_irrefl 0)
  · have short : (decimal value).rtake 19 = decimal value ↔ (decimal value).length ≤ 19 := by
      constructor
      · intro same
        have length := congrArg List.length same
        rw [List.rtake, List.length_drop] at length
        omega
      · intro short
        rw [List.rtake, Nat.sub_eq_zero_of_le short, List.drop_zero]
    rw [ahead_of_ne_zero zero, short, length_decimal_le_iff (by decide)]
    exact (and_iff_right (Nat.pos_of_ne_zero zero)).symm

end Terminal

/-- Both printers log a number as it is written in decimal exactly if it is not zero and has at
most nineteen digits. -/
theorem printers_right_iff (num : UInt64) :
    Finishes (sysLogNum num) (decimal num.toNat) ∧
        Finishes (Terminal.latencyText num) (Terminal.latencyPrefix ++ decimal num.toNat) ↔
      0 < num.toNat ∧ num.toNat < 10 ^ 19 := by
  have logged := Terminal.latencyText_finishes num
  rw [and_iff_right (sysLogNum_finishes num), ← Terminal.rtake_ahead_iff]
  constructor
  · intro right
    exact List.append_cancel_left (logged.unique right)
  · intro same
    rwa [same] at logged

/-- Zero is logged without a digit, and 10^19 without its first one. -/
theorem latency_misprinted :
    (∀ rounds, Terminal.latencyText 0 rounds = .finished Terminal.latencyPrefix) ∧
      ¬ Finishes (Terminal.latencyText 0) (Terminal.latencyPrefix ++ decimal 0) ∧
      Terminal.latencyText 10000000000000000000 20 = .finished (Terminal.latencyPrefix ++ List.replicate 19 0x30) ∧
      ¬ Finishes (Terminal.latencyText 10000000000000000000) (Terminal.latencyPrefix ++ decimal (10 ^ 19)) := by
  have empty : ∀ rounds, Terminal.latencyText 0 rounds = .finished Terminal.latencyPrefix := fun _ => rfl
  refine ⟨empty, ?_, by decide +kernel, ?_⟩
  · rintro ⟨bound, ends⟩
    have text := (empty (bound + 1)).symm.trans (ends (bound + 1) (Nat.lt_succ_self bound))
    injection text with text
    exact absurd (congrArg List.length text) (by decide)
  · intro right
    have text := (Terminal.latencyText_finishes 10000000000000000000).unique right
    exact absurd (congrArg List.length text) (by decide +kernel)

/-! ## Where the texts come from and go to -/

/-- The obligation of `from_utf8_unchecked`: what a printer logs is text, so that `SYS_LOG` takes it. -/
theorem sysLog_takes {paging : Paging} (m : Machine paging) {num ptr len : UInt64} {env : CallEnv} {text : List UInt8}
    (printed : Finishes (sysLogNum num) text ∨ Finishes (Terminal.latencyText num) text)
    (range : Machine.userRange ptr len.toNat) (read : env.text = some text) : m.sysLog ptr len env = (m, .done 0) := by
  have ascii : ∀ byte ∈ text, byte < 0x80 := by
    rcases printed with number | latency
    · rw [number.unique (sysLogNum_finishes num)]
      exact fun byte => ascii_of_mem_decimal
    · rw [latency.unique (Terminal.latencyText_finishes num)]
      intro byte member
      rcases List.mem_append.mp member with inPrefix | written
      · have plain : (Terminal.latencyPrefix.all fun byte => byte < 0x80) = true := by decide
        exact of_decide_eq_true (List.all_eq_true.mp plain byte inPrefix)
      · exact ascii_of_mem_ahead (List.mem_of_mem_drop written)
  rw [Machine.sysLog, if_pos range, read]
  dsimp only
  rw [if_pos (Base.Utf8.valid_of_ascii ascii)]

/-- A key event that the keyboard service sent is logged with the time that it was under way. -/
theorem Terminal.logLatency_sent {before : List Keyboard.Arrival} {arrival : Keyboard.Arrival} {msg : Message}
    (sent : Keyboard.sent before arrival = some msg) {tscRecv : UInt64} (later : arrival.tsc < tscRecv)
    (short : tscRecv.toNat - arrival.tsc.toNat < 10 ^ 19) :
    ∃ bound, ∀ rounds, bound < rounds → logLatency tscRecv msg rounds =
      some (.finished (latencyPrefix ++ decimal (tscRecv.toNat - arrival.tsc.toNat))) := by
  have order := UInt64.lt_iff_toNat_lt.mp later
  have difference : (tscRecv - arrival.tsc).toNat = tscRecv.toNat - arrival.tsc.toNat :=
    UInt64.toNat_sub_of_le _ _ (UInt64.le_of_lt later)
  have message := sent.symm.trans (Keyboard.step_sends arrival.stroke (Keyboard.types_of_sends sent))
  obtain ⟨bound, ends⟩ := latencyText_finishes (tscRecv - arrival.tsc)
  rw [difference, (rtake_ahead_iff _).mpr ⟨by omega, short⟩] at ends
  refine ⟨bound, fun rounds enough => ?_⟩
  obtain rfl := Option.some.inj message
  rw [logLatency, KeyEvent.fromMessage_toMessage]
  dsimp only
  rw [if_pos rfl, if_pos (UInt64.le_of_lt later), ends rounds enough]

end ElseOS
