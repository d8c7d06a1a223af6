import Mathlib.Data.UInt

/-! Well-formed UTF-8, byte by byte. -/

set_option autoImplicit false

namespace ElseOS.Base.Utf8

def continuation : UInt8 × UInt8 := (0x80, 0xBF)

/-- The ranges of the bytes that must follow a first byte. The second byte is restricted
where it could encode an overlong form, a surrogate or a value past the last code point. -/
def followers (first : UInt8) : Option (List (UInt8 × UInt8)) :=
  if first < 0x80 then some []
  else if first < 0xC2 then none
  else if first < 0xE0 then some [continuation]
  else if first = 0xE0 then some [(0xA0, 0xBF), continuation]
  else if first = 0xED then some [(0x80, 0x9F), continuation]
  else if first < 0xF0 then some [continuation, continuation]
  else if first = 0xF0 then some [(0x90, 0xBF), continuation, continuation]
  else if first < 0xF4 then some [continuation, continuation, continuation]
  else if first = 0xF4 then some [(0x80, 0x8F), continuation, continuation]
  else none

def validFrom : (expected : List (UInt8 × UInt8)) → List UInt8 → Bool
  | [], [] => true
  | _ :: _, [] => false
  | [], first :: rest =>
    match followers first with
    | some expected => validFrom expected rest
    | none => false
  | (low, high) :: expected, byte :: rest => low ≤ byte && byte ≤ high && validFrom expected rest

def valid (bytes : List UInt8) : Bool := validFrom [] bytes

theorem valid_of_ascii {bytes : List UInt8} (ascii : ∀ byte ∈ bytes, byte < 0x80) : valid bytes = true := by
  induction bytes with
  | nil => rfl
  | cons first rest ih =>
    have single : followers first = some [] := if_pos (ascii first List.mem_cons_self)
    rw [valid, validFrom, single]
    exact ih fun byte member => ascii byte (List.mem_cons_of_mem first member)

end ElseOS.Base.Utf8
