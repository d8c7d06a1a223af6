import ElseOS.Base.Checked
import ElseOS.Fs.Tar

/-! The search in an archive of any bytes.

`find_file` again, with every access and every operation on a `usize` checked: it fails
where the source would index past a slice or overflow. The result is the place of the
file in the archive. No archive makes it fail, and it finds what `TarArchive.findFile`
finds. -/

set_option autoImplicit false

namespace ElseOS.Fs.TarArchive

open Base.Checked

def nameLenChecked (header : List UInt8) : (left nameLen : Nat) → Option Nat
  | 0, nameLen => some nameLen
  | left + 1, nameLen => do
    let byte ← header[nameLen]?
    if byte = 0 then return nameLen
    nameLenChecked header left (← add nameLen 1)

def parseSizeChecked (size : Nat) : List UInt8 → Option Nat
  | [] => some size
  | byte :: rest =>
    if 0x30 ≤ byte ∧ byte ≤ 0x37 then do
      let digit ← sub byte.toNat 0x30
      parseSizeChecked (← add (← mul size 8) digit) rest
    else if byte = 0 ∨ byte = 0x20 then some size
    else parseSizeChecked size rest

/-- One round of the loop of `find_file`: the start and end of the file, nothing, or the
offset of the next header. -/
def findRound (data name : List UInt8) (offset : Nat) : Option (Option (Nat × Nat) ⊕ Nat) := do
  let headerEnd ← add offset 512
  if data.length < headerEnd then return .inl none
  let header ← slice data offset headerEnd
  -- an empty block ends the archive
  if (← header[0]?) = 0 then return .inl none
  let nameLen ← nameLenChecked header 100 0
  let nameBytes ← slice header 0 nameLen
  let fileName := if Base.Utf8.valid nameBytes then nameBytes else []
  let size ← parseSizeChecked 0 (← slice header 124 136)
  if isFile (← header[156]?) ∧ fileName = name then
    let dataStart ← add offset 512
    let dataEnd ← add dataStart size
    if dataEnd ≤ data.length then
      let _ ← slice data dataStart dataEnd
      return .inl (some (dataStart, dataEnd))
    else return .inl none
  else
    let blocks := (← add size 511) / 512
    return .inr (← add offset (← add 512 (← mul blocks 512)))

def findChecked (archive : TarArchive) (name : List UInt8) (rounds : Nat) : Outcome (Option (Nat × Nat)) :=
  run (findRound archive.data name) rounds 0

/-! ## The fields of a header -/

theorem nameLenChecked_eq {header : List UInt8} {left nameLen : Nat} (inside : nameLen + left ≤ header.length)
    (small : nameLen + left < 2 ^ 64) :
    nameLenChecked header left nameLen = some (nameLen + TarArchive.nameLen ((header.drop nameLen).take left)) := by
  induction left generalizing nameLen with
  | zero => rw [nameLenChecked, List.take_zero, TarArchive.nameLen, Nat.add_zero]
  | succ left ih =>
    have below : nameLen < header.length := by omega
    have rest := @ih (nameLen + 1) (by omega) (by omega)
    rw [nameLenChecked, List.drop_eq_getElem_cons below, List.take_succ_cons, TarArchive.nameLen,
      List.getElem?_eq_getElem below]
    simp only [Option.bind_eq_bind, Option.bind_some]
    by_cases zero : header[nameLen] = 0
    · simp [zero]
    · rw [if_neg zero, if_neg zero, add_eq (by omega)]
      simp only [Option.bind_some]
      rw [rest]
      congr 1
      omega

theorem nameLen_le (bytes : List UInt8) : nameLen bytes ≤ bytes.length := by
  induction bytes with
  | nil => exact Nat.le_refl 0
  | cons byte rest ih =>
    rw [nameLen, List.length_cons]
    split <;> omega

theorem digit_lt {byte : UInt8} (digit : 0x30 ≤ byte ∧ byte ≤ 0x37) : (byte - 0x30).toNat < 8 ∧
    byte.toNat - 0x30 = (byte - 0x30).toNat ∧ 0x30 ≤ byte.toNat := by
  have low : 48 ≤ byte.toNat := UInt8.le_iff_toNat_le.mp digit.1
  have high : byte.toNat ≤ 55 := UInt8.le_iff_toNat_le.mp digit.2
  have difference : (byte - 0x30).toNat = byte.toNat - 48 := UInt8.toNat_sub_of_le byte 0x30 digit.1
  omega

theorem parseSize_lt (size : Nat) (bytes : List UInt8) : parseSize size bytes < (size + 1) * 8 ^ bytes.length := by
  induction bytes generalizing size with
  | nil => simp [parseSize]
  | cons byte rest ih =>
    have positive : 0 < 8 ^ rest.length := Nat.pow_pos (by decide)
    have wider : (size + 1) * 8 ^ rest.length ≤ (size + 1) * 8 ^ (rest.length + 1) :=
      Nat.mul_le_mul_left _ (Nat.pow_le_pow_right (by decide) (Nat.le_succ _))
    rw [parseSize, List.length_cons]
    split
    next digit =>
      have small := (digit_lt digit).1
      calc parseSize (size * 8 + (byte - 0x30).toNat) rest
          < (size * 8 + (byte - 0x30).toNat + 1) * 8 ^ rest.length := ih _
        _ ≤ ((size + 1) * 8) * 8 ^ rest.length := Nat.mul_le_mul_right _ (by omega)
        _ = (size + 1) * 8 ^ (rest.length + 1) := by rw [Nat.pow_succ, Nat.mul_assoc, Nat.mul_comm 8]
    next =>
      split
      · have one : size + 1 ≤ (size + 1) * 8 ^ (rest.length + 1) :=
          Nat.le_mul_of_pos_right _ (Nat.pow_pos (by decide))
        omega
      · exact Nat.lt_of_lt_of_le (ih size) wider

theorem parseSizeChecked_eq {size : Nat} {bytes : List UInt8} (small : (size + 1) * 8 ^ bytes.length < 2 ^ 64) :
    parseSizeChecked size bytes = some (parseSize size bytes) := by
  induction bytes generalizing size with
  | nil => rfl
  | cons byte rest ih =>
    have positive : 0 < 8 ^ rest.length := Nat.pow_pos (by decide)
    rw [List.length_cons, Nat.pow_succ, Nat.mul_comm _ 8, ← Nat.mul_assoc] at small
    have step : (size + 1) * 8 ≤ (size + 1) * 8 * 8 ^ rest.length := Nat.le_mul_of_pos_right _ positive
    rw [parseSizeChecked, parseSize]
    split
    next digit =>
      obtain ⟨below, same, enough⟩ := digit_lt digit
      have bound : (size * 8 + (byte - 0x30).toNat + 1) * 8 ^ rest.length ≤ (size + 1) * 8 * 8 ^ rest.length :=
        Nat.mul_le_mul_right _ (by omega)
      rw [sub_eq enough, same, mul_eq (by omega)]
      simp only [Option.bind_eq_bind, Option.bind_some]
      rw [add_eq (by omega), Option.bind_some]
      exact ih (by omega)
    next =>
      split
      · rfl
      · have bound : (size + 1) * 8 ^ rest.length ≤ (size + 1) * 8 * 8 ^ rest.length :=
          Nat.mul_le_mul_right _ (by omega)
        exact ih (by omega)

/-! ## The search -/

def nameField (header : List UInt8) : List UInt8 := header.take (nameLen (header.take 100))

def decode (bytes : List UInt8) : Option (List UInt8) := if Base.Utf8.valid bytes then some bytes else none

theorem fileName_eq (header : List UInt8) : fileName header = (decode (nameField header)).getD [] := by
  unfold fileName decode nameField
  dsimp only
  split <;> rfl

variable {data name : List UInt8} {offset : Nat}

theorem getElem?_header {header : List UInt8} (length : header.length = 512) {i : Nat} (below : i < 512) :
    header[i]? = some (header.getD i 0) := by
  rw [List.getD_eq_getElem?_getD, List.getElem?_eq_getElem (by omega), Option.getD_some]

theorem nameField_checked {header : List UInt8} (length : header.length = 512) :
    nameLenChecked header 100 0 = some (nameLen (header.take 100)) ∧
      slice header 0 (nameLen (header.take 100)) = some (nameField header) := by
  have inside := nameLen_le (header.take 100)
  rw [List.length_take] at inside
  constructor
  · rw [nameLenChecked_eq (by omega) (by omega), List.drop_zero, Nat.zero_add]
  · rw [slice_eq (Nat.zero_le _) (by omega), List.extract_eq_take_drop, List.drop_zero, Nat.sub_zero, nameField]

theorem sizeField_lt (header : List UInt8) : parseSize 0 (header.extract 124 136) < 2 ^ 36 := by
  have field : (header.extract 124 136).length ≤ 12 := by
    rw [List.extract_eq_take_drop, List.length_take]
    omega
  calc parseSize 0 (header.extract 124 136)
      < (0 + 1) * 8 ^ (header.extract 124 136).length := parseSize_lt 0 _
    _ ≤ (0 + 1) * 8 ^ 12 := Nat.mul_le_mul_left _ (Nat.pow_le_pow_right (by decide) field)
    _ = 2 ^ 36 := by decide

theorem sizeField_checked {header : List UInt8} (length : header.length = 512) :
    slice header 124 136 = some (header.extract 124 136) ∧
      parseSizeChecked 0 (header.extract 124 136) = some (parseSize 0 (header.extract 124 136)) := by
  have field : (header.extract 124 136).length = 12 := by
    rw [List.extract_eq_take_drop, List.length_take, List.length_drop]
    omega
  refine ⟨slice_eq (by decide) (by omega), parseSizeChecked_eq ?_⟩
  rw [field]
  decide

theorem findRound_eq (short : data.length < 2 ^ 63) (near : offset ≤ data.length + 2 ^ 37) :
    findRound data name offset =
      if offset + 512 ≤ data.length then
        let header := data.extract offset (offset + 512)
        let size := parseSize 0 (header.extract 124 136)
        if header.getD 0 0 = 0 then some (.inl none)
        else if isFile (header.getD 156 0) ∧ fileName header = name then
          if offset + 512 + size ≤ data.length then some (.inl (some (offset + 512, offset + 512 + size)))
          else some (.inl none)
        else some (.inr (offset + (512 + (size + 511) / 512 * 512)))
      else some (.inl none) := by
  unfold findRound
  rw [add_eq (by omega)]
  simp only [Option.bind_eq_bind, Option.bind_some]
  by_cases inside : offset + 512 ≤ data.length
  · rw [if_neg (by omega), if_pos inside, slice_eq (by omega) inside]
    simp only [Option.bind_some]
    generalize header_eq : data.extract offset (offset + 512) = header
    have length : header.length = 512 := by
      rw [← header_eq, List.extract_eq_take_drop, List.length_take, List.length_drop]
      omega
    -- what is read of the header is there, so that only the sums are left
    obtain ⟨nameLen_eq, name_eq⟩ := nameField_checked length
    obtain ⟨field_eq, size_eq⟩ := sizeField_checked length
    have size_lt := sizeField_lt header
    generalize parseSize 0 (header.extract 124 136) = size at size_lt size_eq
    rw [getElem?_header length (by decide), getElem?_header length (by decide), nameLen_eq]
    simp only [Option.bind_some]
    rw [name_eq, field_eq]
    simp only [Option.bind_some]
    rw [size_eq]
    simp only [Option.bind_some]
    have sameName : (if Base.Utf8.valid (nameField header) = true then nameField header else []) = fileName header :=
      rfl
    rw [sameName]
    by_cases empty : header.getD 0 0 = 0
    · rw [if_pos empty, if_pos empty]
      rfl
    · rw [if_neg empty, if_neg empty]
      by_cases found : isFile (header.getD 156 0) = true ∧ fileName header = name
      · rw [if_pos found, if_pos found, add_eq (by omega)]
        simp only [Option.bind_some]
        by_cases fits : offset + 512 + size ≤ data.length
        · rw [if_pos fits, if_pos fits, slice_eq (by omega) fits]
          rfl
        · rw [if_neg fits, if_neg fits]
          rfl
      · rw [if_neg found, if_neg found, add_eq (by omega)]
        simp only [Option.bind_some]
        rw [mul_eq (by omega)]
        simp only [Option.bind_some]
        rw [add_eq (by omega)]
        simp only [Option.bind_some]
        rw [add_eq (by omega)]
        rfl
  · rw [if_pos (by omega), if_neg inside]
    rfl

/-- A header at the offset bears the name, and its file reaches from behind it to the stop. -/
structure FileAt (data name : List UInt8) (offset stop : Nat) : Prop where
  aligned : 512 ∣ offset
  order : offset + 512 ≤ stop
  inside : stop ≤ data.length
  /-- A name field that is not text counts as the empty name. -/
  named : decode (nameField (data.extract offset (offset + 512))) = some name ∨
    decode (nameField (data.extract offset (offset + 512))) = none ∧ name = []

structure Searching (archive : TarArchive) (name : List UInt8) (offset : Nat) : Prop where
  aligned : 512 ∣ offset
  near : offset ≤ archive.data.length + 2 ^ 37
  ahead : findFrom archive.data name offset = archive.findFile name

structure Located (archive : TarArchive) (name : List UInt8) (result : Option (Nat × Nat)) : Prop where
  same : archive.findFile name = result.map fun place => archive.data.extract place.1 place.2
  place : ∀ start stop, result = some (start, stop) → ∃ offset,
    start = offset + 512 ∧ FileAt archive.data name offset stop

theorem named_of_fileName {header : List UInt8} (same : fileName header = name) :
    decode (nameField header) = some name ∨ decode (nameField header) = none ∧ name = [] := by
  rw [fileName_eq] at same
  cases decoded : decode (nameField header) with
  | none =>
    rw [decoded] at same
    exact Or.inr ⟨rfl, same.symm⟩
  | some text =>
    rw [decoded] at same
    exact Or.inl (congrArg some same)

theorem Located.missing {archive : TarArchive} (same : archive.findFile name = none) : Located archive name none where
  same := same
  place := fun _ _ found => nomatch found

theorem searching_round {archive : TarArchive} (short : archive.data.length < 2 ^ 63)
    (holds : Searching archive name offset) :
    (∃ result, findRound archive.data name offset = some (.inl result) ∧ Located archive name result) ∨
      ∃ next, findRound archive.data name offset = some (.inr next) ∧ Searching archive name next ∧
        archive.data.length - next < archive.data.length - offset := by
  have ahead := holds.ahead
  have near := holds.near
  have aligned := holds.aligned
  rw [findRound_eq short holds.near]
  rw [findFrom] at ahead
  by_cases inside : offset + 512 ≤ archive.data.length
  · rw [if_pos inside] at ahead ⊢
    dsimp only at ahead ⊢
    have size_lt := sizeField_lt (archive.data.extract offset (offset + 512))
    generalize parseSize 0 ((archive.data.extract offset (offset + 512)).extract 124 136) = size at ahead size_lt ⊢
    split_ifs at ahead ⊢ with empty found fits
    · exact Or.inl ⟨none, rfl, .missing ahead.symm⟩
    · refine Or.inl ⟨_, rfl, ahead.symm, ?_⟩
      intro start stop same
      obtain ⟨rfl, rfl⟩ := Prod.mk.inj (Option.some.inj same)
      exact ⟨offset, rfl, aligned, Nat.le_add_right _ _, fits, named_of_fileName found.2⟩
    · exact Or.inl ⟨none, rfl, .missing ahead.symm⟩
    · refine Or.inr ⟨_, rfl, ⟨?_, ?_, ahead⟩, ?_⟩
      · omega
      · omega
      · omega
  · rw [if_neg inside] at ahead ⊢
    exact Or.inl ⟨none, rfl, .missing ahead.symm⟩

/-- The search in any bytes: it ends without a failure, with the place of the file that
`findFile` finds, all of it inside the archive. -/
theorem findFile_any_bytes (archive : TarArchive) (name : List UInt8) (short : archive.data.length < 2 ^ 63) :
    ∃ result, (∀ rounds, archive.data.length < rounds → archive.findChecked name rounds = .finished result) ∧
      (archive.findFile name = result.map fun place => archive.data.extract place.1 place.2) ∧
      ∀ start stop, result = some (start, stop) →
        ∃ offset, start = offset + 512 ∧ FileAt archive.data name offset stop := by
  have begins : Searching archive name 0 := ⟨Nat.dvd_zero 512, Nat.zero_le _, rfl⟩
  obtain ⟨result, located, finishes⟩ :=
    run_finishes (Searching archive name) (Located archive name) (fun offset => archive.data.length - offset)
      (fun _ holds => searching_round short holds) begins
  exact ⟨result, finishes, located.same, located.place⟩

/-- A file of three bytes whose size field has junk between its digits. -/
def junkArchive : TarArchive :=
  ⟨(0x61 :: List.replicate 123 0) ++ ([0x2F, 0x30, 0x41, 0x33, 0x20] ++ List.replicate 7 0x37) ++
    (List.replicate 20 0 ++ 0x30 :: List.replicate 355 0xFF) ++ [7, 8, 9]⟩

theorem findFile_any_bytes_junk : junkArchive.findFile [0x61] = some [7, 8, 9] := by
  obtain ⟨result, finishes, same, _⟩ := findFile_any_bytes junkArchive [0x61] (by decide +kernel)
  have reached : junkArchive.findChecked [0x61] 600 = .finished (some (512, 515)) := by decide +kernel
  rw [finishes 600 (by decide +kernel)] at reached
  rw [same, Outcome.finished.inj reached]
  decide +kernel

end ElseOS.Fs.TarArchive
