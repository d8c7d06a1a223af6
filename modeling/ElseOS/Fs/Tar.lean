import Mathlib.Tactic.Ring
import ElseOS.Base.Utf8

/-! The archive of the initial file system.

`TarArchive` walks the archive from header to header by the sizes it parses. The second
half lays out a ustar archive entry by entry and compares the search with a lookup in the
list of entries. -/

set_option autoImplicit false

namespace ElseOS.Fs

structure TarArchive where
  data : List UInt8

namespace TarArchive

def nameLen : List UInt8 → Nat
  | [] => 0
  | byte :: rest => if byte = 0 then 0 else nameLen rest + 1

/-- `from_utf8(..).unwrap_or("")` of the name field up to its end. -/
def fileName (header : List UInt8) : List UInt8 :=
  let bytes := header.take (nameLen (header.take 100))
  if Base.Utf8.valid bytes then bytes else []

/-- The loop over the size field: octal digits up to a NUL or a blank, other bytes skipped. -/
def parseSize (size : Nat) : List UInt8 → Nat
  | [] => size
  | byte :: rest =>
    if 0x30 ≤ byte ∧ byte ≤ 0x37 then parseSize (size * 8 + (byte - 0x30).toNat) rest
    else if byte = 0 ∨ byte = 0x20 then size
    else parseSize size rest

def isFile (typeFlag : UInt8) : Bool := typeFlag == 0x30 || typeFlag == 0

def findFrom (data name : List UInt8) (offset : Nat) : Option (List UInt8) :=
  if offset + 512 ≤ data.length then
    let header := data.extract offset (offset + 512)
    -- an empty block ends the archive
    if header.getD 0 0 = 0 then none
    else
      let size := parseSize 0 (header.extract 124 136)
      if isFile (header.getD 156 0) ∧ fileName header = name then
        let dataStart := offset + 512
        if dataStart + size ≤ data.length then some (data.extract dataStart (dataStart + size)) else none
      else findFrom data name (offset + (512 + (size + 511) / 512 * 512))
  else none
termination_by data.length - offset

def findFile (archive : TarArchive) (name : List UInt8) : Option (List UInt8) := findFrom archive.data name 0

end TarArchive

/-! ## The format -/

def octal : (width value : Nat) → List UInt8
  | 0, _ => []
  | width + 1, value => octal width (value / 8) ++ [0x30 + UInt8.ofNat (value % 8)]

/-- A member of a ustar archive, with the parts of its header that the search does not read. -/
structure Entry where
  name : List UInt8
  typeFlag : UInt8
  content : List UInt8
  /-- `mode`, `uid` and `gid`. -/
  owner : List UInt8
  /-- What ends the size field. -/
  terminator : UInt8
  /-- `mtime` and `chksum`. -/
  stamp : List UInt8
  /-- From `linkname` to the end of the block. -/
  trailer : List UInt8
  nonempty : name ≠ []
  text : Base.Utf8.valid name = true
  nulFree : 0 ∉ name
  short : name.length ≤ 100
  small : content.length < 8 ^ 11
  owner_length : owner.length = 24
  terminates : terminator = 0 ∨ terminator = 0x20
  stamp_length : stamp.length = 20
  trailer_length : trailer.length = 355

namespace Entry

def regular (entry : Entry) : Bool := TarArchive.isFile entry.typeFlag

def nameField (entry : Entry) : List UInt8 := entry.name ++ List.replicate (100 - entry.name.length) 0

def sizeField (entry : Entry) : List UInt8 := octal 11 entry.content.length ++ [entry.terminator]

def header (entry : Entry) : List UInt8 :=
  (entry.nameField ++ entry.owner) ++ (entry.sizeField ++ (entry.stamp ++ (entry.typeFlag :: entry.trailer)))

def blocks (entry : Entry) : Nat := (entry.content.length + 511) / 512

def layout (entry : Entry) : List UInt8 :=
  entry.header ++ (entry.content ++ List.replicate (entry.blocks * 512 - entry.content.length) 0)

end Entry

/-- The members one after another, and any number of zero blocks. -/
def ustar (entries : List Entry) (zeroBlocks : Nat) : TarArchive :=
  ⟨(entries.map Entry.layout).flatten ++ List.replicate (zeroBlocks * 512) 0⟩

def lookup (entries : List Entry) (name : List UInt8) : Option (List UInt8) :=
  (entries.find? fun entry => entry.regular && entry.name == name).map Entry.content

/-! ## Reading a header back -/

theorem extract_middle {α : Type} {before middle after : List α} {start stop : Nat} (first : before.length = start)
    (last : start + middle.length = stop) : (before ++ (middle ++ after)).extract start stop = middle := by
  have len : stop - start = middle.length := by omega
  rw [List.extract_eq_take_drop, ← first, List.drop_left, first, len, List.take_left]

@[simp] theorem length_octal (width value : Nat) : (octal width value).length = width := by
  induction width generalizing value with
  | zero => rfl
  | succ width ih => simp [octal, ih]

theorem parseSize_digit (size : Nat) {digit : Nat} (small : digit < 8) (rest : List UInt8) :
    TarArchive.parseSize size ((0x30 + UInt8.ofNat digit) :: rest) = TarArchive.parseSize (size * 8 + digit) rest := by
  have decided : ∀ digit < 8, (0x30 ≤ (0x30 + UInt8.ofNat digit) ∧ (0x30 + UInt8.ofNat digit) ≤ 0x37) ∧
      ((0x30 + UInt8.ofNat digit) - 0x30).toNat = digit := by decide
  obtain ⟨range, value⟩ := decided digit small
  rw [TarArchive.parseSize, if_pos range, value]

/-- The digits that were written are the number that is read, whatever follows them. -/
theorem parseSize_octal (size width value : Nat) (rest : List UInt8) :
    TarArchive.parseSize size (octal width value ++ rest) =
      TarArchive.parseSize (size * 8 ^ width + value % 8 ^ width) rest := by
  induction width generalizing value rest with
  | zero => simp [octal, Nat.mod_one]
  | succ width ih =>
    rw [octal, List.append_assoc, ih, List.singleton_append, parseSize_digit _ (Nat.mod_lt _ (by omega))]
    congr 1
    have split : value % 8 ^ (width + 1) = value % 8 + 8 * (value / 8 % 8 ^ width) := by
      rw [pow_succ, Nat.mul_comm, Nat.mod_mul]
    rw [split, pow_succ]
    ring

theorem nameLen_padded {name : List UInt8} (nulFree : 0 ∉ name) (zeros : Nat) :
    TarArchive.nameLen (name ++ List.replicate zeros 0) = name.length := by
  induction name with
  | nil => cases zeros <;> rfl
  | cons byte rest ih =>
    have nonzero : byte ≠ 0 := fun zero => nulFree (by simp [zero])
    have later : 0 ∉ rest := fun member => nulFree (List.mem_cons_of_mem byte member)
    rw [List.cons_append, TarArchive.nameLen, if_neg nonzero, ih later, List.length_cons]

namespace Entry

variable (entry : Entry)

theorem length_nameField : entry.nameField.length = 100 := by
  have short := entry.short
  simp only [nameField, List.length_append, List.length_replicate]
  omega

theorem length_sizeField : entry.sizeField.length = 12 := by simp [sizeField]

theorem length_header : entry.header.length = 512 := by
  simp [header, length_nameField, length_sizeField, entry.owner_length, entry.stamp_length, entry.trailer_length]

theorem length_layout : entry.layout.length = 512 + entry.blocks * 512 := by
  simp only [layout, List.length_append, length_header, List.length_replicate, blocks]
  omega

theorem fileName_header : TarArchive.fileName entry.header = entry.name := by
  have field : entry.header.take 100 = entry.nameField := by
    rw [header, List.append_assoc, ← entry.length_nameField, List.take_left]
  have name : entry.header.take entry.name.length = entry.name := by
    rw [header, List.append_assoc, nameField, List.append_assoc, List.take_left]
  unfold TarArchive.fileName
  rw [field, nameField, nameLen_padded entry.nulFree, name, if_pos entry.text]

theorem parseSize_header : TarArchive.parseSize 0 (entry.header.extract 124 136) = entry.content.length := by
  have field : entry.header.extract 124 136 = entry.sizeField :=
    extract_middle (by simp [length_nameField, entry.owner_length]) (by rw [length_sizeField])
  have ended : ¬ (0x30 ≤ entry.terminator ∧ entry.terminator ≤ 0x37) := by
    rcases entry.terminates with zero | blank
    · rw [zero]; decide
    · rw [blank]; decide
  rw [field, sizeField, parseSize_octal, Nat.mod_eq_of_lt entry.small, TarArchive.parseSize, if_neg ended,
    if_pos entry.terminates, Nat.zero_mul, Nat.zero_add]

theorem typeFlag_header : entry.header.getD 156 0 = entry.typeFlag := by
  have before : (entry.nameField ++ entry.owner ++ (entry.sizeField ++ entry.stamp)).length = 156 := by
    simp [length_nameField, length_sizeField, entry.owner_length, entry.stamp_length]
  have split : entry.header =
      (entry.nameField ++ entry.owner ++ (entry.sizeField ++ entry.stamp)) ++ entry.typeFlag :: entry.trailer := by
    simp only [header, List.append_assoc]
  rw [split, List.getD_eq_getElem?_getD, List.getElem?_append_right before.le, before]
  rfl

theorem first_header : entry.header.getD 0 0 ≠ 0 := by
  cases name : entry.name with
  | nil => exact absurd name entry.nonempty
  | cons byte rest =>
    have first : entry.header.getD 0 0 = byte := by simp [header, nameField, name]
    rw [first]
    intro zero
    exact entry.nulFree (by simp [name, zero])

end Entry

/-! ## The search -/

variable {data name rest : List UInt8} {offset : Nat}

/-- At the header of an entry the search ends with its content or goes on behind it. -/
theorem findFrom_entry (entry : Entry) (here : data.drop offset = entry.layout ++ rest) :
    TarArchive.findFrom data name offset =
      if entry.regular ∧ entry.name = name then some entry.content
      else TarArchive.findFrom data name (offset + entry.layout.length) := by
  have total : data.length - offset = entry.layout.length + rest.length := by
    rw [← List.length_drop, here, List.length_append]
  have block := entry.length_layout
  have padded : entry.content.length ≤ entry.blocks * 512 := by
    unfold Entry.blocks
    omega
  have header : data.extract offset (offset + 512) = entry.header := by
    rw [List.extract_eq_take_drop, here, Entry.layout, List.append_assoc, Nat.add_sub_cancel_left,
      ← entry.length_header, List.take_left]
  have content : data.extract (offset + 512) (offset + 512 + entry.content.length) = entry.content := by
    rw [List.extract_eq_take_drop, ← List.drop_drop, here, Entry.layout, Nat.add_sub_cancel_left, List.append_assoc,
      ← entry.length_header, List.drop_left, List.append_assoc, List.take_left]
  have inside : offset + 512 ≤ data.length := by omega
  have fits : offset + 512 + entry.content.length ≤ data.length := by omega
  rw [TarArchive.findFrom, if_pos inside]
  dsimp only
  rw [header, if_neg entry.first_header, entry.parseSize_header, entry.typeFlag_header, entry.fileName_header, content,
    if_pos fits, block]
  rfl

/-- Zero blocks, like the end of the archive, end the search. -/
theorem findFrom_zeros {zeroBlocks : Nat} (here : data.drop offset = List.replicate (zeroBlocks * 512) 0) :
    TarArchive.findFrom data name offset = none := by
  have total : data.length - offset = zeroBlocks * 512 := by rw [← List.length_drop, here, List.length_replicate]
  rw [TarArchive.findFrom]
  split
  next more =>
    have first : (data.extract offset (offset + 512)).getD 0 0 = 0 := by
      rw [List.extract_eq_take_drop, here, Nat.add_sub_cancel_left, List.take_replicate]
      cases min 512 (zeroBlocks * 512) <;> rfl
    simp only [first, if_true]
  next => rfl

theorem findFrom_entries {entries : List Entry} {zeroBlocks : Nat}
    (here : data.drop offset = (entries.map Entry.layout).flatten ++ List.replicate (zeroBlocks * 512) 0) :
    TarArchive.findFrom data name offset = lookup entries name := by
  induction entries generalizing offset with
  | nil => exact findFrom_zeros here
  | cons entry entries ih =>
    rw [List.map_cons, List.flatten_cons, List.append_assoc] at here
    have behind : data.drop (offset + entry.layout.length) =
        (entries.map Entry.layout).flatten ++ List.replicate (zeroBlocks * 512) 0 := by
      rw [← List.drop_drop, here, List.drop_left]
    rw [findFrom_entry entry here, ih behind]
    unfold lookup
    rw [List.find?_cons]
    by_cases found : entry.regular = true ∧ entry.name = name
    · simp [found.1, found.2]
    · have skipped : (entry.regular && entry.name == name) = false := by simpa using found
      rw [if_neg found, skipped]

/-- The search agrees with the format: the content of the first regular file of the name. -/
theorem findFile_ustar (entries : List Entry) (zeroBlocks : Nat) (name : List UInt8) :
    (ustar entries zeroBlocks).findFile name = lookup entries name :=
  findFrom_entries List.drop_zero

/-- A directory `bin` and the file `bin/init` in it. -/
def sampleEntries : List Entry :=
  [⟨[0x62, 0x69, 0x6E], 0x35, [], List.replicate 24 0x30, 0, List.replicate 20 0x30, List.replicate 355 0,
      by decide, by decide, by decide, by decide, by decide, by decide, .inl rfl, by decide, List.length_replicate⟩,
    ⟨[0x62, 0x69, 0x6E, 0x2F, 0x69, 0x6E, 0x69, 0x74], 0x30, [0x7F, 0x45, 0x4C, 0x46], List.replicate 24 0x30, 0x20,
      List.replicate 20 0x30, List.replicate 355 0,
      by decide, by decide, by decide, by decide, by decide, by decide, .inr rfl, by decide, List.length_replicate⟩]

example : (ustar sampleEntries 2).findFile [0x62, 0x69, 0x6E, 0x2F, 0x69, 0x6E, 0x69, 0x74] =
    some [0x7F, 0x45, 0x4C, 0x46] :=
  (findFrom_entries List.drop_zero).trans (by decide)

-- the directory is not a regular file
example : (ustar sampleEntries 2).findFile [0x62, 0x69, 0x6E] = none :=
  (findFrom_entries List.drop_zero).trans (by decide)

end ElseOS.Fs
