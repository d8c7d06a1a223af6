import ElseOS.Services.Keyboard
import ElseOS.Task.Boot

/-! The terminal service.

A key event moves the cursor and may draw a glyph; a glyph is drawn pixel by pixel, each
pixel by a store of four bytes whatever its own width is. -/

set_option autoImplicit false

namespace ElseOS

namespace Terminal

def FONT_A : List UInt8 := [0x3C, 0x66, 0x66, 0x7E, 0x66, 0x66, 0x66, 0x00]

def FONT_0 : List UInt8 := [0x3C, 0x66, 0x66, 0x66, 0x66, 0x66, 0x3C, 0x00]

def FONT_SPACE : List UInt8 := List.replicate 8 0x00

def FONT_UNKNOWN : List UInt8 := List.replicate 8 0xFF

def getGlyph (c : UInt8) : List UInt8 :=
  if (0x61 ≤ c ∧ c ≤ 0x7A) ∨ (0x41 ≤ c ∧ c ≤ 0x5A) then FONT_A
  else if 0x30 ≤ c ∧ c ≤ 0x39 then FONT_0
  else if c = 0x20 then FONT_SPACE
  else FONT_UNKNOWN

/-- A store of four bytes into the framebuffer, with the row and column of the glyph it is for. -/
structure Store where
  row : Nat
  col : Nat
  offset : UInt64
  value : UInt32
  deriving DecidableEq, Repr

def bytesPerPixel (info : FramebufferInfo) : UInt64 := (info.bpp / 8).toUInt64

def pixelOffset (info : FramebufferInfo) (x y : UInt64) (row col : Nat) : UInt64 :=
  (y + UInt64.ofNat row) * info.pitch + (x + UInt64.ofNat col) * bytesPerPixel info

/-- The body of the two loops of `draw_char`: white or black, if the test lets it through. -/
def drawPixel (info : FramebufferInfo) (x y : UInt64) (c : UInt8) (row col : Nat) : Option Store :=
  let rowData := (getGlyph c).getD row 0
  let offset := pixelOffset info x y row col
  if offset + bytesPerPixel info ≤ info.size then
    some ⟨row, col, offset, if rowData &&& ((1 : UInt8) <<< UInt8.ofNat (7 - col)) ≠ 0 then 0x00FFFFFF else 0x00000000⟩
  else none

def drawChar (info : FramebufferInfo) (x y : UInt64) (c : UInt8) : List Store :=
  (List.range 8).flatMap fun row => (List.range 8).filterMap fun col => drawPixel info x y c row col

structure Cursor where
  x : UInt64
  y : UInt64
  deriving DecidableEq, Repr

structure Glyph where
  x : UInt64
  y : UInt64
  c : UInt8
  deriving DecidableEq, Repr

def handleKey (info : FramebufferInfo) (cursor : Cursor) (event : KeyEvent) : Cursor × Option Glyph :=
  if event.pressed = 1 then
    if event.key = 0x0A then (⟨10, cursor.y + 10⟩, none)
    else if event.key = 0x08 then
      if 10 < cursor.x then (⟨cursor.x - 8, cursor.y⟩, some ⟨cursor.x - 8, cursor.y, 0x20⟩) else (cursor, none)
    else if 32 ≤ event.key ∧ event.key ≤ 126 then
      let glyph : Glyph := ⟨cursor.x, cursor.y, event.key.toUInt8⟩
      let x := cursor.x + 8
      if info.width < x + 8 then (⟨10, cursor.y + 10⟩, some glyph) else (⟨x, cursor.y⟩, some glyph)
    else (cursor, none)
  else (cursor, none)

def home : Cursor := ⟨10, 10⟩

def cursorAfter (info : FramebufferInfo) (events : List KeyEvent) : Cursor :=
  events.foldl (fun cursor event => (handleKey info cursor event).1) home

/-! ## What is asked for -/

structure Valid (info : FramebufferInfo) : Prop where
  wide : 18 ≤ info.width.toNat
  depth : info.bpp = 16 ∨ info.bpp = 24 ∨ info.bpp = 32
  pitch : info.width.toNat * (info.bpp.toNat / 8) ≤ info.pitch.toNat
  size : info.size.toNat = info.pitch.toNat * info.height.toNat

/-- The cursor stands on a column of the text grid with room for a glyph. -/
def OnGrid (info : FramebufferInfo) (x : UInt64) : Prop :=
  (∃ k, x.toNat = 10 + 8 * k) ∧ x.toNat + 8 ≤ info.width.toNat

/-- The four bytes lie in the framebuffer, and the pixel on the scan line of its row. -/
structure Store.Contained (info : FramebufferInfo) (y : UInt64) (store : Store) : Prop where
  inside : store.offset.toNat + 4 ≤ info.size.toNat
  above : (y.toNat + store.row) * info.pitch.toNat ≤ store.offset.toNat
  below : store.offset.toNat + info.bpp.toNat / 8 ≤ (y.toNat + store.row + 1) * info.pitch.toNat

structure Orderly (info : FramebufferInfo) (events : List KeyEvent) : Prop where
  grid : ∀ before after, events = before ++ after → OnGrid info (cursorAfter info before).x
  stores : ∀ before event after, events = before ++ event :: after →
    ∀ glyph, (handleKey info (cursorAfter info before) event).2 = some glyph →
      ∀ store ∈ drawChar info glyph.x glyph.y glyph.c, store.Contained info glyph.y

def exactOffset (info : FramebufferInfo) (x y : UInt64) (row col : Nat) : Nat :=
  (y.toNat + row) * info.pitch.toNat + (x.toNat + col) * (info.bpp.toNat / 8)

/-- A place for a glyph: on the last scan line its last pixel has four bytes, and no pixel
below that line has an offset that wraps around into the framebuffer. -/
structure Clear (info : FramebufferInfo) (x y : UInt64) : Prop where
  tail : y.toNat < info.height.toNat → info.height.toNat ≤ y.toNat + 8 →
    (x.toNat + 7) * (info.bpp.toNat / 8) + 4 ≤ info.pitch.toNat
  beyond : ∀ row < 8, ∀ col < 8, info.height.toNat ≤ y.toNat + row →
    info.size.toNat < (exactOffset info x y row col + info.bpp.toNat / 8) % 2 ^ 64

variable {info : FramebufferInfo} {x y : UInt64} {cursor : Cursor} {event : KeyEvent} {glyph : Glyph}

/-! ## The cursor -/

theorem Valid.bytes (valid : Valid info) :
    (bytesPerPixel info).toNat = info.bpp.toNat / 8 ∧ 2 ≤ info.bpp.toNat / 8 ∧ info.bpp.toNat / 8 ≤ 4 := by
  unfold bytesPerPixel
  rcases valid.depth with depth | depth | depth <;> rw [depth] <;> decide

theorem Valid.narrow (valid : Valid info) : info.width.toNat < 2 ^ 63 := by
  obtain ⟨_, two, _⟩ := valid.bytes
  have pitch := valid.pitch
  have wide : info.width.toNat * 2 ≤ info.width.toNat * (info.bpp.toNat / 8) := Nat.mul_le_mul_left _ two
  have bound := info.pitch.toNat_lt
  omega

theorem onGrid_home (valid : Valid info) : OnGrid info 10 := ⟨⟨0, rfl⟩, valid.wide⟩

theorem OnGrid.back (grid : OnGrid info x) (beyond : 10 < x) : OnGrid info (x - 8) := by
  obtain ⟨⟨k, column⟩, room⟩ := grid
  have left : 10 < x.toNat := UInt64.lt_iff_toNat_lt.mp beyond
  have enough : (8 : UInt64) ≤ x := UInt64.le_iff_toNat_le.mpr (by change 8 ≤ x.toNat; omega)
  have difference : (x - 8).toNat = x.toNat - 8 := UInt64.toNat_sub_of_le x 8 enough
  exact ⟨⟨k - 1, by omega⟩, by omega⟩

theorem OnGrid.advance (grid : OnGrid info x) (valid : Valid info) (fits : ¬ info.width < x + 8 + 8) :
    OnGrid info (x + 8) := by
  obtain ⟨⟨k, column⟩, room⟩ := grid
  have narrow := valid.narrow
  have eight : (8 : UInt64).toNat = 8 := rfl
  have once : (x + 8).toNat = x.toNat + 8 := by
    rw [UInt64.toNat_add, eight]
    omega
  have twice : (x + 8 + 8).toNat = x.toNat + 16 := by
    rw [UInt64.toNat_add, once, eight]
    omega
  have inside : (x + 8 + 8).toNat ≤ info.width.toNat := UInt64.le_iff_toNat_le.mp (UInt64.not_lt.mp fits)
  exact ⟨⟨k + 1, by omega⟩, by omega⟩

theorem handleKey_cases (info : FramebufferInfo) (cursor : Cursor) (event : KeyEvent) :
    handleKey info cursor event = (cursor, none) ∨
    handleKey info cursor event = (⟨10, cursor.y + 10⟩, none) ∨
    (10 < cursor.x ∧
      handleKey info cursor event = (⟨cursor.x - 8, cursor.y⟩, some ⟨cursor.x - 8, cursor.y, 0x20⟩)) ∨
    handleKey info cursor event = (⟨10, cursor.y + 10⟩, some ⟨cursor.x, cursor.y, event.key.toUInt8⟩) ∨
    (¬ info.width < cursor.x + 8 + 8 ∧
      handleKey info cursor event = (⟨cursor.x + 8, cursor.y⟩, some ⟨cursor.x, cursor.y, event.key.toUInt8⟩)) := by
  unfold handleKey
  dsimp only
  split_ifs with pressed newline backspace beyond printable full <;> simp [*]

/-- A key event keeps the cursor on the grid, and what it draws is drawn there. -/
theorem handleKey_onGrid (valid : Valid info) (grid : OnGrid info cursor.x) :
    OnGrid info (handleKey info cursor event).1.x ∧
      ∀ glyph, (handleKey info cursor event).2 = some glyph → OnGrid info glyph.x := by
  rcases handleKey_cases info cursor event with same | newline | ⟨beyond, back⟩ | wraps | ⟨fits, advances⟩
  · rw [same]
    exact ⟨grid, nofun⟩
  · rw [newline]
    exact ⟨onGrid_home valid, nofun⟩
  · rw [back]
    refine ⟨grid.back beyond, ?_⟩
    rintro _ ⟨⟩
    exact grid.back beyond
  · rw [wraps]
    refine ⟨onGrid_home valid, ?_⟩
    rintro _ ⟨⟩
    exact grid
  · rw [advances]
    refine ⟨grid.advance valid fits, ?_⟩
    rintro _ ⟨⟩
    exact grid

theorem cursorAfter_onGrid (valid : Valid info) (events : List KeyEvent) :
    OnGrid info (cursorAfter info events).x := by
  induction events using List.reverseRecOn with
  | nil => exact onGrid_home valid
  | append_singleton events event ih =>
    rw [cursorAfter, List.foldl_append, List.foldl_cons, List.foldl_nil]
    exact (handleKey_onGrid valid ih).1

/-! ## The stores of one glyph -/

theorem pixelOffset_toNat (valid : Valid info) (row col : Nat) :
    (pixelOffset info x y row col).toNat = exactOffset info x y row col % 2 ^ 64 := by
  have bytes : bytesPerPixel info = UInt64.ofNat (info.bpp.toNat / 8) := by
    rw [← valid.bytes.1, UInt64.ofNat_toNat]
  have reduced : pixelOffset info x y row col = UInt64.ofNat (exactOffset info x y row col) := by
    unfold pixelOffset exactOffset
    rw [bytes]
    simp only [UInt64.ofNat_add, UInt64.ofNat_mul, UInt64.ofNat_toNat]
  rw [reduced, UInt64.toNat_ofNat']

theorem mem_drawChar {c : UInt8} {store : Store} :
    store ∈ drawChar info x y c ↔ ∃ row < 8, ∃ col < 8, drawPixel info x y c row col = some store := by
  simp only [drawChar, List.mem_flatMap, List.mem_filterMap, List.mem_range]

theorem drawPixel_isSome (valid : Valid info) {c : UInt8} {row col : Nat} :
    (∃ store, drawPixel info x y c row col = some store) ↔
      (exactOffset info x y row col + info.bpp.toNat / 8) % 2 ^ 64 ≤ info.size.toNat := by
  have sum : (pixelOffset info x y row col + bytesPerPixel info).toNat =
      (exactOffset info x y row col + info.bpp.toNat / 8) % 2 ^ 64 := by
    rw [UInt64.toNat_add, pixelOffset_toNat valid, valid.bytes.1, Nat.mod_add_mod]
  unfold drawPixel
  dsimp only
  rw [← sum, ← UInt64.le_iff_toNat_le]
  split
  next fits => exact iff_of_true ⟨_, rfl⟩ fits
  next outside => exact iff_of_false nofun outside

theorem drawPixel_some {c : UInt8} {row col : Nat} {store : Store} (drawn : drawPixel info x y c row col = some store) :
    store.row = row ∧ store.offset = pixelOffset info x y row col := by
  unfold drawPixel at drawn
  dsimp only at drawn
  split at drawn
  · obtain rfl := Option.some.inj drawn
    exact ⟨rfl, rfl⟩
  · cases drawn

theorem exactOffset_line (valid : Valid info) (grid : OnGrid info x) {row col : Nat} (right : col < 8) :
    exactOffset info x y row col + info.bpp.toNat / 8 ≤ (y.toNat + row + 1) * info.pitch.toNat := by
  have room := grid.2
  have pixel : (x.toNat + col + 1) * (info.bpp.toNat / 8) ≤ info.width.toNat * (info.bpp.toNat / 8) :=
    Nat.mul_le_mul_right _ (by omega)
  have pitch := valid.pitch
  rw [Nat.succ_mul] at pixel
  unfold exactOffset
  rw [Nat.succ_mul]
  omega

theorem Valid.lines (valid : Valid info) {line : Nat} (inside : line ≤ info.height.toNat) :
    line * info.pitch.toNat ≤ info.size.toNat := by
  rw [valid.size, Nat.mul_comm]
  exact Nat.mul_le_mul_left _ inside

theorem Valid.lines_below (valid : Valid info) {line : Nat} (outside : info.height.toNat ≤ line) :
    info.size.toNat ≤ line * info.pitch.toNat := by
  rw [valid.size, Nat.mul_comm]
  exact Nat.mul_le_mul_right _ outside

theorem Valid.long (valid : Valid info) : 36 ≤ info.pitch.toNat := by
  have wide := valid.wide
  have two := valid.bytes.2.1
  have pitch := valid.pitch
  have product : 18 * 2 ≤ info.width.toNat * (info.bpp.toNat / 8) := Nat.mul_le_mul wide two
  omega

/-- On a scan line of the framebuffer nothing wraps around. -/
theorem offset_of_line (valid : Valid info) (grid : OnGrid info x) {row col : Nat} (right : col < 8)
    (inside : y.toNat + row < info.height.toNat) :
    exactOffset info x y row col + info.bpp.toNat / 8 ≤ info.size.toNat ∧
      (pixelOffset info x y row col).toNat = exactOffset info x y row col := by
  have line := @exactOffset_line info x y valid grid row col right
  have whole : (y.toNat + row + 1) * info.pitch.toNat ≤ info.size.toNat := valid.lines inside
  have bound := info.size.toNat_lt
  refine ⟨by omega, ?_⟩
  rw [pixelOffset_toNat valid, Nat.mod_eq_of_lt (by omega)]

theorem Clear.contained (clear : Clear info x y) (valid : Valid info) (grid : OnGrid info x) {c : UInt8} {store : Store}
    (member : store ∈ drawChar info x y c) : store.Contained info y := by
  obtain ⟨row, low, col, right, drawn⟩ := mem_drawChar.mp member
  have passed := (drawPixel_isSome valid).mp ⟨store, drawn⟩
  obtain ⟨rfl, place⟩ := drawPixel_some drawn
  obtain ⟨_, two, four⟩ := valid.bytes
  by_cases inside : y.toNat + store.row < info.height.toNat
  · obtain ⟨_, exact⟩ := @offset_of_line info x y valid grid store.row col right inside
    have line := @exactOffset_line info x y valid grid store.row col right
    rw [← place] at exact
    refine ⟨?_, by rw [exact]; exact Nat.le_add_right _ _, by rw [exact]; exact line⟩
    rw [exact]
    -- only on the last scan line is there nothing behind the pixel
    by_cases last : y.toNat + store.row + 1 = info.height.toNat
    · have tail := clear.tail (by omega) (by omega)
      have column : (x.toNat + col) * (info.bpp.toNat / 8) ≤ (x.toNat + 7) * (info.bpp.toNat / 8) :=
        Nat.mul_le_mul_right _ (by omega)
      have whole := valid.lines (Nat.le_of_eq last)
      rw [Nat.succ_mul] at whole
      unfold exactOffset
      omega
    · have long := valid.long
      have whole := valid.lines (show y.toNat + store.row + 1 + 1 ≤ info.height.toNat by omega)
      rw [Nat.succ_mul] at whole
      omega
  · exact absurd passed (Nat.not_le.mpr (clear.beyond store.row low col right (Nat.le_of_not_lt inside)))

theorem clear_of_contained (valid : Valid info) (grid : OnGrid info x) {c : UInt8}
    (contained : ∀ store ∈ drawChar info x y c, store.Contained info y) : Clear info x y := by
  constructor
  -- the last column of the last scan line passes the test, which counts the bytes of a pixel
  -- and not the four that are stored
  · intro starts ends
    obtain ⟨row, last⟩ : ∃ row, y.toNat + row + 1 = info.height.toNat := ⟨info.height.toNat - y.toNat - 1, by omega⟩
    obtain ⟨fits, exact⟩ := @offset_of_line info x y valid grid row 7 (by decide) (by omega)
    have bound := info.size.toNat_lt
    obtain ⟨store, drawn⟩ : ∃ store, drawPixel info x y c row 7 = some store := by
      rw [drawPixel_isSome valid, Nat.mod_eq_of_lt (by omega)]
      exact fits
    have inside := (contained store (mem_drawChar.mpr ⟨row, by omega, 7, by decide, drawn⟩)).inside
    have whole := valid.size
    rw [← last, Nat.mul_comm, Nat.succ_mul] at whole
    rw [(drawPixel_some drawn).2, exact, whole] at inside
    unfold exactOffset at inside
    omega
  -- below the last scan line a pixel passes only if its offset wraps around
  · intro row low col right outside
    apply Nat.lt_of_not_le
    intro passed
    obtain ⟨store, drawn⟩ := (@drawPixel_isSome info x y valid c row col).mpr passed
    have place := contained store (mem_drawChar.mpr ⟨row, low, col, right, drawn⟩)
    have inside := place.inside
    have above := place.above
    have below := valid.lines_below outside
    rw [(drawPixel_some drawn).1] at above
    omega

/-- A sequence of key events is drawn inside the framebuffer exactly if every glyph finds a
place that is clear. -/
theorem orderly_iff (info : FramebufferInfo) (valid : Valid info) (events : List KeyEvent) :
    Orderly info events ↔
      ∀ before event after, events = before ++ event :: after →
        ∀ glyph, (handleKey info (cursorAfter info before) event).2 = some glyph → Clear info glyph.x glyph.y := by
  have grid : ∀ before event glyph, (handleKey info (cursorAfter info before) event).2 = some glyph →
      OnGrid info glyph.x := fun before event => (handleKey_onGrid valid (cursorAfter_onGrid valid before)).2
  constructor
  · intro orderly before event after split glyph drawn
    exact clear_of_contained valid (grid before event glyph drawn) (orderly.stores before event after split glyph drawn)
  · intro clear
    constructor
    · intro before _ _
      exact cursorAfter_onGrid valid before
    · intro before event after split glyph drawn store member
      exact (clear before event after split glyph drawn).contained valid (grid before event glyph drawn) member

/-- With four bytes a pixel every place is clear until the lines run out of 64 bits. -/
theorem clear_of_depth (valid : Valid info) (depth : info.bpp = 32) (grid : OnGrid info x)
    (room : (y.toNat + 8) * info.pitch.toNat < 2 ^ 64) : Clear info x y := by
  have bytes : info.bpp.toNat / 8 = 4 := by rw [depth]; rfl
  have wide := grid.2
  constructor
  · intro _ _
    have pitch := valid.pitch
    rw [bytes] at pitch ⊢
    omega
  · intro row low col right outside
    have line := @exactOffset_line info x y valid grid row col right
    have lines : (y.toNat + row + 1) * info.pitch.toNat ≤ (y.toNat + 8) * info.pitch.toNat :=
      Nat.mul_le_mul_right _ (by omega)
    have below := valid.lines_below outside
    rw [Nat.mod_eq_of_lt (by omega), bytes]
    unfold exactOffset
    omega

def tightInfo : FramebufferInfo := ⟨0xFD000000, 18, 18, 36, 16, 648⟩

theorem store_past_end :
    Valid tightInfo ∧ (⟨7, 7, 646, 0⟩ : Store) ∈ drawChar tightInfo 10 10 0x61 ∧
      ¬ Orderly tightInfo [⟨0x61, 1, 0⟩] := by
  have drawn : (⟨7, 7, 646, 0⟩ : Store) ∈ drawChar tightInfo 10 10 0x61 := by decide
  refine ⟨⟨by decide, by decide, by decide, by decide⟩, drawn, ?_⟩
  intro orderly
  exact absurd (orderly.stores [] ⟨0x61, 1, 0⟩ [] rfl ⟨10, 10, 0x61⟩ (by decide) _ drawn).inside (by decide)

def deepInfo : FramebufferInfo := ⟨0xFD000000, 18, 18, 72, 32, 1296⟩

theorem orderly_deep : Valid deepInfo ∧ Orderly deepInfo [⟨0x61, 1, 0⟩, ⟨0x08, 1, 0⟩] := by
  have valid : Valid deepInfo := ⟨by decide, by decide, by decide, by decide⟩
  have clear : Clear deepInfo 10 10 := clear_of_depth valid rfl ⟨⟨0, rfl⟩, by decide⟩ (by decide)
  refine ⟨valid, (orderly_iff deepInfo valid _).mpr ?_⟩
  intro before event after split glyph drawn
  rcases before with _ | ⟨first, _ | ⟨second, rest⟩⟩
  · obtain ⟨rfl, _⟩ := List.cons.inj split
    obtain rfl : ⟨10, 10, 0x61⟩ = glyph := Option.some.inj drawn
    exact clear
  · obtain ⟨rfl, behind⟩ := List.cons.inj split
    obtain ⟨rfl, _⟩ := List.cons.inj behind
    -- the only column is the first, so the cursor has gone to the next line
    cases drawn
  · simp at split

end Terminal

end ElseOS
