import Chip8.Machine.Screen

/-!
# Pictures

A picture is a screen that is laid over another: the cells lit on it are
flipped, and it collides with the screen where a lit cell is under a lit one.
Drawing a sprite comes to laying one picture over the screen, since no cell is
under two of its bits: the bits of a row stand in different columns, and there
are no more rows than the screen has.
-/

namespace Chip8.Screen

def overlay (s p : Screen) : Screen :=
  ⟨Vector.ofFn fun i => s.cells[i] ^^ p.cells[i]⟩

def meets (s p : Screen) : Bool :=
  (List.finRange 2048).any fun i => s.cells[i] && p.cells[i]

def plot (lit : Int → Int → Bool) : Screen :=
  ⟨Vector.ofFn fun i => lit (i.val % 64 : Nat) (i.val / 64 : Nat)⟩

variable {s t p q : Screen}

theorem cellIndex_of_index (i : Fin 2048) :
    cellIndex (i.val % 64 : Nat) (i.val / 64 : Nat) = i := by
  apply Fin.ext
  simp [cellIndex]
  omega

theorem pixel_of_index (s : Screen) (i : Fin 2048) :
    s.pixel (i.val % 64 : Nat) (i.val / 64 : Nat) = s.cells[i] := by
  simp only [pixel, cellIndex_of_index]

theorem ext_pixel (h : ∀ x y, s.pixel x y = t.pixel x y) : s = t := by
  obtain ⟨cells⟩ := s
  obtain ⟨cells'⟩ := t
  congr
  ext i inside
  have same := h (i % 64 : Nat) (i / 64 : Nat)
  rw [pixel_of_index _ ⟨i, inside⟩, pixel_of_index _ ⟨i, inside⟩] at same
  simpa using same

@[simp] theorem pixel_overlay (s p : Screen) (x y : Int) :
    (s.overlay p).pixel x y = (s.pixel x y ^^ p.pixel x y) := by
  simp [pixel, overlay]

@[simp] theorem pixel_blank (x y : Int) : blank.pixel x y = false := by
  simp [pixel, blank]

@[simp] theorem pixel_plot (lit : Int → Int → Bool) (x y : Int) :
    (plot lit).pixel x y = lit (x % 64) (y % 32) := by
  have column : ((cellIndex x y).val % 64 : Nat) = x % 64 := by
    simp [cellIndex]
    omega
  have row : ((cellIndex x y).val / 64 : Nat) = y % 32 := by
    simp [cellIndex]
    omega
  simp only [pixel, plot, Fin.getElem_fin, Vector.getElem_ofFn, column, row]

theorem meets_iff (s p : Screen) :
    s.meets p = true ↔ ∃ x y, s.pixel x y = true ∧ p.pixel x y = true := by
  simp only [meets, List.any_eq_true, List.mem_finRange, true_and,
    Bool.and_eq_true]
  constructor
  · rintro ⟨i, lit⟩
    refine ⟨(i.val % 64 : Nat), (i.val / 64 : Nat), ?_⟩
    rw [pixel_of_index, pixel_of_index]
    exact lit
  · rintro ⟨x, y, lit⟩
    exact ⟨cellIndex x y, lit⟩

/-! ## Laying pictures one over the other -/

theorem overlay_assoc (s p q : Screen) :
    (s.overlay p).overlay q = s.overlay (p.overlay q) :=
  ext_pixel fun x y => by simp

theorem overlay_right_comm (s p q : Screen) :
    (s.overlay p).overlay q = (s.overlay q).overlay p :=
  ext_pixel fun x y => by
    simp only [pixel_overlay]
    exact Bool.xor_right_comm ..

theorem overlay_overlay_self (s p : Screen) : (s.overlay p).overlay p = s :=
  ext_pixel fun x y => by simp

@[simp] theorem overlay_blank (s : Screen) : s.overlay blank = s :=
  ext_pixel fun x y => by simp

@[simp] theorem meets_blank (s : Screen) : s.meets blank = false := by
  simp [← Bool.not_eq_true, meets_iff]

/-- The screen under a picture, and whether the two collide. -/
def stamp (s p : Screen) : Screen × Bool := (s.overlay p, s.meets p)

section Apart

variable (s : Screen) (apart : ∀ x y, p.pixel x y = true → q.pixel x y = false)

include apart

theorem meets_overlay :
    s.meets (p.overlay q) = (s.meets p || (s.overlay p).meets q) := by
  rw [Bool.eq_iff_iff, Bool.or_eq_true, meets_iff, meets_iff, meets_iff]
  constructor
  · rintro ⟨x, y, lit, hit⟩
    cases first : p.pixel x y with
    | true => exact .inl ⟨x, y, lit, first⟩
    | false => exact .inr ⟨x, y, by simp_all⟩
  · rintro (⟨x, y, lit, hit⟩ | ⟨x, y, lit, hit⟩)
    · exact ⟨x, y, lit, by simp [hit, apart x y hit]⟩
    · cases first : p.pixel x y with
      | true => simp [apart x y first] at hit
      | false => exact ⟨x, y, by simp_all⟩

theorem stamp_stamp :
    (((s.stamp p).1.stamp q).1, (s.stamp p).2 || ((s.stamp p).1.stamp q).2) =
      s.stamp (p.overlay q) := by
  simp [stamp, overlay_assoc, meets_overlay s apart]

end Apart

/-! ## Sprites -/

def dot (x y : Int) : Screen := plot fun cx cy => cx = x % 64 && cy = y % 32

/-- The low `count` bits of a byte, the highest of them in column `x`. -/
def strip (x y : Int) (b : Byte) (count : Nat) : Screen :=
  plot fun cx cy =>
    decide ((cy - y) % 32 = 0) && decide ((cx - x) % 64 < count) &&
      b.toNat.testBit (count - 1 - (cx - x) % 64).toNat

def sprite (left top : Int) (rows : List Byte) : Screen :=
  plot fun cx cy =>
    decide ((cx - left) % 64 < 8) &&
      rows[((cy - top) % 32).toNat]?.any fun b =>
        b.toNat.testBit (7 - (cx - left) % 64).toNat

@[simp] theorem pixel_dot (x y cx cy : Int) :
    (dot x y).pixel cx cy =
      decide ((cx - x) % 64 = 0 ∧ (cy - y) % 32 = 0) := by
  simp only [dot, pixel_plot, ← Bool.decide_and]
  apply decide_eq_decide.mpr
  omega

theorem cellIndex_eq_iff (x y cx cy : Int) :
    cellIndex x y = cellIndex cx cy ↔
      (cx - x) % 64 = 0 ∧ (cy - y) % 32 = 0 := by
  simp only [cellIndex, Fin.mk.injEq]
  omega

theorem meets_dot (s : Screen) (x y : Int) :
    s.meets (dot x y) = s.pixel x y := by
  rw [Bool.eq_iff_iff, meets_iff]
  constructor
  · rintro ⟨cx, cy, lit, here⟩
    rw [pixel_dot, decide_eq_true_iff, ← cellIndex_eq_iff] at here
    simpa only [pixel, here] using lit
  · intro lit
    exact ⟨x, y, lit, by simp⟩

theorem flip_eq_stamp (s : Screen) (x y : Int) :
    s.flip x y = s.stamp (dot x y) := by
  apply Prod.ext
  · apply ext_pixel
    intro cx cy
    simp [pixel_flip, stamp, cellIndex_eq_iff]
  · simp [flip, stamp, meets_dot, pixel]

@[simp] theorem pixel_strip (x y : Int) (b : Byte) (count : Nat) (cx cy : Int) :
    (strip x y b count).pixel cx cy =
      (decide ((cy - y) % 32 = 0) && decide ((cx - x) % 64 < count) &&
        b.toNat.testBit (count - 1 - (cx - x) % 64).toNat) := by
  have column : (cx % 64 - x) % 64 = (cx - x) % 64 := by omega
  have row : (cy % 32 - y) % 32 = (cy - y) % 32 := by omega
  simp only [strip, pixel_plot, column, row]

@[simp] theorem pixel_sprite (left top : Int) (rows : List Byte) (cx cy : Int) :
    (sprite left top rows).pixel cx cy =
      (decide ((cx - left) % 64 < 8) &&
        rows[((cy - top) % 32).toNat]?.any fun b =>
          b.toNat.testBit (7 - (cx - left) % 64).toNat) := by
  have column : (cx % 64 - left) % 64 = (cx - left) % 64 := by omega
  have row : (cy % 32 - top) % 32 = (cy - top) % 32 := by omega
  simp only [sprite, pixel_plot, column, row]

def bit (x y : Int) (set : Bool) : Screen := if set then dot x y else blank

@[simp] theorem pixel_bit (x y : Int) (set : Bool) (cx cy : Int) :
    (bit x y set).pixel cx cy =
      (set && decide ((cx - x) % 64 = 0 ∧ (cy - y) % 32 = 0)) := by
  cases set <;> simp [bit]

theorem flip_if_set (s : Screen) (x y : Int) (set : Bool) :
    (if set then s.flip x y else (s, false)) = s.stamp (bit x y set) := by
  cases set <;> simp [bit, flip_eq_stamp, stamp]

theorem strip_zero (x y : Int) (b : Byte) : strip x y b 0 = blank := by
  apply ext_pixel
  intro cx cy
  have outside : ¬ (cx - x) % 64 < 0 := by omega
  simp [outside]

theorem strip_succ (x y : Int) (b : Byte) {count : Nat} (h : count < 64) :
    strip x y b (count + 1) =
      (bit x y (b.toNat.testBit count)).overlay (strip (x + 1) y b count) := by
  apply ext_pixel
  intro cx cy
  rw [pixel_overlay, pixel_bit, pixel_strip, pixel_strip]
  by_cases first : (cx - x) % 64 = 0
  · have last : (cx - (x + 1)) % 64 = 63 := by omega
    have outside : ¬ (63 : Int) < count := by omega
    simp [first, last, outside, Bool.and_comm]
  · have next : (cx - (x + 1)) % 64 = (cx - x) % 64 - 1 := by omega
    have inside : (cx - x) % 64 < (count + 1 : Nat) ↔
        (cx - x) % 64 - 1 < count := by omega
    have place : (count + 1 : Nat) - 1 - (cx - x) % 64 =
        count - 1 - ((cx - x) % 64 - 1) := by omega
    simp only [first, next, inside, place, false_and, decide_false,
      Bool.and_false, Bool.false_xor]

theorem strip_apart (x y : Int) (b : Byte) (set : Bool) {count : Nat}
    (h : count < 64) (cx cy : Int) (here : (bit x y set).pixel cx cy = true) :
    (strip (x + 1) y b count).pixel cx cy = false := by
  simp only [pixel_bit, Bool.and_eq_true, decide_eq_true_iff] at here
  have outside : ¬ (cx - (x + 1)) % 64 < count := by omega
  simp [outside]

theorem drawBits_eq_stamp (s : Screen) (x y : Int) (b : Byte) {count : Nat}
    (h : count ≤ 64) : s.drawBits x y b count = s.stamp (strip x y b count) := by
  induction count generalizing s x with
  | zero => simp [drawBits, strip_zero, stamp]
  | succ count ih =>
      have apart := strip_apart x y b (b.toNat.testBit count) h
      rw [strip_succ x y b h, ← stamp_stamp s apart]
      simp only [drawBits, flip_if_set, ih _ _ (Nat.le_of_lt h)]

theorem sprite_nil (left top : Int) : sprite left top [] = blank :=
  ext_pixel fun cx cy => by simp

theorem sprite_cons (left top : Int) (b : Byte) {rows : List Byte}
    (h : rows.length < 32) :
    sprite left top (b :: rows) =
      (strip left top b 8).overlay (sprite left (top + 1) rows) := by
  apply ext_pixel
  intro cx cy
  rw [pixel_overlay, pixel_strip, pixel_sprite, pixel_sprite]
  by_cases first : (cy - top) % 32 = 0
  · have last : (cy - (top + 1)) % 32 = 31 := by omega
    have outside : rows[31]? = none := List.getElem?_eq_none (by omega)
    simp [first, last, outside]
  · have next : ((cy - top) % 32).toNat =
        ((cy - (top + 1)) % 32).toNat + 1 := by omega
    simp [first, next]

theorem sprite_apart (left top : Int) (b : Byte) {rows : List Byte}
    (h : rows.length < 32) (cx cy : Int)
    (here : (strip left top b 8).pixel cx cy = true) :
    (sprite left (top + 1) rows).pixel cx cy = false := by
  simp only [pixel_strip, Bool.and_eq_true, decide_eq_true_iff] at here
  have outside : rows[((cy - (top + 1)) % 32).toNat]? = none :=
    List.getElem?_eq_none (by omega)
  simp [outside]

/-- No cell is visited twice, so that what a sprite puts out was lit before. -/
theorem draw_eq_stamp (s : Screen) (left top : Int) {rows : List Byte}
    (h : rows.length ≤ 32) :
    s.draw left top rows = s.stamp (sprite left top rows) := by
  induction rows generalizing s top with
  | nil => simp [draw, sprite_nil, stamp]
  | cons b rows ih =>
      have apart := sprite_apart left top b h
      have first := drawBits_eq_stamp s left top b (show 8 ≤ 64 by decide)
      rw [sprite_cons left top b h, ← stamp_stamp s apart]
      simp only [draw, first, ih _ _ (Nat.le_of_lt h)]

end Chip8.Screen
