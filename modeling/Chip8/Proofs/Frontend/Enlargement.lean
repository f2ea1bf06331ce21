import Chip8.Frontend.Display
import Chip8.Proofs.Machine.Views

/-!
# Enlargement

A picture shows every cell as a square of pixels, the lowest row of cells
first, and its bytes are those of its pixels, row after row.  It is the picture
of the frame rendered last, whatever has been rendered before.
-/

namespace Chip8

section

variable {α β : Type} {f : α → List β} {n : Nat} {l : List α}

theorem length_flatMap_of_length (parts : ∀ a ∈ l, (f a).length = n) :
    (l.flatMap f).length = n * l.length := by
  induction l with
  | nil => rfl
  | cons a rest ih =>
      rw [List.forall_mem_cons] at parts
      rw [List.flatMap_cons, List.length_append, parts.1, ih parts.2,
        List.length_cons, Nat.mul_succ, Nat.add_comm]

theorem getElem?_flatMap_of_length (parts : ∀ a ∈ l, (f a).length = n)
    (i : Nat) {j : Nat} (h : j < n) :
    (l.flatMap f)[n * i + j]? = l[i]?.bind fun a => (f a)[j]? := by
  induction l generalizing i with
  | nil => rfl
  | cons a rest ih =>
      rw [List.forall_mem_cons] at parts
      rw [List.flatMap_cons]
      cases i with
      | zero =>
          rw [Nat.mul_zero, Nat.zero_add, List.getElem?_append_left (by omega)]
          rfl
      | succ i =>
          have shift : n * (i + 1) + j = n + (n * i + j) := by
            rw [Nat.mul_succ]
            omega
          rw [shift, List.getElem?_append_right (by omega), parts.1,
            Nat.add_sub_cancel_left]
          exact ih parts.2 i

theorem part_flatMap_of_length (parts : ∀ a ∈ l, (f a).length = n) {i : Nat}
    {a : α} (found : l[i]? = some a) :
    ((l.flatMap f).drop (n * i)).take n = f a := by
  have part := parts a (List.mem_of_getElem? found)
  apply List.ext_getElem?
  intro j
  by_cases h : j < n
  · rw [List.getElem?_take_of_lt h, List.getElem?_drop,
      getElem?_flatMap_of_length parts i h, found]
    rfl
  · have short := List.length_take_le n ((l.flatMap f).drop (n * i))
    rw [List.getElem?_eq_none (by omega), List.getElem?_eq_none (by omega)]

end

namespace Display

def rendered (d : Display) (frame : List Byte) : Display :=
  match d.render frame with
  | .ok (after, _) => after
  | .error _ => d

def renderedAll (d : Display) (frames : List (List Byte)) : Display :=
  frames.foldl rendered d

theorem length_stretch {α : Type} (scale : Nat) (l : List α) :
    (stretch scale l).length = scale * l.length :=
  length_flatMap_of_length fun _ _ => List.length_replicate

theorem mem_of_mem_stretch {α : Type} {scale : Nat} {l : List α} {a : α}
    (mem : a ∈ stretch scale l) : a ∈ l := by
  obtain ⟨b, found, copy⟩ := List.mem_flatMap.mp mem
  rwa [List.eq_of_mem_replicate copy]

theorem getElem?_stretch {α : Type} {scale : Nat} (positive : 1 ≤ scale)
    (l : List α) (k : Nat) : (stretch scale l)[k]? = l[k / scale]? := by
  have inside : k % scale < scale := Nat.mod_lt _ positive
  have place := getElem?_flatMap_of_length (l := l) (f := List.replicate scale)
    (fun _ _ => List.length_replicate) (k / scale) inside
  rw [Nat.div_add_mod] at place
  refine place.trans ?_
  cases l[k / scale]? with
  | none => rfl
  | some a => simp [inside]

theorem length_enlarge (scale : Nat) (s : Screen) :
    (enlarge scale s).length = 32 * scale := by
  rw [enlarge, length_stretch, List.length_map, List.length_reverse,
    Screen.length_rows, Nat.mul_comm]

theorem length_of_mem_enlarge {scale : Nat} {s : Screen} {line : List Pixel}
    (mem : line ∈ enlarge scale s) : line.length = 64 * scale := by
  obtain ⟨cells, found, rfl⟩ := List.mem_map.mp (mem_of_mem_stretch mem)
  obtain ⟨y, -, rfl⟩ := List.mem_map.mp (List.mem_reverse.mp found)
  rw [length_stretch, List.length_map, Screen.length_row, Nat.mul_comm]

theorem cell_of_pixel {scale px : Nat} (py : Nat) (column : px < 64 * scale) :
    px / scale < 64 ∧ 31 - py / scale < 32 ∧
      (31 - py / scale) * 64 + px / scale < 2048 := by
  have x : px / scale < 64 := Nat.div_lt_of_lt_mul (by rwa [Nat.mul_comm])
  have y := Nat.sub_le 31 (py / scale)
  omega

theorem pixel_enlarge {scale : Nat} (positive : 1 ≤ scale) (s : Screen)
    {px py : Nat} (column : px < 64 * scale) (row : py < 32 * scale) :
    (enlarge scale s)[py]?.bind (·[px]?) =
      s.snapshot[(31 - py / scale) * 64 + px / scale]?.map Pixel.ofCell := by
  obtain ⟨x, y, -⟩ := cell_of_pixel py column
  have turned : s.rows.reverse[py / scale]? = s.rows[31 - py / scale]? := by
    have inside : py / scale < s.rows.length := by
      rw [Screen.length_rows]
      exact Nat.div_lt_of_lt_mul (by rwa [Nat.mul_comm])
    rw [List.getElem?_reverse inside, Screen.length_rows]
  rw [enlarge, getElem?_stretch positive, List.getElem?_map, turned,
    s.getElem?_rows y, Option.map_some, Option.bind_some,
    getElem?_stretch positive, List.getElem?_map, s.getElem?_row _ x]

/-- The display shows a frame: the size of its picture in pixels and in bytes,
and the colour of each pixel, counted from the lowest row and the left. -/
structure Shows (d : Display) (scale : Nat) (frame : List Byte) : Prop where
  width : d.width = 64 * scale
  height : d.height = 32 * scale
  rows : d.picture.length = 32 * scale
  columns : ∀ line ∈ d.picture, line.length = 64 * scale
  size : d.data.length = 4 * (64 * scale) * (32 * scale)
  pixel : ∀ px py, px < 64 * scale → py < 32 * scale →
    ∃ cell, frame[(31 - py / scale) * 64 + px / scale]? = some cell ∧
      d.picture[py]?.bind (·[px]?) =
        some (if cell = 0 then ⟨0, 0, 0, 255⟩ else ⟨255, 255, 255, 255⟩) ∧
      (d.data.drop (4 * (64 * scale * py + px))).take 4 =
        if cell = 0 then [0, 0, 0, 255] else [255, 255, 255, 255]

theorem shows_of_ofBytes? {scale : Nat} (positive : 1 ≤ scale)
    {frame : List Byte} {s : Screen} (screen : Screen.ofBytes? frame = some s) :
    ({ scale, shown := some s } : Display).Shows scale frame := by
  have lines : ∀ line ∈ enlarge scale s, line.length = 64 * scale :=
    fun _ => length_of_mem_enlarge
  have cells := Screen.snapshot_of_ofBytes? screen
  constructor
  case width => rfl
  case height => rfl
  case rows => exact length_enlarge scale s
  case columns => exact lines
  case size =>
    have number :
        (enlarge scale s).flatten.length = 64 * scale * (32 * scale) := by
      rw [← length_enlarge scale s, ← length_flatMap_of_length lines,
        List.flatMap_id']
    rw [data, length_flatMap_of_length fun p _ => p.length_bytes]
    change 4 * (enlarge scale s).flatten.length = _
    rw [number]
    exact (Nat.mul_assoc ..).symm
  case pixel =>
    intro px py column row
    obtain ⟨-, -, inside⟩ := cell_of_pixel py column
    have number : frame.length = 2048 := by
      rw [← List.length_map, ← cells, Screen.length_snapshot]
      rfl
    obtain ⟨cell, found⟩ : ∃ cell,
        frame[(31 - py / scale) * 64 + px / scale]? = some cell :=
      ⟨_, List.getElem?_eq_getElem (by rwa [number])⟩
    have colour : (enlarge scale s)[py]?.bind (·[px]?) =
        some (Pixel.ofCell (cell != 0)) := by
      rw [pixel_enlarge positive s column row, cells, List.getElem?_map, found]
      rfl
    have flat : (enlarge scale s).flatten[64 * scale * py + px]? =
        some (Pixel.ofCell (cell != 0)) := by
      rw [← colour, ← getElem?_flatMap_of_length lines py column,
        List.flatMap_id']
    have part := part_flatMap_of_length (fun p _ => p.length_bytes) flat
    refine ⟨cell, found, colour.trans ?_, part.trans ?_⟩
    · by_cases dark : cell = 0 <;> simp [dark, Pixel.ofCell] <;> rfl
    · by_cases dark : cell = 0 <;> simp [dark, Pixel.ofCell] <;> rfl

theorem byteCount_eq (scale : Nat) (shown : Option Screen) :
    byteCount { scale, shown } = 4 * (64 * scale) * (32 * scale) := by
  rw [Int.mul_assoc]
  exact Int.mul_comm ..

theorem new?_of_room {room : Int} {scale : Nat}
    (fits : (4 * (64 * scale) * (32 * scale) : Int) ≤ room)
    (addressable : (4 * (64 * scale) * (32 * scale) : Int) < Position.limit) :
    new? room scale = .ok { scale } := by
  simp only [new?, byteCount_eq]
  rw [if_neg (by omega), if_neg (by omega)]

theorem eq_of_new? {room scale : Int} {blank : Display}
    (h : new? room scale = .ok blank) : blank = { scale } := by
  simp only [new?] at h
  split at h
  · cases h
  · split at h
    · cases h
    · cases h
      rfl

theorem paint_eq {d : Display} {scale : Nat} (scaled : d.scale = scale)
    (s : Screen) :
    d.paint s = .ok ({ scale, shown := some s },
      [.setPixels "RGBA" (4 * (64 * scale))
        (4 * (64 * scale) * (32 * scale))]) := by
  obtain ⟨_, shown⟩ := d
  obtain rfl := scaled
  have pitch : width { scale, shown } * 4 = 4 * (64 * scale) :=
    Int.mul_comm ..
  simp only [paint, pitch, byteCount_eq]
  rw [if_neg (by omega)]

theorem scale_rendered (d : Display) (frame : List Byte) :
    (d.rendered frame).scale = d.scale := by
  rw [rendered, render]
  cases Screen.ofBytes? frame with
  | none => rfl
  | some s => by_cases negative : d.scale < 0 <;> simp [paint, negative]

theorem scale_renderedAll (d : Display) (frames : List (List Byte)) :
    (d.renderedAll frames).scale = d.scale := by
  induction frames generalizing d with
  | nil => rfl
  | cons frame rest ih =>
      exact (ih (d.rendered frame)).trans (d.scale_rendered frame)

theorem render_enlarges {scale : Nat} (positive : 1 ≤ scale)
    (earlier : List (List Byte)) (frame : List Byte) :
    let fresh : Display := { scale }
    let d := fresh.renderedAll earlier
    (∀ room : Int, 4 * (64 * scale) * (32 * scale) ≤ room →
      (4 * (64 * scale) * (32 * scale) : Int) < Position.limit →
      new? room scale = .ok fresh) ∧
    (∀ room blank, new? room scale = .ok blank → blank = fresh) ∧
    (frame.length = 2048 → ∃ after,
      d.render frame = .ok (after,
        [.setPixels "RGBA" (4 * (64 * scale)) after.data.length]) ∧
      d.rendered frame = after ∧ after.Shows scale frame) ∧
    (frame.length ≠ 2048 →
      d.render frame = .error (.wrongSize frame.length) ∧
        d.rendered frame = d) := by
  intro fresh d
  have framed : (Screen.ofBytes? frame).isSome = decide (frame.length = 2048) :=
    Screen.isSome_ofBytes? frame
  refine ⟨fun _ => new?_of_room, fun _ _ => eq_of_new?, ?_, ?_⟩
  · intro number
    rw [number, decide_eq_true rfl, Option.isSome_iff_exists] at framed
    obtain ⟨s, screen⟩ := framed
    have shows := shows_of_ofBytes? positive screen
    have painted := paint_eq (fresh.scale_renderedAll earlier) s
    have done : d.render frame = .ok ({ scale, shown := some s },
        [.setPixels "RGBA" (4 * (64 * scale))
          (data { scale, shown := some s }).length]) := by
      rw [render, screen, shows.size]
      exact painted
    exact ⟨_, done, by rw [rendered, done], shows⟩
  · intro number
    rw [decide_eq_false number, Option.isSome_eq_false_iff,
      Option.isNone_iff_eq_none] at framed
    have refused : d.render frame = .error (.wrongSize frame.length) := by
      rw [render, framed]
    exact ⟨refused, by rw [rendered, refused]⟩

/-- The top left cell, four pixels high and wide from the top left of the
picture, after a frame that is refused and one with every cell lit. -/
theorem render_enlarges_corner :
    (1 ≤ 4 ∧ ((7 : Byte) :: List.replicate 2047 0).length = 2048) ∧
      ∃ after,
        (renderedAll { scale := 4 } [[1], List.replicate 2048 1]).rendered
          (7 :: List.replicate 2047 0) = after ∧
        after.picture[124]?.bind (·[3]?) = some .white ∧
        after.picture[123]?.bind (·[3]?) = some .black ∧
        after.picture[124]?.bind (·[4]?) = some .black ∧
        after.picture[0]?.bind (·[0]?) = some .black := by
  have number : ((7 : Byte) :: List.replicate 2047 0).length = 2048 := by
    rw [List.length_cons, List.length_replicate]
  obtain ⟨-, -, shown, -⟩ := @render_enlarges 4 (by decide)
    [[1], List.replicate 2048 1] (7 :: List.replicate 2047 0)
  obtain ⟨after, -, same, shows⟩ := shown number
  refine ⟨⟨by decide, number⟩, after, same, ?_, ?_, ?_, ?_⟩
  · obtain ⟨cell, lit, colour, -⟩ := shows.pixel 3 124 (by decide) (by decide)
    cases lit
    exact colour
  · obtain ⟨cell, dark, colour, -⟩ := shows.pixel 3 123 (by decide) (by decide)
    cases dark
    exact colour
  · obtain ⟨cell, dark, colour, -⟩ := shows.pixel 4 124 (by decide) (by decide)
    cases dark
    exact colour
  · obtain ⟨cell, dark, colour, -⟩ := shows.pixel 0 0 (by decide) (by decide)
    have last : ((7 : Byte) :: List.replicate 2047 0)[1984]? = some 0 := by
      rw [List.getElem?_cons_succ, List.getElem?_replicate_of_lt (by decide)]
    cases last.symm.trans dark
    exact colour

end Display

end Chip8
