import Chip8.Proofs.Machine.Completion
import Chip8.Proofs.Machine.Picture

/-!
# Sprites

The picture of a sprite is told by its registers and the bytes from I on.  A
draw lays it over the screen and raises VF where the two collide: drawing the
picture again takes it off, and of several pictures any may come first.
-/

namespace Chip8.Machine

variable {m : Machine} {w : Word} {keys : Option Snapshot}

/-- Whether a sprite of `n` rows from I on, drawn at Vx and Vy, has a set bit
over a cell.  Rows that are not in memory have none. -/
def spriteBit (m : Machine) (x y : Register) (n : Nat) (cx cy : Int) : Bool :=
  let column := (cx - (m.v x).toNat % 64) % 64
  let row := (cy - (m.v y).toNat % 32) % 32
  decide (row < n ∧ column < 8) &&
    m.memory.bytes[(m.index + row).toNat]?.any fun b =>
      b.toNat.testBit (7 - column).toNat

def sprite (m : Machine) (x y : Register) (n : Nat) : Screen :=
  .plot (m.spriteBit x y n)

def Reports (m : Machine) (collision : Prop) : Prop :=
  (collision → m.v 0xF = 1) ∧ (¬ collision → m.v 0xF = 0)

@[simp] theorem pixel_sprite (m : Machine) (x y : Register) (n : Nat)
    (cx cy : Int) :
    (m.sprite x y n).pixel cx cy = m.spriteBit x y n cx cy := by
  have column : (cx % 64 - (m.v x).toNat % 64) % 64 =
      (cx - (m.v x).toNat % 64) % 64 := by omega
  have row : (cy % 32 - (m.v y).toNat % 32) % 32 =
      (cy - (m.v y).toNat % 32) % 32 := by omega
  simp only [sprite, Screen.pixel_plot, spriteBit, column, row]

theorem getElem?_rows (m : Machine) (n : Nat) {row : Int} (low : 0 ≤ row) :
    ((m.memory.bytes.toList.drop m.registers.index.toNat).take n)[row.toNat]? =
      if row < n then m.memory.bytes[(m.index + row).toNat]? else none := by
  have address : (m.index + row).toNat =
      m.registers.index.toNat + row.toNat := by
    rw [index]
    omega
  have count : row.toNat < n ↔ row < n := by omega
  rw [List.getElem?_take, List.getElem?_drop, address]
  simp [count]

theorem sprite_of_rows (m : Machine) (x y : Register) (n : Nat) :
    Screen.sprite (m.drawOrigin x y).1 (m.drawOrigin x y).2
        ((m.memory.bytes.toList.drop m.registers.index.toNat).take n) =
      m.sprite x y n := by
  apply Screen.ext_pixel
  intro cx cy
  have left : ((m.drawOrigin x y).1 : Int) = (m.v x).toNat % 64 := rfl
  have top : ((m.drawOrigin x y).2 : Int) = (m.v y).toNat % 32 := rfl
  have low : 0 ≤ (cy - (m.v y).toNat % 32) % 32 := by omega
  rw [pixel_sprite, Screen.pixel_sprite, left, top, m.getElem?_rows n low,
    spriteBit]
  by_cases inside : (cy - (m.v y).toNat % 32) % 32 < n
  · simp only [inside, if_true, true_and]
  · simp only [inside, if_false, false_and, decide_false, Option.any_none,
      Bool.and_false, Bool.false_and]

theorem fst_draw (m : Machine) (x y : Register) {n : Nat} (h : n ≤ 32) :
    (m.draw x y n).1 =
      { m with
        screen := m.screen.overlay (m.sprite x y n)
        registers :=
          m.registers.setFlag (m.screen.meets (m.sprite x y n)) } := by
  have rows := m.memory.fst_readRun m.registers.index.toNat n
  have short := m.memory.length_readRun_le m.registers.index.toNat n
  have drawn := m.screen.draw_eq_stamp (m.drawOrigin x y).1
    (m.drawOrigin x y).2 (Nat.le_trans short h)
  rw [rows, sprite_of_rows] at drawn
  simp only [draw, fst_finish, index, rows, drawn, Screen.stamp]

theorem snd_draw_of_fits (m : Machine) (x y : Register) {n : Nat}
    (fits : n = 0 ∨ m.registers.index.toNat + n ≤ 4096) :
    (m.draw x y n).2 = .ok () := by
  rw [snd_draw, m.accessed_of_fits fits]

theorem meets_sprite_iff (screen : Screen) (m : Machine) (x y : Register)
    (n : Nat) :
    screen.meets (m.sprite x y n) = true ↔
      ∃ cx cy, m.spriteBit x y n cx cy = true ∧ screen.pixel cx cy = true := by
  simp only [Screen.meets_iff, pixel_sprite, and_comm]

theorem perform_of_draw (m : Machine) (keys : Option Snapshot)
    (group : w.group = 0xD) :
    m.perform keys w =
      ((m.withKeys keys).advance w).draw w.x w.y w.n.val := by
  rw [perform, decode_of_form (show Op.draw.Form w from group)]
  rfl

theorem fst_perform_of_draw (m : Machine) (keys : Option Snapshot)
    (group : w.group = 0xD) :
    (m.perform keys w).1 =
      { (m.withKeys keys).advance w with
        screen := m.screen.overlay (m.sprite w.x w.y w.n.val)
        registers := m.registers.setFlag
          (m.screen.meets (m.sprite w.x w.y w.n.val)) } := by
  rw [m.perform_of_draw keys group, fst_draw _ _ _ (by omega)]
  rfl

theorem screen_perform_of_draw (m : Machine) (keys : Option Snapshot)
    (group : w.group = 0xD) :
    (m.perform keys w).1.screen =
      m.screen.overlay (m.sprite w.x w.y w.n.val) := by
  rw [m.fst_perform_of_draw keys group]

theorem reports_perform_of_draw (m : Machine) (keys : Option Snapshot)
    (group : w.group = 0xD) :
    (m.perform keys w).1.Reports
      (m.screen.meets (m.sprite w.x w.y w.n.val) = true) := by
  rw [m.fst_perform_of_draw keys group]
  cases m.screen.meets (m.sprite w.x w.y w.n.val) <;>
    simp [Reports, v, Registers.setFlag, Registers.flagRegister]

theorem cycle_of_draw (executed : m.executes? (.cycle keys) = some w)
    (group : w.group = 0xD) (fits : w.n = 0 ∨ m.index + w.n.val ≤ 4096) :
    m.cycle keys = ((m.perform keys w).1, .ok (m.answer keys w)) := by
  obtain ⟨_, ⟨rfl⟩, valid, running, fetched⟩ := executes?_eq_some_iff.mp executed
  apply cycle_of_perform valid running fetched
  rw [m.perform_of_draw keys group]
  apply snd_draw_of_fits
  refine fits.imp (congrArg Fin.val) fun room => ?_
  change m.registers.index.toNat + w.n.val ≤ 4096
  rw [index] at room
  omega

theorem draw_cell_by_cell (m : Machine) (keys : Option Snapshot) (w : Word)
    (executed : m.executes? (.cycle keys) = some w) (group : w.group = 0xD)
    (fits : w.n = 0 ∨ m.index + w.n.val ≤ 4096) :
    let after := (m.cycle keys).1
    let bit := m.spriteBit w.x w.y w.n.val
    (∃ out, (m.cycle keys).2 = .ok out ∧ out.updated = true ∧
      out.screen = after.screen) ∧
    (∀ cx cy, after.screen.pixel cx cy = (m.screen.pixel cx cy ^^ bit cx cy)) ∧
    after.Reports
      (∃ cx cy, bit cx cy = true ∧ m.screen.pixel cx cy = true) := by
  have redraws : (decode w).instruction.redraws = true := by
    rw [decode_of_form (show Op.draw.Form w from group)]
    rfl
  rw [cycle_of_draw executed group fits]
  intro after bit
  refine ⟨⟨_, rfl, redraws, rfl⟩, ?_, ?_⟩
  · intro cx cy
    simp [after, bit, m.screen_perform_of_draw keys group]
  · rw [← meets_sprite_iff]
    exact m.reports_perform_of_draw keys group

/-- One row across the right edge of a blank screen, at VF and VE. -/
theorem draw_cell_by_cell_wrapped :
    ∃ start, boot (.repeating #[]) [0xDF, 0xE1] = .ok start ∧
      let m : Machine := { start with
        registers := { v := .replicate 16 62, index := 0x200 } }
      m.executes? (.cycle none) = some 0xDFE1 ∧
      Word.group 0xDFE1 = 0xD ∧
      (Word.n 0xDFE1 = 0 ∨ m.index + (Word.n 0xDFE1).val ≤ 4096) ∧
      (m.cycle none).1.screen.pixel 63 30 = true ∧
      (m.cycle none).1.screen.pixel 0 30 = false ∧
      (m.cycle none).1.screen.pixel 1 30 = true ∧
      (m.cycle none).1.v 0xF = 0 := by
  obtain ⟨start, booted⟩ := exists_boot (.repeating #[])
    (show ([0xDF, 0xE1] : List Byte).length ≤ Memory.capacity by decide)
  refine ⟨start, booted, ?_⟩
  intro m
  have fetched : m.fetch? = some 0xDFE1 := fetch?_of_boot booted rfl rfl rfl
  have byte : m.memory.bytes[0x200] = 0xDF :=
    getElem_memory_of_boot booted (k := 0) (by decide) (by decide) rfl
  have blank : m.screen = .blank := (screen_of_boot booted :)
  have executed : m.executes? (.cycle none) = some 0xDFE1 :=
    (executes?_cycle validKeys_none (running_of_boot booted).1).trans fetched
  have room : m.index + (Word.n 0xDFE1).val ≤ 4096 :=
    show ((0x200 : Word).toNat : Int) + (Word.n 0xDFE1).val ≤ 4096 by decide
  have bits : ∀ cx, m.spriteBit 0xF 0xE 1 cx 30 =
      (decide ((cx - 62) % 64 < 8) &&
        Nat.testBit 0xDF (7 - (cx - 62) % 64).toNat) := by
    intro cx
    have left : m.v 0xF = 62 := rfl
    have top : m.v 0xE = 62 := rfl
    have index : m.index = 0x200 := rfl
    simp [spriteBit, left, top, index, byte]
  obtain ⟨-, cells, flag⟩ :=
    draw_cell_by_cell m none _ executed rfl (.inr room)
  rw [blank] at cells flag
  refine ⟨executed, rfl, .inr room, ?_, ?_, ?_, ?_⟩
  · rw [cells, Screen.pixel_blank, Bool.false_xor]
    exact (bits 63).trans (by decide)
  · rw [cells, Screen.pixel_blank, Bool.false_xor]
    exact (bits 0).trans (by decide)
  · rw [cells, Screen.pixel_blank, Bool.false_xor]
    exact (bits 1).trans (by decide)
  · apply flag.2
    simp

/-! ## Drawing twice -/

structure SameSprite (m m' : Machine) (x y : Register) (n : Nat) : Prop where
  left : m'.v x = m.v x
  top : m'.v y = m.v y
  index : m'.index = m.index
  rows : ∀ a : Nat, m.index ≤ a → a < m.index + n →
    m'.memory.bytes[a]? = m.memory.bytes[a]?

theorem SameSprite.sprite {m m' : Machine} {x y : Register} {n : Nat}
    (h : SameSprite m m' x y n) : m'.sprite x y n = m.sprite x y n := by
  apply Screen.ext_pixel
  intro cx cy
  have low : 0 ≤ (cy - (m.v y).toNat % 32) % 32 := by omega
  have start : 0 ≤ m.index := Int.natCast_nonneg _
  rw [pixel_sprite, pixel_sprite, spriteBit, spriteBit, h.left, h.top, h.index]
  generalize (cy - (m.v y).toNat % 32) % 32 = row at low ⊢
  by_cases inside : row < n
  · rw [h.rows (m.index + row).toNat (by omega) (by omega)]
  · simp [inside]

theorem SameSprite.perform (m : Machine) (keys : Option Snapshot)
    (group : w.group = 0xD) (plain : w.x ≠ 0xF ∧ w.y ≠ 0xF) :
    SameSprite m (m.perform keys w).1 w.x w.y w.n.val := by
  rw [m.fst_perform_of_draw keys group]
  exact ⟨m.registers.get_setFlag_of_ne _ plain.1,
    m.registers.get_setFlag_of_ne _ plain.2, rfl, fun _ _ _ => rfl⟩

theorem meets_overlay_sprite_iff (screen : Screen) (m : Machine)
    (x y : Register) (n : Nat) :
    (screen.overlay (m.sprite x y n)).meets (m.sprite x y n) = true ↔
      ∃ cx cy, m.spriteBit x y n cx cy = true ∧ screen.pixel cx cy = false := by
  rw [meets_sprite_iff]
  refine exists_congr fun cx => exists_congr fun cy => and_congr_right ?_
  intro set
  simp [set]

/-- Two draws of one sprite leave the screen as it was.  Each collides with what
the other does not. -/
theorem draw_twice (m next : Machine) (keys keys' : Option Snapshot) (w : Word)
    (group : w.group = 0xD) (plain : w.x ≠ 0xF ∧ w.y ≠ 0xF)
    (fits : w.n = 0 ∨ m.index + w.n.val ≤ 4096)
    (first : m.executes? (.cycle keys) = some w)
    (second : next.executes? (.cycle keys') = some w)
    (same : SameSprite (m.cycle keys).1 next w.x w.y w.n.val)
    (screen : next.screen = (m.cycle keys).1.screen) :
    let once := (m.cycle keys).1
    let twice := (next.cycle keys').1
    let bit := m.spriteBit w.x w.y w.n.val
    (∃ out, (m.cycle keys).2 = .ok out) ∧
    (∃ out, (next.cycle keys').2 = .ok out) ∧
    twice.screen = m.screen ∧
    once.Reports (∃ cx cy, bit cx cy = true ∧ m.screen.pixel cx cy = true) ∧
    twice.Reports (∃ cx cy, bit cx cy = true ∧ m.screen.pixel cx cy = false) ∧
    ((∃ cx cy, bit cx cy = true) →
      (once.v 0xF = 1 ∨ twice.v 0xF = 1) ∧
      (m.screen = .blank → once.v 0xF = 0 ∧ twice.v 0xF = 1)) := by
  have cycled := cycle_of_draw first group fits
  rw [cycled] at same screen
  have kept := SameSprite.perform m keys group plain
  have index : next.index = m.index := same.index.trans kept.index
  have cycled' := cycle_of_draw second group (by rwa [index])
  have sprite : next.sprite w.x w.y w.n.val = m.sprite w.x w.y w.n.val :=
    same.sprite.trans kept.sprite
  have drawn := m.screen_perform_of_draw keys group
  have drawn' := next.screen_perform_of_draw keys' group
  rw [sprite, screen, drawn, Screen.overlay_overlay_self] at drawn'
  have hits := m.reports_perform_of_draw keys group
  have misses := next.reports_perform_of_draw keys' group
  rw [meets_sprite_iff] at hits
  rw [sprite, screen, drawn, meets_overlay_sprite_iff] at misses
  rw [cycled, cycled']
  refine ⟨⟨_, rfl⟩, ⟨_, rfl⟩, drawn', hits, misses, ?_⟩
  rintro ⟨cx, cy, set⟩
  constructor
  · cases lit : m.screen.pixel cx cy with
    | true => exact .inl (hits.1 ⟨cx, cy, set, lit⟩)
    | false => exact .inr (misses.1 ⟨cx, cy, set, lit⟩)
  · intro blank
    rw [blank] at hits misses
    exact ⟨hits.2 (by simp), misses.1 ⟨cx, cy, set, by simp⟩⟩

theorem draw_twice_blank :
    ∃ start, boot (.repeating #[]) [0xD0, 0x11, 0xD0, 0x11] = .ok start ∧
      let m : Machine := { start with registers := { index := 0x200 } }
      let next := (m.cycle none).1
      Word.group 0xD011 = 0xD ∧
      (Word.x 0xD011 ≠ 0xF ∧ Word.y 0xD011 ≠ 0xF) ∧
      (Word.n 0xD011 = 0 ∨ m.index + (Word.n 0xD011).val ≤ 4096) ∧
      m.executes? (.cycle none) = some 0xD011 ∧
      next.executes? (.cycle none) = some 0xD011 ∧
      SameSprite next next (Word.x 0xD011) (Word.y 0xD011)
        (Word.n 0xD011).val ∧
      (next.cycle none).1.screen = m.screen ∧
      next.v 0xF = 0 ∧ (next.cycle none).1.v 0xF = 1 := by
  obtain ⟨start, booted⟩ := exists_boot (.repeating #[])
    (show ([0xD0, 0x11, 0xD0, 0x11] : List Byte).length ≤ Memory.capacity by
      decide)
  refine ⟨start, booted, ?_⟩
  intro m next
  obtain ⟨running, pc⟩ := running_of_boot booted
  have fetched : m.fetch? = some 0xD011 := fetch?_of_boot booted rfl rfl rfl
  have executed : m.executes? (.cycle none) = some 0xD011 :=
    (executes?_cycle validKeys_none running).trans fetched
  have room : m.index + (Word.n 0xD011).val ≤ 4096 :=
    show ((0x200 : Word).toNat : Int) + (Word.n 0xD011).val ≤ 4096 by decide
  have left : next = (m.perform none 0xD011).1 := after_of_executes executed
  rw [m.fst_perform_of_draw none rfl] at left
  have executed' : next.executes? (.cycle none) = some 0xD011 := by
    have running' : next.awaiting = none := by
      rw [left]
      exact running
    have pc' : next.pc = (Memory.programStart + 2 : Nat) := by
      rw [left]
      exact congrArg (· + 2) pc
    have memory : next.memory = start.memory := by
      rw [left]
      rfl
    have word : Word.ofBytes 0xD0 0x11 = 0xD011 := by decide
    rw [executes?_cycle validKeys_none running', fetch?_eq_some_iff, memory,
      pc', ← word]
    exact ⟨by decide, readWord_of_boot booted (k := 2) (by decide)⟩
  have same : SameSprite next next (Word.x 0xD011) (Word.y 0xD011)
      (Word.n 0xD011).val := ⟨rfl, rfl, rfl, fun _ _ _ => rfl⟩
  have bit : m.spriteBit 0 1 1 0 0 = true := by
    have byte : m.memory.bytes[0x200] = 0xD0 :=
      getElem_memory_of_boot booted (k := 0) (by decide) (by decide) rfl
    have index : m.index = 0x200 := rfl
    have left : m.v 0 = 0 := rfl
    have top : m.v 1 = 0 := rfl
    have set : Nat.testBit 0xD0 7 = true := by decide
    simp [spriteBit, index, left, top, byte, set]
  obtain ⟨-, -, restored, -, -, flags⟩ := draw_twice m next none none _ rfl
    (by decide) (.inr room) executed executed' same rfl
  obtain ⟨-, blank⟩ := flags ⟨0, 0, bit⟩
  have flags := blank (screen_of_boot booted :)
  exact ⟨rfl, by decide, .inr room, executed, executed', same, restored, flags⟩

/-! ## Several sprites -/

/-- A draw, with the registers as they are set up for it. -/
structure Drawing where
  registers : Registers
  x : Register
  y : Register
  height : Nibble

def Drawing.Fits (d : Drawing) : Prop :=
  d.height = 0 ∨ d.registers.index.toNat + d.height.val ≤ 4096

def ready (m : Machine) (d : Drawing) : Machine :=
  { m with registers := d.registers }

def drawAll (m : Machine) : List Drawing → Outcome
  | [] => m.done
  | d :: rest =>
      match (m.ready d).execute (.draw d.x d.y d.height) with
      | (after, .ok ()) => after.drawAll rest
      | failed => failed

def picture (m : Machine) (d : Drawing) : Screen :=
  (m.ready d).sprite d.x d.y d.height.val

theorem picture_of_memory {m m' : Machine} (h : m'.memory = m.memory) :
    m'.picture = m.picture := by
  funext d
  apply SameSprite.sprite
  exact ⟨rfl, rfl, rfl, fun a _ _ => congrArg (·.bytes[a]?) h⟩

theorem drawAll_cons_of_fits (m : Machine) {d : Drawing} (fits : d.Fits)
    (rest : List Drawing) :
    ∃ after : Machine, m.drawAll (d :: rest) = after.drawAll rest ∧
      after.memory = m.memory ∧
      after.screen = m.screen.overlay (m.picture d) := by
  have left := (m.ready d).fst_draw d.x d.y (show d.height.val ≤ 32 by omega)
  have done := (m.ready d).snd_draw_of_fits d.x d.y
    (fits.imp_left (congrArg Fin.val))
  refine ⟨((m.ready d).draw d.x d.y d.height.val).1, ?_, ?_, ?_⟩
  · rw [drawAll, execute]
    revert done
    rcases (m.ready d).draw d.x d.y d.height.val with ⟨after, result⟩
    rintro ⟨⟩
    rfl
  · rw [left]
    rfl
  · rw [left]
    rfl

theorem drawAll_of_fits (m : Machine) {ds : List Drawing}
    (fits : ∀ d ∈ ds, d.Fits) :
    (m.drawAll ds).2 = .ok () ∧
      (m.drawAll ds).1.screen =
        (ds.map m.picture).foldl Screen.overlay m.screen := by
  induction ds generalizing m with
  | nil => exact ⟨rfl, rfl⟩
  | cons d rest ih =>
      rw [List.forall_mem_cons] at fits
      obtain ⟨after, same, memory, screen⟩ := m.drawAll_cons_of_fits fits.1 rest
      rw [same, List.map_cons, List.foldl_cons, ← screen,
        ← picture_of_memory memory]
      exact ih after fits.2

theorem drawAll_perm (m : Machine) (ds es : List Drawing) (perm : ds.Perm es)
    (fits : ∀ d ∈ ds, d.Fits) :
    (m.drawAll ds).2 = .ok () ∧ (m.drawAll es).2 = .ok () ∧
      (m.drawAll ds).1.screen = (m.drawAll es).1.screen := by
  obtain ⟨done, screen⟩ := m.drawAll_of_fits fits
  obtain ⟨done', screen'⟩ := m.drawAll_of_fits fun d mem =>
    fits d (perm.mem_iff.mpr mem)
  refine ⟨done, done', ?_⟩
  rw [screen, screen']
  apply (perm.map m.picture).foldl_eq'
  intro p _ q _ s
  exact Screen.overlay_right_comm s p q

theorem drawAll_perm_glyphs :
    let m := initial (.repeating #[])
    let a : Drawing := ⟨{ v := .replicate 16 62, index := 0 }, 0x0, 0x1, 5⟩
    let b : Drawing := ⟨{ v := .replicate 16 63, index := 5 }, 0xF, 0xF, 15⟩
    [a, b].Perm [b, a] ∧ (∀ d ∈ [a, b], d.Fits) ∧
      (m.drawAll [a, b]).2 = .ok () ∧ (m.drawAll [b, a]).2 = .ok () ∧
      (m.drawAll [a, b]).1.screen = (m.drawAll [b, a]).1.screen := by
  intro m a b
  have perm : [a, b].Perm [b, a] := .swap ..
  have first : a.Fits := .inr (show (0 : Word).toNat + 5 ≤ 4096 by decide)
  have second : b.Fits := .inr (show (5 : Word).toNat + 15 ≤ 4096 by decide)
  have fits : ∀ d ∈ [a, b], d.Fits := by
    simp only [List.forall_mem_cons, List.not_mem_nil, first, second, true_and,
      false_implies, implies_true]
  exact ⟨perm, fits, drawAll_perm m _ _ perm fits⟩

end Chip8.Machine
