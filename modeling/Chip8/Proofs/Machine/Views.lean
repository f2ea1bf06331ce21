import Mathlib.Data.List.FinRange
import Chip8.Machine.Screen
import Chip8.Proofs.Latest

/-!
# Views of the screen

Whatever is read of a screen is read from one table of cells, 32 rows of 64: a
pixel at any coordinates, a cell by its number, the snapshot, the rows and the
text.  The table is made by what was done to the screen: a cell is as it was
last set, if the screen has not been reset since.
-/

namespace Chip8.Screen

/-! ## Rows -/

theorem getElem?_row (s : Screen) (y : Fin 32) {x : Nat} (inside : x < 64) :
    (s.row y)[x]? = s.snapshot[y.val * 64 + x]? := by
  rw [row, List.getElem?_take_of_lt (by exact inside), List.getElem?_drop]
  rfl

theorem length_row (s : Screen) (y : Fin 32) : (s.row y).length = 64 := by
  simp [row, size, width, height]
  omega

@[simp] theorem length_rows (s : Screen) : s.rows.length = 32 := by
  simp [rows]

theorem getElem?_rows (s : Screen) {y : Nat} (inside : y < 32) :
    s.rows[y]? = some (s.row ⟨y, inside⟩) := by
  rw [rows, List.getElem?_map, List.getElem?_eq_getElem (by simpa using inside),
    List.getElem_finRange]
  rfl

/-! ## The table -/

/-- 32 rows from the top, of 64 cells each from the left. -/
abbrev Table := Fin 32 → Fin 64 → Bool

namespace Table

def cell (t : Table) (i : Fin 2048) : Bool :=
  t ⟨i.val / 64, by omega⟩ ⟨i.val % 64, by omega⟩

theorem cell_of_number (t : Table) (y : Fin 32) (x : Fin 64)
    (inside : y.val * 64 + x.val < 2048) :
    t.cell ⟨y.val * 64 + x.val, inside⟩ = t y x := by
  have row : (y.val * 64 + x.val) / 64 = y.val := by omega
  have column : (y.val * 64 + x.val) % 64 = x.val := by omega
  simp only [cell, row, column]

theorem flatten_rows (t : Table) :
    (List.ofFn fun y => List.ofFn (t y)).flatten = List.ofFn t.cell := by
  rw [@List.ofFn_mul _ 32 64 t.cell]
  simp only [cell_of_number]

theorem toNat_fmod_lt (x : Int) {n : Nat} (positive : 0 < n) :
    (x.fmod n).toNat < n := by
  have := Int.fmod_lt_of_pos x (show (0 : Int) < n by omega)
  omega

def wrapped (t : Table) (x y : Int) : Bool :=
  t ⟨(y.fmod 32).toNat, toNat_fmod_lt y (by decide)⟩
    ⟨(x.fmod 64).toNat, toNat_fmod_lt x (by decide)⟩

end Table

def cellsOf (text : String) : List Bool :=
  (text.toList.splitOn '\n').flatten.map (· == '#')

structure Views (s : Screen) (t : Table) : Prop where
  pixel : ∀ x y, s.pixel x y = t.wrapped x y
  get : ∀ i : Fin 2048, s.get i.val = .ok (t.cell i)
  snapshot : s.snapshot = List.ofFn t.cell
  bytes : s.bytes = List.ofFn fun i => if t.cell i then 1 else 0
  rows : s.rows = List.ofFn fun y => List.ofFn (t y)
  lines : s.text.toList.splitOn '\n' =
    List.ofFn fun y => List.ofFn fun x => if t y x then '#' else '.'
  readBack : cellsOf s.text = s.snapshot

def table (s : Screen) : Table := fun y x =>
  s.cells[y.val * 64 + x.val]

theorem cell_table (s : Screen) (i : Fin 2048) :
    s.table.cell i = s.cells.get i := by
  simp only [Table.cell, table, Nat.div_add_mod']
  rfl

theorem wrapped_table (s : Screen) (x y : Int) :
    s.table.wrapped x y = s.pixel x y := by
  have column : x.fmod 64 = x % 64 := Int.fmod_eq_emod_of_nonneg x (by decide)
  have row : y.fmod 32 = y % 32 := Int.fmod_eq_emod_of_nonneg y (by decide)
  simp only [Table.wrapped, table, pixel, cellIndex, column, row]
  rfl

theorem get_eq_cell (s : Screen) (i : Fin 2048) :
    s.get i.val = .ok (s.table.cell i) := by
  rw [cell_table, s.get_eq_ok ⟨by omega, by omega⟩]
  rfl

theorem snapshot_eq_cells (s : Screen) :
    s.snapshot = List.ofFn s.table.cell := by
  apply List.ext_getElem
  · rw [length_snapshot, List.length_ofFn]
    rfl
  · intro i inside _
    rw [List.getElem_ofFn, cell_table]
    exact Vector.getElem_toList _

theorem row_eq_cells (s : Screen) (y : Fin 32) :
    s.row y = List.ofFn (s.table y) := by
  apply List.ext_getElem?
  intro x
  by_cases inside : x < 64
  · have number : y.val * 64 + x < 2048 := by omega
    rw [s.getElem?_row y inside, snapshot_eq_cells, List.getElem?_ofFn,
      List.getElem?_ofFn, dif_pos inside, dif_pos number]
    exact congrArg some (s.table.cell_of_number y ⟨x, inside⟩ number)
  · rw [List.getElem?_eq_none (by rw [length_row]; omega),
      List.getElem?_eq_none (by simpa using inside)]

theorem rows_eq_cells (s : Screen) :
    s.rows = List.ofFn fun y => List.ofFn (s.table y) := by
  rw [List.ofFn_eq_map]
  exact List.map_congr_left fun y _ => s.row_eq_cells y

/-! ## Text -/

def mark (lit : Bool) : Char := if lit then '#' else '.'

theorem lines_text (s : Screen) :
    s.text.toList.splitOn '\n' = s.rows.map (·.map mark) := by
  have joined :
      s.text.toList = ['\n'].intercalate (s.rows.map (·.map mark)) := by
    rw [text, String.toList_intercalate, List.map_map]
    simp only [Function.comp_def, String.toList_ofList]
    rfl
  rw [joined]
  apply List.splitOn_intercalate
  · intro line mem
    obtain ⟨cells, -, rfl⟩ := List.mem_map.mp mem
    simp [mark]
  · rw [← List.length_pos_iff, List.length_map, length_rows]
    decide

theorem cellsOf_text (s : Screen) : cellsOf s.text = s.snapshot := by
  rw [cellsOf, lines_text, ← List.map_flatten, List.map_map, rows_eq_cells,
    Table.flatten_rows, ← snapshot_eq_cells]
  apply List.map_id''
  intro lit
  cases lit <;> rfl

theorem views_table (s : Screen) : s.Views s.table where
  pixel x y := (s.wrapped_table x y).symm
  get := s.get_eq_cell
  snapshot := s.snapshot_eq_cells
  bytes := by rw [bytes, snapshot_eq_cells, List.map_ofFn]; rfl
  rows := s.rows_eq_cells
  lines := by
    rw [lines_text, rows_eq_cells, List.map_ofFn]
    simp only [Function.comp_def, List.map_ofFn]
    rfl
  readBack := s.cellsOf_text

/-! ## History -/

inductive Operation (α : Type) where
  | get (index : Int)
  | set (index : Int) (value : α)
  | reset

variable {α : Type} (truth : α → Bool)

/-- The screen after an operation, and the cell that it answers, if it gets
one.  A value lights a cell if it counts as true. -/
def perform (s : Screen) : Operation α → Screen × Except Outside (Option Bool)
  | .get index => (s, (s.get index).map some)
  | .set index value =>
      match s.set index (truth value) with
      | .ok after => (after, .ok none)
      | .error e => (s, .error e)
  | .reset => (blank, .ok none)

def performAll (s : Screen) (operations : List (Operation α)) : Screen :=
  operations.foldl (fun s operation => (s.perform truth operation).1) s

namespace Operation

inductive Fails : Operation α → Outside → Prop
  | get {index : Int} (outside : index < 0 ∨ 2047 < index) :
      Fails (.get index) ⟨index⟩
  | set {index : Int} {value : α} (outside : index < 0 ∨ 2047 < index) :
      Fails (.set index value) ⟨index⟩

def put? (i : Nat) : Operation α → Option Bool
  | .get _ => none
  | .set index value => if index = i then some (truth value) else none
  | .reset => some false

end Operation

theorem perform_of_fails (s : Screen) {operation : Operation α} {e : Outside}
    (h : operation.Fails e) : s.perform truth operation = (s, .error e) := by
  cases h with
  | get outside =>
      rw [perform, s.get_eq_error (by omega)]
      rfl
  | set outside => rw [perform, s.set_eq_error _ (by omega)]

theorem perform_eq_error_iff (s : Screen) (operation : Operation α)
    (e : Outside) :
    (s.perform truth operation).2 = .error e ↔ operation.Fails e := by
  refine ⟨fun failed => ?_, fun h => by rw [perform_of_fails truth s h]⟩
  cases operation with
  | get index =>
      by_cases inside : 0 ≤ index ∧ index < 2048
      · rw [perform, s.get_eq_ok inside] at failed
        cases failed
      · rw [perform, s.get_eq_error inside] at failed
        cases failed
        exact .get (by omega)
  | set index value =>
      by_cases inside : 0 ≤ index ∧ index < 2048
      · rw [perform, s.set_eq_ok _ inside] at failed
        cases failed
      · rw [perform, s.set_eq_error _ inside] at failed
        cases failed
        exact .set (by omega)
  | reset => cases failed

theorem cell_perform (s : Screen) (operation : Operation α) (i : Fin 2048) :
    (s.perform truth operation).1.cells.get i =
      (operation.put? truth i).getD (s.cells.get i) := by
  change (s.perform truth operation).1.cells[i] =
    (operation.put? truth i).getD s.cells[i]
  cases operation with
  | get index => rfl
  | set index value =>
      rw [Operation.put?]
      by_cases inside : 0 ≤ index ∧ index < 2048
      · rw [perform, s.set_eq_ok _ inside]
        by_cases same : index = i.val
        · simp [same]
        · have apart : index.toNat ≠ i.val := by omega
          simp [same, apart]
      · have apart : index ≠ i.val := by omega
        rw [perform, s.set_eq_error _ inside, if_neg apart]
        rfl
  | reset => simp [perform, Operation.put?, blank]

theorem cell_performAll (s : Screen) (operations : List (Operation α))
    (i : Fin 2048) :
    (s.performAll truth operations).cells.get i =
      (latest? (Operation.put? truth i) operations).getD (s.cells.get i) :=
  @view_foldl _ _ _ _ (fun s : Screen => s.cells.get i) _
    (fun s operation => s.cell_perform truth operation i) s operations

/-- Whatever has been done to a new screen, all views of it show one table: each
cell as it was set last, and unlit if the screen has been reset since or the
cell has never been set. -/
theorem views_agree (operations : List (Operation α)) :
    let s := blank.performAll truth operations
    (∃ t : Table, s.Views t ∧ ∀ (y : Fin 32) (x : Fin 64),
      t y x = (latest? (Operation.put? truth (y.val * 64 + x.val))
        operations).getD false) ∧
    (∀ operation e,
      (s.perform truth operation).2 = .error e ↔ operation.Fails e) ∧
    ∀ (operation : Operation α) (e : Outside), operation.Fails e →
      (s.perform truth operation).1 = s := by
  intro s
  refine ⟨⟨s.table, s.views_table, ?_⟩, s.perform_eq_error_iff truth, ?_⟩
  · intro y x
    have number : y.val * 64 + x.val < 2048 := by omega
    have last := cell_performAll truth blank operations ⟨_, number⟩
    have unlit : blank.cells[y.val * 64 + x.val] = false :=
      Vector.getElem_replicate _
    rw [← unlit]
    exact last
  · intro operation e fails
    rw [perform_of_fails truth s fails]

/-- The last cell and its neighbours, after failures and a cell put out. -/
theorem views_agree_corner :
    let s := blank.performAll (· != (0 : Int))
      [.set 62 1, .reset, .set 2047 5, .set 2048 1, .set 1 1, .set 1 0,
        .set (-1) 1]
    s.pixel (-1) (-1) = true ∧ s.pixel 63 0 = false ∧
      s.pixel (-63) 32 = false ∧ s.get 2047 = .ok true ∧
      s.get 62 = .ok false ∧
      (s.perform (· != (0 : Int)) (.set 2048 1)).1 = s := by
  intro s
  obtain ⟨⟨t, views, cells⟩, -, kept⟩ := views_agree (· != (0 : Int))
    [.set 62 1, .reset, .set 2047 5, .set 2048 1, .set 1 1, .set 1 0,
      .set (-1) 1]
  exact ⟨(views.pixel (-1) (-1)).trans ((cells 31 63).trans rfl),
    (views.pixel 63 0).trans ((cells 0 63).trans rfl),
    (views.pixel (-63) 32).trans ((cells 0 1).trans rfl),
    (views.get 2047).trans (congrArg Except.ok ((cells 31 63).trans rfl)),
    (views.get 62).trans (congrArg Except.ok ((cells 0 62).trans rfl)),
    kept _ _ (.set (.inr (by decide)))⟩

end Chip8.Screen
