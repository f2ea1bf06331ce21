import Chip8.Proofs.Latest
import Chip8.Proofs.Machine.Access

/-!
# Memory as a store

Memory holds at each address what was last put there, by a write or by a load,
and else what it held at first.  Whether an operation fails is settled by its
arguments alone, and one that fails puts nothing anywhere.
-/

namespace Chip8

namespace Byte

theorem toNat_ofInt (value : Int) :
    ((Byte.ofInt value).toNat : Int) = value % 256 := by
  simp [Byte.ofInt]
  omega

def toInts (bytes : List Byte) : List Int := bytes.map fun b => (b.toNat : Int)

@[simp] theorem length_toInts (bytes : List Byte) :
    (toInts bytes).length = bytes.length :=
  List.length_map _

theorem of_mem_toInts {bytes : List Byte} {value : Int}
    (mem : value ∈ toInts bytes) : 0 ≤ value ∧ value ≤ 255 := by
  obtain ⟨b, -, rfl⟩ := List.mem_map.mp mem
  have := b.toNat_lt
  omega

theorem ofInts?_toInts (bytes : List Byte) :
    ofInts? (toInts bytes) = some bytes := by
  induction bytes with
  | nil => rfl
  | cons b rest ih =>
      have inside : 0 ≤ (b.toNat : Int) ∧ (b.toNat : Int) < 256 := by
        have := b.toNat_lt
        omega
      rw [toInts, List.map_cons, ofInts?, if_pos inside, ← toInts, ih]
      simp

theorem toInts_of_ofInts? {data : List Int} {bytes : List Byte}
    (h : ofInts? data = some bytes) : data = toInts bytes := by
  induction data generalizing bytes with
  | nil =>
      cases h
      rfl
  | cons value rest ih =>
      rw [ofInts?] at h
      split at h
      · rename_i inside
        obtain ⟨others, found, rfl⟩ := Option.map_eq_some_iff.mp h
        have small : value.toNat < UInt8.size := by
          rw [UInt8.size]
          omega
        rw [toInts, List.map_cons, ← toInts, ← ih found,
          UInt8.toNat_ofNat_of_lt' small, Int.toNat_of_nonneg inside.1]
      · cases h

theorem exists_of_ofInts?_eq_none {data : List Int} (h : ofInts? data = none) :
    ∃ value ∈ data, value < 0 ∨ 255 < value := by
  induction data with
  | nil => cases h
  | cons value rest ih =>
      rw [ofInts?] at h
      split at h
      · obtain ⟨other, mem, outside⟩ := ih (Option.map_eq_none_iff.mp h)
        exact ⟨other, List.mem_cons_of_mem _ mem, outside⟩
      · exact ⟨value, List.mem_cons_self, by omega⟩

end Byte

namespace Memory

def values (m : Memory) : List Int := Byte.toInts m.bytes.toList

inductive Operation where
  | read (address : Int)
  | write (address value : Int)
  | load (data : List Int)

inductive Failure where
  | outside (e : Outside)
  | load (e : LoadError)
  deriving DecidableEq, Repr

def perform (m : Memory) : Operation → Memory × Except Failure (Option Byte)
  | .read address =>
      match m.read address with
      | .ok b => (m, .ok (some b))
      | .error e => (m, .error (.outside e))
  | .write address value =>
      match m.write address (Byte.ofInt value) with
      | .ok written => (written, .ok none)
      | .error e => (m, .error (.outside e))
  | .load data =>
      match m.loadInts data with
      | .ok loaded => (loaded, .ok none)
      | .error e => (m, .error (.load e))

def performAll (m : Memory) (operations : List Operation) : Memory :=
  operations.foldl (fun m operation => (m.perform operation).1) m

namespace Operation

inductive Fails : Operation → Failure → Prop
  | read {address : Int} (outside : address < 0 ∨ 4095 < address) :
      Fails (.read address) (.outside ⟨address⟩)
  | write {address value : Int} (outside : address < 0 ∨ 4095 < address) :
      Fails (.write address value) (.outside ⟨address⟩)
  | notBytes {data : List Int} {value : Int} (mem : value ∈ data)
      (outside : value < 0 ∨ 255 < value) : Fails (.load data) (.load .notBytes)
  | tooLarge {data : List Int} (bytes : ∀ value ∈ data, 0 ≤ value ∧ value ≤ 255)
      (large : 3584 < data.length) :
      Fails (.load data) (.load (.tooLarge data.length))

def put? (a : Nat) : Operation → Option Int
  | .read _ => none
  | .write address value => if address = a then some (value % 256) else none
  | .load data =>
      if (∀ value ∈ data, 0 ≤ value ∧ value ≤ 255) ∧ data.length ≤ 3584 ∧
          0x200 ≤ a
      then data[a - 0x200]?
      else none

end Operation

variable {m : Memory} {data : List Int}

theorem loadInts_toInts (m : Memory) (program : List Byte) :
    m.loadInts (Byte.toInts program) = m.load program := by
  rw [loadInts, Byte.ofInts?_toInts]

theorem exists_of_loadInts {loaded : Memory}
    (h : m.loadInts data = .ok loaded) :
    ∃ program, data = Byte.toInts program ∧ m.load program = .ok loaded := by
  cases found : Byte.ofInts? data with
  | none =>
      rw [loadInts, found] at h
      cases h
  | some program =>
      obtain rfl := Byte.toInts_of_ofInts? found
      exact ⟨program, rfl, (m.loadInts_toInts program).symm.trans h⟩

theorem load_eq_error_iff (m : Memory) (program : List Byte) (e : LoadError) :
    m.load program = .error e ↔
      3584 < program.length ∧ e = .tooLarge program.length := by
  rw [load]
  by_cases fits : program.length ≤ capacity
  · rw [if_pos fits]
    constructor
    · intro h
      cases h
    · rintro ⟨large, -⟩
      exact absurd fits (Nat.not_le_of_lt large)
  · rw [if_neg fits]
    constructor
    · rintro ⟨rfl⟩
      exact ⟨Nat.lt_of_not_le fits, rfl⟩
    · rintro ⟨-, rfl⟩
      rfl

theorem loadInts_eq_error_iff (m : Memory) (data : List Int) (e : LoadError) :
    m.loadInts data = .error e ↔ (Operation.load data).Fails (.load e) := by
  cases found : Byte.ofInts? data with
  | none =>
      obtain ⟨value, mem, outside⟩ := Byte.exists_of_ofInts?_eq_none found
      rw [loadInts, found]
      constructor
      · rintro ⟨rfl⟩
        exact .notBytes mem outside
      · intro fails
        cases fails with
        | notBytes => rfl
        | tooLarge bytes =>
            have := bytes value mem
            omega
  | some program =>
      obtain rfl := Byte.toInts_of_ofInts? found
      rw [loadInts_toInts, load_eq_error_iff, ← Byte.length_toInts]
      constructor
      · rintro ⟨large, rfl⟩
        exact .tooLarge (fun _ => Byte.of_mem_toInts) large
      · intro fails
        cases fails with
        | notBytes mem outside =>
            have := Byte.of_mem_toInts mem
            omega
        | tooLarge _ large => exact ⟨large, rfl⟩

theorem perform_eq_error_iff (m : Memory) (operation : Operation)
    (e : Failure) :
    (m.perform operation).2 = .error e ↔ operation.Fails e := by
  cases operation with
  | read address =>
      by_cases inside : 0 ≤ address ∧ address < 4096
      · rw [perform, m.read_eq_ok inside]
        refine iff_of_false nofun ?_
        rintro ⟨outside⟩
        omega
      · rw [perform, (m.read_eq_error_iff address ⟨address⟩).mpr ⟨inside, rfl⟩]
        constructor
        · rintro ⟨rfl⟩
          exact .read (by omega)
        · rintro ⟨-⟩
          rfl
  | write address value =>
      by_cases inside : 0 ≤ address ∧ address < 4096
      · rw [perform, m.write_eq_ok _ inside]
        refine iff_of_false nofun ?_
        rintro ⟨outside⟩
        omega
      · rw [perform,
          (m.write_eq_error_iff address _ ⟨address⟩).mpr ⟨inside, rfl⟩]
        constructor
        · rintro ⟨rfl⟩
          exact .write (by omega)
        · rintro ⟨-⟩
          rfl
  | load data =>
      cases e with
      | outside e =>
          refine iff_of_false ?_ nofun
          rw [perform]
          cases m.loadInts data <;> exact nofun
      | load e =>
          rw [← m.loadInts_eq_error_iff, perform]
          cases m.loadInts data <;> simp

theorem perform_of_fails {operation : Operation} {e : Failure}
    (h : operation.Fails e) : m.perform operation = (m, .error e) := by
  have failed := (m.perform_eq_error_iff operation e).mpr h
  refine Prod.ext ?_ failed
  cases operation with
  | read address =>
      rw [perform] at failed ⊢
      cases m.read address <;> rfl
  | write address value =>
      rw [perform] at failed ⊢
      cases written : m.write address (Byte.ofInt value) with
      | ok after =>
          rw [written] at failed
          cases failed
      | error e => rfl
  | load data =>
      rw [perform] at failed ⊢
      cases loaded : m.loadInts data with
      | ok after =>
          rw [loaded] at failed
          cases failed
      | error e => rfl

theorem values_of_load {loaded : Memory} {program : List Byte}
    (h : m.load program = .ok loaded) :
    loaded.values = m.values.take 0x200 ++ Byte.toInts program ++
      m.values.drop (0x200 + program.length) := by
  have fits := length_le_of_load h
  rw [capacity, size, programStart] at fits
  have bytes : loaded.bytes.toList = m.bytes.toList.take 0x200 ++ program ++
      m.bytes.toList.drop (0x200 + program.length) := by
    apply List.ext_getElem
    · simp
      omega
    · intro a inside _
      have inside : a < 4096 := by simpa using inside
      rw [Vector.getElem_toList, getElem_load h inside, programStart]
      rw [List.getElem_append]
      by_cases low : a < 0x200
      · simp [low, Nat.lt_add_right]
      · by_cases program_here : a - 0x200 < program.length
        · have front : a < 0x200 + program.length := by omega
          simp [low, front, program_here, List.getElem_append]
        · have back : ¬ a < 0x200 + program.length := by omega
          have rest :
              0x200 + program.length + (a - (0x200 + program.length)) = a := by
            omega
          simp [low, back, program_here, rest]
  rw [values, bytes]
  simp [values, Byte.toInts]

theorem put?_of_fails {operation : Operation} {e : Failure}
    (h : operation.Fails e) {a : Nat} (inside : a < 4096) :
    operation.put? a = none := by
  cases h with
  | read => rfl
  | write outside => exact if_neg (by omega)
  | notBytes mem outside =>
      refine if_neg ?_
      rintro ⟨bytes, -⟩
      have := bytes _ mem
      omega
  | tooLarge _ large =>
      refine if_neg ?_
      rintro ⟨-, fits, -⟩
      omega

theorem byte_of_load {loaded : Memory} {program : List Byte}
    (h : m.load program = .ok loaded) {a : Nat} (inside : a < 4096) :
    (loaded.bytes[a].toNat : Int) =
      ((Operation.load (Byte.toInts program)).put? a).getD
        m.bytes[a].toNat := by
  have fits : (Byte.toInts program).length ≤ 3584 := by
    rw [Byte.length_toInts]
    exact length_le_of_load h
  rw [getElem_load h inside, Operation.put?]
  by_cases low : a < programStart
  · rw [if_pos low, if_neg fun h => absurd h.2.2 (Nat.not_le_of_lt low)]
    rfl
  · rw [if_neg low, if_pos ⟨fun _ => Byte.of_mem_toInts, fits,
      Nat.le_of_not_lt low⟩, Byte.toInts, List.getElem?_map,
      List.getD_eq_getElem?_getD]
    change _ = (program[a - programStart]?.map _).getD _
    cases program[a - programStart]? <;> rfl

theorem byte_perform (m : Memory) (operation : Operation) {a : Nat}
    (inside : a < 4096) :
    ((m.perform operation).1.bytes[a].toNat : Int) =
      (operation.put? a).getD m.bytes[a].toNat := by
  cases result : (m.perform operation).2 with
  | error e =>
      have fails := (m.perform_eq_error_iff operation e).mp result
      rw [perform_of_fails fails, put?_of_fails fails inside]
      rfl
  | ok answer =>
      cases operation with
      | read address =>
          rw [perform]
          cases m.read address <;> rfl
      | write address value =>
          have here : 0 ≤ address ∧ address < 4096 := by
            by_contra outside
            have fails : (Operation.write address value).Fails _ :=
              .write (by omega)
            rw [perform_of_fails fails] at result
            cases result
          rw [perform, m.write_eq_ok _ here, Operation.put?]
          by_cases same : address = a
          · subst same
            simp [Byte.toNat_ofInt]
          · have apart : address.toNat ≠ a := by omega
            simp [same, apart]
      | load data =>
          cases done : m.loadInts data with
          | error e =>
              rw [perform, done] at result
              cases result
          | ok loaded =>
              obtain ⟨program, rfl, ok⟩ := exists_of_loadInts done
              rw [perform, done]
              exact byte_of_load ok inside

/-- Whatever has been asked of memory, an address holds the latest value put
there; an operation fails as its arguments say, and then nothing changes. -/
theorem last_put_wins (operations : List Operation) :
    let m := initial.performAll operations
    m.values.length = 4096 ∧ font.length = 80 ∧
    (∀ a : Nat, a < 4096 → ∃ b, m.perform (.read a) = (m, .ok (some b)) ∧
      (b.toNat : Int) = (latest? (Operation.put? a) operations).getD
        (if a < 80 then (font.getD a 0).toNat else 0)) ∧
    (∀ operation e, (m.perform operation).2 = .error e ↔ operation.Fails e) ∧
    (∀ operation e, operation.Fails e → (m.perform operation).1 = m) ∧
    (∀ data, (∀ e, ¬ (Operation.load data).Fails e) →
      (m.perform (.load data)).1.values =
        m.values.take 0x200 ++ data ++ m.values.drop (0x200 + data.length)) ∧
    ∀ program, m.loadInts (Byte.toInts program) = m.load program := by
  intro m
  refine ⟨?_, rfl, ?_, m.perform_eq_error_iff, ?_, ?_, m.loadInts_toInts⟩
  · rw [values, Byte.length_toInts, Vector.length_toList]
  · intro a inside
    have found := m.read_eq_ok (a := a) ⟨by omega, by omega⟩
    have start : (initial.bytes[a].toNat : Int) =
        if a < 80 then ((font.getD a 0).toNat : Int) else 0 := by
      rw [initial, Vector.getElem_ofFn]
      split
      · rfl
      · rw [List.getD_eq_getElem?_getD,
          List.getElem?_eq_none (show 80 ≤ a by omega)]
        rfl
    refine ⟨m.bytes[a], by rw [perform, found]; rfl, ?_⟩
    rw [← start]
    exact @view_foldl _ _ _ _ (fun m : Memory => (m.bytes[a].toNat : Int)) _
      (fun m operation => m.byte_perform operation inside) initial operations
  · intro operation e fails
    rw [perform_of_fails fails]
  · intro data fine
    cases done : m.loadInts data with
    | error e =>
        exact absurd ((m.loadInts_eq_error_iff data e).mp done) (fine _)
    | ok loaded =>
        obtain ⟨program, rfl, ok⟩ := exists_of_loadInts done
        rw [perform, done, Byte.length_toInts]
        exact values_of_load ok

/-- A shorter program over a longer one, with writes and failures in between. -/
theorem last_put_wins_reloaded :
    let m := initial.performAll
      [.load [1, 2, 3, 4], .write 0x201 300, .write 4096 7, .load [9],
        .load [5, 256]]
    m.perform (.read 0x200) = (m, .ok (some 9)) ∧
      m.perform (.read 0x201) = (m, .ok (some 44)) ∧
      m.perform (.read 0x202) = (m, .ok (some 3)) ∧
      m.perform (.read 4) = (m, .ok (some 0xF0)) ∧
      m.perform (.read 0x1FF) = (m, .ok (some 0)) := by
  intro m
  obtain ⟨-, -, reads, -⟩ := last_put_wins
    [.load [1, 2, 3, 4], .write 0x201 300, .write 4096 7, .load [9],
      .load [5, 256]]
  have found : ∀ (a : Nat) (b : Byte), a < 4096 →
      (latest? (Operation.put? a)
        [.load [1, 2, 3, 4], .write 0x201 300, .write 4096 7, .load [9],
          .load [5, 256]]).getD
        (if a < 80 then (font.getD a 0).toNat else 0) = b.toNat →
      m.perform (.read a) = (m, .ok (some b)) := by
    intro a b inside holds
    obtain ⟨b', read, value⟩ := reads a inside
    rw [holds] at value
    obtain rfl : b' = b := UInt8.toNat.inj (Int.ofNat.inj value)
    exact read
  exact ⟨found 0x200 9 (by decide) (by decide),
    found 0x201 44 (by decide) (by decide),
    found 0x202 3 (by decide) (by decide),
    found 4 0xF0 (by decide) (by decide),
    found 0x1FF 0 (by decide) (by decide)⟩

end Memory

end Chip8
