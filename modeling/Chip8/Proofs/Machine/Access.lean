import Chip8.Machine.Memory

/-!
# Runs of memory accesses

A run of accesses from an address on gets as far as memory goes.  Addresses
are natural numbers here, as those of the index register are.  Loading a
program is one more such run, which is refused when it would not fit.
-/

namespace Chip8.Memory

/-- The result of `count` accesses from `start` on: the first address outside
memory stops them. -/
def runResult (start count : Nat) : Except Outside Unit :=
  if count = 0 ∨ start + count ≤ 4096 then .ok ()
  else .error ⟨(max start 4096 : Nat)⟩

theorem runResult_eq_ok_iff (start count : Nat) :
    runResult start count = .ok () ↔ count = 0 ∨ start + count ≤ 4096 := by
  unfold runResult
  split <;> simp_all

theorem runResult_eq_error_iff (start count : Nat) (e : Outside) :
    runResult start count = .error e ↔
      0 < count ∧ 4096 < start + count ∧ e = ⟨(max start 4096 : Nat)⟩ := by
  unfold runResult
  split
  · simp
    omega
  · simp only [Except.error.injEq]
    constructor
    · intro h
      exact ⟨by omega, by omega, h.symm⟩
    · intro h
      exact h.2.2.symm

private theorem runResult_succ {start : Nat} (count : Nat) (h : start < 4096) :
    runResult start (count + 1) = runResult (start + 1) count := by
  unfold runResult
  grind

private theorem runResult_outside {start : Nat} (count : Nat)
    (h : ¬ start < 4096) :
    runResult start (count + 1) = .error ⟨(start : Nat)⟩ := by
  unfold runResult
  grind

private theorem readRun_inside (m : Memory) {start : Nat} (count : Nat)
    (h : start < 4096) :
    m.readRun start (count + 1) =
      (m.bytes[start] :: (m.readRun (start + 1 : Nat) count).1,
        (m.readRun (start + 1 : Nat) count).2) := by
  rw [readRun, m.read_eq_ok ⟨by omega, by omega⟩]
  simp

private theorem readRun_outside (m : Memory) {start : Nat} (count : Nat)
    (h : ¬ start < 4096) :
    m.readRun start (count + 1) = ([], .error ⟨(start : Nat)⟩) := by
  rw [readRun, (m.read_eq_error_iff start ⟨start⟩).mpr ⟨by omega, rfl⟩]

private theorem writeRun_inside (m : Memory) {start : Nat} (b : Byte)
    (rest : List Byte) (h : start < 4096) :
    m.writeRun start (b :: rest) =
      writeRun ⟨m.bytes.set start b⟩ (start + 1 : Nat) rest := by
  rw [writeRun, m.write_eq_ok b ⟨by omega, by omega⟩]
  simp

private theorem writeRun_outside (m : Memory) {start : Nat} (b : Byte)
    (rest : List Byte) (h : ¬ start < 4096) :
    m.writeRun start (b :: rest) = (m, .error ⟨(start : Nat)⟩) := by
  rw [writeRun, (m.write_eq_error_iff start b ⟨start⟩).mpr ⟨by omega, rfl⟩]

theorem snd_readRun (m : Memory) (start count : Nat) :
    (m.readRun start count).2 = runResult start count := by
  induction count generalizing start with
  | zero => simp [readRun, runResult]
  | succ count ih =>
      by_cases h : start < 4096
      · rw [m.readRun_inside count h, runResult_succ count h, ← ih]
      · rw [m.readRun_outside count h, runResult_outside count h]

theorem fst_readRun (m : Memory) (start count : Nat) :
    (m.readRun start count).1 = (m.bytes.toList.drop start).take count := by
  induction count generalizing start with
  | zero => simp [readRun]
  | succ count ih =>
      by_cases h : start < 4096
      · have inside : start < m.bytes.toList.length := by simp [h]
        rw [m.readRun_inside count h, List.drop_eq_getElem_cons inside,
          List.take_succ_cons, ih]
        simp
      · have beyond : m.bytes.toList.length ≤ start := by simp [Nat.not_lt.mp h]
        rw [m.readRun_outside count h, List.drop_eq_nil_of_le beyond,
          List.take_nil]

theorem length_readRun_le (m : Memory) (start count : Nat) :
    (m.readRun start count).1.length ≤ count := by
  rw [fst_readRun]
  exact List.length_take_le ..

theorem snd_writeRun (m : Memory) (start : Nat) (bytes : List Byte) :
    (m.writeRun start bytes).2 = runResult start bytes.length := by
  induction bytes generalizing m start with
  | nil => simp [writeRun, runResult]
  | cons b rest ih =>
      rw [List.length_cons]
      by_cases h : start < 4096
      · rw [m.writeRun_inside b rest h, runResult_succ _ h, ← ih]
      · rw [m.writeRun_outside b rest h, runResult_outside _ h]

/-- A run of writes puts its bytes from `start` on, as far as memory goes, and
leaves all other bytes alone. -/
theorem getElem_writeRun (m : Memory) (start : Nat) (bytes : List Byte)
    {a : Nat} (inside : a < 4096) :
    (m.writeRun start bytes).1.bytes[a] =
      if start ≤ a then bytes.getD (a - start) m.bytes[a]
      else m.bytes[a] := by
  induction bytes generalizing m start with
  | nil => simp [writeRun]
  | cons b rest ih =>
      by_cases h : start < 4096
      · rw [m.writeRun_inside b rest h, ih]
        simp only [Vector.getElem_set]
        rcases Nat.lt_trichotomy start a with below | here | above
        · have shift : a - start = a - (start + 1) + 1 := by omega
          rw [if_pos (by omega), if_neg (by omega), if_pos (by omega), shift]
          simp
        · subst here
          rw [if_neg (by omega), if_pos rfl, if_pos (Nat.le_refl _)]
          simp
        · rw [if_neg (by omega), if_neg (by omega), if_neg (by omega)]
      · rw [m.writeRun_outside b rest h, if_neg (by omega)]

theorem readWord_eq_ok (m : Memory) {a : Int}
    (h : 0 ≤ a ∧ a < 4095) :
    m.readWord a =
      .ok (Word.ofBytes m.bytes[a.toNat] m.bytes[a.toNat + 1]) := by
  have high := m.read_eq_ok (a := a) ⟨by omega, by omega⟩
  have low := m.read_eq_ok (a := a + 1) ⟨by omega, by omega⟩
  have next : (a + 1).toNat = a.toNat + 1 := by omega
  simp only [readWord, high, low, next]
  rfl

theorem readWord_ne_ok (m : Memory) {a : Int}
    (h : a < 0 ∨ 4096 ≤ a) (w : Word) : m.readWord a ≠ .ok w := by
  have outside := (m.read_eq_error_iff a ⟨a⟩).mpr ⟨by omega, rfl⟩
  simp only [readWord, outside]
  exact nofun

theorem readWord_congr {m n : Memory} {a : Nat} (h : a + 1 < 4096)
    (high : m.bytes[a] = n.bytes[a]) (low : m.bytes[a + 1] = n.bytes[a + 1]) :
    m.readWord a = n.readWord a := by
  rw [m.readWord_eq_ok ⟨by omega, by omega⟩,
    n.readWord_eq_ok ⟨by omega, by omega⟩]
  simp only [Int.toNat_natCast, high, low]

theorem exists_load (m : Memory) {program : List Byte}
    (h : program.length ≤ capacity) :
    ∃ loaded, m.load program = .ok loaded := by
  simp [load, h]

theorem getElem_load {m loaded : Memory} {program : List Byte}
    (h : m.load program = .ok loaded) {a : Nat} (inside : a < 4096) :
    loaded.bytes[a] =
      if a < programStart then m.bytes[a]
      else program.getD (a - programStart) m.bytes[a] := by
  unfold load at h
  by_cases fits : program.length ≤ capacity
  · rw [if_pos fits] at h
    injection h with h
    rw [← h]
    simp only [Vector.getElem_ofFn, List.getD_eq_getElem?_getD,
      Array.getD_eq_getD_getElem?, List.getElem?_toArray]
  · rw [if_neg fits] at h
    cases h

theorem length_le_of_load {m loaded : Memory} {program : List Byte}
    (h : m.load program = .ok loaded) : program.length ≤ capacity := by
  unfold load at h
  split at h
  · assumption
  · cases h

theorem getElem_load_program {m loaded : Memory} {program : List Byte}
    (h : m.load program = .ok loaded) {k : Nat} (hk : k < program.length)
    {a : Nat} (inside : a < 4096) (ha : a = programStart + k) :
    loaded.bytes[a] = program[k] := by
  have offset : a - programStart = k := by omega
  rw [getElem_load h inside, if_neg (by omega), offset]
  simp [hk]

theorem readWord_of_load {m loaded : Memory} {program : List Byte}
    (h : m.load program = .ok loaded) {k : Nat} {high low : Byte}
    (first : program[k]? = some high) (second : program[k + 1]? = some low) :
    loaded.readWord (programStart + k : Nat) =
      .ok (Word.ofBytes high low) := by
  obtain ⟨-, rfl⟩ := List.getElem?_eq_some_iff.mp first
  obtain ⟨hk, rfl⟩ := List.getElem?_eq_some_iff.mp second
  have fits := length_le_of_load h
  rw [capacity, size, programStart] at fits
  have inside : programStart + k + 1 < 4096 := by
    rw [programStart]
    omega
  have high := getElem_load_program h (k := k) (by omega)
    (a := programStart + k) (by omega) rfl
  have low := getElem_load_program h hk inside rfl
  rw [readWord_eq_ok _ ⟨by omega, by omega⟩, ← high, ← low]
  rfl

end Chip8.Memory
