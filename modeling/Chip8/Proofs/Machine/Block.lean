import Chip8.Proofs.Machine.Trap

/-!
# Block transfers

Storing registers makes a block of memory hold them, and loading reads what the
block holds, so that each undoes the other.  The digits of a number are stored
as a block too.
-/

namespace Chip8

namespace Memory

def Holds (m : Memory) (start : Nat) (bytes : List Byte) : Prop :=
  ∀ k b, bytes[k]? = some b → m.bytes[start + k]? = some b

theorem getElem?_readRun (m : Memory) (start : Nat) {count k : Nat}
    (h : k < count) : (m.readRun start count).1[k]? = m.bytes[start + k]? := by
  rw [fst_readRun, List.getElem?_take_of_lt h, List.getElem?_drop]
  simp

theorem holds_readRun (m : Memory) (start count : Nat) :
    m.Holds start (m.readRun start count).1 := by
  intro k b found
  have inside := (List.getElem?_eq_some_iff.mp found).1
  have short := m.length_readRun_le start count
  have bound : k < count := by omega
  rw [← m.getElem?_readRun start bound, found]

section

variable {m : Memory} {start : Nat} {bytes : List Byte}

theorem holds_writeRun (fits : start + bytes.length ≤ 4096) :
    (m.writeRun start bytes).1.Holds start bytes := by
  intro k b found
  have short := (List.getElem?_eq_some_iff.mp found).1
  have inside : start + k < 4096 := by omega
  rw [Vector.getElem?_eq_getElem inside, getElem_writeRun]
  simp [found]

variable (h : m.Holds start bytes)

include h

theorem Holds.fits : bytes.length = 0 ∨ start + bytes.length ≤ 4096 := by
  by_cases empty : bytes.length = 0
  · exact .inl empty
  · have last := h (bytes.length - 1) _ (List.getElem?_eq_getElem (by omega))
    have inside := (Vector.getElem?_eq_some_iff.mp last).1
    omega

theorem Holds.readRun : (m.readRun start bytes.length).1 = bytes := by
  apply List.ext_getElem?
  intro k
  by_cases short : k < bytes.length
  · have found := List.getElem?_eq_getElem short
    rw [getElem?_readRun _ _ short, h k _ found, found]
  · have short' := m.length_readRun_le start bytes.length
    rw [List.getElem?_eq_none (by omega), List.getElem?_eq_none (by omega)]

theorem Holds.writeRun : (m.writeRun start bytes).1 = m := by
  have same : (m.writeRun start bytes).1.bytes = m.bytes := by
    apply Vector.ext
    intro a inside
    rw [getElem_writeRun m start bytes inside]
    split
    · -- Behind the last of the bytes nothing is written.
      rename_i behind
      cases found : bytes[a - start]? with
      | none => simp [found]
      | some b =>
          have held := h _ b found
          rw [Nat.add_sub_of_le behind, Vector.getElem?_eq_getElem inside] at held
          simpa [found] using held.symm
    · rfl
  exact congrArg Memory.mk same

end

end Memory

namespace Registers

variable (r : Registers) {x y : Register}

@[simp] theorem index_fill (bytes : List Byte) :
    (r.fill bytes).index = r.index := by
  simp only [fill]

theorem getElem?_upTo (h : y ≤ x) : (r.upTo x)[y.val]? = some (r.get y) := by
  have inside : y.val < x.val + 1 := Nat.lt_succ_of_le h
  rw [upTo, List.getElem?_take_of_lt inside]
  simp [get]

theorem get_fill {bytes : List Byte} {b : Byte}
    (found : bytes[x.val]? = some b) : (r.fill bytes).get x = b := by
  simp [get, fill, found]

theorem upTo_fill {bytes : List Byte} (length : bytes.length = x.val + 1) :
    (r.fill bytes).upTo x = bytes := by
  apply List.ext_getElem
  · rw [length_upTo, length]
  · intro k short short'
    rw [length_upTo] at short
    have found := (r.fill bytes).getElem?_upTo (x := x) (y := ⟨k, by omega⟩)
      (Nat.le_of_lt_succ short)
    rw [List.getElem?_eq_getElem] at found
    have filled := r.get_fill (x := ⟨k, by omega⟩)
      (List.getElem?_eq_getElem short')
    exact (Option.some.inj found).trans filled

end Registers

namespace Machine

structure SameBlock (m m' : Machine) (x : Register) : Prop where
  index : m'.index = m.index
  bytes : ∀ a : Nat, m.index ≤ a → a ≤ m.index + x.val →
    m'.memory.bytes[a]? = m.memory.bytes[a]?

theorem sameBlock_of_v (m : Machine) (v : Vector Byte 16) (x : Register) :
    SameBlock m { m with registers := { m.registers with v } } x :=
  ⟨rfl, fun _ _ _ => rfl⟩

variable {m : Machine} {x : Register} {bytes : List Byte}

theorem store_of_fits (m : Machine) (bytes : List Byte)
    (fits : m.registers.index.toNat + bytes.length ≤ 4096) :
    ∃ memory : Memory, memory.Holds m.registers.index.toNat bytes ∧
      m.store bytes = { m with memory }.done :=
  ⟨_, Memory.holds_writeRun fits, Prod.ext (fst_finish ..)
    ((snd_store ..).trans (m.accessed_of_fits (.inr fits)))⟩

theorem store_of_holds (h : m.memory.Holds m.registers.index.toNat bytes) :
    m.store bytes = m.done := by
  apply Prod.ext
  · simp only [store, fst_finish, index, h.writeRun, fst_done]
  · rw [snd_store, m.accessed_of_fits h.fits, snd_done]

theorem loadRegisters_of_holds (length : bytes.length = x.val + 1)
    (h : m.memory.Holds m.registers.index.toNat bytes) :
    m.loadRegisters x = { m with registers := m.registers.fill bytes }.done := by
  have fits := h.fits
  have read := h.readRun
  rw [length] at fits read
  apply Prod.ext
  · simp only [loadRegisters, fst_finish, index, read, fst_done]
  · rw [snd_loadRegisters, m.accessed_of_fits fits, snd_done]

theorem SameBlock.holds {m' : Machine} (same : SameBlock m m' x)
    (length : bytes.length = x.val + 1)
    (h : m.memory.Holds m.registers.index.toNat bytes) :
    m'.memory.Holds m'.registers.index.toNat bytes := by
  intro k b found
  have short := (List.getElem?_eq_some_iff.mp found).1
  have start : m.index = m.registers.index.toNat := rfl
  have index : m'.registers.index.toNat = m.registers.index.toNat :=
    Int.ofNat.inj same.index
  rw [index, same.bytes _ (by omega) (by omega)]
  exact h k b found

theorem load_of_holds (length : bytes.length = x.val + 1)
    (h : m.memory.Holds m.registers.index.toNat bytes) :
    let loaded := (m.execute (.load x)).1
    (m.execute (.load x)).2 = .ok () ∧
    (∀ r ≤ x, bytes[r.val]? = some (loaded.v r)) ∧
    (∀ r, x < r → loaded.v r = m.v r) ∧
    loaded.index = m.index := by
  intro loaded
  have executed : m.execute (.load x) =
      { m with registers := m.registers.fill bytes }.done := by
    rw [execute, loadRegisters_of_holds length h]
  simp only [loaded, executed, fst_done, snd_done, true_and]
  refine ⟨?_, ?_, by simp [index]⟩
  · intro r low
    have inside : r.val ≤ x.val := low
    have found : bytes[r.val]? = some bytes[r.val] :=
      List.getElem?_eq_getElem (by omega)
    have filled := m.registers.get_fill found
    rw [found, ← filled]
    rfl
  · intro r high
    have beyond : x.val < r.val := high
    exact m.registers.get_fill_of_le (by omega)

theorem load_of_store (fits : m.index + x.val ≤ 4095) :
    (m.execute (.store x)).2 = .ok () ∧
      ∀ m', SameBlock (m.execute (.store x)).1 m' x →
        let loaded := (m'.execute (.load x)).1
        (m'.execute (.load x)).2 = .ok () ∧
        (∀ r ≤ x, loaded.v r = m.v r) ∧
        (∀ r, x < r → loaded.v r = m'.v r) ∧
        loaded.index = m.index := by
  have start : m.index = m.registers.index.toNat := rfl
  have length := m.registers.length_upTo x
  obtain ⟨memory, holds, stored⟩ :=
    m.store_of_fits (m.registers.upTo x) (by omega)
  have executed : m.execute (.store x) = { m with memory }.done := by
    rw [execute, stored]
  simp only [executed, fst_done, snd_done, true_and]
  intro m' same
  obtain ⟨ok, low, high, index⟩ := load_of_holds length (same.holds length holds)
  refine ⟨ok, ?_, high, index.trans same.index⟩
  intro r bound
  have found := low r bound
  rw [m.registers.getElem?_upTo bound] at found
  exact (Option.some.inj found).symm

theorem store_of_load (fits : m.index + x.val ≤ 4095) :
    let loaded := (m.execute (.load x)).1
    (m.execute (.load x)).2 = .ok () ∧
    (loaded.execute (.store x)).2 = .ok () ∧
    (loaded.execute (.store x)).1.memory = m.memory := by
  have start : m.index = m.registers.index.toNat := rfl
  have holds := m.memory.holds_readRun m.registers.index.toNat (x.val + 1)
  have length : (m.memory.readRun m.registers.index.toNat
      (x.val + 1)).1.length = x.val + 1 := by
    simp [Memory.fst_readRun]
    omega
  -- The block holds what has been loaded, and so does the block stored again.
  generalize (m.memory.readRun m.registers.index.toNat (x.val + 1)).1 = bytes
    at holds length
  have loaded := loadRegisters_of_holds length holds
  have stored := store_of_holds
    (m := { m with registers := m.registers.fill bytes })
    (by rwa [Registers.index_fill])
  simp only [execute, loaded, fst_done, snd_done, m.registers.upTo_fill length,
    stored, true_and]

theorem load_of_digits (fits : m.index + 2 ≤ 4095) :
    let written := (m.execute (.digits x)).1
    let read := (written.execute (.load 2)).1
    (m.execute (.digits x)).2 = .ok () ∧
    (written.execute (.load 2)).2 = .ok () ∧
    read.v 0 = m.v x / 100 ∧ read.v 1 = m.v x / 10 % 10 ∧
    read.v 2 = m.v x % 10 := by
  have start : m.index = m.registers.index.toNat := rfl
  have length : (decimalDigits (m.v x)).length = 3 := rfl
  obtain ⟨memory, holds, stored⟩ :=
    m.store_of_fits (decimalDigits (m.v x)) (by omega)
  have executed : m.execute (.digits x) = { m with memory }.done := by
    rw [execute, stored]
  obtain ⟨ok, digits, -, -⟩ :=
    load_of_holds (m := { m with memory }) (x := 2) length holds
  simp only [executed, fst_done, snd_done, true_and]
  exact ⟨ok, (Option.some.inj (digits 0 (by decide))).symm,
    (Option.some.inj (digits 1 (by decide))).symm,
    (Option.some.inj (digits 2 (by decide))).symm⟩

/-- A block ends with memory at the latest.  Registers change as they like
between a store and the load. -/
theorem block_round_trip (m : Machine) (x : Register) :
    (m.index + x.val ≤ 4095 →
      ((m.execute (.store x)).2 = .ok () ∧
        ∀ m', SameBlock (m.execute (.store x)).1 m' x →
          let loaded := (m'.execute (.load x)).1
          (m'.execute (.load x)).2 = .ok () ∧
          (∀ r ≤ x, loaded.v r = m.v r) ∧
          (∀ r, x < r → loaded.v r = m'.v r) ∧
          loaded.index = m.index) ∧
      let loaded := (m.execute (.load x)).1
      (m.execute (.load x)).2 = .ok () ∧
      (loaded.execute (.store x)).2 = .ok () ∧
      (loaded.execute (.store x)).1.memory = m.memory) ∧
    (m.index + 2 ≤ 4095 →
      let written := (m.execute (.digits x)).1
      let read := (written.execute (.load 2)).1
      (m.execute (.digits x)).2 = .ok () ∧
      (written.execute (.load 2)).2 = .ok () ∧
      (read.v 0).toNat ≤ 9 ∧ (read.v 1).toNat ≤ 9 ∧ (read.v 2).toNat ≤ 9 ∧
      100 * (read.v 0).toNat + 10 * (read.v 1).toNat + (read.v 2).toNat =
        (m.v x).toNat) := by
  constructor
  · intro fits
    exact ⟨load_of_store fits, store_of_load fits⟩
  · intro fits
    obtain ⟨ok, ok', hundreds, tens, units⟩ := load_of_digits (x := x) fits
    have := (m.v x).toNat_lt
    simp only [ok, ok', hundreds, tens, units, true_and]
    simp
    omega

/-- The last three bytes of memory, with all registers cleared after the store,
and with V2 under its own last digit. -/
theorem block_round_trip_end :
    let m : Machine := { initial (.repeating #[]) with
      registers := { v := .ofFn fun r => 100 + r.val.toUInt8, index := 4093 } }
    let stored := (m.execute (.store 2)).1
    let cleared : Machine := { stored with
      registers := { stored.registers with v := .replicate 16 0 } }
    let loaded := (cleared.execute (.load 2)).1
    let read := ((m.execute (.digits 2)).1.execute (.load 2)).1
    m.index + (2 : Register).val ≤ 4095 ∧ SameBlock stored cleared 2 ∧
      loaded.v 0 = 100 ∧ loaded.v 1 = 101 ∧ loaded.v 2 = 102 ∧ loaded.v 3 = 0 ∧
      (read.v 0).toNat = 1 ∧ (read.v 1).toNat = 0 ∧ (read.v 2).toNat = 2 := by
  intro m stored cleared loaded read
  have index : m.index = 4093 := rfl
  have fits : m.index + (2 : Register).val ≤ 4095 := by
    rw [index]
    decide
  have same : SameBlock stored cleared 2 := sameBlock_of_v stored _ 2
  obtain ⟨blocks, digits⟩ := block_round_trip m 2
  obtain ⟨⟨-, restored⟩, -⟩ := blocks fits
  obtain ⟨-, low, high, -⟩ := restored cleared same
  have number : (read.v 0).toNat ≤ 9 ∧ (read.v 1).toNat ≤ 9 ∧
      (read.v 2).toNat ≤ 9 ∧ 100 * (read.v 0).toNat + 10 * (read.v 1).toNat +
        (read.v 2).toNat = 102 := (digits fits).2.2
  exact ⟨fits, same, low 0 (by decide), low 1 (by decide), low 2 (by decide),
    high 3 (by decide), by omega, by omega, by omega⟩

end Machine

end Chip8
