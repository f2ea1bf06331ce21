import Chip8.Proofs.Machine.Sprite

/-!
# What a fault leaves

A run of accesses that leaves memory has had its effect with those bytes from I
on that are in memory.  A call or a return that fails has had none, and nothing
at all has happened without a fetch.
-/

namespace Chip8

namespace Memory

def patch (m : Memory) (start : Nat) (bytes : List Byte) : Memory :=
  ⟨m.bytes.mapIdx fun a b =>
    if start ≤ a then bytes.getD (a - start) b else b⟩

theorem getElem_patch (m : Memory) (start : Nat) (bytes : List Byte) {k : Nat}
    {b : Byte} (found : bytes[k]? = some b) {a : Nat} (inside : a < 4096)
    (ha : a = start + k) : (m.patch start bytes).bytes[a] = b := by
  have behind : start ≤ a := by omega
  have place : a - start = k := by omega
  simp [patch, behind, place, found]

theorem fst_writeRun (m : Memory) (start : Nat) (bytes : List Byte) :
    (m.writeRun start bytes).1 = m.patch start (bytes.take (4096 - start)) := by
  have same : (m.writeRun start bytes).1.bytes =
      (m.patch start (bytes.take (4096 - start))).bytes := by
    ext a inside
    rw [getElem_writeRun m start bytes inside]
    simp only [patch, Vector.getElem_mapIdx, List.getD_eq_getElem?_getD]
    by_cases behind : start ≤ a
    · have kept : a - start < 4096 - start := by omega
      rw [if_pos behind, if_pos behind, List.getElem?_take_of_lt kept]
    · rw [if_neg behind, if_neg behind]
  exact congrArg Memory.mk same

end Memory

namespace Machine

variable {m : Machine} {w : Word} {keys : Option Snapshot}

def room (m : Machine) : Nat := 4096 - m.registers.index.toNat

theorem sprite_of_room (x y : Register) {n : Nat} (h : m.room ≤ n) :
    m.sprite x y n = m.sprite x y m.room := by
  apply Screen.ext_pixel
  intro cx cy
  have low : 0 ≤ (cy - (m.v y).toNat % 32) % 32 := by omega
  rw [pixel_sprite, pixel_sprite, spriteBit, spriteBit]
  generalize (cy - (m.v y).toNat % 32) % 32 = row at low ⊢
  by_cases inside : row < m.room
  · have inside' : row < n := by omega
    simp only [inside, inside', true_and]
  · have outside : m.memory.bytes[(m.index + row).toNat]? = none := by
      rw [room] at inside
      rw [Vector.getElem?_eq_none_iff, index]
      omega
    simp only [outside, Option.any_none, Bool.and_false]

/-- What a fault leaves of a machine that has fetched the word `w`.  A run from
I on has had its effect on the bytes that are in memory, which are too few. -/
inductive Remains (w : Word) (m : Machine) : Machine → Prop
  | digits (group : w.group = 0xF) (kk : w.kk = 0x33) (short : m.room < 3) :
      Remains w m { m with
        memory := m.memory.patch m.registers.index.toNat
          ((decimalDigits (m.v w.x)).take m.room) }
  | store (group : w.group = 0xF) (kk : w.kk = 0x55)
      (short : m.room < w.x.val + 1) :
      Remains w m { m with
        memory := m.memory.patch m.registers.index.toNat
          ((m.registers.upTo w.x).take m.room) }
  | load (group : w.group = 0xF) (kk : w.kk = 0x65)
      (short : m.room < w.x.val + 1) :
      Remains w m { m with
        registers := m.registers.fill
          ((m.memory.bytes.toList.drop m.registers.index.toNat).take m.room) }
  | draw (group : w.group = 0xD) (short : m.room < w.n.val) :
      Remains w m { m with
        screen := m.screen.overlay (m.sprite w.x w.y m.room)
        registers := m.registers.setFlag
          (m.screen.meets (m.sprite w.x w.y m.room)) }
  | call (group : w.group = 0x2) : Remains w m m
  | ret (word : w = 0x00EE) : Remains w m m

theorem fst_store (m : Machine) (bytes : List Byte) :
    (m.store bytes).1 =
      { m with
        memory := m.memory.patch m.registers.index.toNat
          (bytes.take m.room) } := by
  simp only [store, fst_finish, index, Memory.fst_writeRun, room]

theorem fst_loadRegisters_of_room {x : Register} (h : m.room ≤ x.val + 1) :
    (m.loadRegisters x).1 =
      { m with
        registers := m.registers.fill
          ((m.memory.bytes.toList.drop m.registers.index.toNat).take
            m.room) } := by
  have length : (m.memory.bytes.toList.drop m.registers.index.toNat).length =
      m.room := by simp [room]
  simp only [loadRegisters, fst_finish, index, Memory.fst_readRun]
  rw [List.take_of_length_le (by omega), List.take_of_length_le (by omega)]

theorem fst_draw_of_room (x y : Register) {n : Nat} (rows : n ≤ 32)
    (h : m.room ≤ n) :
    (m.draw x y n).1 =
      { m with
        screen := m.screen.overlay (m.sprite x y m.room)
        registers := m.registers.setFlag
          (m.screen.meets (m.sprite x y m.room)) } := by
  rw [m.fst_draw x y rows, sprite_of_room x y h]

theorem remains_of_trap {t : Trap}
    (trap : (m.execute (decode w)).2 = .error (.trap t)) :
    Remains w m (m.execute (decode w)).1 := by
  have failed : (m.execute (decode w)).2 ≠ .ok () := by simp [trap]
  rcases (m.snd_execute_eq_trap_iff _ t).mp trap with
    ⟨op, -⟩ | ⟨op, -⟩ | ⟨pos, beyond, -⟩
  · have form := (op_instruction_eq_iff ..).mp op
    rw [decode_of_form form] at failed ⊢
    have left : (m.execute (Op.call.instruction w.operands)).1 = m :=
      call_of_not_ok m failed
    rw [left]
    exact .call form
  · have form := (op_instruction_eq_iff ..).mp op
    rw [decode_of_form form] at failed ⊢
    have left : (m.execute (Op.ret.instruction w.operands)).1 = m :=
      ret_of_not_ok m failed
    rw [left]
    exact .ret form
  · have short : m.room < (decode w).instruction.span := by
      rw [room]
      omega
    rcases Instruction.op_of_span_pos pos with op | op | op | op
    all_goals
      have form := (op_instruction_eq_iff ..).mp op
      rw [decode_of_form form] at short ⊢
      simp only [Op.instruction, Instruction.span, execute] at short ⊢
    · rw [fst_store]
      exact .digits form.1 form.2 short
    · rw [fst_store]
      exact .store form.1 form.2 short
    · rw [fst_loadRegisters_of_room (Nat.le_of_lt short)]
      exact .load form.1 form.2 short
    · rw [fst_draw_of_room _ _ (by omega) (Nat.le_of_lt short)]
      exact .draw form short

theorem fault_remains (m : Machine) (keys : Option Snapshot) (f : Fault)
    (faulted : (m.cycle keys).2 = .error (.fault f)) :
    (m.cycle keys).1.keypad.flags = keys.getD m.keypad.flags ∧
    ((m.pc < 0 ∨ 4093 < m.pc) ∧
        (m.cycle keys).1 = { m.withKeys keys with word := 0 } ∨
      ∃ w, m.pc ≤ 4093 ∧ m.memory.readWord m.pc = .ok w ∧
        Remains w { m.withKeys keys with word := w, pc := m.pc + 2 }
          (m.cycle keys).1) := by
  by_cases valid : ValidKeys keys
  · have flags := m.flags_withKeys valid
    rcases m.cycle_cases valid with
      ⟨x, -, same⟩ | ⟨-, nothing, same⟩ | ⟨w, -, -, -, same⟩ |
        ⟨w, t, -, fetched, trap, same⟩
    · simp [same] at faulted
    · rw [same]
      exact ⟨flags, .inl ⟨fetch?_eq_none_iff.mp nothing, rfl⟩⟩
    · simp [same] at faulted
    · obtain ⟨low, read⟩ := (fetch?_eq_some_iff w).mp fetched
      rw [same]
      refine ⟨?_, .inr ⟨w, low, read, remains_of_trap trap⟩⟩
      rw [perform, keypad_execute]
      exact flags
  · simp [cycle_of_refused valid] at faulted

/-- Four registers, of which memory has room for two. -/
theorem fault_remains_store :
    ∃ start, boot (.repeating #[]) [0xF3, 0x55] = .ok start ∧
      let m : Machine := { start with
        registers := { v := .ofFn fun r => 7 + r.val.toUInt8, index := 4094 } }
      (m.cycle none).2 = .error
        (.fault ⟨0x200, 0xF355, some (.outsideMemory ⟨4096⟩)⟩) ∧
      (m.cycle none).1.memory.bytes[4094] = 7 ∧
      (m.cycle none).1.memory.bytes[4095] = 8 ∧
      (m.cycle none).1.registers = m.registers ∧
      (m.cycle none).1.pc = 0x202 := by
  obtain ⟨start, booted⟩ := exists_boot (.repeating #[])
    (show ([0xF3, 0x55] : List Byte).length ≤ Memory.capacity by decide)
  refine ⟨start, booted, ?_⟩
  intro m
  obtain ⟨running, pc⟩ := running_of_boot booted
  have at_start : m.pc = 0x200 := pc
  have fetched : m.fetch? = some 0xF355 := fetch?_of_boot booted rfl rfl rfl
  have index : m.index = 4094 := rfl
  have overruns : Word.Overruns 0xF355 4094 :=
    .inr (.inl ⟨rfl, .inl rfl, by decide⟩)
  have beyond : m.Fails 0xF355 (.outsideMemory ⟨4096⟩) := by
    rw [Fails, index]
    exact ⟨overruns, by decide⟩
  have faulted : (m.cycle none).2 = .error
      (.fault ⟨0x200, 0xF355, some (.outsideMemory ⟨4096⟩)⟩) := by
    rw [cycle_eq_run validKeys_none, ← at_start]
    exact snd_run_of_trap (m := m.withKeys none) running fetched
      ((fails_iff ..).mp beyond)
  refine ⟨faulted, ?_⟩
  obtain ⟨-, ⟨outside, -⟩ | ⟨w, -, read, remains⟩⟩ :=
    fault_remains m none _ faulted
  · omega
  · have same : w = 0xF355 := by
      have read' := ((fetch?_eq_some_iff _).mp fetched).2
      exact Except.ok.inj (read.symm.trans read')
    subst same
    generalize (m.cycle none).1 = after at remains ⊢
    cases remains with
    | store =>
        have first := m.memory.getElem_patch 4094 [7, 8] (k := 0) rfl
          (by decide) rfl
        have second := m.memory.getElem_patch 4094 [7, 8] (k := 1) rfl
          (by decide) rfl
        exact ⟨first, second, rfl, congrArg (· + 2) at_start⟩
    | digits _ kk => exact absurd kk (by decide)
    | load _ kk => exact absurd kk (by decide)
    | draw group => exact absurd group (by decide)
    | call group => exact absurd group (by decide)
    | ret word => exact absurd word (by decide)

end Machine

end Chip8
