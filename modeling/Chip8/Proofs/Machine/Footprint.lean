import Chip8.Proofs.Machine.Fault

/-!
# What a cycle changes

For each part of a machine, the words that can change it, told by their
nibbles.  A cycle that ends in a fault is held to the same.
-/

namespace Chip8

namespace Word

/-- The registers a word may change: one that it names, VF as a flag, or, for
a load, all up to one. -/
def Targets (w : Word) (r : Register) : Prop :=
  (w.group = 0x6 ∨ w.group = 0x7 ∨ w.group = 0xC) ∧ r = w.x ∨
  w.group = 0x8 ∧ w.n ∈ [0x0, 0x1, 0x2, 0x3] ∧ r = w.x ∨
  w.group = 0x8 ∧ w.n ∈ [0x4, 0x5, 0x6, 0x7, 0xE] ∧ (r = w.x ∨ r = 0xF) ∨
  w.group = 0xD ∧ r = 0xF ∨
  w.group = 0xF ∧ w.kk = 0x07 ∧ r = w.x ∨
  w.group = 0xF ∧ w.kk = 0x65 ∧ r ≤ w.x

def Stores (w : Word) (index address : Nat) : Prop :=
  w.group = 0xF ∧ index ≤ address ∧
    (w.kk = 0x33 ∧ address ≤ index + 2 ∨
      w.kk = 0x55 ∧ address ≤ index + w.x.val)

end Word

theorem Instruction.op_of_directs {i : Instruction} (h : i.directs ≠ false) :
    i.op = .ret ∨ i.op = .jump ∨ i.op = .call ∨ i.op = .jumpOffset := by
  cases i <;> simp [directs, op] at *

theorem targets_of_decode {w : Word} {r : Register}
    (h : (decode w).instruction.Targets r) : w.Targets r := by
  obtain ⟨op, form, decoded⟩ := exists_form w
  rw [decoded] at h
  cases op <;>
    simp_all [Op.instruction, Op.Form, Instruction.Targets, Word.Targets,
      Registers.flagRegister]

theorem stores_of_decode {w : Word} {index address : Nat}
    (low : index ≤ address)
    (high : address < index + (decode w).instruction.stored) :
    w.Stores index address := by
  obtain ⟨op, form, decoded⟩ := exists_form w
  rw [decoded] at high
  cases op with
  | digits => exact ⟨form.1, low, .inl ⟨form.2, Nat.le_of_lt_succ high⟩⟩
  | store => exact ⟨form.1, low, .inr ⟨form.2, Nat.le_of_lt_succ high⟩⟩
  | _ => exact absurd high (Nat.not_lt.mpr low)

namespace Machine

def Skips (m : Machine) (w : Word) : Prop :=
  w.group = 0x3 ∧ m.v w.x = w.kk ∨
  w.group = 0x4 ∧ m.v w.x ≠ w.kk ∨
  w.group = 0x5 ∧ w.n = 0x0 ∧ m.v w.x = m.v w.y ∨
  w.group = 0x9 ∧ w.n = 0x0 ∧ m.v w.x ≠ m.v w.y ∨
  w.group = 0xE ∧ w.kk = 0x9E ∧ m.keypad.isDown (m.keyOf w.x) ∨
  w.group = 0xE ∧ w.kk = 0xA1 ∧ ¬ m.keypad.isDown (m.keyOf w.x)

theorem skips_decode_iff (m : Machine) (w : Word) :
    m.skips (decode w) ↔ m.Skips w := by
  obtain ⟨op, form, decoded⟩ := exists_form w
  constructor
  · rw [decoded]
    cases op <;> simp_all [Op.instruction, Op.Form, skips, Skips]
  · intro h
    rcases h with
      ⟨g, h⟩ | ⟨g, h⟩ | ⟨g, n, h⟩ | ⟨g, n, h⟩ | ⟨g, k, h⟩ | ⟨g, k, h⟩
    · rw [decode_of_form (show Op.skipEqByte.Form w from g)]
      simpa [Op.instruction, skips] using h
    · rw [decode_of_form (show Op.skipNeByte.Form w from g)]
      simpa [Op.instruction, skips] using h
    · rw [decode_of_form (show Op.skipEq.Form w from ⟨g, n⟩)]
      simpa [Op.instruction, skips] using h
    · rw [decode_of_form (show Op.skipNe.Form w from ⟨g, n⟩)]
      simpa [Op.instruction, skips] using h
    · rw [decode_of_form (show Op.skipKey.Form w from ⟨g, k⟩)]
      simpa [Op.instruction, skips] using h
    · rw [decode_of_form (show Op.skipNoKey.Form w from ⟨g, k⟩)]
      simpa [Op.instruction, skips] using h

/-- What is left as it was by a cycle on the word `w`, and where the program
goes on. -/
structure Footprint (w : Word) (before after : Machine) (completed : Prop) :
    Prop where
  registers : ∀ r, ¬ w.Targets r → after.v r = before.v r
  index : w.group ≠ 0xA → ¬ (w.group = 0xF ∧ w.kk = 0x1E) →
    ¬ (w.group = 0xF ∧ w.kk = 0x29) →
    after.registers.index = before.registers.index
  memory : ∀ a : Fin 4096, ¬ w.Stores before.registers.index.toNat a →
    after.memory.bytes[a] = before.memory.bytes[a]
  screen : w ≠ 0x00E0 → w.group ≠ 0xD → after.screen = before.screen
  stack : w.group ≠ 0x2 → w ≠ 0x00EE → after.stack = before.stack
  delay : ¬ (w.group = 0xF ∧ w.kk = 0x15) →
    after.timers.delay = before.timers.delay
  sound : ¬ (w.group = 0xF ∧ w.kk = 0x18) →
    after.timers.sound = before.timers.sound
  awaiting : ¬ (w.group = 0xF ∧ w.kk = 0x0A) → after.awaiting = before.awaiting
  random : after.random =
    if w.group = 0xC then before.random.next.2 else before.random
  keypad : after.keypad = before.keypad
  word : after.word = w
  jump : w.group = 0x1 → after.pc = w.nnn.val
  call : w.group = 0x2 → completed → after.pc = w.nnn.val
  ret : w = 0x00EE → completed →
    ∃ a, before.stack.addresses = after.stack.addresses ++ [a] ∧
      after.pc = a.toNat
  offset : w.group = 0xB → after.pc = w.nnn.val + (before.v 0).toNat
  skip : before.Skips w → after.pc = before.pc + 4
  next : w.group ≠ 0x1 → ¬ (w.group = 0x2 ∧ completed) →
    ¬ (w = 0x00EE ∧ completed) → w.group ≠ 0xB → ¬ before.Skips w →
    after.pc = before.pc + 2

theorem skips_advance (m : Machine) (w : Word) (i : Instruction) :
    (m.advance w).skips i = m.skips i := by
  cases i <;> rfl

theorem pc_of_skips {m : Machine} {w : Word} (h : m.Skips w) :
    ((m.advance w).execute (decode w)).1.pc = m.pc + 4 := by
  have skips := (m.skips_decode_iff w).mpr h
  have plain : (decode w).instruction.directs = false := by
    revert skips
    cases (decode w).instruction <;> simp [skips, Instruction.directs]
  rw [pc_execute _ _ plain, skips_advance, if_pos skips]
  simp [advance]
  omega

theorem footprint_execute (m : Machine) (w : Word) :
    Footprint w m ((m.advance w).execute (decode w)).1
      (((m.advance w).execute (decode w)).2 = .ok ()) where
  registers r h := v_execute _ _ (mt targets_of_decode h)
  index set add glyph :=
    index_execute _ _ (op_instruction_ne set) (op_instruction_ne add)
      (op_instruction_ne glyph)
  memory a h := by
    apply getElem_memory_execute
    rcases Nat.lt_or_ge a.val m.registers.index.toNat with below | low
    · exact .inl below
    · exact .inr (Nat.not_lt.mp fun high => h (stores_of_decode low high))
  screen clear draw :=
    screen_execute _ _ (op_instruction_ne clear) (op_instruction_ne draw)
  stack call ret :=
    stack_execute _ _ (op_instruction_ne call) (op_instruction_ne ret)
  delay h := delay_execute _ _ (op_instruction_ne h)
  sound h := sound_execute _ _ (op_instruction_ne h)
  awaiting h := awaiting_execute _ _ (op_instruction_ne h)
  random := by
    have named : (decode w).instruction.op = .random ↔ w.group = 0xC :=
      op_instruction_eq_iff w .random
    rw [random_execute]
    by_cases draws : w.group = 0xC
    · rw [if_pos draws, if_pos (named.mpr draws)]
      rfl
    · rw [if_neg draws, if_neg (mt named.mp draws)]
      rfl
  keypad := keypad_execute ..
  word := word_execute ..
  jump g := by
    rw [decode_of_form (show Op.jump.Form w from g)]
    rfl
  call g ok := by
    rw [decode_of_form (show Op.call.Form w from g)] at ok ⊢
    exact pc_call_of_ok _ ok
  ret g ok := by
    rw [decode_of_form (show Op.ret.Form w from g)] at ok ⊢
    exact ret_of_ok _ ok
  offset g := by
    rw [decode_of_form (show Op.jumpOffset.Form w from g)]
    rfl
  skip := pc_of_skips
  next jump call ret offset skips := by
    by_cases plain : (decode w).instruction.directs = false
    · have stays := mt (m.skips_decode_iff w).mp skips
      rw [pc_execute _ _ plain, skips_advance, if_neg stays]
      rfl
    · rcases Instruction.op_of_directs plain with op | op | op | op
      all_goals
        have form := (op_instruction_eq_iff ..).mp op
        rw [decode_of_form form] at call ret ⊢
      · have failed := fun ok => ret ⟨form, ok⟩
        exact congrArg Machine.pc (ret_of_not_ok _ failed)
      · exact absurd form jump
      · have failed := fun ok => call ⟨form, ok⟩
        exact congrArg Machine.pc (call_of_not_ok _ failed)
      · exact absurd form offset

theorem footprint_cycle {m : Machine} {w : Word} (running : m.awaiting = none)
    (fetched : m.fetch? = some w) {keys : Option Snapshot}
    (valid : ValidKeys keys) :
    Footprint w (m.withKeys keys) (m.cycle keys).1
      (∃ out, (m.cycle keys).2 = .ok out) := by
  have running : (m.withKeys keys).awaiting = none := running
  have fetched : (m.withKeys keys).fetch? = some w := fetched
  rw [cycle_eq_run valid, fst_run_of_fetch running fetched,
    run_completes_iff running fetched]
  exact footprint_execute _ w

/-- A cycle leaves alone what its word does not name, but takes over the
snapshot that it is given, if any. -/
theorem cycle_footprint (m : Machine) (running : m.awaiting = none) (w : Word)
    (low : m.pc ≤ 4093) (read : m.memory.readWord m.pc = .ok w)
    (keys : Option Snapshot) (valid : ValidKeys keys) :
    Footprint w (m.withKeys keys) (m.cycle keys).1
        (∃ out, (m.cycle keys).2 = .ok out) ∧
      (m.cycle keys).1.keypad.flags = keys.getD m.keypad.flags := by
  have fetched := (fetch?_eq_some_iff w).mpr ⟨low, read⟩
  have footprint := footprint_cycle running fetched valid
  rw [footprint.keypad, flags_withKeys valid]
  exact ⟨footprint, rfl⟩

/-- The first cycle of a program that stores V0 to V3, with all keys down. -/
theorem cycle_footprint_store :
    ∃ start, boot (.repeating #[]) [0xF3, 0x55] = .ok start ∧
      start.awaiting = none ∧ start.pc ≤ 4093 ∧
      start.memory.readWord start.pc = .ok 0xF355 ∧
      ValidKeys (some (List.replicate 16 true)) ∧
      Footprint 0xF355 (start.withKeys (some (List.replicate 16 true)))
        (start.cycle (some (List.replicate 16 true))).1
        (∃ out, (start.cycle (some (List.replicate 16 true))).2 = .ok out) ∧
      (start.cycle (some (List.replicate 16 true))).1.keypad.flags =
        List.replicate 16 true := by
  obtain ⟨start, booted⟩ := exists_boot (.repeating #[])
    (show ([0xF3, 0x55] : List Byte).length ≤ Memory.capacity by decide)
  obtain ⟨running, pc⟩ := running_of_boot booted
  have valid : ValidKeys (some (List.replicate 16 true)) := by
    simp [ValidKeys]
  have low : start.pc ≤ 4093 := by
    rw [pc]
    decide
  have read : start.memory.readWord start.pc = .ok 0xF355 := by
    have word : Word.ofBytes 0xF3 0x55 = 0xF355 := by decide
    rw [pc, ← word]
    exact readWord_of_boot booted (k := 0) (by decide)
  exact ⟨start, booted, running, low, read, valid,
    cycle_footprint start running 0xF355 low read _ valid⟩

end Machine

end Chip8
