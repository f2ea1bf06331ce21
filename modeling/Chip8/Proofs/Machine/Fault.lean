import Chip8.Proofs.Instruction.Form
import Chip8.Proofs.Machine.WellFormed

/-!
# Faults

A cycle ends in a fault when there is nothing to fetch, or when the fetched
word is a return on an empty stack, a call on a full one, or an access to a run
of bytes that does not end inside memory.  The run starts at I, which is not
wrapped round.
-/

namespace Chip8

theorem Instruction.op_of_span_pos {i : Instruction} (h : 0 < i.span) :
    i.op = .digits ∨ i.op = .store ∨ i.op = .load ∨ i.op = .draw := by
  cases i <;> simp [span, op] at *

def Word.Overruns (w : Word) (index : Int) : Prop :=
  w.group = 0xF ∧ w.kk = 0x33 ∧ 4095 < index + 2 ∨
  w.group = 0xF ∧ (w.kk = 0x55 ∨ w.kk = 0x65) ∧ 4095 < index + w.x.val ∨
  w.group = 0xD ∧ 1 ≤ w.n.val ∧ 4095 < index + w.n.val - 1

theorem overruns_iff (w : Word) (index : Nat) :
    w.Overruns index ↔
      0 < (decode w).instruction.span ∧
        4096 < index + (decode w).instruction.span := by
  constructor
  · rintro (⟨g, k, h⟩ | ⟨g, k | k, h⟩ | ⟨g, n, h⟩)
    · have form : Op.digits.Form w := ⟨g, k⟩
      rw [decode_of_form form, Op.instruction, Instruction.span]
      omega
    · have form : Op.store.Form w := ⟨g, k⟩
      rw [decode_of_form form, Op.instruction, Instruction.span,
        Word.x_operands]
      omega
    · have form : Op.load.Form w := ⟨g, k⟩
      rw [decode_of_form form, Op.instruction, Instruction.span,
        Word.x_operands]
      omega
    · have form : Op.draw.Form w := g
      rw [decode_of_form form, Op.instruction, Instruction.span,
        Word.n_operands]
      omega
  · rintro ⟨pos, beyond⟩
    rcases Instruction.op_of_span_pos pos with op | op | op | op
    all_goals
      have form := (op_instruction_eq_iff ..).mp op
      rw [decode_of_form form] at pos beyond
      simp only [Op.instruction, Instruction.span, Word.x_operands,
        Word.n_operands] at pos beyond
    · exact .inl ⟨form.1, form.2, by omega⟩
    · exact .inr (.inl ⟨form.1, .inl form.2, by omega⟩)
    · exact .inr (.inl ⟨form.1, .inr form.2, by omega⟩)
    · exact .inr (.inr ⟨form, pos, by omega⟩)

namespace Machine

/-- The traps of a word, by what makes it fail. -/
def Fails (m : Machine) (w : Word) : Trap → Prop
  | .stackUnderflow => w = 0x00EE ∧ m.stack.addresses = []
  | .stackOverflow => w.group = 0x2 ∧ m.stack.addresses.length = 16
  | .outsideMemory e => w.Overruns m.index ∧ e.address = max m.index 4096

theorem traps_decode_iff (m : Machine) (w : Word) (t : Trap) :
    m.Traps (decode w) t ↔ m.Fails w t := by
  have cast : ((max m.registers.index.toNat 4096 : Nat) : Int) =
      max m.index 4096 := by
    rw [index]
    omega
  unfold Traps
  rw [op_instruction_eq_iff, op_instruction_eq_iff, ← and_assoc (a := 0 < _),
    ← overruns_iff, cast]
  cases t with
  | stackUnderflow => simp [Fails, Op.Form, ← List.length_eq_zero_iff]
  | stackOverflow => simp [Fails, Op.Form]
  | outsideMemory e =>
      obtain ⟨address⟩ := e
      simp [Fails, index]

def Faults (m : Machine) (f : Fault) : Prop :=
  4093 < m.pc ∧ f = ⟨m.pc, 0, none⟩ ∨
  m.pc ≤ 4093 ∧ ∃ w, m.memory.readWord m.pc = .ok w ∧
    ∃ t, m.Fails w t ∧ f = ⟨m.pc, w, some t⟩

variable {m : Machine}

theorem faults_iff_of_fetch_none (h : m.WellFormed) (nothing : m.fetch? = none)
    (f : Fault) : m.Faults f ↔ f = ⟨m.pc, 0, none⟩ := by
  have high : 4093 < m.pc := by
    have := h.counter
    have := fetch?_eq_none_iff.mp nothing
    omega
  constructor
  · rintro (⟨-, same⟩ | ⟨low, -⟩)
    · exact same
    · omega
  · exact fun same => .inl ⟨high, same⟩

theorem faults_iff_of_fetch {w : Word} (fetched : m.fetch? = some w) (f : Fault) :
    m.Faults f ↔ ∃ t, m.Fails w t ∧ f = ⟨m.pc, w, some t⟩ := by
  obtain ⟨low, read⟩ := (fetch?_eq_some_iff w).mp fetched
  constructor
  · rintro (⟨high, -⟩ | ⟨-, v, again, fails⟩)
    · omega
    · obtain rfl : w = v := Except.ok.inj (read.symm.trans again)
      exact fails
  · exact fun fails => .inr ⟨low, w, read, fails⟩

theorem fails_iff (m : Machine) (w : Word) (t : Trap) :
    m.Fails w t ↔ ((m.advance w).execute (decode w)).2 = .error (.trap t) := by
  rw [snd_execute_eq_trap_iff, ← traps_decode_iff]
  rfl

theorem WellFormed.run_eq_fault_iff (h : m.WellFormed) (f : Fault) :
    m.run.2 = .error (.fault f) ↔ m.awaiting = none ∧ m.Faults f := by
  obtain running | ⟨x, waiting⟩ := Option.eq_none_or_eq_some m.awaiting
  · rw [and_iff_right running]
    obtain nothing | ⟨w, fetched⟩ := Option.eq_none_or_eq_some m.fetch?
    · rw [run_of_fetch_none running nothing, faults_iff_of_fetch_none h nothing]
      simp [eq_comm]
    · have inside := h.pc_advance fetched
      simp only [faults_iff_of_fetch fetched, fails_iff]
      rcases execute_completes_or_traps (m.advance w) (by omega) (decode w) with
        ok | ⟨t, trap⟩
      · rw [snd_run_of_completed running fetched ok, ok]
        simp
      · rw [snd_run_of_trap running fetched trap, trap]
        simp [eq_comm]
  · rw [run_of_awaiting waiting]
    simp [waiting]

theorem WellFormed.cycle_eq_fault_iff (h : m.WellFormed)
    {keys : Option Snapshot} (valid : ValidKeys keys) (f : Fault) :
    (m.cycle keys).2 = .error (.fault f) ↔
      m.awaiting = none ∧ m.Faults f := by
  rw [cycle_eq_run valid, (h.withKeys keys).run_eq_fault_iff]
  rfl

theorem cycle_of_boot_ret {random : RandomBytes} {program : List Byte}
    {keys : Option Snapshot} (booted : boot random program = .ok m)
    (high : program[0]? = some 0x00) (low : program[1]? = some 0xEE)
    (valid : ValidKeys keys) :
    (m.cycle keys).2 =
      .error (.fault ⟨0x200, 0x00EE, some .stackUnderflow⟩) := by
  have reachable : m.Reachable := .boot booted
  have read := readWord_of_getElem? booted (k := 0) high low
  have inside : (0x200 : Int) ≤ 4093 := by decide
  rw [reachable.wellFormed.cycle_eq_fault_iff valid]
  obtain ⟨memory, -, rfl⟩ := exists_memory_of_boot booted
  exact ⟨rfl, .inr ⟨inside, 0x00EE, read, .stackUnderflow, ⟨rfl, rfl⟩, rfl⟩⟩

theorem Fails.group {w : Word} {t : Trap} (h : m.Fails w t) :
    w.group = 0x0 ∨ w.group = 0x2 ∨ w.group = 0xF ∨
      w.group = 0xD ∧ w.n ≠ 0 := by
  cases t with
  | stackUnderflow =>
      obtain ⟨rfl, -⟩ := h
      decide
  | stackOverflow => exact .inr (.inl h.1)
  | outsideMemory e =>
      rcases h.1 with ⟨g, -⟩ | ⟨g, -⟩ | ⟨g, pos, -⟩
      · exact .inr (.inr (.inl g))
      · exact .inr (.inr (.inl g))
      · refine .inr (.inr (.inr ⟨g, ?_⟩))
        intro zero
        simp [zero] at pos

theorem WellFormed.completes_of_group (h : m.WellFormed)
    {keys : Option Snapshot} (valid : ValidKeys keys) {w : Word}
    (fetched : m.fetch? = some w)
    (harmless : w.group ∈ [0x1, 0x3, 0x4, 0x5, 0x9, 0xB, 0xE] ∨
      w.group = 0xD ∧ w.n = 0) :
    ∃ out, (m.cycle keys).2 = .ok out := by
  rcases h.cycle_completes_or_faults valid with ok | ⟨f, fault⟩
  · exact ok
  · have faults := ((h.cycle_eq_fault_iff valid f).mp fault).2
    obtain ⟨t, fails, -⟩ := (faults_iff_of_fetch fetched f).mp faults
    rcases fails.group with g | g | g | ⟨g, drawn⟩
    · simp [g] at harmless
    · simp [g] at harmless
    · simp [g] at harmless
    · simp [g, drawn] at harmless

theorem cycle_fault_iff (m : Machine) (reachable : m.Reachable)
    (keys : Option Snapshot) (valid : ValidKeys keys) :
    (∀ f, (m.cycle keys).2 = .error (.fault f) ↔
      m.awaiting = none ∧ m.Faults f) ∧
    ∀ w, m.pc ≤ 4093 → m.memory.readWord m.pc = .ok w →
      w.group ∈ [0x1, 0x3, 0x4, 0x5, 0x9, 0xB, 0xE] ∨
        w.group = 0xD ∧ w.n = 0 →
      ∃ out, (m.cycle keys).2 = .ok out :=
  ⟨reachable.wellFormed.cycle_eq_fault_iff valid, fun w low read =>
    reachable.wellFormed.completes_of_group valid
      ((fetch?_eq_some_iff w).mpr ⟨low, read⟩)⟩

theorem cycle_fault_iff_ret :
    ∃ start, boot (.repeating #[]) [0x00, 0xEE] = .ok start ∧
      start.Reachable ∧ ValidKeys none ∧
      (start.cycle none).2 =
        .error (.fault ⟨0x200, 0x00EE, some .stackUnderflow⟩) := by
  obtain ⟨start, booted⟩ := exists_boot (.repeating #[])
    (show ([0x00, 0xEE] : List Byte).length ≤ Memory.capacity by decide)
  have reachable : start.Reachable := .boot booted
  have valid : ValidKeys none := nofun
  have read := readWord_of_boot booted (k := 0) (by decide)
  obtain ⟨memory, -, rfl⟩ := exists_memory_of_boot booted
  have low : (0x200 : Int) ≤ 4093 := by decide
  refine ⟨_, booted, reachable, valid, ?_⟩
  apply ((cycle_fault_iff _ reachable none valid).1 _).mpr
  exact ⟨rfl, .inr ⟨low, 0x00EE, read, .stackUnderflow, ⟨rfl, rfl⟩, rfl⟩⟩

end Machine

end Chip8
