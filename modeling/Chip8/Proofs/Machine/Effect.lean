import Chip8.Machine.Execute
import Chip8.Proofs.Machine.Access

/-!
# Effects of instructions

For each part of a machine: which operations can change it.  All statements are
about the machine that is left, whether the instruction completes or fails.
-/

namespace Chip8

namespace Instruction

def Targets (r : Register) : Instruction → Prop
  | setByte x _ | addByte x _ | copy x _ | or x _ | and x _ | xor x _
  | readDelay x | random x _ => r = x
  | add x _ | sub x _ | shiftRight x | subFrom x _ | shiftLeft x =>
      r = x ∨ r = Registers.flagRegister
  | draw _ _ _ => r = Registers.flagRegister
  | load x => r ≤ x
  | _ => False

/-- Whether the program goes on where the instruction says. -/
def directs : Instruction → Bool
  | ret | jump _ | call _ | jumpOffset _ => true
  | _ => false

def stored : Instruction → Nat
  | digits _ => 3
  | store x => x.val + 1
  | _ => 0

end Instruction

namespace Registers

theorem get_setFlag_of_ne (r : Registers) {x : Register} (raised : Bool)
    (h : x ≠ flagRegister) : (r.setFlag raised).get x = r.get x :=
  r.get_set_of_ne _ h.symm

theorem length_upTo (r : Registers) (x : Register) :
    (r.upTo x).length = x.val + 1 := by
  simp only [upTo, List.length_take, Vector.length_toList]
  omega

theorem get_fill_of_le (r : Registers) {bytes : List Byte} {x : Register}
    (h : bytes.length ≤ x.val) : (r.fill bytes).get x = r.get x := by
  simp [get, fill, h]

end Registers

namespace Machine

def skips (m : Machine) : Instruction → Bool
  | .skipEqByte x kk => m.v x == kk
  | .skipNeByte x kk => m.v x != kk
  | .skipEq x y => m.v x == m.v y
  | .skipNe x y => m.v x != m.v y
  | .skipKey x => m.keypad.isDown (m.keyOf x)
  | .skipNoKey x => !m.keypad.isDown (m.keyOf x)
  | _ => false

section Outcomes

variable (m : Machine)

@[simp] theorem fst_done : m.done.1 = m := rfl

@[simp] theorem snd_done : m.done.2 = .ok () := rfl

@[simp] theorem fst_fail (e : StepError) : (m.fail e).1 = m := rfl

@[simp] theorem snd_fail (e : StepError) : (m.fail e).2 = .error e := rfl

@[simp] theorem fst_finish (r : Except Memory.Outside Unit) :
    (m.finish r).1 = m := by
  cases r <;> rfl

@[simp] theorem v_setFlagged_self (x : Register) (b : Byte) (flag : Bool) :
    (m.setFlagged x b flag).v x = b := by
  simp [setFlagged, v]

theorem v_setFlagged_flag {x : Register} (b : Byte) (flag : Bool)
    (h : x ≠ 0xF) : (m.setFlagged x b flag).v 0xF = if flag then 1 else 0 := by
  have kept := (m.registers.setFlag flag).get_set_of_ne b h
  exact kept.trans (m.registers.get_set_self _ _)

theorem v_setFlagged_of_ne {x r : Register} (b : Byte) (flag : Bool)
    (other : r ≠ x) (plain : r ≠ 0xF) :
    (m.setFlagged x b flag).v r = m.v r := by
  have kept := (m.registers.setFlag flag).get_set_of_ne b other.symm
  exact kept.trans (m.registers.get_setFlag_of_ne flag plain)

theorem skipIf_eq (condition : Bool) :
    m.skipIf condition =
      { m with pc := if condition then m.pc + 2 else m.pc } := by
  cases condition <;> rfl

theorem fst_call (target : Address) :
    (m.call target).1 =
      match m.stack.push m.pc with
      | .ok stack => { m with stack, pc := target.val }
      | .error _ => m := by
  unfold call
  split <;> simp_all

theorem fst_ret :
    m.ret.1 =
      match m.stack.pop? with
      | some (address, stack) => { m with stack, pc := address.toNat }
      | none => m := by
  unfold ret
  split <;> simp_all

end Outcomes

end Machine

section Frame

variable (m : Machine) (i : Instruction)

attribute [local simp] Machine.execute Machine.skipIf_eq Machine.store
  Machine.loadRegisters Machine.draw Machine.setV Machine.setFlagged
  Machine.setIndex Machine.fst_call Machine.fst_ret Instruction.op

namespace Machine

@[simp] theorem keypad_execute : (m.execute i).1.keypad = m.keypad := by
  cases i <;> simp <;> split <;> rfl

@[simp] theorem word_execute : (m.execute i).1.word = m.word := by
  cases i <;> simp <;> split <;> rfl

theorem memory_execute (digits : i.op ≠ .digits) (store : i.op ≠ .store) :
    (m.execute i).1.memory = m.memory := by
  cases i <;> simp at * <;> split <;> rfl

theorem screen_execute (clear : i.op ≠ .clear) (draw : i.op ≠ .draw) :
    (m.execute i).1.screen = m.screen := by
  cases i <;> simp at * <;> split <;> rfl

theorem stack_execute (call : i.op ≠ .call) (ret : i.op ≠ .ret) :
    (m.execute i).1.stack = m.stack := by
  cases i <;> simp at *

theorem delay_execute (set : i.op ≠ .setDelay) :
    (m.execute i).1.timers.delay = m.timers.delay := by
  cases i <;> simp at * <;> split <;> rfl

theorem sound_execute (set : i.op ≠ .setSound) :
    (m.execute i).1.timers.sound = m.timers.sound := by
  cases i <;> simp at * <;> split <;> rfl

theorem awaiting_execute (wait : i.op ≠ .waitKey) :
    (m.execute i).1.awaiting = m.awaiting := by
  cases i <;> simp at * <;> split <;> rfl

theorem random_execute :
    (m.execute i).1.random =
      if i.op = .random then m.random.next.2 else m.random := by
  cases i <;> simp <;> split <;> rfl

theorem index_execute (set : i.op ≠ .setIndex) (add : i.op ≠ .addIndex)
    (glyph : i.op ≠ .glyph) :
    (m.execute i).1.registers.index = m.registers.index := by
  cases i <;> simp at * <;> first | rfl | (split <;> rfl)

theorem v_execute {r : Register} (h : ¬ i.Targets r) :
    (m.execute i).1.v r = m.v r := by
  cases i with
  | setByte x _ | addByte x _ | copy x _ | or x _ | and x _ | xor x _
  | readDelay x | random x _ =>
      exact m.registers.get_set_of_ne _ (Ne.symm h)
  | add x _ | sub x _ | shiftRight x | subFrom x _ | shiftLeft x =>
      obtain ⟨other, plain⟩ := not_or.mp h
      exact m.v_setFlagged_of_ne _ _ other plain
  | draw x y n =>
      simp only [Machine.execute, Machine.draw, fst_finish]
      exact m.registers.get_setFlag_of_ne _ h
  | load x =>
      simp only [Machine.execute, Machine.loadRegisters, fst_finish]
      have short := m.memory.length_readRun_le m.registers.index.toNat (x.val + 1)
      exact m.registers.get_fill_of_le (Nat.le_trans short (Nat.not_le.mp h))
  | call _ | ret => simp; split <;> rfl
  | _ => simp [v, Registers.get]

theorem pc_execute (h : i.directs = false) :
    (m.execute i).1.pc = if m.skips i then m.pc + 2 else m.pc := by
  cases i with
  | skipKey x | skipNoKey x =>
      simp only [Machine.execute, fst_done, skipIf_eq, skips]
      rfl
  | _ => simp [Instruction.directs, skips] at *

theorem getElem_memory_store (bytes : List Byte) {a : Nat} (inside : a < 4096)
    (h : a < m.registers.index.toNat ∨
      m.registers.index.toNat + bytes.length ≤ a) :
    (m.store bytes).1.memory.bytes[a] = m.memory.bytes[a] := by
  simp only [Machine.store, fst_finish, index, Memory.getElem_writeRun]
  split
  · have beyond : bytes.length ≤ a - m.registers.index.toNat := by omega
    simp [beyond]
  · rfl

theorem getElem_memory_execute {a : Nat} (inside : a < 4096)
    (h : a < m.registers.index.toNat ∨
      m.registers.index.toNat + i.stored ≤ a) :
    (m.execute i).1.memory.bytes[a] = m.memory.bytes[a] := by
  cases i with
  | digits x =>
      simp only [Machine.execute]
      exact m.getElem_memory_store _ inside h
  | store x =>
      simp only [Machine.execute]
      apply m.getElem_memory_store _ inside
      rw [Registers.length_upTo]
      exact h
  | _ => rw [memory_execute] <;> simp

end Machine

end Frame

end Chip8
