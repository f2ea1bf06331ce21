import Chip8.Machine.Execute
import Chip8.Proofs.Machine.Access
import Chip8.Proofs.Machine.Effect

/-!
# Traps

A call fails on a full stack and a return on an empty one.  The instructions
that work on a run of memory fail when the run leaves memory.  All others are
completed on every machine.
-/

namespace Chip8

namespace CallStack

theorem push_eq_full_iff (s : CallStack) (value : Int) :
    s.push value = .error .full ↔ s.depth.val = 16 := by
  unfold push
  split
  · split <;> simp <;> omega
  · simp
    omega

theorem push_ne_unrepresentable (s : CallStack) {value : Int}
    (h : 0 ≤ value ∧ value < 65536) (other : Int) :
    s.push value ≠ .error (.unrepresentable other) := by
  by_cases room : s.depth.val < 16 <;> simp [push, room, h]

theorem pop?_eq_none_iff_depth (s : CallStack) :
    s.pop? = none ↔ s.depth.val = 0 := by
  unfold pop?
  split <;> simp <;> omega

end CallStack

/-- How many bytes from I on an instruction reads or writes. -/
def Instruction.span : Instruction → Nat
  | digits _ => 3
  | store x | load x => x.val + 1
  | draw _ _ n => n.val
  | _ => 0

namespace Machine

def Traps (m : Machine) (i : Instruction) (t : Trap) : Prop :=
  i.op = .call ∧ m.stack.depth.val = 16 ∧ t = .stackOverflow ∨
  i.op = .ret ∧ m.stack.depth.val = 0 ∧ t = .stackUnderflow ∨
  0 < i.span ∧ 4096 < m.registers.index.toNat + i.span ∧
    t = .outsideMemory ⟨(max m.registers.index.toNat 4096 : Nat)⟩

variable (m : Machine)

/-- What an instruction answers that makes `count` accesses from I on. -/
def accessed (count : Nat) : Except StepError Unit :=
  (Memory.runResult m.registers.index.toNat count).mapError fun e =>
    .trap (.outsideMemory e)

@[simp] theorem snd_finish (r : Except Memory.Outside Unit) :
    (m.finish r).2 = r.mapError fun e => .trap (.outsideMemory e) := by
  cases r <;> rfl

theorem accessed_of_fits {count : Nat}
    (fits : count = 0 ∨ m.registers.index.toNat + count ≤ 4096) :
    m.accessed count = .ok () := by
  rw [accessed, (Memory.runResult_eq_ok_iff ..).mpr fits]
  rfl

theorem snd_store (bytes : List Byte) :
    (m.store bytes).2 = m.accessed bytes.length := by
  simp only [store, snd_finish, index, Memory.snd_writeRun, accessed]

theorem snd_loadRegisters (x : Register) :
    (m.loadRegisters x).2 = m.accessed (x.val + 1) := by
  simp only [loadRegisters, snd_finish, index, Memory.snd_readRun, accessed]

theorem snd_draw (x y : Register) (n : Nat) :
    (m.draw x y n).2 = m.accessed n := by
  simp only [draw, snd_finish, index, Memory.snd_readRun, accessed]

theorem snd_execute (i : Instruction) (call : i.op ≠ .call)
    (ret : i.op ≠ .ret) : (m.execute i).2 = m.accessed i.span := by
  cases i with
  | call target => exact absurd rfl call
  | ret => exact absurd rfl ret
  | digits x =>
      have length : (decimalDigits (m.v x)).length = 3 := rfl
      rw [Instruction.span, ← length]
      simp only [execute, snd_store]
  | store x =>
      rw [Instruction.span, ← m.registers.length_upTo]
      simp only [execute, snd_store]
  | load x => simp only [execute, snd_loadRegisters, Instruction.span]
  | draw x y n => simp only [execute, snd_draw, Instruction.span]
  | _ => rfl

theorem accessed_eq_trap_iff (count : Nat) (t : Trap) :
    m.accessed count = .error (.trap t) ↔
      0 < count ∧ 4096 < m.registers.index.toNat + count ∧
        t = .outsideMemory ⟨(max m.registers.index.toNat 4096 : Nat)⟩ := by
  unfold accessed
  cases h : Memory.runResult m.registers.index.toNat count with
  | ok u =>
      have fits := (Memory.runResult_eq_ok_iff ..).mp h
      change (.ok u : Except StepError Unit) = _ ↔ _
      simp
      omega
  | error e =>
      obtain ⟨pos, beyond, rfl⟩ := (Memory.runResult_eq_error_iff ..).mp h
      change (.error (.trap (.outsideMemory _)) : Except StepError Unit) = _ ↔ _
      simp [pos, beyond, eq_comm]

theorem snd_call (target : Address) :
    (m.call target).2 =
      match m.stack.push m.pc with
      | .ok _ => .ok ()
      | .error .full => .error (.trap .stackOverflow)
      | .error (.unrepresentable value) => .error (.unrepresentable value) := by
  unfold call
  split <;> simp_all

theorem snd_ret :
    m.ret.2 =
      match m.stack.pop? with
      | some _ => .ok ()
      | none => .error (.trap .stackUnderflow) := by
  unfold ret
  split <;> simp_all

theorem pc_call_of_ok {target : Address} (ok : (m.call target).2 = .ok ()) :
    (m.call target).1.pc = target.val := by
  rw [snd_call] at ok
  rw [fst_call]
  cases pushed : m.stack.push m.pc with
  | ok stack => rfl
  | error e => cases e <;> simp [pushed] at ok

theorem call_of_not_ok {target : Address} (failed : (m.call target).2 ≠ .ok ()) :
    (m.call target).1 = m := by
  rw [snd_call] at failed
  rw [fst_call]
  cases pushed : m.stack.push m.pc with
  | ok stack => simp [pushed] at failed
  | error e => rfl

theorem ret_of_ok (ok : m.ret.2 = .ok ()) :
    ∃ a, m.stack.addresses = m.ret.1.stack.addresses ++ [a] ∧
      m.ret.1.pc = a.toNat := by
  rw [snd_ret] at ok
  rw [fst_ret]
  cases popped : m.stack.pop? with
  | none => simp [popped] at ok
  | some top => exact ⟨top.1, CallStack.addresses_pop popped, rfl⟩

theorem ret_of_not_ok (failed : m.ret.2 ≠ .ok ()) : m.ret.1 = m := by
  rw [snd_ret] at failed
  rw [fst_ret]
  cases popped : m.stack.pop? with
  | none => rfl
  | some top => simp [popped] at failed

theorem snd_call_eq_trap_iff (target : Address) (t : Trap) :
    (m.call target).2 = .error (.trap t) ↔
      m.stack.depth.val = 16 ∧ t = .stackOverflow := by
  rw [snd_call, ← m.stack.push_eq_full_iff m.pc]
  cases m.stack.push m.pc with
  | ok stack => simp
  | error e => cases e <;> simp [eq_comm]

theorem snd_ret_eq_trap_iff (t : Trap) :
    m.ret.2 = .error (.trap t) ↔
      m.stack.depth.val = 0 ∧ t = .stackUnderflow := by
  rw [snd_ret, ← m.stack.pop?_eq_none_iff_depth]
  cases m.stack.pop? <;> simp [eq_comm]

theorem snd_execute_eq_trap_iff (i : Instruction) (t : Trap) :
    (m.execute i).2 = .error (.trap t) ↔ m.Traps i t := by
  by_cases call : i.op = .call
  · cases i <;> cases call
    simp only [execute, snd_call_eq_trap_iff, Traps]
    simp [Instruction.op, Instruction.span]
  · by_cases ret : i.op = .ret
    · cases i <;> cases ret
      simp only [execute, snd_ret_eq_trap_iff, Traps]
      simp [Instruction.op, Instruction.span]
    · rw [m.snd_execute i call ret, accessed_eq_trap_iff]
      simp [Traps, call, ret]

theorem execute_completes_or_traps (h : 0 ≤ m.pc ∧ m.pc < 65536)
    (i : Instruction) :
    (m.execute i).2 = .ok () ∨ ∃ t, (m.execute i).2 = .error (.trap t) := by
  by_cases call : i.op = .call
  · cases i <;> cases call
    simp only [execute, snd_call]
    cases pushed : m.stack.push m.pc with
    | ok stack => exact .inl rfl
    | error e =>
        cases e with
        | full => exact .inr ⟨_, rfl⟩
        | unrepresentable value =>
            exact absurd pushed (m.stack.push_ne_unrepresentable h value)
  · by_cases ret : i.op = .ret
    · cases i <;> cases ret
      simp only [execute, snd_ret]
      cases m.stack.pop? with
      | none => exact .inr ⟨_, rfl⟩
      | some popped => exact .inl rfl
    · rw [m.snd_execute i call ret, accessed]
      cases Memory.runResult m.registers.index.toNat i.span with
      | ok u => exact .inl rfl
      | error e => exact .inr ⟨_, rfl⟩

end Machine

end Chip8
