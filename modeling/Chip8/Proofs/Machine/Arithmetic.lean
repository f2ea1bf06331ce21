import Chip8.Proofs.Machine.Completion

/-!
# Arithmetic with a flag

Five operations leave a byte in Vx and a flag in VF, both from the registers as
they were before.  The two together are exact, be it with VF as Vy.  With VF as
Vx the byte is there, and the flag is lost.
-/

namespace Chip8

namespace Op

def flagged : List Op := [add, sub, subFrom, shiftRight, shiftLeft]

def exact (a b : Int) : Op → Int
  | add => a + b
  | sub => a - b
  | subFrom => b - a
  | shiftRight => a / 2
  | shiftLeft => 2 * a
  | _ => 0

/-- What a result and a flag of zero or one say together of the operands: for a
difference, the flag is zero if 256 was borrowed. -/
def Splits (a b result flag : Int) : Op → Prop
  | add => 256 * flag + result = a + b
  | sub => result = a - b + 256 * (1 - flag)
  | subFrom => result = b - a + 256 * (1 - flag)
  | shiftRight => 2 * result + flag = a
  | shiftLeft => 256 * flag + result = 2 * a
  | _ => False

def compute (a b : Byte) : Op → Byte × Bool
  | add => (a + b, 0xFF < a.toNat + b.toNat)
  | sub => (a - b, b ≤ a)
  | subFrom => (b - a, a ≤ b)
  | shiftRight => (a >>> 1, a % 2 == 1)
  | shiftLeft => (a <<< 1, 0x80 ≤ a)
  | _ => (0, false)

section

variable {op : Op} (h : op ∈ flagged) (a b : Byte)

include h

theorem toNat_compute :
    ((op.compute a b).1.toNat : Int) = op.exact a.toNat b.toNat % 256 := by
  have := a.toNat_lt
  have := b.toNat_lt
  simp only [flagged, List.mem_cons, List.not_mem_nil, or_false] at h
  rcases h with rfl | rfl | rfl | rfl | rfl
  · simp [compute, exact]
  · simp [compute, exact, UInt8.toNat_sub]
    omega
  · simp [compute, exact, UInt8.toNat_sub]
    omega
  · simp [compute, exact, Nat.shiftRight_eq_div_pow]
    omega
  · simp [compute, exact, Nat.shiftLeft_eq]
    omega

theorem splits_compute :
    op.Splits a.toNat b.toNat (op.compute a b).1.toNat
      (if (op.compute a b).2 then 1 else 0) := by
  have := a.toNat_lt
  have := b.toNat_lt
  -- With the result as a remainder, what is left is when the flag is raised.
  have result := toNat_compute h a b
  simp only [flagged, List.mem_cons, List.not_mem_nil, or_false] at h
  rcases h with rfl | rfl | rfl | rfl | rfl
  all_goals
    simp only [Splits, result]
    simp [compute, exact, UInt8.le_iff_toNat_le, ← UInt8.toNat_inj]
    split <;> omega

end

end Op

namespace Machine

variable {m : Machine} {w : Word} {op : Op}

theorem execute_of_flagged (h : op ∈ Op.flagged) :
    m.execute (op.instruction w.operands) =
      (m.setFlagged w.x (op.compute (m.v w.x) (m.v w.y)).1
        (op.compute (m.v w.x) (m.v w.y)).2).done := by
  simp only [Op.flagged, List.mem_cons, List.not_mem_nil, or_false] at h
  rcases h with rfl | rfl | rfl | rfl | rfl <;> rfl

theorem cycle_of_flagged {keys : Option Snapshot}
    (executed : m.executes? (.cycle keys) = some w) (flagged : op ∈ Op.flagged)
    (form : op.Form w) :
    m.cycle keys =
      (((m.withKeys keys).advance w).setFlagged w.x
        (op.compute (m.v w.x) (m.v w.y)).1 (op.compute (m.v w.x) (m.v w.y)).2,
        .ok (m.answer keys w)) := by
  obtain ⟨_, ⟨rfl⟩, valid, running, fetched⟩ :=
    executes?_eq_some_iff.mp executed
  have completes : ∀ m : Machine,
      (m.execute (op.instruction w.operands)).2 = .ok () := by
    intro m
    rw [execute_of_flagged flagged, snd_done]
  rw [cycle_of_form valid running fetched form completes, perform,
    decode_of_form form, execute_of_flagged flagged]
  rfl

/-- The result is that of the operation on the registers before the cycle, modulo
256, whatever registers coincide.  A flag in a register of its own makes up for
what the byte leaves out. -/
theorem flag_makes_exact (m : Machine) (keys : Option Snapshot) (w : Word)
    (executed : m.executes? (.cycle keys) = some w) (op : Op)
    (flagged : op ∈ Op.flagged) (form : op.Form w) :
    let after := (m.cycle keys).1
    let a : Int := (m.v w.x).toNat
    let b : Int := (m.v w.y).toNat
    let result : Int := (after.v w.x).toNat
    let flag : Int := (after.v 0xF).toNat
    (∃ out, (m.cycle keys).2 = .ok out) ∧
    (0 ≤ result ∧ result ≤ 255) ∧
    result = op.exact a b % 256 ∧
    (w.x ≠ 0xF → (flag = 0 ∨ flag = 1) ∧ op.Splits a b result flag) ∧
    (∀ r, r ≠ w.x → r ≠ 0xF → after.v r = m.v r) ∧
    after.index = m.index := by
  intro after a b result flag
  have cycled := cycle_of_flagged executed flagged form
  have left : after =
      ((m.withKeys keys).advance w).setFlagged w.x
        (op.compute (m.v w.x) (m.v w.y)).1
        (op.compute (m.v w.x) (m.v w.y)).2 := congrArg Prod.fst cycled
  have computed : after.v w.x = (op.compute (m.v w.x) (m.v w.y)).1 := by
    rw [left, v_setFlagged_self]
  have value : result = op.exact a b % 256 := by
    simp only [result, computed, Op.toNat_compute flagged, a, b]
  refine ⟨⟨_, congrArg Prod.snd cycled⟩, by omega, value, ?_, ?_, ?_⟩
  · intro other
    have splits := Op.splits_compute flagged (m.v w.x) (m.v w.y)
    have raised : flag =
        if (op.compute (m.v w.x) (m.v w.y)).2 then 1 else 0 := by
      simp only [flag, left, v_setFlagged_flag _ _ _ other]
      split <;> rfl
    rw [← computed, ← raised] at splits
    refine ⟨?_, splits⟩
    rw [raised]
    split <;> simp
  · intro r other plain
    rw [left, v_setFlagged_of_ne _ _ _ other plain]
    rfl
  · rw [left]
    rfl

theorem flag_makes_exact_overflow :
    ∃ start, boot (.repeating #[]) [0x81, 0xF4] = .ok start ∧
      let m : Machine := { start with registers := { v := .replicate 16 200 } }
      m.executes? (.cycle none) = some 0x81F4 ∧ Op.add ∈ Op.flagged ∧
      Op.add.Form 0x81F4 ∧ Word.x 0x81F4 ≠ 0xF ∧
      ((m.cycle none).1.v 1).toNat = 144 ∧
      ((m.cycle none).1.v 0xF).toNat = 1 ∧ (m.cycle none).1.v 2 = 200 := by
  obtain ⟨start, booted⟩ := exists_boot (.repeating #[])
    (show ([0x81, 0xF4] : List Byte).length ≤ Memory.capacity by decide)
  refine ⟨start, booted, ?_⟩
  intro m
  have fetched : m.fetch? = some 0x81F4 := fetch?_of_boot booted rfl rfl rfl
  have executed : m.executes? (.cycle none) = some 0x81F4 :=
    (executes?_cycle validKeys_none (running_of_boot booted).1).trans fetched
  have flagged : Op.add ∈ Op.flagged := by decide
  have form : Op.add.Form 0x81F4 := ⟨rfl, rfl⟩
  have apart : Word.x 0x81F4 ≠ 0xF := by decide
  have before : ∀ r, m.v r = 200 := by simp [m, v, Registers.get]
  obtain ⟨-, -, result, splits, others, -⟩ :=
    flag_makes_exact m none _ executed .add flagged form
  have split := (splits apart).2
  have x : Word.x 0x81F4 = 1 := rfl
  simp only [before, Op.exact, Op.Splits, x, UInt8.reduceToNat] at result split
  exact ⟨executed, flagged, form, apart, by omega, by omega,
    (others 2 (by decide) (by decide)).trans (before 2)⟩

end Machine

end Chip8
