import Chip8.Proofs.Instruction.Template
import Chip8.Proofs.Machine.Cycle

/-!
# Text and effect

A listing says all about an instruction that counts: words with the same text
do the same to every machine, fail alike and are logged alike.
-/

namespace Chip8

namespace Machine

def dispatch (m : Machine) (d : Decoded) :
    Machine × Except StepError (Option Log.Entry) :=
  match m.execute d with
  | (after, .ok ()) => (after, .ok (Trace.entry m after d))
  | (after, .error e) => (after, .error e)

theorem step_of_fetch {m : Machine} {w : Word} (h : m.fetch? = some w) :
    m.step =
      ((m.advance w).dispatch (decode w)).map id
        (·.map (Executed.mk (decode w))) := by
  simp only [step, h, dispatch]
  rcases (m.advance w).execute (decode w) with ⟨after, e | u⟩ <;> rfl

/-- The text of a word leaves out no more than the `y` of a shift, on which no
machine depends. -/
theorem text_determines_dispatch (a b : Int) :
    let v := Word.ofInt a
    let w := Word.ofInt b
    ((decode v).text = (decode w).text ↔
      a % 65536 = b % 65536 ∨ SameShift v w) ∧
    ((decode v).text = (decode w).text →
      ∀ m : Machine, m.dispatch (decode v) = m.dispatch (decode w)) := by
  intro v w
  have same := text_eq_iff_instruction_eq (decode v) (decode w)
  constructor
  · rw [same, instruction_decode_eq_iff, Word.ofInt_eq_iff]
  · intro text m
    rw [dispatch, dispatch, same.mp text]

theorem text_determines_dispatch_shift :
    let v := Word.ofInt 0x8126
    let w := Word.ofInt (0x8136 - 0x10000)
    v ≠ w ∧ (decode v).text = (decode w).text ∧
      ∀ m : Machine, m.dispatch (decode v) = m.dispatch (decode w) := by
  intro v w
  have shift : SameShift v w :=
    ⟨.shiftRight, by decide, by decide, by decide, by decide⟩
  obtain ⟨text, dispatched⟩ :=
    text_determines_dispatch 0x8126 (0x8136 - 0x10000)
  have same := text.mpr (.inr shift)
  exact ⟨by decide, same, dispatched same⟩

end Machine

end Chip8
