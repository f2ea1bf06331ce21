import Chip8.Proofs.Machine.KeyWait

/-!
# Looking for keys

Two skips and the wait for a key look at the keypad.  A cycle that is given a
snapshot looks at the keypad of the snapshot, and keeps it.
-/

namespace Chip8

theorem Keypad.isLowest_of_least {k : Keypad} {key : Key}
    (down : key ∈ k.pressed) (least : ∀ other ∈ k.pressed, key ≤ other) :
    k.IsLowest key := by
  refine ⟨(k.mem_pressed key).mp down, ?_⟩
  intro other below
  rw [Bool.eq_false_iff]
  intro isDown
  have above := least other ((k.mem_pressed other).mpr isDown)
  exact absurd above (Fin.not_le.mpr below)

theorem Keypad.pairwise_pressed (k : Keypad) : k.pressed.Pairwise (· < ·) :=
  (List.pairwise_lt_finRange 16).filter _

namespace Machine

structure LooksAt (m : Machine) (keys : Option Snapshot) (k : Keypad) :
    Prop where
  kept : (m.cycle keys).1.keypad = k
  skipKey : ∀ w, m.awaiting = none → m.fetch? = some w →
    w.group = 0xE → w.kk = 0x9E →
    ∃ pc out, m.cycle keys = ({ m with keypad := k, word := w, pc }, .ok out) ∧
      (m.keyOf w.x ∈ k.pressed → pc = m.pc + 4) ∧
      (m.keyOf w.x ∉ k.pressed → pc = m.pc + 2)
  skipNoKey : ∀ w, m.awaiting = none → m.fetch? = some w →
    w.group = 0xE → w.kk = 0xA1 →
    ∃ pc out, m.cycle keys = ({ m with keypad := k, word := w, pc }, .ok out) ∧
      (m.keyOf w.x ∈ k.pressed → pc = m.pc + 2) ∧
      (m.keyOf w.x ∉ k.pressed → pc = m.pc + 4)
  /-- The register that waits takes the lowest of the keys that are down. -/
  woken : ∀ r, m.awaiting = some r →
    ∀ key ∈ k.pressed, (∀ other ∈ k.pressed, key ≤ other) →
      ∃ out, m.cycle keys =
        ({ m with
            keypad := k
            registers := m.registers.set r (UInt8.ofNat key.val)
            awaiting := none },
          .ok out)
  waits : ∀ r, m.awaiting = some r → k.pressed = [] →
    ∃ out, m.cycle keys = ({ m with keypad := k }, .ok out)

variable {m : Machine} {keys : Option Snapshot} {k : Keypad}

theorem withKeys_flags (m : Machine) (k : Keypad) :
    m.withKeys (some k.flags) = { m with keypad := k } := by
  simp [withKeys]

theorem keypad_cycle (valid : ValidKeys keys) :
    (m.cycle keys).1.keypad = (m.withKeys keys).keypad := by
  rcases m.cycle_cases valid with
    ⟨x, -, same⟩ | ⟨-, -, same⟩ | ⟨w, -, -, -, same⟩ | ⟨w, t, -, -, -, same⟩
  · rw [same, fst_resume]
    cases (m.withKeys keys).keypad.firstPressed? <;> rfl
  · rw [same]
  · rw [same]
    exact keypad_execute ..
  · rw [same]
    exact keypad_execute ..

theorem skipIf_advance (m : Machine) (w : Word) (condition : Bool) :
    (m.advance w).skipIf condition =
      { m with word := w, pc := if condition then m.pc + 4 else m.pc + 2 } := by
  cases condition with
  | false => rfl
  | true => simp [skipIf, advance, Int.add_assoc]

theorem cycle_of_skipIf {op : Op} {w : Word} (condition : Bool)
    (running : m.awaiting = none) (fetched : m.fetch? = some w)
    (form : op.Form w)
    (skips :
      (advance { m with keypad := k } w).execute (op.instruction w.operands) =
        ((advance { m with keypad := k } w).skipIf condition).done) :
    ∃ pc out, m.cycle (some k.flags) =
        ({ m with keypad := k, word := w, pc }, .ok out) ∧
      (condition = true → pc = m.pc + 4) ∧
      (condition = false → pc = m.pc + 2) := by
  have done : m.perform (some k.flags) w =
      ((advance { m with keypad := k } w).skipIf condition).done := by
    rw [perform, withKeys_flags, decode_of_form form, skips]
  have ok := congrArg Prod.snd done
  rw [cycle_of_perform (validKeys_flags k) running fetched ok, done]
  exact ⟨_, _, congrArg (·, _) (skipIf_advance ..), fun h => if_pos h,
    fun h => if_neg (Bool.eq_false_iff.mp h)⟩

theorem looksAt_flags (m : Machine) (k : Keypad) :
    m.LooksAt (some k.flags) k := by
  have valid := validKeys_flags k
  have given := m.withKeys_flags k
  constructor
  case kept => rw [keypad_cycle valid, given]
  case skipKey =>
    intro w running fetched group kk
    obtain ⟨pc, out, done, skips, goesOn⟩ :=
      cycle_of_skipIf (k := k) (k.isDown (m.keyOf w.x)) running fetched
        (show Op.skipKey.Form w from ⟨group, kk⟩) rfl
    simp only [Keypad.mem_pressed, Bool.not_eq_true]
    exact ⟨pc, out, done, skips, goesOn⟩
  case skipNoKey =>
    intro w running fetched group kk
    obtain ⟨pc, out, done, skips, goesOn⟩ :=
      cycle_of_skipIf (k := k) (!k.isDown (m.keyOf w.x)) running fetched
        (show Op.skipNoKey.Form w from ⟨group, kk⟩) rfl
    rw [Bool.not_eq_true'] at skips
    rw [Bool.not_eq_false'] at goesOn
    simp only [Keypad.mem_pressed, Bool.not_eq_true]
    exact ⟨pc, out, done, goesOn, skips⟩
  case woken =>
    intro r waiting key mem least
    have lowest : (m.withKeys (some k.flags)).keypad.IsLowest key := by
      rw [given]
      exact Keypad.isLowest_of_least mem least
    obtain ⟨out, woken, -⟩ := cycle_of_lowest valid waiting lowest
    rw [given] at woken
    exact ⟨out, woken⟩
  case waits =>
    intro r waiting none
    rw [cycle_of_waiting valid waiting, given, resume_of_quiet none]
    exact ⟨_, rfl⟩

end Machine

end Chip8
