import Chip8.Machine.Cycle
import Chip8.Proofs.Machine.Trap

/-!
# Cycles

What a cycle does is settled by what the machine waits for and by the word at
its program counter: `cycle_eq_run` deals with the keys it is given, and the
lemmas on `run` reduce it to the execution of the fetched instruction.
-/

namespace Chip8

def ValidKeys (keys : Option Snapshot) : Prop :=
  ∀ flags, keys = some flags → flags.length = 16

theorem validKeys_none : ValidKeys none := nofun

theorem validKeys_flags (k : Keypad) : ValidKeys (some k.flags) := by
  rintro _ ⟨⟩
  exact k.length_flags

theorem Keypad.exists_of_length {flags : List Bool} (h : flags.length = 16) :
    ∃ keypad, Keypad.ofFlags? flags = some keypad := by
  rw [← Option.isSome_iff_exists, Keypad.isSome_ofFlags?, h]
  rfl

namespace Machine

variable {m : Machine}

/-- The machine with the keypad that a cycle works with: the one of the given
snapshot, or else its own. -/
def withKeys (m : Machine) (keys : Option Snapshot) : Machine :=
  { m with keypad := (keys.bind Keypad.ofFlags?).getD m.keypad }

theorem flags_withKeys {keys : Option Snapshot} (valid : ValidKeys keys) :
    (m.withKeys keys).keypad.flags = keys.getD m.keypad.flags := by
  cases keys with
  | none => rfl
  | some flags =>
      obtain ⟨keypad, found⟩ := Keypad.exists_of_length (valid flags rfl)
      simp [withKeys, found, Keypad.flags_of_ofFlags? found]

theorem cycle_eq_run {keys : Option Snapshot} (valid : ValidKeys keys) :
    m.cycle keys = (m.withKeys keys).run := by
  cases keys with
  | none => rfl
  | some flags =>
      obtain ⟨keypad, found⟩ := Keypad.exists_of_length (valid flags rfl)
      simp [cycle, observe, withKeys, found]

theorem fst_resume (x : Register) :
    (m.resume x).1 =
      match m.keypad.firstPressed? with
      | none => m
      | some key =>
          { m.setV x (UInt8.ofNat key.val) with awaiting := none } := by
  unfold resume
  split <;> simp_all

theorem run_of_awaiting {x : Register} (h : m.awaiting = some x) :
    m.run = ((m.resume x).1, .ok (m.resume x).2) := by
  simp [run, h]

theorem fetch?_eq_none_iff : m.fetch? = none ↔ m.pc < 0 ∨ 4093 < m.pc := by
  unfold fetch?
  split <;> simp <;> omega

theorem fetch?_eq_some_iff (w : Word) :
    m.fetch? = some w ↔ m.pc ≤ 4093 ∧ m.memory.readWord m.pc = .ok w := by
  by_cases inside : 0 ≤ m.pc ∧ m.pc < 4094
  · have low : m.pc ≤ 4093 := by omega
    rw [fetch?, dif_pos inside, m.memory.readWord_eq_ok ⟨by omega, by omega⟩]
    simp [low]
  · rw [fetch?, dif_neg inside]
    constructor
    · exact nofun
    · intro h
      exact absurd h.2 (m.memory.readWord_ne_ok (by omega) w)

theorem instruction_of_step {w : Word} {done : Executed}
    (h : m.fetch? = some w) (ok : m.step.2 = .ok done) :
    done.decoded = decode w := by
  revert ok
  simp only [step, h]
  rcases (m.advance w).execute (decode w) with ⟨after, e | u⟩
  · exact nofun
  · rintro ⟨rfl⟩
    rfl

variable {w : Word} (running : m.awaiting = none)

include running

theorem run_of_fetch_none (h : m.fetch? = none) :
    m.run = ({ m with word := 0 }, .error (.fault ⟨m.pc, 0, none⟩)) := by
  simp [run, running, step, h]

variable (h : m.fetch? = some w)

include h

theorem fst_run_of_fetch :
    m.run.1 = ((m.advance w).execute (decode w)).1 := by
  simp only [run, running, step, h]
  rcases (m.advance w).execute (decode w) with ⟨after, e | u⟩
  · cases e <;> rfl
  · rfl

theorem snd_run_of_completed
    (ok : ((m.advance w).execute (decode w)).2 = .ok ()) :
    m.run.2 = .ok (m.run.1.output (decode w).instruction.redraws
      (Trace.entry (m.advance w) m.run.1 (decode w))) := by
  rw [fst_run_of_fetch running h]
  simp only [run, running, step, h]
  revert ok
  rcases (m.advance w).execute (decode w) with ⟨after, e | u⟩
  · exact nofun
  · exact fun _ => rfl

theorem snd_run_of_trap {t : Trap}
    (trap : ((m.advance w).execute (decode w)).2 = .error (.trap t)) :
    m.run.2 = .error (.fault ⟨m.pc, w, some t⟩) := by
  have word : ((m.advance w).execute (decode w)).1.word = w :=
    word_execute ..
  simp only [run, running, step, h]
  revert trap word
  rcases (m.advance w).execute (decode w) with ⟨after, e | u⟩
  · rintro ⟨rfl⟩ rfl
    rfl
  · exact nofun

theorem run_completes_iff :
    (∃ out, m.run.2 = .ok out) ↔
      ((m.advance w).execute (decode w)).2 = .ok () := by
  simp only [run, running, step, h]
  rcases (m.advance w).execute (decode w) with ⟨after, e | u⟩
  · cases e <;> simp
  · simp

omit running h

theorem fst_run_cases :
    (∃ x, m.awaiting = some x ∧ m.run.1 = (m.resume x).1) ∨
      (m.awaiting = none ∧ m.fetch? = none ∧ m.run.1 = { m with word := 0 }) ∨
      ∃ w, m.awaiting = none ∧ m.fetch? = some w ∧
        m.run.1 = ((m.advance w).execute (decode w)).1 := by
  obtain running | ⟨x, waiting⟩ := Option.eq_none_or_eq_some m.awaiting
  · right
    obtain h | ⟨w, h⟩ := Option.eq_none_or_eq_some m.fetch?
    · exact .inl ⟨running, h, by rw [run_of_fetch_none running h]⟩
    · exact .inr ⟨w, running, h, fst_run_of_fetch running h⟩
  · exact .inl ⟨x, waiting, by rw [run_of_awaiting waiting]⟩

end Machine

end Chip8
