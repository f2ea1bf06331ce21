import Chip8.Proofs.Machine.Completion
import Chip8.Proofs.Machine.Footprint

/-!
# What is logged

A cycle that completes an instruction logs one entry about it, unless the
instruction is a conditional skip and the condition fails: then it logs nothing.
-/

namespace Chip8

/-- The entries of the processor in the output of a cycle, for a listener who
wants all of them. -/
def Output.processorEntries (out : Output) : List Log.Entry :=
  (Log.atLeast .debug out.entry.toList).filter (·.source = .processor)

def Word.Conditional (w : Word) : Prop :=
  w.group = 0x3 ∨ w.group = 0x4 ∨ w.group = 0x5 ∧ w.n = 0x0 ∨
  w.group = 0x9 ∧ w.n = 0x0 ∨ w.group = 0xE ∧ (w.kk = 0x9E ∨ w.kk = 0xA1)

namespace Trace

theorem conditional_decode_iff (w : Word) :
    conditional (decode w) = true ↔ w.Conditional := by
  have named : conditional (decode w) = true ↔
      (decode w).instruction.op ∈
        [.skipEqByte, .skipNeByte, .skipEq, .skipNe, .skipKey, .skipNoKey] := by
    cases (decode w).instruction <;> simp [conditional, Instruction.op]
  simp only [named, List.mem_cons, List.not_mem_nil, or_false,
    op_instruction_eq_iff, Op.Form, Word.Conditional, and_or_left]

theorem level_decode (w : Word) :
    level (decode w) =
      if (decode w).op = .unknown then .warning else .debug := by
  rw [← Decoded.op_instruction]
  cases (decode w).instruction <;> rfl

variable {before after : Machine} {i : Instruction}

theorem processorEntries_output (m : Machine) (updated : Bool) :
    (m.output updated (entry before after i)).processorEntries =
      (entry before after i).toList := by
  have kept : ∀ l : Log.Level, Log.Level.debug.severity ≤ l.severity := by
    intro l
    cases l <;> decide
  rw [Output.processorEntries, Machine.output, Log.atLeast]
  unfold entry
  split
  · rfl
  · simp [kept]

/-- Whether anything is logged about an executed instruction is seen from the
program counter: a skip moves it. -/
theorem entry_execute (m : Machine) (w : Word) :
    entry (m.advance w) ((m.advance w).execute (decode w)).1 (decode w) =
      if conditional (decode w) && !m.skips (decode w) then none
      else some ⟨level (decode w), .processor, describe (m.advance w)
        ((m.advance w).execute (decode w)).1 (decode w)⟩ := by
  cases skipping : conditional (decode w) with
  | false => rw [entry, skipping, Bool.false_and, Bool.false_and]
  | true =>
      have plain : (decode w).instruction.directs = false := by
        revert skipping
        cases (decode w).instruction <;> simp [conditional, Instruction.directs]
      have moved : ((m.advance w).pc ==
          ((m.advance w).execute (decode w)).1.pc) = !m.skips (decode w) := by
        rw [Machine.pc_execute _ _ plain, Machine.skips_advance]
        cases m.skips (decode w) with
        | true => exact beq_eq_false_iff_ne.mpr (by simp only [if_true]; omega)
        | false => simp
      rw [entry, skipping, moved]

end Trace

namespace Machine

variable {m : Machine} {w : Word} {keys : Option Snapshot} {out : Output}

theorem processorEntries_of_cycle (running : m.awaiting = none)
    (valid : ValidKeys keys) (ok : (m.cycle keys).2 = .ok out) :
    ∃ w, m.fetch? = some w ∧
      out.processorEntries =
        if Trace.conditional (decode w) &&
            !(m.withKeys keys).skips (decode w) then []
        else [⟨Trace.level (decode w), .processor,
          Trace.describe ((m.withKeys keys).advance w) (m.cycle keys).1
            (decode w)⟩] := by
  rcases m.cycle_cases valid with
    ⟨x, waiting, -⟩ | ⟨-, -, same⟩ | ⟨w, -, fetched, -, same⟩ |
      ⟨w, t, -, -, -, same⟩
  · simp [waiting] at running
  · simp [same] at ok
  · refine ⟨w, fetched, ?_⟩
    rw [same] at ok ⊢
    cases ok
    rw [answer, Trace.processorEntries_output, perform, Trace.entry_execute]
    split <;> rfl
  · simp [same] at ok

theorem cycle_logs (m : Machine) (running : m.awaiting = none)
    (keys : Option Snapshot) (valid : ValidKeys keys) (out : Output)
    (ok : (m.cycle keys).2 = .ok out) :
    ∃ w, m.fetch? = some w ∧
      (w.Conditional ∧ ¬ (m.withKeys keys).Skips w →
        out.processorEntries = []) ∧
      (¬ (w.Conditional ∧ ¬ (m.withKeys keys).Skips w) →
        out.processorEntries =
          [⟨if (decode w).op = .unknown then .warning else .debug, .processor,
            Trace.describe ((m.withKeys keys).advance w) (m.cycle keys).1
              (decode w)⟩]) := by
  obtain ⟨w, fetched, entries⟩ := processorEntries_of_cycle running valid ok
  have untaken : w.Conditional ∧ ¬ (m.withKeys keys).Skips w ↔
      (Trace.conditional (decode w) &&
        !(m.withKeys keys).skips (decode w)) = true := by
    rw [← Trace.conditional_decode_iff, ← skips_decode_iff, Bool.and_eq_true,
      Bool.not_eq_true', Bool.not_eq_true]
  refine ⟨w, fetched, ?_, ?_⟩
  · intro silent
    rw [entries, if_pos (untaken.mp silent)]
  · intro loud
    rw [entries, if_neg (mt untaken.mpr loud), Trace.level_decode]

theorem cycle_logs_set :
    ∃ start out, boot (.repeating #[]) [0x60, 0x05] = .ok start ∧
      start.awaiting = none ∧ ValidKeys none ∧
      (start.cycle none).2 = .ok out ∧
      out.processorEntries = [⟨.debug, .processor, "Set V0 = 0x05"⟩] := by
  obtain ⟨start, booted⟩ := exists_boot (.repeating #[])
    (show ([0x60, 0x05] : List Byte).length ≤ Memory.capacity by decide)
  obtain ⟨running, -⟩ := running_of_boot booted
  have fetched : start.fetch? = some 0x6005 := fetch?_of_boot booted rfl rfl rfl
  have form : Op.setByte.Form 0x6005 := (rfl : Word.group 0x6005 = 0x6)
  have completed :=
    cycle_of_form validKeys_none running fetched form fun _ => rfl
  have ok := congrArg Prod.snd completed
  obtain ⟨w, again, -, logged⟩ :=
    cycle_logs start running none validKeys_none _ ok
  obtain rfl : 0x6005 = w := Option.some.inj (fetched.symm.trans again)
  refine ⟨start, _, booted, running, validKeys_none, ok, ?_⟩
  have op : (decode 0x6005).op = .setByte := (op_decode_eq_iff ..).mpr form
  rw [logged (by simp [Word.Conditional, Word.group]), decode_of_form form, op]
  have text : "Set V" ++ hex 1 0 ++ " = " ++ ("0x" ++ hex 2 5) =
      "Set V0 = 0x05" := by decide +kernel
  exact congrArg (fun t => [(⟨.debug, .processor, t⟩ : Log.Entry)]) text

theorem untaken_skip_unlogged :
    ∃ start out, boot (.repeating #[]) [0x30, 0x05] = .ok start ∧
      start.awaiting = none ∧ start.fetch? = some 0x3005 ∧
      (start.cycle none).2 = .ok out ∧ out.processorEntries = [] := by
  obtain ⟨start, booted⟩ := exists_boot (.repeating #[])
    (show ([0x30, 0x05] : List Byte).length ≤ Memory.capacity by decide)
  obtain ⟨running, -⟩ := running_of_boot booted
  have fetched : start.fetch? = some 0x3005 := fetch?_of_boot booted rfl rfl rfl
  have form : Op.skipEqByte.Form 0x3005 := (rfl : Word.group 0x3005 = 0x3)
  have completed :=
    cycle_of_form validKeys_none running fetched form fun _ => rfl
  have ok := congrArg Prod.snd completed
  obtain ⟨w, again, entries⟩ :=
    processorEntries_of_cycle running validKeys_none ok
  obtain rfl : 0x3005 = w := Option.some.inj (fetched.symm.trans again)
  have untaken : (start.withKeys none).skips (decode 0x3005) = false := by
    obtain ⟨memory, -, rfl⟩ := exists_memory_of_boot booted
    rw [decode_of_form form]
    rfl
  refine ⟨start, _, booted, running, fetched, ok, ?_⟩
  rw [entries, untaken, decode_of_form form]
  rfl

end Machine

end Chip8
