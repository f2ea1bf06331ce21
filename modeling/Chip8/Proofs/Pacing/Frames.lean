import Chip8.Proofs.Machine.Footprint
import Chip8.Proofs.Pacing.Schedule

/-!
# Frames

A display gets one frame for each completed word that clears or draws, and none
for anything else.  The frames follow the screen, which only these words change
unless one of them faults.
-/

namespace Chip8

def Word.Redraws (w : Word) : Prop := w = 0x00E0 ∨ w.group = 0xD

instance (w : Word) : Decidable w.Redraws :=
  inferInstanceAs (Decidable (_ ∨ _))

theorem redraws_decode_iff (w : Word) :
    (decode w).instruction.redraws = true ↔ w.Redraws := by
  have named : (decode w).instruction.redraws = true ↔
      (decode w).instruction.op = .clear ∨
        (decode w).instruction.op = .draw := by
    cases (decode w).instruction <;> simp [Instruction.redraws, Instruction.op]
  rw [named, op_instruction_eq_iff, op_instruction_eq_iff]
  rfl

namespace Machine

def frame? (m : Machine) (e : Event) : Option Screen :=
  match m.completes? e with
  | some w => if w.Redraws then some (m.after e).screen else none
  | none => none

def frames (m : Machine) (events : List Event) : List Screen :=
  (m.history events).filterMap fun (m, e) => m.frame? e

variable {m : Machine} {e : Event} {events : List Event}

theorem frames_cons (m : Machine) (e : Event) (rest : List Event) :
    m.frames (e :: rest) =
      (m.frame? e).toList ++ (m.after e).frames rest :=
  filterMap_history_cons ..

theorem screen_resume (x : Register) : (m.resume x).1.screen = m.screen := by
  rw [fst_resume]
  cases m.keypad.firstPressed? <;> rfl

theorem updated_resume (x : Register) : (m.resume x).2.updated = false := by
  unfold resume
  split <;> rfl

/-- Apart from completed words, nothing reports a change of the screen, and
nothing but a fault makes one. -/
theorem completes_or_unchanged (valid : e.Valid) :
    (∃ w keys, m.completes? e = some w ∧
      m.output? e = some (m.answer keys w) ∧
      m.after e = (m.perform keys w).1) ∨
    m.completes? e = none ∧
      (∀ out, m.output? e = some out → out.updated = false) ∧
      (m.fault? e = none → (m.after e).screen = m.screen) := by
  cases e with
  | tick => exact .inr ⟨rfl, by simp [output?], fun _ => rfl⟩
  | load data =>
      obtain ⟨memory, same⟩ := m.exists_memory_after_load data
      exact .inr ⟨rfl, by simp [output?], fun _ => by rw [same]⟩
  | cycle keys =>
      rcases m.cycle_cases valid with
        ⟨x, waiting, same⟩ | ⟨-, nothing, same⟩ |
          ⟨w, running, fetched, -, same⟩ | ⟨w, t, -, -, -, same⟩
      · right
        refine ⟨by simp [completes?, waiting], ?_, ?_⟩
        · rw [output?, same]
          rintro out ⟨rfl⟩
          exact updated_resume x
        · intro _
          rw [after, same]
          exact screen_resume x
      · right
        refine ⟨by simp [completes?, nothing], ?_, ?_⟩
        · simp [output?, same, Except.toOption]
        · simp [fault?, same, CycleError.fault?]
      · left
        refine ⟨w, keys, completes?_eq_some_iff.mpr
          ⟨keys, rfl, running, fetched, _, congrArg Prod.snd same⟩, ?_, ?_⟩
        · rw [output?, same]
          rfl
        · rw [after, same]
      · right
        refine ⟨by simp [completes?, same, Except.isOk, Except.toBool], ?_, ?_⟩
        · simp [output?, same, Except.toOption]
        · simp [fault?, same, CycleError.fault?]

theorem frame?_of_completes {w : Word} (h : m.completes? e = some w) :
    m.frame? e = if w.Redraws then some (m.after e).screen else none := by
  rw [frame?, h]

theorem bind_output_frame? (valid : e.Valid) :
    (m.output? e).bind Output.frame? = m.frame? e := by
  rcases completes_or_unchanged valid with
    ⟨w, keys, completed, answered, left⟩ | ⟨none, unchanged, -⟩
  · rw [frame?_of_completes completed, answered, left, Option.bind_some,
      Output.frame?, answer, output]
    simp only [redraws_decode_iff]
  · rw [frame?, none]
    cases answered : m.output? e with
    | none => rfl
    | some out =>
        rw [Option.bind_some, Output.frame?, unchanged out answered]
        rfl

theorem screen_after (valid : e.Valid) (fine : m.fault? e = none) :
    (m.after e).screen = (m.frame? e).getD m.screen := by
  rcases completes_or_unchanged valid with
    ⟨w, keys, completed, -, left⟩ | ⟨none, -, unchanged⟩
  · rw [frame?_of_completes completed]
    by_cases redraws : w.Redraws
    · rw [if_pos redraws]
      rfl
    · rw [if_neg redraws, left]
      obtain ⟨clear, draw⟩ := not_or.mp redraws
      exact (footprint_execute (m.withKeys keys) w).screen clear draw
  · rw [frame?, none]
    exact unchanged fine

theorem filterMap_outputs (valid : ∀ e ∈ events, e.Valid) :
    (m.outputs events).filterMap Output.frame? = m.frames events := by
  induction events generalizing m with
  | nil => rfl
  | cons e rest ih =>
      rw [List.forall_mem_cons] at valid
      rw [outputs_cons, frames_cons, List.filterMap_append, ih valid.2,
        ← bind_output_frame? valid.1]
      cases m.output? e with
      | none => rfl
      | some out => cases framed : out.frame? <;> simp [framed]

theorem frames_of_fault {f : Fault} (valid : e.Valid)
    (fault : m.fault? e = some f) : m.frames [e] = [] := by
  cases e with
  | tick => cases fault
  | load data => cases fault
  | cycle keys =>
      rcases m.cycle_answers_or_faults valid with
        ⟨out, -, -, none⟩ | ⟨f, -, silent, -⟩
      · rw [none] at fault
        cases fault
      · rw [frames_cons, ← bind_output_frame? valid, silent]
        rfl

theorem frames_append (m : Machine) (before later : List Event) :
    m.frames (before ++ later) =
      m.frames before ++ (m.play before).frames later :=
  filterMap_history_append ..

theorem screen_play (valid : ∀ e ∈ events, e.Valid)
    (fine : m.firstFault? events = none) :
    (m.play events).screen = (m.frames events).getLast?.getD m.screen := by
  induction events generalizing m with
  | nil => rfl
  | cons e rest ih =>
      rw [List.forall_mem_cons] at valid
      rw [firstFault?_cons, Option.or_eq_none_iff] at fine
      have later := ih (m := m.after e) valid.2 fine.2
      rw [frames_cons, List.getLast?_append]
      refine later.trans ?_
      rw [screen_after valid.1 fine.1]
      cases ((m.after e).frames rest).getLast? with
      | some s => rfl
      | none => cases m.frame? e <;> rfl

end Machine

namespace Runner

variable {τ β : Type} [Pacing τ β]

theorem drive_frames (m : Machine) (cycleRate timerRate : τ)
    (calls : List (Call τ)) (valid : ∀ c ∈ calls, c.Valid) :
    let r := (start m cycleRate timerRate).drive calls
    let shown := (start m cycleRate timerRate).received calls
    let done := m.untilFault
      ((start m cycleRate timerRate).clocks.schedule calls)
    shown = m.frames done ∧
    (∀ before, before <+: done → m.firstFault? before = none →
      (m.frames before).getLast?.getD m.screen = (m.play before).screen) ∧
    (r.fault = none → shown.getLast?.getD m.screen = r.machine.screen) ∧
    ∀ f, r.fault = some f → ∃ before keys, done = before ++ [.cycle keys] ∧
      m.firstFault? before = none ∧
      (m.play before).fault? (.cycle keys) = some f ∧
      shown = m.frames before ∧
      shown.getLast?.getD m.screen = (m.play before).screen := by
  intro r shown done
  have played := drive_played (r := start m cycleRate timerRate) valid rfl
  have given : ∀ e ∈ done, e.Valid :=
    fun e he => Clocks.schedule_valid valid e
      ((m.untilFault_prefix _).subset he)
  have same : shown = m.frames done :=
    played.frames.trans (Machine.filterMap_outputs given)
  have follows : ∀ before, before <+: done → m.firstFault? before = none →
      (m.frames before).getLast?.getD m.screen = (m.play before).screen := by
    intro before part fine
    exact (Machine.screen_play (fun e he => given e (part.subset he)) fine).symm
  refine ⟨same, follows, ?_, ?_⟩
  · intro running
    have fine : m.firstFault? done = none := played.fault.symm.trans running
    have here : r.machine = m.play done := played.machine
    rw [same, here]
    exact follows done (List.prefix_refl _) fine
  · intro f halted
    have ends : m.firstFault? done = some f := played.fault.symm.trans halted
    rw [Machine.firstFault?_untilFault] at ends
    obtain ⟨before, keys, cut, fine, fault⟩ := Machine.exists_of_firstFault? ends
    have cut : done = before ++ [.cycle keys] := cut
    have last : Event.Valid (.cycle keys) := given _ (by simp [cut])
    have shown_eq : shown = m.frames before := by
      rw [same, cut, Machine.frames_append, Machine.frames_of_fault last fault,
        List.append_nil]
    refine ⟨before, keys, cut, fine, fault, shown_eq, ?_⟩
    rw [shown_eq]
    exact follows before (by rw [cut]; exact List.prefix_append ..) fine

theorem drive_frames_clear :
    (∀ c ∈ [(Call.step none : Call Rat)], c.Valid) ∧
      ∃ m, Machine.boot (.repeating #[]) [0x00, 0xE0] = .ok m ∧
        (start m (600 : Rat) 60).received [.step none] =
          [(m.after (.cycle none)).screen] := by
  have given := validKeys_none
  have valid : ∀ c ∈ [(Call.step none : Call Rat)], c.Valid :=
    List.forall_mem_singleton.mpr given
  obtain ⟨m, booted⟩ := Machine.exists_boot (.repeating #[])
    (show ([0x00, 0xE0] : List Byte).length ≤ Memory.capacity by decide)
  obtain ⟨running, -⟩ := Machine.running_of_boot booted
  have fetched : m.fetch? = some 0x00E0 :=
    Machine.fetch?_of_boot booted rfl rfl rfl
  have completed : m.completes? (.cycle none) = some 0x00E0 := by
    apply Machine.completes?_of_not_fails given running fetched
    intro t fails
    cases t with
    | stackUnderflow => exact absurd fails.1 (by decide)
    | stackOverflow => exact absurd fails.1 (by decide)
    | outsideMemory e => simp [Machine.Fails, Word.Overruns, Word.group] at fails
  obtain ⟨shown, -⟩ := drive_frames m (600 : Rat) 60 _ valid
  refine ⟨valid, m, booted, shown.trans ?_⟩
  have done : m.untilFault [.cycle none] = [.cycle none] := by
    rw [Machine.untilFault]
    cases m.fault? (.cycle none) <;> rfl
  change m.frames (m.untilFault [.cycle none]) = _
  rw [done, Machine.frames_cons, Machine.frame?_of_completes completed]
  rfl

end Runner

end Chip8
