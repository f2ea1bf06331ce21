import Chip8.Proofs.Pacing.Batch

/-!
# Schedules

The clocks of a runner turn the calls that drive it into a schedule of events,
whatever the machine does.  The runner plays its schedule up to the first
fault, and nothing after it.
-/

namespace Chip8

inductive Call (τ : Type) where
  | step (keys : Option Snapshot)
  | runCycles (elapsed : τ) (keys : Option Snapshot)
  | runTimers (elapsed : τ)

inductive Answer where
  | output (out : Option Output)
  | count (n : Int)

structure Clocks (τ β : Type) where
  cycleRate : τ
  timerRate : τ
  cycleBudget : β
  timerBudget : β

variable {τ β : Type}

namespace Call

def Valid : Call τ → Prop
  | step keys | runCycles _ keys => ValidKeys keys
  | runTimers _ => True

/-- The snapshot that a call gives its cycles, if it has cycles. -/
def keys? : Call τ → Option (Option Snapshot)
  | step keys | runCycles _ keys => some keys
  | runTimers _ => none

def idle : Call τ → Answer
  | step _ => .output none
  | runCycles .. | runTimers _ => .count 0

end Call

def paid : Except AmountError Int → Nat
  | .ok count => count.toNat
  | .error _ => 0

namespace Clocks

variable [Pacing τ β]

def charge (c : Clocks τ β) : Call τ → Clocks τ β × List Event
  | .step keys => (c, [.cycle keys])
  | .runCycles elapsed keys =>
      let (cycleBudget, count) :=
        Pacing.withdraw c.cycleBudget elapsed c.cycleRate
      ({ c with cycleBudget }, List.replicate (paid count) (.cycle keys))
  | .runTimers elapsed =>
      let (timerBudget, count) :=
        Pacing.withdraw c.timerBudget elapsed c.timerRate
      ({ c with timerBudget }, List.replicate (paid count) .tick)

def schedule (c : Clocks τ β) : List (Call τ) → List Event
  | [] => []
  | call :: rest => (c.charge call).2 ++ (c.charge call).1.schedule rest

theorem charge_valid {c : Clocks τ β} {call : Call τ} (valid : call.Valid) :
    ∀ e ∈ (c.charge call).2, e.Valid := by
  cases call with
  | step keys => exact List.forall_mem_singleton.mpr valid
  | runCycles elapsed keys =>
      intro e he
      obtain rfl := List.eq_of_mem_replicate he
      exact valid
  | runTimers elapsed =>
      intro e he
      obtain rfl := List.eq_of_mem_replicate he
      exact trivial

theorem schedule_valid {c : Clocks τ β} {calls : List (Call τ)}
    (valid : ∀ call ∈ calls, call.Valid) : ∀ e ∈ c.schedule calls, e.Valid := by
  induction calls generalizing c with
  | nil => exact List.forall_mem_nil _
  | cons call rest ih =>
      rw [List.forall_mem_cons] at valid
      rw [schedule, List.forall_mem_append]
      exact ⟨charge_valid valid.1, ih valid.2⟩

theorem keys_of_mem_charge {c : Clocks τ β} {call : Call τ}
    {keys : Option Snapshot} (mem : .cycle keys ∈ (c.charge call).2) :
    call.keys? = some keys := by
  cases call with
  | step own =>
      cases List.mem_singleton.mp mem
      rfl
  | runCycles elapsed own =>
      cases List.eq_of_mem_replicate mem
      rfl
  | runTimers elapsed => cases List.eq_of_mem_replicate mem

theorem exists_of_mem_schedule {c : Clocks τ β} {calls : List (Call τ)}
    {keys : Option Snapshot} (mem : .cycle keys ∈ c.schedule calls) :
    ∃ call ∈ calls, call.keys? = some keys := by
  induction calls generalizing c with
  | nil => cases mem
  | cons call rest ih =>
      rcases List.mem_append.mp mem with now | later
      · exact ⟨call, List.mem_cons_self, keys_of_mem_charge now⟩
      · obtain ⟨other, mem, gives⟩ := ih later
        exact ⟨other, List.mem_cons_of_mem call mem, gives⟩

end Clocks

def Turn.map {α γ : Type} (f : α → γ) (t : Turn τ β α) : Turn τ β γ :=
  ⟨t.runner, t.activity, t.result.map f⟩

namespace Runner

def clocks (r : Runner τ β) : Clocks τ β :=
  ⟨r.cycleRate, r.timerRate, r.cycleBudget, r.timerBudget⟩

section

variable [Pacing τ β]

def respond (r : Runner τ β) : Call τ → Turn τ β Answer
  | .step keys => (r.step keys).map .output
  | .runCycles elapsed keys => (r.runCycles elapsed keys).map .count
  | .runTimers elapsed => (r.runTimers elapsed).map .count

def drive (r : Runner τ β) (calls : List (Call τ)) : Runner τ β :=
  calls.foldl (fun r call => (r.respond call).runner) r

def received (r : Runner τ β) : List (Call τ) → List Screen
  | [] => []
  | call :: rest =>
      (r.respond call).activity.frames ++ (r.respond call).runner.received rest

theorem drive_append (r : Runner τ β) (calls later : List (Call τ)) :
    r.drive (calls ++ later) = (r.drive calls).drive later :=
  List.foldl_append ..

theorem received_append (r : Runner τ β) (calls later : List (Call τ)) :
    r.received (calls ++ later) =
      r.received calls ++ (r.drive calls).received later := by
  induction calls generalizing r with
  | nil => rfl
  | cons call rest ih =>
      rw [List.cons_append, received, received, ih, List.append_assoc]
      rfl

end

structure Played (r : Runner τ β) (done : List Event) (after : Runner τ β)
    (frames : List Screen) : Prop where
  machine : after.machine = r.machine.play done
  completed : after.completed = r.completed + (r.machine.outputs done).length
  fault : after.fault = r.machine.firstFault? done
  frames : frames = (r.machine.outputs done).filterMap Output.frame?

variable {r : Runner τ β}

theorem absorb_played {keys : Option Snapshot} (valid : ValidKeys keys)
    (n : Nat) :
    r.Played (r.machine.untilFault (List.replicate n (.cycle keys)))
      (r.absorb (r.machine.cycles keys n))
      (activityOf (r.machine.cycles keys n)).frames := by
  have back : ∀ fault : Option Fault,
      (fault.map CycleError.fault).bind CycleError.fault? = fault := by
    intro fault
    cases fault <;> rfl
  rw [Machine.cycles_eq valid]
  exact ⟨rfl, rfl, back _, rfl⟩

theorem ticks_played (running : r.fault = none) (n : Nat) :
    r.Played (r.machine.untilFault (List.replicate n .tick))
      { r with machine := r.machine.ticks n } [] := by
  obtain ⟨silent, fine⟩ := r.machine.quiet_ticks n
  rw [Machine.untilFault_of_none fine]
  constructor
  · exact (r.machine.play_ticks n).symm
  · rw [silent]
    rfl
  · exact running.trans fine.symm
  · rw [silent]
    rfl

theorem Played.append {before later : List Event} {r' r'' : Runner τ β}
    {frames frames' : List Screen} (first : r.Played before r' frames)
    (second : r'.Played later r'' frames') (running : r'.fault = none) :
    r.Played (before ++ later) r'' (frames ++ frames') := by
  constructor
  · rw [second.machine, first.machine, Machine.play_append]
  · rw [second.completed, first.completed, first.machine,
      Machine.outputs_append, List.length_append, Nat.add_assoc]
  · rw [second.fault, first.machine, Machine.firstFault?_append,
      ← first.fault, running, Option.none_or]
  · rw [first.frames, second.frames, first.machine, Machine.outputs_append,
      List.filterMap_append]

theorem halted_eq_false (running : r.fault = none) : r.halted = false := by
  rw [halted, running]
  rfl

variable [Pacing τ β]

theorem respond_of_halted {f : Fault} (h : r.fault = some f) (call : Call τ) :
    r.respond call = ⟨r, {}, .ok call.idle⟩ := by
  have halted : r.halted = true := by simp [Runner.halted, h]
  cases call <;> simp [respond, step, runCycles, runTimers, halted, Turn.map,
    Call.idle, Except.map]

theorem tones_step (r : Runner τ β) (keys : Option Snapshot) :
    (r.respond (.step keys)).activity.tones = [] := by
  rw [respond, Turn.map, step]
  split <;> rfl

theorem tones_runCycles (r : Runner τ β) (elapsed : τ)
    (keys : Option Snapshot) :
    (r.respond (.runCycles elapsed keys)).activity.tones = [] := by
  simp only [respond, Turn.map, runCycles]
  split
  · rfl
  · split <;> rfl

theorem drive_of_halted {f : Fault} (h : r.fault = some f)
    (calls : List (Call τ)) : r.drive calls = r ∧ r.received calls = [] := by
  induction calls with
  | nil => exact ⟨rfl, rfl⟩
  | cons call rest ih =>
      have same := respond_of_halted h call
      constructor
      · rw [drive, List.foldl_cons, same]
        exact ih.1
      · rw [received, same]
        exact ih.2

theorem respond_faults_or_not {call : Call τ} (valid : call.Valid) :
    (∃ f, (r.respond call).result = .error (.cycle (.fault f)) ∧
      (r.respond call).runner.fault = some f) ∨
    ((∀ f, (r.respond call).result ≠ .error (.cycle (.fault f))) ∧
      (r.respond call).runner.fault = r.fault) := by
  cases running : r.fault with
  | some f =>
      rw [respond_of_halted running]
      exact .inr ⟨nofun, running⟩
  | none =>
      have awake := halted_eq_false running
      cases call with
      | step keys =>
          simp only [respond, step, awake, Turn.map, absorb]
          obtain fine | ⟨f, fault⟩ := r.machine.cycles_fine_or_fault valid 1
          · exact .inr (by simp [fine, Except.map])
          · exact .inl ⟨f, by simp [fault, Except.map, CycleError.fault?]⟩
      | runCycles elapsed keys =>
          simp only [respond, runCycles, awake, Turn.map]
          rcases Pacing.withdraw r.cycleBudget elapsed r.cycleRate with ⟨b, e | n⟩
          · exact .inr (by simp [running, Except.map])
          · obtain fine | ⟨f, fault⟩ :=
              r.machine.cycles_fine_or_fault valid n.toNat
            · exact .inr (by simp [fine, absorb, Except.map])
            · exact .inl
                ⟨f, by simp [fault, absorb, Except.map, CycleError.fault?]⟩
      | runTimers elapsed =>
          simp only [respond, runTimers, awake, Turn.map]
          rcases Pacing.withdraw r.timerBudget elapsed r.timerRate with ⟨b, e | n⟩
          · exact .inr (by simp [running, Except.map])
          · exact .inr (by simp [running, Except.map])

theorem respond_played {call : Call τ} (valid : call.Valid)
    (running : r.fault = none) :
    r.Played (r.machine.untilFault (r.clocks.charge call).2)
      (r.respond call).runner (r.respond call).activity.frames ∧
    (r.respond call).runner.clocks = (r.clocks.charge call).1 := by
  have awake := halted_eq_false running
  cases call with
  | step keys =>
      simp only [respond, step, awake, Clocks.charge]
      exact ⟨absorb_played valid 1, rfl⟩
  | runCycles elapsed keys =>
      simp only [respond, runCycles, awake, Clocks.charge, clocks]
      rcases Pacing.withdraw r.cycleBudget elapsed r.cycleRate with ⟨b, e | n⟩
      · exact ⟨⟨rfl, rfl, running, rfl⟩, rfl⟩
      · have played :=
          absorb_played (r := { r with cycleBudget := b }) valid n.toNat
        exact ⟨{ played with }, rfl⟩
  | runTimers elapsed =>
      simp only [respond, runTimers, awake, Clocks.charge, clocks]
      rcases Pacing.withdraw r.timerBudget elapsed r.timerRate with ⟨b, e | n⟩
      · exact ⟨⟨rfl, rfl, running, rfl⟩, rfl⟩
      · have played :=
          ticks_played (r := { r with timerBudget := b }) running n.toNat
        exact ⟨{ played with }, rfl⟩

theorem drive_played {calls : List (Call τ)} (valid : ∀ c ∈ calls, c.Valid)
    (running : r.fault = none) :
    r.Played (r.machine.untilFault (r.clocks.schedule calls))
      (r.drive calls) (r.received calls) := by
  induction calls generalizing r with
  | nil => exact ⟨rfl, rfl, running, rfl⟩
  | cons call rest ih =>
      rw [List.forall_mem_cons] at valid
      obtain ⟨now, clocks⟩ := respond_played valid.1 running
      have fault := now.fault
      rw [Machine.firstFault?_untilFault] at fault
      rw [Clocks.schedule, Machine.untilFault_append, received, drive,
        List.foldl_cons]
      -- After a fault the runner answers the rest of the calls without events,
      -- and the rest of the schedule is cut off.
      cases ends : (r.respond call).runner.fault with
      | some f =>
          obtain ⟨same, nothing⟩ := drive_of_halted ends rest
          rw [drive] at same
          rw [← fault, ends, same, nothing, List.append_nil]
          exact now
      | none =>
          rw [ends] at fault
          have later := ih valid.2 ends
          rw [clocks, now.machine, Machine.untilFault_of_none fault.symm] at later
          rw [Machine.untilFault_of_none fault.symm] at now
          rw [← fault]
          exact now.append later ends

def executes (r : Runner τ β) (calls : List (Call τ)) : List Event :=
  if r.fault = none then r.machine.untilFault (r.clocks.schedule calls) else []

theorem executes_cons {call : Call τ} (valid : call.Valid)
    (rest : List (Call τ)) :
    r.executes (call :: rest) =
      r.executes [call] ++ (r.respond call).runner.executes rest := by
  cases running : r.fault with
  | some f => simp [executes, respond_of_halted running, running]
  | none =>
      obtain ⟨now, clocks⟩ := respond_played valid running
      have fault := now.fault
      rw [Machine.firstFault?_untilFault] at fault
      have alone : r.executes [call] =
          r.machine.untilFault (r.clocks.charge call).2 := by
        rw [executes, if_pos running, Clocks.schedule, Clocks.schedule,
          List.append_nil]
      rw [alone, executes, if_pos running, Clocks.schedule,
        Machine.untilFault_append, executes, clocks, fault]
      -- A fault cuts the schedule off, and leaves a runner that is halted.
      cases ends : r.machine.firstFault? (r.clocks.charge call).2 with
      | some f => simp
      | none =>
          rw [Machine.untilFault_of_none ends] at now ⊢
          rw [now.machine]
          simp

theorem executes_append {calls : List (Call τ)} (valid : ∀ c ∈ calls, c.Valid)
    (more : List (Call τ)) :
    r.executes (calls ++ more) =
      r.executes calls ++ (r.drive calls).executes more := by
  induction calls generalizing r with
  | nil =>
      have nothing : r.executes [] = [] := by
        simp [executes, Clocks.schedule, Machine.untilFault]
      rw [nothing]
      rfl
  | cons call rest ih =>
      rw [List.forall_mem_cons] at valid
      rw [List.cons_append, executes_cons valid.1, ih valid.2,
        executes_cons valid.1 rest, List.append_assoc]
      rfl

theorem exists_of_mem_executes {calls : List (Call τ)}
    {keys : Option Snapshot} (mem : .cycle keys ∈ r.executes calls) :
    ∃ call ∈ calls, call.keys? = some keys := by
  rw [executes] at mem
  split at mem
  · exact Clocks.exists_of_mem_schedule
      ((Machine.untilFault_prefix ..).subset mem)
  · cases mem

theorem runCycles_of_fault {elapsed : τ} {keys : Option Snapshot} {budget : β}
    {count : Int} {k : Nat} {f : Fault} (valid : ValidKeys keys)
    (running : r.fault = none)
    (earned : Pacing.withdraw r.cycleBudget elapsed r.cycleRate =
      (budget, .ok count))
    (inside : k < count.toNat)
    (fine : r.machine.firstFault? (List.replicate k (.cycle keys)) = none)
    (fault : (r.machine.play (List.replicate k (.cycle keys))).fault?
      (.cycle keys) = some f) :
    (r.runCycles elapsed keys).runner =
        { r with
          machine := r.machine.play (List.replicate (k + 1) (.cycle keys))
          cycleBudget := budget
          completed := r.completed + k
          fault := some f } ∧
      (r.runCycles elapsed keys).result = .error (.cycle (.fault f)) := by
  have awake := halted_eq_false running
  obtain ⟨outputs, batch, number⟩ :=
    Machine.cycles_of_fault valid inside fine fault
  simp only [runCycles, awake, earned, batch, absorb, number]
  exact ⟨rfl, rfl⟩

theorem drive_until_fault (m : Machine) (cycleRate timerRate : τ)
    (calls : List (Call τ)) (valid : ∀ c ∈ calls, c.Valid) :
    let r := (start m cycleRate timerRate).drive calls
    let done := m.untilFault
      ((start m cycleRate timerRate).clocks.schedule calls)
    (r.machine = m.play done ∧ r.completed = (m.outputs done).length ∧
      r.fault = m.firstFault? done) ∧
    (∀ elapsed keys budget count k f, ValidKeys keys → r.fault = none →
      Pacing.withdraw r.cycleBudget elapsed r.cycleRate =
        (budget, .ok count) →
      k < count.toNat →
      r.machine.firstFault? (List.replicate k (.cycle keys)) = none →
      (r.machine.play (List.replicate k (.cycle keys))).fault? (.cycle keys) =
        some f →
      (r.runCycles elapsed keys).runner =
          { r with
            machine := r.machine.play (List.replicate (k + 1) (.cycle keys))
            cycleBudget := budget
            completed := r.completed + k
            fault := some f } ∧
        (r.runCycles elapsed keys).result = .error (.cycle (.fault f))) ∧
    ∀ f, r.fault = some f → ∀ more,
      r.drive more = r ∧ ∀ c, r.respond c = ⟨r, {}, .ok c.idle⟩ := by
  intro r done
  have played := drive_played (r := start m cycleRate timerRate) valid rfl
  refine ⟨⟨played.machine, ?_, played.fault⟩, ?_, ?_⟩
  · exact played.completed.trans (Nat.zero_add _)
  · intro elapsed keys budget count k f given running earned inside fine fault
    exact runCycles_of_fault given running earned inside fine fault
  · intro f halted more
    exact ⟨(drive_of_halted halted more).1, respond_of_halted halted⟩

/-- Time for three cycles, of which the first jumps to a return and the second
faults there. -/
theorem drive_until_fault_second :
    (∀ c ∈ [Call.runCycles (1 / 2 : Rat) none], c.Valid) ∧
      ∃ m, Machine.boot (.repeating #[]) [0x12, 0x02, 0x00, 0xEE] = .ok m ∧
        ∃ r, r = (start m (6 : Rat) 60).drive [.runCycles (1 / 2) none] ∧
          r.completed = 1 ∧
          r.fault = some ⟨0x202, 0x00EE, some .stackUnderflow⟩ ∧
          ∀ more, r.drive more = r := by
  have given := validKeys_none
  have valid : ∀ c ∈ [Call.runCycles (1 / 2 : Rat) none], c.Valid :=
    List.forall_mem_singleton.mpr given
  obtain ⟨m, booted⟩ := Machine.exists_boot (.repeating #[])
    (show ([0x12, 0x02, 0x00, 0xEE] : List Byte).length ≤ Memory.capacity by
      decide)
  obtain ⟨running, -⟩ := Machine.running_of_boot booted
  have read := Machine.readWord_of_boot booted (k := 2) (by decide)
  have fetched : m.fetch? = some 0x1202 :=
    Machine.fetch?_of_boot booted rfl rfl rfl
  have jumped := Machine.cycle_of_jump given running fetched rfl
  have left : m.after (.cycle none) = _ := congrArg Prod.fst jumped
  have reachable := (Machine.Reachable.boot booted).after (.cycle none) given
  have returned : ((m.after (.cycle none)).cycle none).2 =
      .error (.fault ⟨0x202, 0x00EE, some .stackUnderflow⟩) := by
    rw [reachable.wellFormed.cycle_eq_fault_iff given, left]
    refine ⟨running, .inr ⟨?_, 0x00EE, read, .stackUnderflow, ⟨rfl, ?_⟩, rfl⟩⟩
    · exact show (0x202 : Int) ≤ 4093 by decide
    · obtain ⟨memory, -, rfl⟩ := Machine.exists_memory_of_boot booted
      rfl
  have first : m.fault? (.cycle none) = none := by
    rw [Machine.fault?, jumped]
  have second : (m.after (.cycle none)).fault? (.cycle none) =
      some ⟨0x202, 0x00EE, some .stackUnderflow⟩ := by
    rw [Machine.fault?, returned]
    rfl
  obtain ⟨⟨-, completed, fault⟩, -, halted⟩ :=
    drive_until_fault m (6 : Rat) 60 _ valid
  have earned : (start m (6 : Rat) 60).clocks.schedule
      [.runCycles (1 / 2) none] = List.replicate 3 (.cycle none) := by
    have count : paid (Pacing.withdraw (Pacing.empty Rat) (1 / 2 : Rat) 6).2 =
        3 := by decide +kernel
    rw [Clocks.schedule, Clocks.schedule, List.append_nil]
    exact congrArg (List.replicate · _) count
  have done : m.untilFault (List.replicate 3 (.cycle none)) =
      [.cycle none, .cycle none] := by
    simp only [List.replicate_succ, Machine.untilFault, first, second]
  have answered : m.outputs [.cycle none, .cycle none] =
      [m.answer none 0x1202] := by
    rw [Machine.outputs_cons, Machine.outputs_cons, Machine.output?,
      Machine.output?, jumped, returned]
    rfl
  rw [earned, done] at completed fault
  have ends : ((start m (6 : Rat) 60).drive [.runCycles (1 / 2) none]).fault =
      some ⟨0x202, 0x00EE, some .stackUnderflow⟩ := by
    rw [fault, Machine.firstFault?_cons, first, Option.none_or,
      Machine.firstFault?_cons, second, Option.some_or]
  refine ⟨valid, m, booted, _, rfl, ?_, ends, fun more => (halted _ ends more).1⟩
  rw [completed, answered]
  rfl

end Runner

end Chip8
