import Chip8.Proofs.Pacing.Schedule

/-!
# Time accounts

Over exact rationals a runner loses no time and invents none.  What a cadence
has counted is the whole part, with slack, of what its rate makes of the time it
was given, however that time is cut into calls and whatever the other cadence
does.  The rest is in its budget, which the slack can leave a little below zero.
-/

namespace Chip8

inductive Cadence where
  | cycles
  | ticks
  deriving DecidableEq, Repr

namespace Call

def elapsed : Cadence → Call Rat → Rat
  | .cycles, runCycles time _ => time
  | .ticks, runTimers time => time
  | _, _ => 0

def total (k : Cadence) : List (Call Rat) → Rat
  | [] => 0
  | call :: rest => call.elapsed k + total k rest

/-- A call of one of the cadences, for a time that does not run backwards. -/
def Forward : Call Rat → Prop
  | step _ => False
  | runCycles time _ | runTimers time => 0 ≤ time

variable {τ : Type}

def Holds (keys : Option Snapshot) : Call τ → Prop
  | step keys' | runCycles _ keys' => keys' = keys
  | runTimers _ => True

def counted : Cadence → Call τ → Except RunError Answer → Int
  | .cycles, runCycles .., .ok (.count n) => n
  | .ticks, runTimers _, .ok (.count n) => n
  | _, _, _ => 0

end Call

def earned (budget time rate : Rat) : Int :=
  (budget + time * rate + slack).floor

def Settled (budget : Rat) : Prop := -slack ≤ budget ∧ budget < 1 - slack

instance (budget : Rat) : Decidable (Settled budget) :=
  inferInstanceAs (Decidable (_ ∧ _))

theorem settled_zero : Settled 0 := by decide +kernel

theorem settled_rest (x : Rat) : Settled (x - (x + slack).floor) := by
  have low := Rat.floor_le (x + slack)
  have high := Rat.lt_floor_add_one (x + slack)
  constructor <;> grind

theorem floor_of_settled {x : Rat} {n : Int} (h : Settled (x - n)) :
    (x + slack).floor = n := by
  obtain ⟨low, high⟩ := h
  have least : n ≤ (x + slack).floor := Rat.le_floor_iff.mpr (by grind)
  have most : (x + slack).floor < n + 1 := Rat.floor_lt_iff.mpr (by grind)
  omega

section

variable {budget time rate : Rat} (settled : Settled budget) (forward : 0 ≤ time)
  (positive : 0 < rate)

include settled forward positive

theorem earned_nonneg : 0 ≤ earned budget time rate := by
  have gained := Rat.mul_nonneg forward (Rat.le_of_lt positive)
  obtain ⟨low, -⟩ := settled
  exact Rat.le_floor_iff.mpr (by grind)

theorem withdraw_eq :
    Pacing.withdraw budget time rate =
      (budget + time * rate - earned budget time rate,
        .ok (earned budget time rate)) := by
  have gained := Rat.mul_nonneg forward (Rat.le_of_lt positive)
  obtain ⟨low, -⟩ := settled
  have pos : 0 ≤ budget + time * rate + slack := by grind
  simp only [Pacing.withdraw, Pacing.accrue, Pacing.whole, Pacing.spend,
    integerPart, if_pos pos, earned]

end

namespace Runner

section

variable {τ β : Type}

def rate (r : Runner τ β) : Cadence → τ
  | .cycles => r.cycleRate
  | .ticks => r.timerRate

def budget (r : Runner τ β) : Cadence → β
  | .cycles => r.cycleBudget
  | .ticks => r.timerBudget

def counted [Pacing τ β] (r : Runner τ β) (k : Cadence) : List (Call τ) → Int
  | [] => 0
  | call :: rest =>
      call.counted k (r.respond call).result
        + (r.respond call).runner.counted k rest

end

variable {r : Runner Rat Rat}

theorem runTimers_eq {time : Rat} (running : r.fault = none)
    (settled : Settled r.timerBudget) (forward : 0 ≤ time)
    (positive : 0 < r.timerRate) :
    let n := earned r.timerBudget time r.timerRate
    (r.runTimers time).runner =
        { r with
          machine := r.machine.ticks n.toNat
          timerBudget := r.timerBudget + time * r.timerRate - n } ∧
      (r.runTimers time).result = .ok n := by
  have awake := halted_eq_false running
  simp only [runTimers, awake, withdraw_eq settled forward positive]
  exact ⟨rfl, rfl⟩

theorem runCycles_of_fine {time : Rat} {keys : Option Snapshot}
    (valid : ValidKeys keys) (running : r.fault = none)
    (settled : Settled r.cycleBudget) (forward : 0 ≤ time)
    (positive : 0 < r.cycleRate)
    (fine : (r.runCycles time keys).runner.fault = none) :
    let n := earned r.cycleBudget time r.cycleRate
    (r.runCycles time keys).runner =
        { r with
          machine := r.machine.play (List.replicate n.toNat (.cycle keys))
          cycleBudget := r.cycleBudget + time * r.cycleRate - n
          completed := r.completed + n.toNat } ∧
      (r.runCycles time keys).result = .ok n := by
  intro n
  have awake := halted_eq_false running
  have earns := withdraw_eq settled forward positive
  have given : (Call.runCycles time keys).Valid := valid
  have played := (respond_played given running).1
  have unbroken := played.fault.symm.trans fine
  simp only [Clocks.charge, clocks, earns, paid,
    Machine.firstFault?_untilFault] at unbroken
  have batch := Machine.cycles_eq valid r.machine n.toNat
  rw [Machine.untilFault_of_none unbroken] at batch
  simp only [unbroken, Option.map_none] at batch
  have number := Machine.length_outputs_replicate valid unbroken
  simp only [runCycles, awake, earns]
  rw [show (earned r.cycleBudget time r.cycleRate).toNat = n.toNat from rfl,
    batch]
  simp only [absorb, number, running]
  exact ⟨rfl, rfl⟩

/-- What a cadence has made of some time: the budget and the count together. -/
structure Ledger (k : Cadence) (r after : Runner Rat Rat) (time : Rat)
    (count : Int) : Prop where
  rate : after.rate k = r.rate k
  budget : after.budget k = r.budget k + time * r.rate k - count
  settled : Settled (after.budget k)
  nonneg : 0 ≤ count

section

variable {k : Cadence} {after : Runner Rat Rat}

theorem Ledger.idle (rate : after.rate k = r.rate k)
    (budget : after.budget k = r.budget k) (settled : Settled (r.budget k)) :
    Ledger k r after 0 0 where
  rate := rate
  budget := by
    rw [budget]
    grind
  settled := budget ▸ settled
  nonneg := Int.le_refl 0

theorem Ledger.append {last : Runner Rat Rat} {time time' : Rat}
    {count count' : Int} (first : Ledger k r after time count)
    (second : Ledger k after last time' count') :
    Ledger k r last (time + time') (count + count') where
  rate := second.rate.trans first.rate
  budget := by
    rw [second.budget, first.budget, first.rate]
    grind
  settled := second.settled
  nonneg := Int.add_nonneg first.nonneg second.nonneg

end

/-- What a runner that goes on running makes of some time for each cadence.  Of
its machine only that is told where all cycles had the same keys and no tick
came between them. -/
structure Account (r after : Runner Rat Rat) (time : Cadence → Rat)
    (count : Cadence → Int) (holds : Option Snapshot → Prop) : Prop where
  ledger : ∀ k, Ledger k r after (time k) (count k)
  completed : (after.completed : Int) = r.completed + count .cycles
  machine : ∀ keys, holds keys → count .ticks = 0 →
    after.machine =
      r.machine.play (List.replicate (count .cycles).toNat (.cycle keys))

theorem Account.append {after last : Runner Rat Rat} {time time' : Cadence → Rat}
    {count count' : Cadence → Int} {holds holds' : Option Snapshot → Prop}
    (first : Account r after time count holds)
    (second : Account after last time' count' holds') :
    Account r last (fun k => time k + time' k) (fun k => count k + count' k)
      fun keys => holds keys ∧ holds' keys where
  ledger k := (first.ledger k).append (second.ledger k)
  completed := by
    rw [second.completed, first.completed, Int.add_assoc]
  machine := by
    intro keys holds still
    have ticks := (first.ledger .ticks).nonneg
    have laterTicks := (second.ledger .ticks).nonneg
    rw [second.machine keys holds.2 (by omega),
      first.machine keys holds.1 (by omega), ← Machine.play_append,
      List.replicate_append_replicate,
      Int.toNat_add (first.ledger .cycles).nonneg (second.ledger .cycles).nonneg]

theorem respond_account {call : Call Rat} (valid : call.Valid)
    (forward : call.Forward) (running : r.fault = none)
    (settled : ∀ k, Settled (r.budget k)) (positive : ∀ k, 0 < r.rate k)
    (fine : (r.respond call).runner.fault = none) :
    Account r (r.respond call).runner (call.elapsed ·)
      (call.counted · (r.respond call).result) (call.Holds ·) := by
  cases call with
  | step keys => exact forward.elim
  | runCycles time keys =>
      obtain ⟨left, answer⟩ := runCycles_of_fine valid running (settled .cycles)
        forward (positive .cycles) fine
      have nonneg := earned_nonneg (settled .cycles) forward (positive .cycles)
      simp only [respond, Turn.map, left, answer]
      constructor
      · intro k
        cases k with
        | cycles => exact ⟨rfl, rfl, settled_rest _, nonneg⟩
        | ticks => exact .idle rfl rfl (settled .ticks)
      · rw [Int.natCast_add]
        exact congrArg ((r.completed : Int) + ·) (Int.toNat_of_nonneg nonneg)
      · rintro _ rfl _
        rfl
  | runTimers time =>
      obtain ⟨left, answer⟩ := runTimers_eq running (settled .ticks)
        forward (positive .ticks)
      have nonneg := earned_nonneg (settled .ticks) forward (positive .ticks)
      simp only [respond, Turn.map, left, answer]
      constructor
      · intro k
        cases k with
        | cycles => exact .idle rfl rfl (settled .cycles)
        | ticks => exact ⟨rfl, rfl, settled_rest _, nonneg⟩
      · exact (Int.add_zero _).symm
      · intro keys _ (still : earned _ _ _ = 0)
        rw [still]
        rfl

theorem fine_before {before calls : List (Call Rat)}
    (part : before <+: calls) (fine : (r.drive calls).fault = none) :
    (r.drive before).fault = none := by
  obtain ⟨later, rfl⟩ := part
  cases ends : (r.drive before).fault with
  | none => rfl
  | some f =>
      rw [drive_append, (drive_of_halted ends later).1, ends] at fine
      cases fine

theorem drive_account {calls : List (Call Rat)} (valid : ∀ c ∈ calls, c.Valid)
    (forward : ∀ c ∈ calls, c.Forward) (running : r.fault = none)
    (settled : ∀ k, Settled (r.budget k)) (positive : ∀ k, 0 < r.rate k)
    (fine : (r.drive calls).fault = none) :
    Account r (r.drive calls) (Call.total · calls) (r.counted · calls)
      fun keys => ∀ c ∈ calls, c.Holds keys := by
  induction calls generalizing r with
  | nil =>
      refine ⟨fun k => .idle rfl rfl (settled k), (Int.add_zero _).symm, ?_⟩
      intro keys _ _
      rfl
  | cons call rest ih =>
      rw [List.forall_mem_cons] at valid forward
      have part : [call] <+: call :: rest := List.prefix_append [call] rest
      have first : (r.respond call).runner.fault = none :=
        fine_before part fine
      have now := respond_account valid.1 forward.1 running settled positive first
      have later := ih valid.2 forward.2 first (fun k => (now.ledger k).settled)
        (fun k => (now.ledger k).rate ▸ positive k) fine
      simp only [List.forall_mem_cons]
      exact now.append later

structure OnTime (fresh : Runner Rat Rat) (calls : List (Call Rat)) : Prop where
  counted : ∀ k, fresh.counted k calls =
    (fresh.rate k * Call.total k calls + slack).floor
  budget : ∀ k, Settled ((fresh.drive calls).budget k)
  completed : ((fresh.drive calls).completed : Int) =
    (fresh.rate .cycles * Call.total .cycles calls + slack).floor
  machine : ∀ keys, (∀ c ∈ calls, c.Holds keys) → fresh.counted .ticks calls = 0 →
    (fresh.drive calls).machine = fresh.machine.play (List.replicate
      (fresh.rate .cycles * Call.total .cycles calls + slack).floor.toNat
      (.cycle keys))

theorem onTime_of_account {calls : List (Call Rat)}
    (h : Account r (r.drive calls) (Call.total · calls) (r.counted · calls)
      fun keys => ∀ c ∈ calls, c.Holds keys)
    (empty : ∀ k, r.budget k = 0) (zero : r.completed = 0) : r.OnTime calls := by
  have counted : ∀ k, r.counted k calls =
      (r.rate k * Call.total k calls + slack).floor := by
    intro k
    have settled := (h.ledger k).settled
    rw [(h.ledger k).budget, empty, Rat.zero_add, Rat.mul_comm] at settled
    exact (floor_of_settled settled).symm
  refine ⟨counted, fun k => (h.ledger k).settled, ?_, ?_⟩
  · rw [h.completed, zero, counted]
    exact Int.zero_add _
  · intro keys holds still
    rw [h.machine keys holds still, counted]

theorem drive_keeps_time (m : Machine) (cycleRate timerRate : Rat)
    (positive : 0 < cycleRate ∧ 0 < timerRate) (calls : List (Call Rat))
    (valid : ∀ c ∈ calls, c.Valid) (forward : ∀ c ∈ calls, c.Forward)
    (fine : ((start m cycleRate timerRate).drive calls).fault = none) :
    let fresh := start m cycleRate timerRate
    (∀ before, before <+: calls → fresh.OnTime before) ∧
    ∀ other, (∀ c ∈ other, c.Valid) → (∀ c ∈ other, c.Forward) →
      (fresh.drive other).fault = none →
      (∀ k, Call.total k other = Call.total k calls →
        fresh.counted k other = fresh.counted k calls) ∧
      ∀ keys, (∀ c ∈ calls ++ other, c.Holds keys) →
        fresh.counted .ticks calls = 0 → fresh.counted .ticks other = 0 →
        Call.total .cycles other = Call.total .cycles calls →
        (fresh.drive other).machine = (fresh.drive calls).machine := by
  intro fresh
  have onTime : ∀ calls, (∀ c ∈ calls, c.Valid) → (∀ c ∈ calls, c.Forward) →
      (fresh.drive calls).fault = none → fresh.OnTime calls := by
    intro calls valid forward fine
    have settled : ∀ k, Settled (fresh.budget k) := by
      intro k
      cases k <;> exact settled_zero
    have rates : ∀ k, 0 < fresh.rate k := by
      intro k
      cases k
      · exact positive.1
      · exact positive.2
    have account := drive_account valid forward rfl settled rates fine
    exact onTime_of_account account (by intro k; cases k <;> rfl) rfl
  have here := onTime calls valid forward fine
  constructor
  · intro before part
    exact onTime before (fun c hc => valid c (part.subset hc))
      (fun c hc => forward c (part.subset hc)) (fine_before part fine)
  · intro other valid' forward' fine'
    have there := onTime other valid' forward' fine'
    constructor
    · intro k same
      rw [there.counted, here.counted, same]
    · intro keys holds still still' same
      rw [List.forall_mem_append] at holds
      rw [there.machine keys holds.2 still', here.machine keys holds.1 still, same]

/-- Two halves of a cycle with half a tick between them, on a jump to itself. -/
theorem drive_keeps_time_halves :
    let calls : List (Call Rat) :=
      [.runCycles (1 / 1200) none, .runTimers (1 / 120),
        .runCycles (1 / 1200) none]
    (∀ c ∈ calls, c.Valid) ∧ (∀ c ∈ calls, c.Forward) ∧
      ∃ m, Machine.boot (.repeating #[]) [0x12, 0x00] = .ok m ∧
        ((start m (600 : Rat) 60).drive calls).fault = none ∧
        (start m (600 : Rat) 60).counted .cycles calls = 1 ∧
        (start m (600 : Rat) 60).counted .ticks calls = 0 ∧
        ((start m (600 : Rat) 60).drive calls).machine =
          m.after (.cycle none) := by
  intro calls
  have given := validKeys_none
  have valid : ∀ c ∈ calls, c.Valid := by
    simp [calls, Call.Valid, given]
  have forward : ∀ c ∈ calls, c.Forward := by
    have cycle : (0 : Rat) ≤ 1 / 1200 := by decide +kernel
    have tick : (0 : Rat) ≤ 1 / 120 := by decide +kernel
    exact List.forall_mem_cons.mpr ⟨cycle, List.forall_mem_cons.mpr
      ⟨tick, List.forall_mem_singleton.mpr cycle⟩⟩
  obtain ⟨m, booted⟩ := Machine.exists_boot (.repeating #[])
    (show ([0x12, 0x00] : List Byte).length ≤ Memory.capacity by decide)
  obtain ⟨running, -⟩ := Machine.running_of_boot booted
  have fetched : m.fetch? = some 0x1200 :=
    Machine.fetch?_of_boot booted rfl rfl rfl
  have jumped := Machine.cycle_of_jump given running fetched rfl
  have first : m.fault? (.cycle none) = none := by
    rw [Machine.fault?, jumped]
  have schedule : (start m (600 : Rat) 60).clocks.schedule calls =
      [.cycle none] := by
    have pays : ∀ a b c, a = 0 → b = 0 → c = 1 →
        List.replicate a (.cycle none) ++ (List.replicate b .tick ++
          (List.replicate c (.cycle none) ++ [])) = [Event.cycle none] := by
      rintro _ _ _ rfl rfl rfl
      rfl
    have clocks : (start m (600 : Rat) 60).clocks = ⟨600, 60, 0, 0⟩ := rfl
    rw [clocks]
    exact pays _ _ _ (by decide +kernel) (by decide +kernel) (by decide +kernel)
  have fine : ((start m (600 : Rat) 60).drive calls).fault = none := by
    have played := drive_played (r := start m (600 : Rat) 60) valid rfl
    have machine : (start m (600 : Rat) 60).machine = m := rfl
    rw [played.fault, Machine.firstFault?_untilFault, schedule, machine,
      Machine.firstFault?_cons, first]
    rfl
  have cycles : ((600 : Rat) * Call.total .cycles calls + slack).floor = 1 := by
    decide +kernel
  have ticks : ((60 : Rat) * Call.total .ticks calls + slack).floor = 0 := by
    decide +kernel
  obtain ⟨onTime, -⟩ :=
    drive_keeps_time m 600 60 (by decide +kernel) calls valid forward fine
  have here := onTime calls (List.prefix_refl _)
  have still := (here.counted .ticks).trans ticks
  refine ⟨valid, forward, m, booted, fine, (here.counted .cycles).trans cycles,
    still, ?_⟩
  rw [here.machine none (by simp [calls, Call.Holds]) still]
  exact congrArg (fun n : Int => m.play (List.replicate n.toNat _)) cycles

end Runner

end Chip8
