import Chip8.Machine.Cycle
import Chip8.Pacing.Budget

/-!
# Running against time

A runner drives a machine through two independent cadences, cycles and timer
ticks, each with its own rate and budget.  Frames for a display and states of
the tone for a sound device come out of each call as data.  The first fault
halts the runner for good.
-/

namespace Chip8

structure Runner (τ β : Type) where
  machine : Machine
  cycleRate : τ
  timerRate : τ
  cycleBudget : β
  timerBudget : β
  completed : Nat := 0
  fault : Option Fault := none

structure Activity where
  frames : List Screen := []
  tones : List Bool := []
  entries : List Log.Entry := []

inductive RunError where
  | cycle (e : CycleError)
  | amount (e : AmountError)
  deriving DecidableEq, Repr

structure Turn (τ β α : Type) where
  runner : Runner τ β
  activity : Activity
  result : Except RunError α

def Output.frame? (out : Output) : Option Screen :=
  if out.updated then some out.screen else none

def CycleError.fault? : CycleError → Option Fault
  | fault f => some f
  | _ => none

/-- A fault is logged by the runner; other errors are not. -/
def CycleError.entries : CycleError → List Log.Entry
  | fault f => [⟨.error, .runner, "Emulation error: " ++ f.message⟩]
  | _ => []

namespace Runner

variable {τ β : Type}

def start [Pacing τ β] (machine : Machine) (cycleRate timerRate : τ) :
    Runner τ β :=
  { machine, cycleRate, timerRate
    cycleBudget := Pacing.empty τ, timerBudget := Pacing.empty τ }

def halted (r : Runner τ β) : Bool := r.fault.isSome

def absorb (r : Runner τ β) (batch : Machine.Batch) : Runner τ β :=
  { r with
    machine := batch.machine
    completed := r.completed + batch.outputs.length
    fault := batch.error.bind CycleError.fault? }

def activityOf (batch : Machine.Batch) : Activity where
  frames := batch.outputs.filterMap Output.frame?
  entries := batch.outputs.filterMap Output.entry
    ++ (batch.error.map CycleError.entries).getD []

def step (r : Runner τ β) (keys : Option Snapshot) :
    Turn τ β (Option Output) :=
  if r.halted then ⟨r, {}, .ok none⟩
  else
    let batch := r.machine.cycles keys 1
    ⟨r.absorb batch, activityOf batch,
      match batch.error with
      | none => .ok batch.outputs.head?
      | some e => .error (.cycle e)⟩

/-- The cycles that the elapsed time pays for, all with the same snapshot.  The
count is answered also where it is negative and no cycle is run. -/
def runCycles [Pacing τ β] (r : Runner τ β) (elapsed : τ)
    (keys : Option Snapshot) : Turn τ β Int :=
  if r.halted then ⟨r, {}, .ok 0⟩
  else
    let (cycleBudget, count) :=
      Pacing.withdraw r.cycleBudget elapsed r.cycleRate
    let r := { r with cycleBudget }
    match count with
    | .error e => ⟨r, {}, .error (.amount e)⟩
    | .ok count =>
        let batch := r.machine.cycles keys count.toNat
        ⟨r.absorb batch, activityOf batch,
          match batch.error with
          | none => .ok count
          | some e => .error (.cycle e)⟩

/-- The timer ticks that the elapsed time pays for.  The sound device hears of
the tone every time, also after no tick. -/
def runTimers [Pacing τ β] (r : Runner τ β) (elapsed : τ) : Turn τ β Int :=
  if r.halted then ⟨r, {}, .ok 0⟩
  else
    let (timerBudget, count) :=
      Pacing.withdraw r.timerBudget elapsed r.timerRate
    let r := { r with timerBudget }
    match count with
    | .error e => ⟨r, {}, .error (.amount e)⟩
    | .ok count =>
        let r := { r with machine := r.machine.ticks count.toNat }
        ⟨r, { tones := [r.machine.sounding] }, .ok count⟩

end Runner

end Chip8
