import Mathlib.Data.List.Iterate
import Chip8.Proofs.Frontend.Events

/-!
# Switching the tone

A buzzer switches its tone where a state of the tone differs from the one before
it, so its calls are on and off in turn.  A runner reports the state of its tone
after every call for ticks, and nothing else, so that a buzzer that hears the
runner sounds after such a call if and only if the sound timer is positive.
-/

namespace Chip8

variable {τ β : Type}

namespace Buzzer

def switch (on : Bool) : DeviceCall := if on then .play else .pause

/-- Neighbours that differ, where the first tone comes after `on`. -/
def changes (on : Bool) (tones : List Bool) : List (Bool × Bool) :=
  ((on :: tones).zip tones).filter fun (before, now) => before != now

theorem changes_cons (on now : Bool) (rest : List Bool) :
    changes on (now :: rest) =
      if on = now then changes now rest else (on, now) :: changes now rest := by
  rw [changes, List.zip_cons_cons, List.filter_cons]
  by_cases same : on = now <;> simp [changes, same]

theorem map_snd_changes (on : Bool) (tones : List Bool) :
    (changes on tones).map Prod.snd =
      List.iterate not (!on) (changes on tones).length := by
  induction tones generalizing on with
  | nil => rfl
  | cons now rest ih =>
      rw [changes_cons]
      by_cases same : on = now
      · rw [if_pos same, same, ih]
      · have other : (!on) = now := Bool.not_eq.mpr same
        rw [if_neg same, List.map_cons, List.length_cons, List.iterate, other,
          ih]

theorem playing_update (b : Buzzer) (sounding : Bool) :
    (b.update sounding).1.playing = sounding := by
  cases b with
  | mk playing => cases playing <;> cases sounding <;> rfl

theorem calls_update (b : Buzzer) (sounding : Bool) :
    (b.update sounding).2.1 =
      if b.playing = sounding then [] else [switch sounding] := by
  cases b with
  | mk playing => cases playing <;> cases sounding <;> rfl

theorem playing_updateAll (b : Buzzer) (tones : List Bool) :
    (b.updateAll tones).1.playing = tones.getLast?.getD b.playing := by
  induction tones generalizing b with
  | nil => rfl
  | cons sounding rest ih =>
      rw [List.getLast?_cons, Option.getD_some]
      exact (ih _).trans (congrArg _ (b.playing_update sounding))

theorem calls_updateAll (b : Buzzer) (tones : List Bool) :
    (b.updateAll tones).2.1 =
      (changes b.playing tones).map fun change => switch change.2 := by
  induction tones generalizing b with
  | nil => rfl
  | cons sounding rest ih =>
      have now := b.playing_update sounding
      simp only [updateAll]
      rw [ih, calls_update, now, changes_cons]
      by_cases same : b.playing = sounding
      · rw [if_pos same, if_pos same, List.nil_append]
      · rw [if_neg same, if_neg same]
        rfl

theorem calls_in_turn (b : Buzzer) (tones : List Bool) :
    (b.updateAll tones).2.1 =
      (List.iterate not (!b.playing) (changes b.playing tones).length).map
        switch := by
  rw [← map_snd_changes, List.map_map, calls_updateAll]
  rfl

theorem updateAll_append (b : Buzzer) (tones more : List Bool) :
    (b.updateAll (tones ++ more)).1 =
        ((b.updateAll tones).1.updateAll more).1 ∧
      (b.updateAll (tones ++ more)).2.1 = (b.updateAll tones).2.1 ++
        ((b.updateAll tones).1.updateAll more).2.1 := by
  induction tones generalizing b with
  | nil => exact ⟨rfl, rfl⟩
  | cons sounding rest ih =>
      obtain ⟨after, calls⟩ := ih (b.update sounding).1
      simp only [List.cons_append, updateAll]
      exact ⟨after, by rw [calls, List.append_assoc]⟩

end Buzzer

namespace Runner

variable [Pacing τ β] {r : Runner τ β}

def heard (r : Runner τ β) : List (Call τ) → List Bool
  | [] => []
  | call :: rest =>
      (r.respond call).activity.tones ++ (r.respond call).runner.heard rest

theorem step_of_cycle {keys : Option Snapshot} {m : Machine} {out : Output}
    (running : r.fault = none) (ok : r.machine.cycle keys = (m, .ok out)) :
    (r.respond (.step keys)).runner =
      { r with machine := m, completed := r.completed + 1 } := by
  have awake := halted_eq_false running
  simp [respond, step, awake, Turn.map, absorb, Machine.cycles,
    Machine.cyclesAfter, ok, running]

theorem tones_runTimers {count : Int} (running : r.fault = none) {elapsed : τ}
    (earned : (Pacing.withdraw r.timerBudget elapsed r.timerRate).2 =
      .ok count) :
    let turn := r.respond (.runTimers elapsed)
    turn.result = .ok (.count count) ∧
      turn.runner.machine = r.machine.ticks count.toNat ∧
      turn.activity.tones = [turn.runner.machine.sounding] := by
  have awake := halted_eq_false running
  simp [respond, runTimers, awake, Turn.map, earned, Except.map]

theorem tones_runTimers_of_error {e : AmountError} (running : r.fault = none)
    {elapsed : τ}
    (nothing : (Pacing.withdraw r.timerBudget elapsed r.timerRate).2 =
      .error e) :
    let turn := r.respond (.runTimers elapsed)
    turn.result = .error (.amount e) ∧ turn.activity.tones = [] := by
  have awake := halted_eq_false running
  simp [respond, runTimers, awake, Turn.map, nothing, Except.map]

end Runner

structure Audible (τ β : Type) where
  runner : Runner τ β
  buzzer : Buzzer := {}

namespace Audible

variable [Pacing τ β]

def respond (a : Audible τ β) (call : Call τ) :
    Audible τ β × List DeviceCall :=
  let turn := a.runner.respond call
  let (buzzer, asked, _) := a.buzzer.updateAll turn.activity.tones
  (⟨turn.runner, buzzer⟩, asked)

def drive (a : Audible τ β) (calls : List (Call τ)) : Audible τ β :=
  calls.foldl (fun a call => (a.respond call).1) a

def asked (a : Audible τ β) : List (Call τ) → List DeviceCall
  | [] => []
  | call :: rest => (a.respond call).2 ++ (a.respond call).1.asked rest

theorem respond_of_silent {a : Audible τ β} {call : Call τ}
    (silent : (a.runner.respond call).activity.tones = []) :
    a.respond call = (⟨(a.runner.respond call).runner, a.buzzer⟩, []) := by
  rw [respond, silent]
  rfl

theorem drive_eq (a : Audible τ β) (calls : List (Call τ)) :
    a.drive calls = ⟨a.runner.drive calls,
      (a.buzzer.updateAll (a.runner.heard calls)).1⟩ := by
  induction calls generalizing a with
  | nil => rfl
  | cons call rest ih =>
      rw [Runner.heard, (Buzzer.updateAll_append ..).1]
      exact ih (a.respond call).1

theorem asked_eq (a : Audible τ β) (calls : List (Call τ)) :
    a.asked calls = (a.buzzer.updateAll (a.runner.heard calls)).2.1 := by
  induction calls generalizing a with
  | nil => rfl
  | cons call rest ih =>
      rw [asked, ih, Runner.heard, (Buzzer.updateAll_append ..).2]
      rfl

theorem playing_iff {a : Audible τ β} (running : a.runner.fault = none)
    {elapsed : τ} {count : Int}
    (earned : (Pacing.withdraw a.runner.timerBudget elapsed
      a.runner.timerRate).2 = .ok count) :
    let next := (a.respond (.runTimers elapsed)).1
    next.buzzer.playing = true ↔ 0 < next.runner.machine.timers.sound := by
  obtain ⟨-, -, tones⟩ := Runner.tones_runTimers running earned
  have sounds := a.buzzer.playing_updateAll
    [(a.runner.respond (.runTimers elapsed)).runner.machine.sounding]
  rw [respond, tones]
  exact (Bool.eq_iff_iff.mp sounds).trans decide_eq_true_iff

theorem tone_follows_timer :
    (∀ tones : List Bool,
      let heard := ({} : Buzzer).updateAll tones
      let changes := Buzzer.changes false tones
      heard.2.1 = changes.map (fun change => Buzzer.switch change.2) ∧
        heard.2.1 =
          (List.iterate not true changes.length).map Buzzer.switch ∧
        heard.1.playing = tones.getLast?.getD false) ∧
    (∀ (r : Runner τ β) (calls : List (Call τ)),
      let start : Audible τ β := ⟨r, {}⟩
      let now := start.drive calls
      now.runner = r.drive calls ∧
        start.asked calls = (({} : Buzzer).updateAll (r.heard calls)).2.1 ∧
        (∀ keys, now.respond (.step keys) =
          (⟨(now.runner.respond (.step keys)).runner, now.buzzer⟩, [])) ∧
        (∀ elapsed keys, now.respond (.runCycles elapsed keys) =
          (⟨(now.runner.respond (.runCycles elapsed keys)).runner,
            now.buzzer⟩, [])) ∧
        (now.runner.fault = none → ∀ elapsed,
          let earned := (Pacing.withdraw now.runner.timerBudget elapsed
            now.runner.timerRate).2
          let turn := now.runner.respond (.runTimers elapsed)
          let next := now.respond (.runTimers elapsed)
          (∀ count, earned = .ok count →
            turn.result = .ok (.count count) ∧
              next.1.runner.machine =
                now.runner.machine.ticks count.toNat ∧
              (next.1.buzzer.playing = true ↔
                0 < next.1.runner.machine.timers.sound)) ∧
          ∀ e, earned = .error e →
            turn.result = .error (.amount e) ∧
              next = (⟨turn.runner, now.buzzer⟩, []))) ∧
    ∀ budget elapsed rate : Rat,
      ∃ count, (Pacing.withdraw budget elapsed rate).2 = .ok count := by
  refine ⟨?_, ?_, ?_⟩
  · intro tones
    exact ⟨Buzzer.calls_updateAll _ tones, Buzzer.calls_in_turn _ tones,
      Buzzer.playing_updateAll _ tones⟩
  · intro r calls start now
    refine ⟨congrArg runner (drive_eq start calls), asked_eq start calls,
      fun keys => respond_of_silent (now.runner.tones_step keys),
      fun elapsed keys =>
        respond_of_silent (now.runner.tones_runCycles elapsed keys), ?_⟩
    intro running elapsed earned turn next
    constructor
    · intro count counted
      obtain ⟨answers, ticked, -⟩ := Runner.tones_runTimers running counted
      exact ⟨answers, ticked, playing_iff running counted⟩
    · intro e nothing
      obtain ⟨answers, silent⟩ :=
        Runner.tones_runTimers_of_error running nothing
      exact ⟨answers, respond_of_silent silent⟩
  · intro budget elapsed rate
    exact ⟨_, rfl⟩

/-- Five is put into the sound timer, and a call that comes to no tick turns the
tone on. -/
theorem tone_follows_timer_set :
    ∃ m, Machine.boot (.repeating #[]) [0x60, 0x05, 0xF0, 0x18] = .ok m ∧
      ∃ start now : Audible Rat Rat, start = ⟨.start m 600 60, {}⟩ ∧
        now = start.drive [.step none, .step none] ∧
        start.asked [.step none, .step none] = [] ∧
        now.runner.fault = none ∧
        (Pacing.withdraw now.runner.timerBudget 0 now.runner.timerRate).2 =
          .ok 0 ∧
        (now.respond (.runTimers 0)).1.buzzer.playing = true := by
  obtain ⟨m, booted⟩ := Machine.exists_boot (.repeating #[])
    (show ([0x60, 0x05, 0xF0, 0x18] : List Byte).length ≤ Memory.capacity by
      decide)
  obtain ⟨running, pc⟩ := Machine.running_of_boot booted
  have given := validKeys_none
  have fetched : m.fetch? = some 0x6005 :=
    Machine.fetch?_of_boot booted rfl rfl rfl
  obtain ⟨out, first⟩ : ∃ out,
      m.cycle none = ((m.advance 0x6005).setV 0 5, .ok out) :=
    ⟨_, Machine.cycle_of_form given running fetched
      (show Op.setByte.Form _ from rfl) fun _ => rfl⟩
  have read := Machine.readWord_of_boot booted (k := 2) (by decide)
  have next : ((m.advance 0x6005).setV 0 5).fetch? = some 0xF018 := by
    have here : ((m.advance 0x6005).setV 0 5).pc = 0x202 :=
      congrArg (· + 2) pc
    rw [Machine.fetch?_eq_some_iff, here]
    exact ⟨by decide, read⟩
  obtain ⟨m', out', second, sound⟩ : ∃ m' out',
      ((m.advance 0x6005).setV 0 5).cycle none = (m', .ok out') ∧
        m'.timers.sound = 5 := by
    refine ⟨_, _, Machine.cycle_of_form given running next
      (show Op.setSound.Form _ from ⟨rfl, rfl⟩) fun _ => rfl, ?_⟩
    have set : ((m.advance 0x6005).setV 0 5).v 0 = 5 :=
      Registers.get_set_self ..
    exact congrArg (fun v : Byte => (v.toNat : Int)) set
  obtain ⟨-, laws, -⟩ := @tone_follows_timer Rat Rat _
  obtain ⟨driven, asks, -, -, follows⟩ :=
    laws (.start m 600 60) [.step none, .step none]
  have once := Runner.step_of_cycle (r := .start m (600 : Rat) 60) rfl first
  have here : (Runner.start m (600 : Rat) 60).drive [.step none, .step none] =
      { Runner.start m (600 : Rat) 60 with machine := m', completed := 2 } := by
    rw [Runner.drive, List.foldl_cons, once]
    exact Runner.step_of_cycle rfl second
  rw [here] at driven
  have counted :
      (Pacing.withdraw (Pacing.empty Rat) (0 : Rat) 60).2 = .ok 0 := by
    decide +kernel
  rw [driven] at follows
  obtain ⟨counts, -⟩ := follows rfl 0
  obtain ⟨-, ticked, sounds⟩ := counts 0 counted
  refine ⟨m, booted, _, _, rfl, rfl, ?_, ?_, ?_, ?_⟩
  · rw [asks, Runner.heard, Runner.heard, Runner.tones_step, Runner.tones_step]
    rfl
  · rw [driven]
    rfl
  · rw [driven]
    exact counted
  · rw [sounds, ticked]
    change 0 < m'.timers.sound
    rw [sound]
    decide

end Audible

theorem Window.take_audible (w : Window) (call : Call Amount) :
    let next := (Audible.respond ⟨w.runner, w.buzzer⟩ call).1
    (w.take call).window.runner = next.runner ∧
      (w.take call).window.buzzer = next.buzzer := by
  intro next
  by_cases fault : ∃ f,
      (w.runner.respond call).result = .error (.cycle (.fault f))
  · obtain ⟨f, fault⟩ := fault
    rw [take, (accept_of_fault fault).1]
    exact ⟨rfl, rfl⟩
  · rw [take, (accept_of_not_fault (not_exists.mp fault)).1]
    exact ⟨rfl, rfl⟩

end Chip8
