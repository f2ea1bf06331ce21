import Chip8.CommandLine.Session
import Chip8.Proofs.Frontend.Events
import Chip8.Proofs.Pacing.Frames

/-!
# The life cycle of a session

A session ends in failure if and only if one of its cycles faulted.  The fault
freezes it, and its player is deleted once, when the window is first closed.
-/

namespace Chip8

namespace Window

variable [Keyboard]

/-- The window has been asked to close, or a fault has closed it. -/
def Ended (m : Machine) (w : Window) (events : List Event) : Prop :=
  (∃ e ∈ events, e.Closes) ∨ ∃ f, m.Faulted (w.executed events) f

structure LifeCycle (m : Machine) (w : Window) (opening : List DeviceCall)
    (events : List Event) : Prop where
  machine : (w.play events).runner.machine = m.play (w.executed events)
  completed : (w.play events).runner.completed =
    (m.outputs (w.executed events)).length
  shown : (w.play events).display.shown =
    some ((m.frames (w.executed events)).getLast?.getD m.screen)
  halted : (w.play events).error = (w.play events).runner.fault
  error_iff : ∀ f,
    (w.play events).error = some f ↔ m.Faulted (w.executed events) f
  last : ∀ before keys later f,
    w.executed events = before ++ .cycle keys :: later →
    ((m.play before).cycle keys).2 = .error (.fault f) → later = []
  frozen : ∀ before later f, events = before ++ later →
    (w.play before).error = some f →
    (w.play events).error = some f ∧
      (w.play events).runner = (w.play before).runner ∧
      (w.play events).display = (w.play before).display
  deleted : w.Ended m events →
    (opening ++ w.deviceCalls events).count .deletePlayer = 1
  kept : ¬ w.Ended m events → .deletePlayer ∉ opening ++ w.deviceCalls events
  quiet : ∀ before later,
    opening ++ w.deviceCalls events = before ++ .deletePlayer :: later →
    .play ∉ later ∧ .pause ∉ later
  /-- No clock drives a window that has ended. -/
  byHand : ∀ before later, events = before ++ later → w.Ended m before →
    ∀ call ∈ (w.play before).runnerCalls later, ∃ keys, call = .step keys

variable {m : Machine} {s : Settings} {w : Window} {asked : List DeviceCall}

namespace Opened

theorem leads (opened : Opened m s w asked) (events : List Event) :
    w.Leads (∃ e ∈ events, e.Closes) (w.runnerCalls events)
      (w.deviceCalls events) (w.play events) :=
  leads_play opened.sound events

theorem played (opened : Opened m s w asked) (events : List Event) :
    w.runner.Played (w.executed events) (w.play events).runner
      (w.runner.received (w.runnerCalls events)) := by
  have leads := opened.leads events
  rw [leads.runner, executed]
  apply Runner.drive_played leads.valid
  rw [opened.runner]
  rfl

theorem error_iff (opened : Opened m s w asked) (events : List Event)
    (f : Fault) :
    (w.play events).error = some f ↔ m.Faulted (w.executed events) f := by
  have here : w.runner.machine = m := congrArg Runner.machine opened.runner
  rw [(opened.leads events).sound.error, (opened.played events).fault, executed,
    here]
  exact Machine.firstFault?_untilFault_eq_some_iff

theorem closed_iff (opened : Opened m s w asked) (events : List Event) :
    (w.play events).closed = true ↔ w.Ended m events := by
  rw [(opened.leads events).closed, opened.opened, Ended,
    Option.ne_none_iff_exists']
  simp [opened.error_iff]

theorem shown_eq (opened : Opened m s w asked) (events : List Event) :
    (w.play events).display.shown =
      some ((m.frames (w.executed events)).getLast?.getD m.screen) := by
  have here : w.runner.machine = m := congrArg Runner.machine opened.runner
  have leads := opened.leads events
  have given : ∀ e ∈ w.executed events, e.Valid := fun e he =>
    Clocks.schedule_valid leads.valid e
      ((Machine.untilFault_prefix ..).subset he)
  rw [leads.display, Display.presentAll_eq _ opened.scaled,
    (opened.played events).frames, here, Machine.filterMap_outputs given,
    opened.shown]
  cases (m.frames (w.executed events)).getLast? <;> rfl

theorem hearAll_deviceCalls (opened : Opened m s w asked)
    (events : List Event) :
    Player.silent.hearAll (asked ++ w.deviceCalls events) =
      some (w.play events).player := by
  have fresh : w.player = .silent := by
    rw [player, opened.opened, opened.buzzer]
    rfl
  rw [Player.hearAll_append, Player.hearAll_of_not_forPlayer opened.quiet,
    Option.bind_some, ← fresh, (opened.leads events).player]

theorem lifeCycle (opened : Opened m s w asked) (events : List Event) :
    w.LifeCycle m asked events := by
  have here : w.runner.machine = m := congrArg Runner.machine opened.runner
  have played := opened.played events
  have heard := opened.hearAll_deviceCalls events
  have number := Player.count_deletePlayer heard nofun
  have closed : (w.play events).player = .deleted ↔ w.Ended m events :=
    player_eq_deleted_iff.trans (opened.closed_iff events)
  constructor
  case machine => rw [played.machine, here]
  case completed =>
    rw [played.completed, here, opened.runner]
    exact Nat.zero_add _
  case shown => exact opened.shown_eq events
  case halted => exact (opened.leads events).sound.error
  case error_iff => exact opened.error_iff events
  case last =>
    intro before keys later f done fault
    rw [executed, here] at done
    exact (Machine.untilFault_eq_append done
      (Machine.fault?_cycle_eq_some_iff.mpr fault)).1
  case frozen =>
    rintro before later f rfl error
    have sound := (opened.leads before).sound
    rw [play_append]
    exact (leads_play sound later).error_of_some sound error
  case deleted =>
    intro ended
    rw [number, if_pos (closed.mpr ended)]
  case kept =>
    intro lasting
    rw [← List.count_eq_zero, number, if_neg fun h => lasting (closed.mp h)]
  case quiet =>
    intro before later split
    rw [split] at heard
    have others := Player.not_forPlayer_of_deletePlayer heard
    constructor
    · intro mem
      cases others _ mem
    · intro mem
      cases others _ mem
  case byHand =>
    rintro before later rfl ended call mem
    exact exists_step_of_mem_runnerCalls (opened.leads before).sound
      ((opened.closed_iff before).mpr ended) mem

end Opened

end Window

namespace CommandLine

namespace Session

def play [Keyboard] (s : Session) (events : List Window.Event) : Session :=
  events.foldl (fun s e => (s.handle e).1) s

theorem window_play [Keyboard] (s : Session) (events : List Window.Event) :
    (s.play events).window = s.window.play events := by
  induction events generalizing s with
  | nil => rfl
  | cons e rest ih => exact ih (s.handle e).1

theorem exitCode_finish (s : Session) :
    s.finish.exitCode = if s.window.error = none then 0 else 1 := by
  rw [finish]
  cases s.window.error <;> rfl

end Session

theorem open?_of_windowFor {room : Int} {m : Machine} {options : Settings}
    {opened : Window × List DeviceCall}
    (h : windowFor room m options = .ok opened) :
    ∃ settings, Window.open? room m settings = .ok opened := by
  rw [windowFor] at h
  cases scaled : options.scale with
  | none => simp [scaled] at h
  | some scale =>
      simp only [scaled] at h
      cases opens : Window.open? room m
          (options.window scale (options.speed.getD timerSpeed)) with
      | error e => simp [opens] at h
      | ok found =>
          simp only [opens] at h
          split at h
          · cases h
          · cases h
            exact ⟨_, opens⟩

theorem exists_of_start {room : Int} {random : RandomBytes} {reader : Reader}
    {arguments : List String} {s : Session} {opening : List DeviceCall}
    (started : start room random reader arguments = .ok (.opened s opening)) :
    ∃ options program m settings, parse arguments = .ok options ∧
      reader (Path.normalize options.program) = .ok program ∧
      Machine.boot random program = .ok m ∧
      Window.open? room m settings = .ok (s.window, opening) := by
  rw [start] at started
  cases parsed : parse arguments with
  | error stop => simp [parsed] at started
  | ok options =>
      simp only [parsed] at started
      split at started
      · cases started
      · cases found : reader (Path.normalize options.program) with
        | error e => simp [found, failed] at started
        | ok program =>
            simp only [found] at started
            split at started
            · cases started
            · rw [openWindow] at started
              cases booted : Machine.boot random program with
              | error e => simp [booted, failed] at started
              | ok m =>
                  cases opens : windowFor room m options with
                  | error crash => simp [booted, opens] at started
                  | ok opened =>
                      simp only [booted, opens] at started
                      cases started
                      obtain ⟨settings, opens⟩ := open?_of_windowFor opens
                      exact ⟨options, program, m, settings, rfl, found, booted,
                        opens⟩

theorem session_life_cycle [Keyboard] (random : RandomBytes) :
    (∀ program : List Byte, program.length ≤ Memory.capacity →
      ∃ m, Machine.boot random program = .ok m ∧
        ∀ room settings w opening,
          Window.open? room m settings = .ok (w, opening) →
          ∀ events, w.LifeCycle m opening events) ∧
    ∀ room reader arguments s opening,
      start room random reader arguments = .ok (.opened s opening) →
      ∃ options program m settings, parse arguments = .ok options ∧
        reader (Path.normalize options.program) = .ok program ∧
        Machine.boot random program = .ok m ∧
        Window.open? room m settings = .ok (s.window, opening) ∧
        ∀ events, s.window.LifeCycle m opening events ∧
          (s.play events).window = s.window.play events ∧
          ((s.play events).finish.exitCode = 1 ↔
            ∃ f, m.Faulted (s.window.executed events) f) ∧
          ((s.play events).finish.exitCode = 0 ↔
            ¬ ∃ f, m.Faulted (s.window.executed events) f) := by
  constructor
  · intro program fits
    obtain ⟨m, booted⟩ := Machine.exists_boot random fits
    refine ⟨m, booted, ?_⟩
    intro room settings w opening opens events
    exact (Window.opened_of_open? opens).lifeCycle events
  · intro room reader arguments s opening started
    obtain ⟨options, program, m, settings, parsed, found, booted, opens⟩ :=
      exists_of_start started
    refine ⟨options, program, m, settings, parsed, found, booted, opens, ?_⟩
    intro events
    have life := (Window.opened_of_open? opens).lifeCycle events
    have same := s.window_play events
    refine ⟨life, same, ?_⟩
    have failed : (s.play events).window.error ≠ none ↔
        ∃ f, m.Faulted (s.window.executed events) f := by
      rw [same, Option.ne_none_iff_exists']
      exact exists_congr life.error_iff
    rw [← failed, Session.exitCode_finish]
    cases (s.play events).window.error <;> simp

theorem session_life_cycle_return :
    letI := Keyboard.customary
    ∃ s opening,
      start Position.limit (.repeating #[]) (fun _ => .ok [0x00, 0xEE])
          ["-d", "game"] =
        .ok (.opened s opening) ∧
      (s.play [.press .space, .press .escape]).finish.exitCode = 1 ∧
      (opening ++ s.window.deviceCalls
        [.press .space, .press .escape]).count .deletePlayer = 1 := by
  let _ := Keyboard.customary
  obtain ⟨m, booted⟩ := Machine.exists_boot (.repeating #[])
    (show ([0x00, 0xEE] : List Byte).length ≤ Memory.capacity by decide)
  have parsed : parse ["-d", "game"] =
      .ok { program := "game", debug := true } := rfl
  have path : Path.normalize "game" = "game" := by decide
  have plain : "game".contains (Char.ofNat 0) = false := by
    rw [String.contains_char_eq]
    decide
  obtain ⟨w, opening, opens⟩ : ∃ w opening,
      Window.open? Position.limit m
        (Settings.window ⟨"game", true, false, some 10, some 600⟩ 10 600) =
          .ok (w, opening) :=
    ⟨_, _, rfl⟩
  have windowed :
      windowFor Position.limit m { program := "game", debug := true } =
        .ok (w, opening) := by
    simp [windowFor, opens]
  obtain ⟨s, started, rfl⟩ : ∃ s, start Position.limit (.repeating #[])
      (fun _ => .ok [0x00, 0xEE]) ["-d", "game"] =
        .ok (.opened s opening) ∧ s.window = w := by
    simp [start, parsed, path, plain, openWindow, booted, windowed]
  have opened := Window.opened_of_open? opens
  have calls : s.window.runnerCalls [.press .space, .press .escape] =
      [.step (some s.window.keypad.flags)] := by
    rw [Window.runnerCalls, Window.callsOf_space Keyboard.distinct_customary
      opened.stepping]
    rfl
  have fault := Machine.cycle_of_boot_ret booted rfl rfl
    (validKeys_flags s.window.keypad)
  have done : s.window.executed [.press .space, .press .escape] =
      [.cycle (some s.window.keypad.flags)] := by
    rw [Window.executed, calls, opened.runner]
    change m.untilFault [.cycle _] = _
    rw [Machine.untilFault, Machine.fault?_cycle_eq_some_iff.mpr fault]
  have faulted : m.Faulted (s.window.executed [.press .space, .press .escape])
      ⟨0x200, 0x00EE, some .stackUnderflow⟩ :=
    ⟨[], _, [], done, fault⟩
  obtain ⟨-, sessions⟩ := session_life_cycle (.repeating #[])
  obtain ⟨options, program, m', settings, -, found, again, -, runs⟩ :=
    sessions _ _ _ _ _ started
  cases found
  cases booted.symm.trans again
  obtain ⟨life, -, failed, -⟩ := runs [.press .space, .press .escape]
  refine ⟨s, opening, started, failed.mpr ⟨_, faulted⟩, ?_⟩
  exact life.deleted (.inr ⟨_, faulted⟩)

end CommandLine

end Chip8
