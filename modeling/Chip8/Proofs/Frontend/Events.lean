import Chip8.Frontend.Window
import Chip8.Proofs.Frontend.Player
import Chip8.Proofs.Pacing.Schedule

/-!
# Windows under events

An event reaches the machine through calls to the runner alone.  What a window
makes of a call, of a change that needs none and of its closing is shown once,
and carried from there to every sequence of events.
-/

namespace Chip8

namespace Display

theorem presentAll_append (d : Display) (frames more : List Screen) :
    (d.presentAll (frames ++ more)).1 =
      ((d.presentAll frames).1.presentAll more).1 := by
  induction frames generalizing d with
  | nil => rfl
  | cons s rest ih => exact ih (d.present s).1

theorem present_not_forPlayer (d : Display) (s : Screen) :
    ∀ call ∈ (d.present s).2, call.forPlayer = false := by
  by_cases negative : d.scale < 0
  · simp [present, paint, negative]
  · simp [present, paint, negative, DeviceCall.forPlayer]

theorem presentAll_not_forPlayer (d : Display) (frames : List Screen) :
    ∀ call ∈ (d.presentAll frames).2, call.forPlayer = false := by
  induction frames generalizing d with
  | nil => exact List.forall_mem_nil _
  | cons s rest ih =>
      exact List.forall_mem_append.mpr
        ⟨d.present_not_forPlayer s, ih (d.present s).1⟩

theorem presentAll_eq (d : Display) (scaled : 0 ≤ d.scale)
    (frames : List Screen) :
    (d.presentAll frames).1 =
      { d with shown := frames.getLast?.or d.shown } := by
  induction frames generalizing d with
  | nil => rfl
  | cons s rest ih =>
      rw [presentAll, present_eq d s scaled]
      refine (ih { d with shown := some s } scaled).trans ?_
      cases last : rest.getLast? <;> simp [List.getLast?_cons, last]

end Display

namespace Keyboard

def Distinct [Keyboard] : Prop :=
  (KeySymbol.escape :: .f1 :: .space ::
    KeySymbol.keymap.map (·.2.1)).Nodup

/-- A key that prints a character has its code, in lower case for letters. -/
abbrev customary : Keyboard where
  named
    | "ESCAPE" => ⟨0xFF1B⟩
    | "F1" => ⟨0xFFBE⟩
    | "SPACE" => ⟨0x20⟩
    | name => ⟨(name.toList.getLast?.getD ' ').toLower.toNat⟩

theorem distinct_customary : @Distinct customary := by
  unfold Distinct
  decide

end Keyboard

theorem KeySymbol.key?_eq_none [Keyboard] {symbol : KeySymbol}
    (other : symbol ∉ keymap.map (·.2.1)) : symbol.key? = none := by
  rw [key?, List.lookup_eq_none_iff]
  intro p mem
  obtain ⟨entry, there, rfl⟩ := List.mem_map.mp mem
  exact bne_iff_ne.mpr fun same =>
    other (List.mem_map.mpr ⟨entry, there, same.symm⟩)

namespace Window

def player (w : Window) : Player :=
  if w.closed then .deleted else w.buzzer.player

def clockCall (w : Window) (elapsed : Amount) : Clock → Call Amount
  | .cycles => .runCycles elapsed (some w.keypad.flags)
  | .timers => .runTimers elapsed

def clockCalls (w : Window) (clock : Clock) (elapsed : Amount) :
    Nat → List (Call Amount)
  | 0 => []
  | times + 1 =>
      let first := w.pulse elapsed clock
      w.clockCall elapsed clock ::
        match first.result with
        | .error _ => []
        | .ok _ => first.window.clockCalls clock elapsed times

structure Sound (w : Window) : Prop where
  error : w.error = w.runner.fault
  ended : w.error ≠ none → w.closed = true
  unscheduled : w.closed = true → w.schedule = []

/-- What these calls to the runner, and a closing if there is one, make of a
window, with what is asked of its devices. -/
structure Leads (w : Window) (closing : Prop) (calls : List (Call Amount))
    (asked : List DeviceCall) (w' : Window) : Prop where
  valid : ∀ call ∈ calls, call.Valid
  sound : w'.Sound
  runner : w'.runner = w.runner.drive calls
  display : w'.display = (w.display.presentAll (w.runner.received calls)).1
  player : w.player.hearAll asked = some w'.player
  closed : w'.closed = true ↔ w.closed = true ∨ closing ∨ w'.error ≠ none

variable {w w' w'' : Window} {closing closing' : Prop}
  {calls calls' : List (Call Amount)} {asked asked' : List DeviceCall}

theorem player_eq_deleted_iff : w.player = .deleted ↔ w.closed = true := by
  cases closed : w.closed <;> simp [player, closed, Buzzer.player_ne_deleted]

theorem Leads.error_of_some {f : Fault} (h : w.Leads closing calls asked w')
    (sound : w.Sound) (error : w.error = some f) :
    w'.error = some f ∧ w'.runner = w.runner ∧ w'.display = w.display := by
  have halted := sound.error.symm.trans error
  obtain ⟨still, nothing⟩ := Runner.drive_of_halted halted calls
  have same := h.runner.trans still
  refine ⟨?_, same, ?_⟩
  · rw [h.sound.error, same, halted]
  · rw [h.display, nothing]
    rfl

theorem Leads.append (first : w.Leads closing calls asked w')
    (second : w'.Leads closing' calls' asked' w'') :
    w.Leads (closing ∨ closing') (calls ++ calls') (asked ++ asked') w'' where
  valid := List.forall_mem_append.mpr ⟨first.valid, second.valid⟩
  sound := second.sound
  runner := by
    rw [second.runner, first.runner, Runner.drive_append]
  display := by
    rw [second.display, first.display, first.runner, Runner.received_append,
      Display.presentAll_append]
  player := by
    rw [Player.hearAll_append, first.player, Option.bind_some, second.player]
  closed := by
    -- An error of the first part counts for the whole because it stays.
    have stays : w'.error ≠ none → w''.error ≠ none := by
      intro ended
      obtain ⟨f, error⟩ := Option.ne_none_iff_exists'.mp ended
      rw [(second.error_of_some first.sound error).1]
      exact nofun
    rw [second.closed, first.closed]
    grind

theorem leads_of_settled (sound : w.Sound) (keypad : Keypad)
    (threshold : Log.Level) (quiet : ∀ call ∈ asked, call.forPlayer = false) :
    w.Leads False [] asked { w with keypad, threshold } where
  valid := List.forall_mem_nil _
  sound := { sound with }
  runner := rfl
  display := rfl
  player := Player.hearAll_of_not_forPlayer quiet
  closed := by
    have ended := sound.ended
    grind

theorem hearAll_close (w : Window) :
    w.player.hearAll w.close.2 = some .deleted := by
  rw [close, player]
  cases w.closed with
  | true => rfl
  | false =>
      cases w.buzzer with
      | mk playing => cases playing <;> rfl

theorem leads_close (sound : w.Sound) :
    w.Leads True [] w.close.2 w.close.1 where
  valid := List.forall_mem_nil _
  sound := ⟨sound.error, fun _ => rfl, fun _ => rfl⟩
  runner := rfl
  display := rfl
  player := w.hearAll_close
  closed := by simp [close]

theorem forward_eq (w : Window) (activity : Activity) :
    (w.forward activity).1 =
      { w with
        display := (w.display.presentAll activity.frames).1
        buzzer := (w.buzzer.updateAll activity.tones).1 } :=
  rfl

theorem hearAll_forward (w : Window) {activity : Activity}
    (silent : w.closed = true → activity.tones = []) :
    w.player.hearAll (w.forward activity).2.1 =
      some (w.forward activity).1.player := by
  have frames : ∀ p : Player,
      p.hearAll (w.display.presentAll activity.frames).2 = some p := fun _ =>
    Player.hearAll_of_not_forPlayer (w.display.presentAll_not_forPlayer _)
  rw [forward_eq]
  simp only [forward, player]
  rw [Player.hearAll_append, frames, Option.bind_some]
  cases closed : w.closed with
  | true =>
      rw [silent closed]
      rfl
  | false => exact w.buzzer.hearAll_updateAll activity.tones

/-- The window's part in a call to the runner. -/
def take (w : Window) (call : Call Amount) : Reaction :=
  w.accept (w.runner.respond call)

theorem accept_map {α γ : Type} (w : Window) (turn : Turn Amount Float α)
    (g : α → γ) : w.accept (turn.map g) = w.accept turn := by
  obtain ⟨runner, activity, result⟩ := turn
  cases result with
  | ok answer => rfl
  | error e =>
      cases e with
      | cycle e => cases e <;> rfl
      | amount e => rfl

theorem accept_of_fault {α : Type} {turn : Turn Amount Float α} {f : Fault}
    (fault : turn.result = .error (.cycle (.fault f))) :
    let after := { w with runner := turn.runner }.forward turn.activity
    (w.accept turn).window = { after.1 with error := some f }.close.1 ∧
      (w.accept turn).calls = after.2.1 ++ after.1.close.2 := by
  simp only [accept, fault]
  exact ⟨trivial, rfl⟩

theorem accept_of_not_fault {α : Type} {turn : Turn Amount Float α}
    (other : ∀ f, turn.result ≠ .error (.cycle (.fault f))) :
    let after := { w with runner := turn.runner }.forward turn.activity
    (w.accept turn).window = after.1 ∧ (w.accept turn).calls = after.2.1 := by
  obtain ⟨runner, activity, result⟩ := turn
  cases result with
  | ok answer => exact ⟨rfl, rfl⟩
  | error e =>
      cases e with
      | amount e => exact ⟨rfl, rfl⟩
      | cycle e =>
          cases e with
          | fault f => exact absurd rfl (other f)
          | _ => exact ⟨rfl, rfl⟩

theorem leads_take {call : Call Amount} (sound : w.Sound) (valid : call.Valid)
    (silent : w.closed = true → (w.runner.respond call).activity.tones = []) :
    w.Leads False [call] (w.take call).calls (w.take call).window := by
  have heard := hearAll_forward
    { w with runner := (w.runner.respond call).runner } silent
  have frames : w.runner.received [call] =
      (w.runner.respond call).activity.frames := List.append_nil _
  obtain ⟨f, fault, halted⟩ | ⟨other, same⟩ :=
    w.runner.respond_faults_or_not valid
  · obtain ⟨after, asked⟩ := accept_of_fault (w := w) fault
    rw [take, after, asked]
    constructor
    · exact List.forall_mem_singleton.mpr valid
    · refine ⟨?_, fun _ => rfl, fun _ => rfl⟩
      rw [forward_eq]
      exact halted.symm
    · rw [forward_eq]
      rfl
    · rw [forward_eq, frames]
      rfl
    · rw [Player.hearAll_append]
      exact (congrArg (Option.bind · _) heard).trans (hearAll_close _)
    · simp [close]
  · obtain ⟨after, asked⟩ := accept_of_not_fault (w := w) other
    rw [take, after, asked]
    constructor
    · exact List.forall_mem_singleton.mpr valid
    · exact ⟨sound.error.trans same.symm, sound.ended, sound.unscheduled⟩
    · rfl
    · rw [forward_eq, frames]
    · exact heard
    · have ended := sound.ended
      rw [forward_eq]
      grind

theorem pulse_eq_take (w : Window) (elapsed : Amount) (clock : Clock) :
    w.pulse elapsed clock = w.take (w.clockCall elapsed clock) := by
  cases clock <;> exact (w.accept_map _ _).symm

theorem clockCall_valid (w : Window) (elapsed : Amount) (clock : Clock) :
    (w.clockCall elapsed clock).Valid := by
  cases clock with
  | cycles => exact validKeys_flags w.keypad
  | timers => exact trivial

theorem tones_of_error (sound : w.Sound) (error : w.error ≠ none)
    (call : Call Amount) : (w.runner.respond call).activity.tones = [] := by
  rw [sound.error] at error
  obtain ⟨f, halted⟩ := Option.ne_none_iff_exists'.mp error
  rw [Runner.respond_of_halted halted]

theorem leads_pulses (sound : w.Sound)
    (faulted : w.closed = true → w.error ≠ none) (clock : Clock)
    (elapsed : Amount) (times : Nat) :
    w.Leads False (w.clockCalls clock elapsed times)
      (w.pulses clock elapsed times).calls
      (w.pulses clock elapsed times).window := by
  induction times generalizing w with
  | zero =>
      exact leads_of_settled sound w.keypad w.threshold (List.forall_mem_nil _)
  | succ times ih =>
      have first := leads_take sound (w.clockCall_valid elapsed clock)
        fun closed => tones_of_error sound (faulted closed) _
      rw [← pulse_eq_take] at first
      have faulted' : (w.pulse elapsed clock).window.closed = true →
          (w.pulse elapsed clock).window.error ≠ none := by
        intro closed
        rcases first.closed.mp closed with before | closing | error
        · obtain ⟨f, error⟩ := Option.ne_none_iff_exists'.mp (faulted before)
          rw [(first.error_of_some sound error).1]
          exact nofun
        · exact closing.elim
        · exact error
      rw [pulses, clockCalls]
      -- A fault ends a call without an error, and the calls after it find a
      -- halted runner; only other errors cut the calls short.
      cases (w.pulse elapsed clock).result with
      | error e => exact first
      | ok n =>
          have later := first.append (ih first.sound faulted')
          rwa [or_self] at later

theorem stepByHand_eq_take (w : Window) :
    w.stepByHand.window = (w.take (.step (some w.keypad.flags))).window ∧
      w.stepByHand.calls = (w.take (.step (some w.keypad.flags))).calls := by
  rw [stepByHand, take, Runner.respond, accept_map]
  cases (w.accept (w.runner.step (some w.keypad.flags))).result with
  | ok n => exact ⟨rfl, rfl⟩
  | error e => exact ⟨rfl, rfl⟩

section Keyboard

variable [Keyboard]

/-- The key is the space bar, has no other meaning, and takes a step. -/
def Steps (w : Window) (symbol : KeySymbol) : Prop :=
  symbol ≠ .escape ∧ symbol.key? = none ∧ symbol ≠ .f1 ∧
    symbol = .space ∧ w.stepping = true

instance (w : Window) (symbol : KeySymbol) : Decidable (w.Steps symbol) :=
  inferInstanceAs (Decidable (_ ∧ _ ∧ _ ∧ _ ∧ _))

def callsOf (w : Window) : Event → List (Call Amount)
  | .press symbol =>
      if w.Steps symbol then [.step (some w.keypad.flags)] else []
  | .tick clock elapsed times =>
      if w.scheduled clock then w.clockCalls clock elapsed times else []
  | .release _ | .draw | .close => []

def play (w : Window) (events : List Event) : Window :=
  events.foldl (fun w e => (w.handle e).window) w

def runnerCalls (w : Window) : List Event → List (Call Amount)
  | [] => []
  | e :: rest => w.callsOf e ++ (w.handle e).window.runnerCalls rest

def deviceCalls (w : Window) : List Event → List DeviceCall
  | [] => []
  | e :: rest => (w.handle e).calls ++ (w.handle e).window.deviceCalls rest

def executed (w : Window) (events : List Event) : List Chip8.Event :=
  w.runner.machine.untilFault
    (w.runner.clocks.schedule (w.runnerCalls events))

def Event.Closes : Event → Prop
  | .press symbol => symbol = .escape
  | .close => True
  | .release _ | .draw | .tick .. => False

theorem steps_space (distinct : Keyboard.Distinct)
    (stepping : w.stepping = true) : w.Steps .space := by
  simp only [Keyboard.Distinct, List.nodup_cons, List.mem_cons, not_or]
    at distinct
  obtain ⟨⟨-, escape, -⟩, ⟨f1, -⟩, other, -⟩ := distinct
  exact ⟨Ne.symm escape, KeySymbol.key?_eq_none other, Ne.symm f1, rfl,
    stepping⟩

theorem callsOf_space (distinct : Keyboard.Distinct)
    (stepping : w.stepping = true) :
    w.callsOf (.press .space) = [.step (some w.keypad.flags)] := by
  rw [callsOf, if_pos (steps_space distinct stepping)]

theorem leads_press (sound : w.Sound) (symbol : KeySymbol) :
    w.Leads (symbol = .escape) (w.callsOf (.press symbol))
      (w.press symbol).calls (w.press symbol).window := by
  have settled : ∀ keypad threshold,
      w.Leads False [] [] { w with keypad, threshold } :=
    fun keypad threshold => leads_of_settled sound keypad threshold nofun
  rw [press, callsOf]
  by_cases escape : symbol = .escape
  · rw [if_pos escape, if_neg fun h => h.1 escape, eq_true escape]
    exact leads_close sound
  rw [if_neg escape, eq_false escape]
  cases named : symbol.key? with
  | some key =>
      have taken : ¬ w.Steps symbol := by
        rintro ⟨-, none, -⟩
        cases named.symm.trans none
      rw [if_neg taken]
      exact settled _ _
  | none =>
      by_cases f1 : symbol = .f1
      · rw [if_neg fun h => h.2.2.1 f1]
        simp only [if_pos f1, toggleDebug]
        by_cases debug : w.threshold = .debug
        · rw [if_pos debug]
          exact settled _ _
        · rw [if_neg debug]
          exact settled _ _
      · simp only [if_neg f1]
        by_cases byHand : symbol = .space ∧ w.stepping = true
        · rw [if_pos byHand, if_pos ⟨escape, named, f1, byHand⟩,
            w.stepByHand_eq_take.1, w.stepByHand_eq_take.2]
          exact leads_take sound (validKeys_flags w.keypad)
            fun _ => w.runner.tones_step _
        · rw [if_neg byHand, if_neg fun h => byHand h.2.2.2]
          exact settled _ _

theorem leads_react (sound : w.Sound) (e : Event) :
    w.Leads e.Closes (w.callsOf e) (w.react e).calls (w.react e).window := by
  cases e with
  | press symbol => exact leads_press sound symbol
  | release symbol =>
      rw [react, callsOf, Event.Closes]
      cases symbol.key? with
      | none => exact leads_of_settled sound w.keypad w.threshold nofun
      | some key => exact leads_of_settled sound _ w.threshold nofun
  | draw =>
      have quiet : ∀ call ∈ DeviceCall.clearWindow :: Display.draw,
          call.forPlayer = false := by decide
      exact leads_of_settled sound w.keypad w.threshold quiet
  | tick clock elapsed times =>
      rw [react, callsOf, Event.Closes]
      cases running : w.scheduled clock with
      | true =>
          refine leads_pulses sound ?_ clock elapsed times
          intro closed
          rw [scheduled, sound.unscheduled closed] at running
          cases running
      | false => exact leads_of_settled sound w.keypad w.threshold nofun
  | close => exact leads_close sound

theorem play_append (w : Window) (before later : List Event) :
    w.play (before ++ later) = (w.play before).play later :=
  List.foldl_append

theorem leads_play (sound : w.Sound) (events : List Event) :
    w.Leads (∃ e ∈ events, e.Closes) (w.runnerCalls events)
      (w.deviceCalls events) (w.play events) := by
  induction events generalizing w with
  | nil =>
      simp only [List.not_mem_nil, false_and, exists_false]
      exact leads_of_settled sound w.keypad w.threshold nofun
  | cons e rest ih =>
      have first := leads_react sound e
      simp only [List.mem_cons, exists_eq_or_imp]
      exact first.append (ih first.sound)

theorem exists_step_of_mem_callsOf (sound : w.Sound) (closed : w.closed = true)
    {e : Event} {call : Call Amount} (mem : call ∈ w.callsOf e) :
    ∃ keys, call = .step keys := by
  cases e with
  | press symbol =>
      rw [callsOf] at mem
      split at mem
      · exact ⟨_, List.mem_singleton.mp mem⟩
      · cases mem
  | tick clock elapsed times =>
      rw [callsOf, scheduled, sound.unscheduled closed] at mem
      cases mem
  | release symbol => cases mem
  | draw => cases mem
  | close => cases mem

theorem exists_step_of_mem_runnerCalls (sound : w.Sound)
    (closed : w.closed = true) {events : List Event} {call : Call Amount}
    (mem : call ∈ w.runnerCalls events) : ∃ keys, call = .step keys := by
  induction events generalizing w with
  | nil => cases mem
  | cons e rest ih =>
      have first := leads_react sound e
      rcases List.mem_append.mp mem with now | later
      · exact exists_step_of_mem_callsOf sound closed now
      · exact ih first.sound (first.closed.mpr (.inl closed)) later

end Keyboard

structure Opened (m : Machine) (s : Settings) (w : Window)
    (asked : List DeviceCall) : Prop where
  sound : w.Sound
  runner : w.runner = .start m s.cycleRate s.timerRate
  keypad : w.keypad = .released
  buzzer : w.buzzer = {}
  opened : w.closed = false
  stepping : w.stepping = s.debug
  scaled : 0 ≤ w.display.scale
  shown : w.display.shown = some m.screen
  quiet : ∀ call ∈ asked, call.forPlayer = false

private theorem ok_of_mapError {ε δ α : Type} {x : Except ε α} {f : ε → δ}
    {a : α} (h : x.mapError f = .ok a) : x = .ok a := by
  cases x with
  | error e => cases h
  | ok b =>
      cases h
      rfl

theorem opened_of_open? {room : Int} {m : Machine} {s : Settings}
    (opens : open? room m s = .ok (w, asked)) : Opened m s w asked := by
  obtain ⟨blank, -, opens⟩ := exists_of_bind_ok opens
  obtain ⟨⟨display, calls⟩, painted, opens⟩ := exists_of_bind_ok opens
  obtain ⟨schedule, -, opens⟩ := exists_of_bind_ok opens
  cases opens
  have painted := ok_of_mapError painted
  rw [Display.paint] at painted
  split at painted
  · cases painted
  · rename_i negative
    cases painted
    refine ⟨⟨rfl, ?_, ?_⟩, rfl, rfl, rfl, rfl, rfl, Int.not_lt.mp negative,
      rfl, by simp [DeviceCall.forPlayer]⟩
    · intro failed
      exact absurd rfl failed
    · intro closed
      cases closed

end Window

end Chip8
