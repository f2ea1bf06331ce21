import Mathlib.Data.List.Nodup
import Chip8.Proofs.CommandLine.LifeCycle
import Chip8.Proofs.Latest
import Chip8.Proofs.Machine.Keys

/-!
# From the keyboard to the keypad

Each key of the keypad has one key of the keyboard, and is down if and only if
the last event of that key was a press.  The cycles that an event leads to look
for keys on the keypad as the event finds it, whatever comes after.
-/

namespace Chip8

namespace KeySymbol

theorem nodup_keys : (Keypad.layout.map Prod.snd).Nodup := by decide

theorem mem_keys (key : Key) : key ∈ Keypad.layout.map Prod.snd := by
  decide +revert

theorem lookup_eq_some_iff_mem {α β : Type} [BEq α] [LawfulBEq α]
    {l : List (α × β)} (nodup : (l.map Prod.fst).Nodup) {a : α} {b : β} :
    l.lookup a = some b ↔ (a, b) ∈ l := by
  induction l with
  | nil => simp
  | cons p rest ih =>
      obtain ⟨a', b'⟩ := p
      rw [List.map_cons, List.nodup_cons] at nodup
      rw [List.lookup_cons, List.mem_cons, Prod.mk.injEq]
      by_cases same : a = a'
      · subst same
        have other : (a, b) ∉ rest := fun mem =>
          nodup.1 (List.mem_map.mpr ⟨_, mem, rfl⟩)
        simp [other, eq_comm]
      · rw [beq_false_of_ne same, ih nodup.2]
        simp [same]

variable [Keyboard] (distinct : Keyboard.Distinct)

include distinct

theorem key?_escape : escape.key? = none := by
  apply key?_eq_none
  intro mem
  exact (List.nodup_cons.mp distinct).1 (by simp [mem])

theorem key?_eq_some_iff {symbol : KeySymbol} {key : Key} :
    symbol.key? = some key ↔
      ∃ c, (c, key) ∈ Keypad.layout ∧ symbol = ofChar c := by
  have nodup : ((keymap.map (·.2)).map Prod.fst).Nodup := by
    rw [List.map_map]
    exact (List.nodup_cons.mp (List.nodup_cons.mp
      (List.nodup_cons.mp distinct).2).2).2
  rw [key?, lookup_eq_some_iff_mem nodup]
  simp [keymap, eq_comm]

theorem exists_char (key : Key) :
    ∃ c, (∀ c', (c', key) ∈ Keypad.layout ↔ c' = c) ∧
      ∀ symbol : KeySymbol, symbol.key? = some key ↔ symbol = ofChar c := by
  obtain ⟨⟨c, key⟩, mem, rfl⟩ := List.mem_map.mp (mem_keys key)
  have one : ∀ c', (c', key) ∈ Keypad.layout ↔ c' = c := by
    intro c'
    constructor
    · intro mem'
      exact congrArg Prod.fst (List.inj_on_of_nodup_map nodup_keys mem' mem rfl)
    · rintro rfl
      exact mem
  refine ⟨c, one, ?_⟩
  intro symbol
  rw [key?_eq_some_iff distinct]
  simp only [one, exists_eq_left]

end KeySymbol

namespace Window

/-- The part of a window that only its keyboard changes. -/
structure Keeps (w w' : Window) : Prop where
  keypad : w'.keypad = w.keypad
  stepping : w'.stepping = w.stepping

variable {w : Window}

theorem Keeps.trans {w' w'' : Window} (first : w.Keeps w')
    (second : w'.Keeps w'') : w.Keeps w'' :=
  ⟨second.keypad.trans first.keypad, second.stepping.trans first.stepping⟩

theorem keeps_forward (w : Window) (activity : Activity) :
    w.Keeps (w.forward activity).1 := by
  rw [forward_eq]
  exact ⟨rfl, rfl⟩

theorem keeps_accept {α : Type} (w : Window) (turn : Turn Amount Float α) :
    w.Keeps (w.accept turn).window := by
  have kept := { w with runner := turn.runner }.keeps_forward turn.activity
  by_cases fault : ∃ f, turn.result = .error (.cycle (.fault f))
  · obtain ⟨f, fault⟩ := fault
    rw [(accept_of_fault fault).1]
    exact ⟨kept.keypad, kept.stepping⟩
  · rw [(accept_of_not_fault (not_exists.mp fault)).1]
    exact ⟨kept.keypad, kept.stepping⟩

theorem keeps_pulse (w : Window) (elapsed : Amount) (clock : Clock) :
    w.Keeps (w.pulse elapsed clock).window := by
  cases clock <;> exact w.keeps_accept _

theorem keeps_pulses (w : Window) (clock : Clock) (elapsed : Amount)
    (times : Nat) : w.Keeps (w.pulses clock elapsed times).window := by
  induction times generalizing w with
  | zero => exact ⟨rfl, rfl⟩
  | succ times ih =>
      have first := w.keeps_pulse elapsed clock
      rw [pulses]
      cases (w.pulse elapsed clock).result with
      | error e => exact first
      | ok n => exact first.trans (ih _)

theorem keeps_stepByHand (w : Window) : w.Keeps w.stepByHand.window := by
  rw [w.stepByHand_eq_take.1]
  exact w.keeps_accept _

theorem keys_of_mem_clockCalls {clock : Clock} {elapsed : Amount}
    {times : Nat} {call : Call Amount} {keys : Option Snapshot}
    (mem : call ∈ w.clockCalls clock elapsed times)
    (gives : call.keys? = some keys) : keys = some w.keypad.flags := by
  induction times generalizing w with
  | zero => cases mem
  | succ times ih =>
      rw [clockCalls, List.mem_cons] at mem
      rcases mem with rfl | later
      · cases clock <;> cases gives
        rfl
      · cases answered : (w.pulse elapsed clock).result with
        | error e =>
            rw [answered] at later
            cases later
        | ok n =>
            -- The clock goes on with a window that has the same keypad.
            rw [answered] at later
            rw [ih later, (w.keeps_pulse elapsed clock).keypad]

section

variable [Keyboard]

def Event.strike? (symbol : KeySymbol) : Event → Option Bool
  | .press struck => if struck = symbol then some true else none
  | .release struck => if struck = symbol then some false else none
  | .draw | .tick .. | .close => none

def struck (k : Keypad) : Event → Keypad
  | .press symbol => (symbol.key?.map fun key => k.set key true).getD k
  | .release symbol => (symbol.key?.map fun key => k.set key false).getD k
  | .draw | .tick .. | .close => k

theorem react_keypad (distinct : Keyboard.Distinct) (w : Window) (e : Event) :
    (w.react e).window.keypad = struck w.keypad e ∧
      (w.react e).window.stepping = w.stepping := by
  cases e with
  | press symbol =>
      rw [react, press, struck]
      -- Escape is looked for before the keymap, and is not in it.
      by_cases escape : symbol = .escape
      · subst escape
        rw [if_pos rfl, KeySymbol.key?_escape distinct]
        exact ⟨rfl, rfl⟩
      rw [if_neg escape]
      cases symbol.key? with
      | some key => exact ⟨rfl, rfl⟩
      | none =>
          by_cases f1 : symbol = .f1
          · simp only [if_pos f1, toggleDebug]
            split <;> exact ⟨rfl, rfl⟩
          · simp only [if_neg f1]
            split
            · have kept := w.keeps_stepByHand
              exact ⟨kept.keypad, kept.stepping⟩
            · exact ⟨rfl, rfl⟩
  | release symbol =>
      rw [react, struck]
      cases symbol.key? <;> exact ⟨rfl, rfl⟩
  | draw => exact ⟨rfl, rfl⟩
  | tick clock elapsed times =>
      rw [react]
      split
      · have kept := w.keeps_pulses clock elapsed times
        exact ⟨kept.keypad, kept.stepping⟩
      · exact ⟨rfl, rfl⟩
  | close => exact ⟨rfl, rfl⟩

theorem isDown_strike {symbol : KeySymbol} {k : Keypad} {key : Key}
    (own : ∀ s : KeySymbol, s.key? = some key ↔ s = symbol) (e : Event) :
    (struck k e).isDown key = (e.strike? symbol).getD (k.isDown key) := by
  have set : ∀ (s : KeySymbol) (down : Bool),
      ((s.key?.map fun other => k.set other down).getD k).isDown key =
        (if s = symbol then some down else none).getD (k.isDown key) := by
    intro s down
    by_cases same : s = symbol
    · rw [if_pos same, (own s).mpr same]
      exact k.isDown_set_self key down
    · rw [if_neg same]
      cases named : s.key? with
      | none => rfl
      | some other =>
          have apart : other ≠ key := by
            rintro rfl
            exact same ((own s).mp named)
          exact k.isDown_set_of_ne down apart
  cases e with
  | press s => exact set s true
  | release s => exact set s false
  | draw => rfl
  | tick clock elapsed times => rfl
  | close => rfl

theorem isDown_play (distinct : Keyboard.Distinct) {symbol : KeySymbol}
    {key : Key}
    (own : ∀ s : KeySymbol, s.key? = some key ↔ s = symbol) (w : Window)
    (events : List Event) :
    (w.play events).keypad.isDown key =
      (latest? (Event.strike? symbol) events).getD (w.keypad.isDown key) := by
  have each : ∀ (w : Window) (e : Event),
      (w.handle e).window.keypad.isDown key =
        (e.strike? symbol).getD (w.keypad.isDown key) := by
    intro w e
    change (w.react e).window.keypad.isDown key = _
    rw [(react_keypad distinct w e).1, isDown_strike own]
  exact @view_foldl _ _ _ _ (fun w : Window => w.keypad.isDown key) _ each w
    events

theorem stepping_play (distinct : Keyboard.Distinct) (w : Window)
    (events : List Event) :
    (w.play events).stepping = w.stepping := by
  induction events generalizing w with
  | nil => rfl
  | cons e rest ih => exact (ih _).trans (react_keypad distinct w e).2

theorem keys_of_mem_callsOf {e : Event} {call : Call Amount}
    {keys : Option Snapshot} (mem : call ∈ w.callsOf e)
    (gives : call.keys? = some keys) : keys = some w.keypad.flags := by
  cases e with
  | press symbol =>
      rw [callsOf] at mem
      split at mem
      · cases List.mem_singleton.mp mem
        cases gives
        rfl
      · cases mem
  | tick clock elapsed times =>
      rw [callsOf] at mem
      split at mem
      · exact keys_of_mem_clockCalls mem gives
      · cases mem
  | release symbol => cases mem
  | draw => cases mem
  | close => cases mem

theorem runnerCalls_append (w : Window) (events more : List Event) :
    w.runnerCalls (events ++ more) =
      w.runnerCalls events ++ (w.play events).runnerCalls more := by
  induction events generalizing w with
  | nil => rfl
  | cons e rest ih =>
      rw [List.cons_append, runnerCalls, runnerCalls, ih, List.append_assoc]
      rfl

def next (w : Window) (e : Event) : List Chip8.Event :=
  w.runner.executes (w.callsOf e)

theorem next_space (distinct : Keyboard.Distinct) (stepping : w.stepping = true)
    (fine : w.runner.fault = none) :
    w.next (.press .space) = [.cycle (some w.keypad.flags)] := by
  rw [next, callsOf_space distinct stepping, Runner.executes, if_pos fine]
  change w.runner.machine.untilFault [.cycle _] = _
  rw [Machine.untilFault]
  split <;> rfl

theorem next_cycles (scheduled : w.scheduled .cycles = true)
    (fine : w.runner.fault = none) (elapsed : Amount) :
    w.next (.tick .cycles elapsed 1) =
      w.runner.machine.untilFault
        (List.replicate (paid (Pacing.withdraw w.runner.cycleBudget elapsed
            w.runner.cycleRate).2) (.cycle (some w.keypad.flags))) := by
  have calls : w.callsOf (.tick .cycles elapsed 1) =
      [.runCycles elapsed (some w.keypad.flags)] := by
    rw [callsOf, if_pos scheduled, clockCalls]
    cases (w.pulse elapsed .cycles).result <;> rfl
  rw [next, calls, Runner.executes, if_pos fine, Clocks.schedule,
    Clocks.schedule, List.append_nil]
  rfl

/-- An event of the keyboard that makes no step, in stepping mode or not. -/
def Event.Types (stepping : Bool) : Event → Prop
  | .press symbol => symbol = .space → stepping = false
  | .release _ => True
  | .draw | .tick .. | .close => False

theorem callsOf_of_types {e : Event} (types : e.Types w.stepping) :
    w.callsOf e = [] := by
  cases e with
  | press symbol =>
      apply if_neg
      rintro ⟨-, -, -, space, stepping⟩
      rw [types space] at stepping
      cases stepping
  | release symbol => rfl
  | draw => exact types.elim
  | tick clock elapsed times => exact types.elim
  | close => exact types.elim

theorem runnerCalls_of_types (distinct : Keyboard.Distinct)
    {later : List Event} (types : ∀ e ∈ later, e.Types w.stepping) :
    w.runnerCalls later = [] := by
  induction later generalizing w with
  | nil => rfl
  | cons e rest ih =>
      rw [List.forall_mem_cons] at types
      have same : (w.handle e).window.stepping = w.stepping :=
        (react_keypad distinct w e).2
      rw [runnerCalls, callsOf_of_types types.1, List.nil_append]
      apply ih
      rw [same]
      exact types.2

/-- What the events of the keyboard have done to the keypad, and what the event
after them makes of it. -/
structure FollowsKeys (m : Machine) (w : Window) (events : List Event) :
    Prop where
  ascending : (w.play events).keypad.pressed.Pairwise (· < ·)
  pressed : ∀ key, ∃ c, (∀ c', (c', key) ∈ Keypad.layout ↔ c' = c) ∧
    (∀ symbol : KeySymbol,
      symbol.key? = some key ↔ symbol = KeySymbol.ofChar c) ∧
    (key ∈ (w.play events).keypad.pressed ↔
      latest? (Event.strike? (KeySymbol.ofChar c)) events = some true)
  machine : (w.play events).runner.machine = m.play (w.executed events)
  executed : ∀ e, w.executed (events ++ [e]) =
    w.executed events ++ (w.play events).next e
  /-- Every cycle that the next event leads to looks at the keypad of now. -/
  looks : ∀ e before keys later,
    (w.play events).next e = before ++ .cycle keys :: later →
    ((m.play (w.executed events)).play before).LooksAt keys
      (w.play events).keypad
  byHand : (w.play events).error = none → w.stepping = true →
    (w.play events).next (.press .space) =
      [.cycle (some (w.play events).keypad.flags)]
  byClock : (w.play events).error = none →
    (w.play events).scheduled .cycles = true → ∀ elapsed,
      (w.play events).next (.tick .cycles elapsed 1) =
        (m.play (w.executed events)).untilFault
          (List.replicate
            (paid (Pacing.withdraw (w.play events).runner.cycleBudget elapsed
              (w.play events).runner.cycleRate).2)
            (.cycle (some (w.play events).keypad.flags)))
  /-- Later events add to what has been executed, and change none of it. -/
  lasting : ∀ later, w.executed events <+: w.executed (events ++ later)
  apart : ∀ later, (∀ e ∈ later, e.Types w.stepping) →
    (w.play (events ++ later)).runner = (w.play events).runner

variable {m : Machine} {s : Settings} {asked : List DeviceCall}

namespace Opened

theorem executed_append (opened : Opened m s w asked)
    (events more : List Event) :
    w.executed (events ++ more) = w.executed events ++
      (w.play events).runner.executes ((w.play events).runnerCalls more) := by
  have fine : w.runner.fault = none := congrArg Runner.fault opened.runner
  have all : ∀ events, w.executed events =
      w.runner.executes (w.runnerCalls events) := fun _ =>
    (if_pos fine).symm
  have leads := opened.leads events
  rw [all, all, runnerCalls_append, Runner.executes_append leads.valid,
    leads.runner]

theorem followsKeys (opened : Opened m s w asked)
    (distinct : Keyboard.Distinct) (events : List Event) :
    w.FollowsKeys m events := by
  have here : w.runner.machine = m := congrArg Runner.machine opened.runner
  have leads := opened.leads events
  have machine :
      (w.play events).runner.machine = m.play (w.executed events) := by
    rw [(opened.played events).machine, here]
  have fine : (w.play events).error = none →
      (w.play events).runner.fault = none := leads.sound.error.symm.trans
  constructor
  case ascending => exact Keypad.pairwise_pressed _
  case pressed =>
    intro key
    obtain ⟨c, one, own⟩ := KeySymbol.exists_char distinct key
    refine ⟨c, one, own, ?_⟩
    have up : ∀ key, Keypad.released.isDown key = false := by decide
    rw [Keypad.mem_pressed, isDown_play distinct own, opened.keypad, up]
    cases latest? (Event.strike? (KeySymbol.ofChar c)) events <;> simp
  case machine => exact machine
  case executed =>
    intro e
    rw [opened.executed_append, runnerCalls, runnerCalls, List.append_nil]
    rfl
  case looks =>
    intro e before keys later split
    have mem : .cycle keys ∈ (w.play events).next e :=
      split ▸ List.mem_append_right before List.mem_cons_self
    obtain ⟨call, given, gives⟩ := Runner.exists_of_mem_executes mem
    obtain rfl := keys_of_mem_callsOf given gives
    exact Machine.looksAt_flags ..
  case byHand =>
    intro running stepping
    exact next_space distinct ((stepping_play distinct w events).trans stepping)
      (fine running)
  case byClock =>
    intro running scheduled elapsed
    rw [next_cycles scheduled (fine running), machine]
  case lasting =>
    intro later
    rw [opened.executed_append]
    exact List.prefix_append ..
  case apart =>
    intro later types
    rw [← stepping_play distinct w events] at types
    rw [play_append, (leads_play leads.sound later).runner,
      runnerCalls_of_types distinct types]
    rfl

end Opened

theorem keypad_follows_keyboard (distinct : Keyboard.Distinct) (room : Int)
    (m : Machine) (settings : Settings) (w : Window) (asked : List DeviceCall)
    (opens : open? room m settings = .ok (w, asked)) (events : List Event) :
    w.FollowsKeys m events :=
  (opened_of_open? opens).followsKeys distinct events

end

def typedX [Keyboard] : List Event :=
  [.press (.ofChar 'X'), .press (.ofChar 'W'), .release (.ofChar 'W')]

/-- A skip over the next word if key 0 is down, by hand. -/
theorem keypad_follows_keyboard_skip :
    letI := Keyboard.customary
    Keyboard.Distinct ∧
    ∃ m w asked, Machine.boot (.repeating #[]) [0xE0, 0x9E] = .ok m ∧
      open? Position.limit m { debug := true } = .ok (w, asked) ∧
      0 ∈ (w.play typedX).keypad.pressed ∧
      5 ∉ (w.play typedX).keypad.pressed ∧
      (w.play (typedX ++ [.press .space])).runner.machine.pc = 0x204 := by
  let _ := Keyboard.customary
  have distinct : Keyboard.Distinct := Keyboard.distinct_customary
  obtain ⟨m, booted⟩ := Machine.exists_boot (.repeating #[])
    (show ([0xE0, 0x9E] : List Byte).length ≤ Memory.capacity by decide)
  obtain ⟨running, pc⟩ := Machine.running_of_boot booted
  have fetched : m.fetch? = some 0xE09E :=
    Machine.fetch?_of_boot booted rfl rfl rfl
  obtain ⟨w, asked, opens⟩ : ∃ w asked,
      open? Position.limit m { debug := true } = .ok (w, asked) :=
    ⟨_, _, rfl⟩
  have opened := opened_of_open? opens
  have follows := keypad_follows_keyboard distinct _ m _ w asked opens
  have types : ∀ e ∈ typedX, e.Types w.stepping := by
    have other : KeySymbol.ofChar 'X' ≠ .space ∧
        KeySymbol.ofChar 'W' ≠ .space := by decide
    simp [typedX, Event.Types, other]
  have nothing : w.executed typedX = [] := by
    rw [executed, runnerCalls_of_types distinct types]
    rfl
  have same : (w.play typedX).runner = w.runner :=
    (follows []).apart typedX types
  have fine : (w.play typedX).error = none := by
    rw [(opened.leads typedX).sound.error, same, opened.runner]
    rfl
  have step := (follows typedX).byHand fine opened.stepping
  have looks : m.LooksAt (some (w.play typedX).keypad.flags)
      (w.play typedX).keypad := by
    have looks := (follows typedX).looks (.press .space) [] _ [] step
    rwa [nothing] at looks
  obtain ⟨next, out, skipped, skips, -⟩ :=
    looks.skipKey 0xE09E running fetched rfl rfl
  have down : 0 ∈ (w.play typedX).keypad.pressed := by
    obtain ⟨c, one, -, pressed⟩ := (follows typedX).pressed 0
    obtain rfl := (one 'X').mp (by decide)
    exact pressed.mpr rfl
  have up : 5 ∉ (w.play typedX).keypad.pressed := by
    obtain ⟨c, one, -, pressed⟩ := (follows typedX).pressed 5
    obtain rfl := (one 'W').mp (by decide)
    rw [pressed]
    decide
  refine ⟨distinct, m, w, asked, booted, opens, down, up, ?_⟩
  rw [(follows _).machine, (follows typedX).executed, nothing, step]
  change (m.cycle _).1.pc = _
  have zero : m.keyOf 0 = 0 := by
    obtain ⟨memory, -, rfl⟩ := Machine.exists_memory_of_boot booted
    rfl
  refine (congrArg (fun done => done.1.pc) skipped).trans ?_
  exact (skips (zero ▸ down)).trans (congrArg (· + 4) pc)

end Window

end Chip8
