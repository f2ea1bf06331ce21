import Chip8.Proofs.Machine.KeyWait

/-!
# The decay of timers

A timer holds what is left, after the ticks since then, of the value that it was
last set to.  No cycle takes anything from it.
-/

namespace Chip8

inductive Timer where
  | delay
  | sound
  deriving DecidableEq, Repr

/-- The low byte of the words that set a timer. -/
def Timer.setter : Timer → Byte
  | delay => 0x15
  | sound => 0x18

namespace Timers

def value (t : Timers) : Timer → Int
  | .delay => t.delay
  | .sound => t.sound

theorem value_tick (t : Timers) (timer : Timer) :
    t.tick.value timer = countDown (t.value timer) := by
  cases timer <;> rfl

theorem value_ticks {t : Timers} {timer : Timer} (h : 0 ≤ t.value timer)
    (n : Nat) : (t.ticks n).value timer = max 0 (t.value timer - n) := by
  induction n generalizing t with
  | zero =>
      rw [ticks]
      omega
  | succ n ih =>
      have first := t.value_tick timer
      rw [countDown] at first
      rw [ticks, ih (by omega), first]
      omega

end Timers

namespace Machine

def sets? (m : Machine) (timer : Timer) (e : Event) : Option Byte :=
  match m.executes? e with
  | some w =>
      if w.group = 0xF ∧ w.kk = timer.setter then some (m.v w.x) else none
  | none => none

def Unset (m : Machine) (timer : Timer) (events : List Event) : Prop :=
  ∀ p ∈ m.history events, p.1.sets? timer p.2 = none

/-- The value that a timer was last set to and the number of ticks since then,
or a zero and the ticks since the start where nothing has set it. -/
inductive LastSet (start : Machine) (timer : Timer) :
    List Event → Int → Nat → Prop
  | never {events : List Event} (unset : start.Unset timer events) :
      LastSet start timer events 0 (Event.ticks events)
  | set (before : List Event) {since : List Event} {e : Event} {b : Byte}
      (sets : (start.play before).sets? timer e = some b)
      (unset : ((start.play before).after e).Unset timer since) :
      LastSet start timer (before ++ e :: since) b.toNat (Event.ticks since)

variable {m : Machine} {timer : Timer}

theorem sets?_eq_some_iff {e : Event} {b : Byte} :
    m.sets? timer e = some b ↔
      ∃ w, m.executes? e = some w ∧ w.group = 0xF ∧ w.kk = timer.setter ∧
        m.v w.x = b := by
  unfold sets?
  cases m.executes? e with
  | none => simp
  | some w => simp [and_assoc]

theorem after_of_idle {e : Event} (h : m.executes? e = none) :
    (m.after e).timers = m.timers.ticks (Event.ticks [e]) ∧
      (m.after e).random = m.random ∧
      (m.awaiting = none → (m.after e).awaiting = none) := by
  cases e with
  | tick => exact ⟨rfl, rfl, id⟩
  | load data =>
      obtain ⟨memory, same⟩ := m.exists_memory_after_load data
      rw [same]
      exact ⟨rfl, rfl, id⟩
  | cycle keys =>
      change (m.cycle keys).1.timers = m.timers ∧ (m.cycle keys).1.random = _ ∧
        (_ → (m.cycle keys).1.awaiting = none)
      by_cases valid : ValidKeys keys
      · rcases m.cycle_cases valid with
          ⟨x, -, same⟩ | ⟨-, -, same⟩ | ⟨w, running, fetched, -⟩ |
            ⟨w, _, running, fetched, -⟩
        · rw [same, fst_resume]
          cases (m.withKeys keys).keypad.firstPressed? with
          | none => exact ⟨rfl, rfl, id⟩
          | some key => exact ⟨rfl, rfl, fun _ => rfl⟩
        · rw [same]
          exact ⟨rfl, rfl, id⟩
        all_goals
          rw [executes?_eq_some_iff.mpr ⟨keys, rfl, valid, running, fetched⟩] at h
          cases h
      · rw [cycle_of_refused valid]
        exact ⟨rfl, rfl, id⟩

theorem value_perform (m : Machine) (keys : Option Snapshot) (w : Word)
    (timer : Timer) :
    (m.perform keys w).1.timers.value timer =
      if w.group = 0xF ∧ w.kk = timer.setter then ((m.v w.x).toNat : Int)
      else m.timers.value timer := by
  have kept := footprint_execute (m.withKeys keys) w
  cases timer with
  | delay =>
      split
      · rename_i form
        rw [perform, decode_of_form (show Op.setDelay.Form w from form)]
        rfl
      · exact kept.delay ‹_›
  | sound =>
      split
      · rename_i form
        rw [perform, decode_of_form (show Op.setSound.Form w from form)]
        rfl
      · exact kept.sound ‹_›

theorem value_after_of_sets {e : Event} {b : Byte}
    (h : m.sets? timer e = some b) :
    (m.after e).timers.value timer = b.toNat := by
  obtain ⟨w, executed, group, kk, rfl⟩ := sets?_eq_some_iff.mp h
  obtain ⟨keys, rfl, -⟩ := executes?_eq_some_iff.mp executed
  rw [after_of_executes executed, value_perform, if_pos ⟨group, kk⟩]

theorem value_after_of_unset {e : Event} (h : m.sets? timer e = none)
    (nonneg : 0 ≤ m.timers.value timer) :
    (m.after e).timers.value timer =
      max 0 (m.timers.value timer - Event.ticks [e]) := by
  cases executed : m.executes? e with
  | none => rw [(after_of_idle executed).1, Timers.value_ticks nonneg]
  | some w =>
      obtain ⟨keys, rfl, -⟩ := executes?_eq_some_iff.mp executed
      have other : ¬ (w.group = 0xF ∧ w.kk = timer.setter) := by
        intro form
        rw [sets?, executed] at h
        simp [form] at h
      rw [after_of_executes executed, value_perform, if_neg other]
      change _ = max 0 (_ - ((0 : Nat) : Int))
      omega

theorem value_play_of_unset {events : List Event}
    (unset : m.Unset timer events) (nonneg : 0 ≤ m.timers.value timer) :
    (m.play events).timers.value timer =
      max 0 (m.timers.value timer - Event.ticks events) := by
  induction events generalizing m with
  | nil =>
      change _ = max 0 (_ - ((0 : Nat) : Int))
      rw [play, List.foldl_nil]
      omega
  | cons e rest ih =>
      obtain ⟨now, later⟩ := List.forall_mem_cons.mp unset
      have first : (m.after e).timers.value timer = _ :=
        value_after_of_unset now nonneg
      have number := Event.ticks_cons e rest
      refine (ih later (by omega)).trans ?_
      omega

theorem exists_lastSet (m : Machine) (timer : Timer) (events : List Event) :
    ∃ value ticks, m.LastSet timer events value ticks := by
  induction events generalizing m with
  | nil => exact ⟨_, _, .never (List.forall_mem_nil _)⟩
  | cons e rest ih =>
      obtain ⟨_, _, last⟩ := ih (m.after e)
      cases last with
      | set before sets unset => exact ⟨_, _, .set (e :: before) sets unset⟩
      | never unset =>
          cases sets : m.sets? timer e with
          | some b => exact ⟨_, _, .set [] sets unset⟩
          | none =>
              exact ⟨_, _, .never (List.forall_mem_cons.mpr ⟨sets, unset⟩)⟩

theorem value_of_lastSet {events : List Event} {value : Int} {ticks : Nat}
    (zero : m.timers.value timer = 0)
    (h : m.LastSet timer events value ticks) :
    (m.play events).timers.value timer = max 0 (value - ticks) := by
  cases h with
  | never unset =>
      rw [value_play_of_unset unset (Int.le_of_eq zero.symm), zero]
  | set before sets unset =>
      have here := value_after_of_sets sets
      rw [play_append]
      refine (value_play_of_unset unset (by omega)).trans ?_
      rw [here]

theorem LastSet.bounded {events : List Event} {value : Int} {ticks : Nat}
    (h : m.LastSet timer events value ticks) : 0 ≤ value ∧ value < 256 := by
  cases h with
  | never => decide
  | @set _ _ _ b =>
      have := b.toNat_lt
      omega

theorem toNat_v_after_of_readDelay {e : Event} {w : Word}
    (inside : 0 ≤ m.timers.delay ∧ m.timers.delay < 256)
    (executed : m.executes? e = some w) (group : w.group = 0xF)
    (kk : w.kk = 0x07) :
    (((m.after e).v w.x).toNat : Int) = m.timers.delay := by
  obtain ⟨keys, rfl, -⟩ := executes?_eq_some_iff.mp executed
  have read : (m.after (.cycle keys)).v w.x = Byte.ofInt m.timers.delay := by
    rw [after_of_executes executed, perform,
      decode_of_form (show Op.readDelay.Form w from ⟨group, kk⟩)]
    exact Registers.get_set_self ..
  rw [read]
  simp [Byte.ofInt]
  omega

theorem timers_decay (random : RandomBytes) (program : List Byte)
    (fits : program.length ≤ Memory.capacity) :
    ∃ start, boot random program = .ok start ∧ ∀ events,
      let m := start.play events
      (∀ timer, (∃ value ticks, start.LastSet timer events value ticks) ∧
        ∀ value ticks, start.LastSet timer events value ticks →
          m.timers.value timer = max 0 (value - ticks)) ∧
      (∀ e w, m.executes? e = some w → w.group = 0xF → w.kk = 0x07 →
        (((m.after e).v w.x).toNat : Int) = m.timers.value .delay) ∧
      ∀ keys out, (m.cycle keys).2 = .ok out →
        (out.sounding = true ↔ 0 < (m.cycle keys).1.timers.value .sound) := by
  obtain ⟨start, booted⟩ := exists_boot random fits
  obtain ⟨memory, -, same⟩ := exists_memory_of_boot booted
  have zero : ∀ timer, start.timers.value timer = 0 := by
    intro timer
    rw [same]
    cases timer <;> rfl
  refine ⟨start, booted, ?_⟩
  intro events m
  have decayed : ∀ timer value ticks, start.LastSet timer events value ticks →
      m.timers.value timer = max 0 (value - ticks) :=
    fun timer _ _ => value_of_lastSet (zero timer)
  refine ⟨fun timer => ⟨exists_lastSet start timer events, decayed timer⟩,
    ?_, ?_⟩
  · intro e w
    obtain ⟨value, ticks, last⟩ := exists_lastSet start .delay events
    have bounded := last.bounded
    have here : m.timers.delay = _ := decayed .delay _ _ last
    exact toNat_v_after_of_readDelay (by omega)
  · intro keys out ok
    rw [sounding_of_cycle ok]
    exact decide_eq_true_iff

theorem timers_decay_five :
    ([0x60, 0x05, 0xF0, 0x15] : List Byte).length ≤ Memory.capacity ∧
      ∃ start, boot (.repeating #[]) [0x60, 0x05, 0xF0, 0x15] = .ok start ∧
        start.LastSet .delay [.cycle none, .cycle none, .tick, .tick] 5 2 ∧
        (start.play [.cycle none, .cycle none, .tick, .tick]).timers.delay =
          3 := by
  have fits : ([0x60, 0x05, 0xF0, 0x15] : List Byte).length ≤
      Memory.capacity := by decide
  obtain ⟨start, booted, decayed⟩ := timers_decay (.repeating #[]) _ fits
  obtain ⟨running, pc⟩ := running_of_boot booted
  have given := validKeys_none
  have fetched : start.fetch? = some 0x6005 :=
    fetch?_of_boot booted rfl rfl rfl
  have executed : start.executes? (.cycle none) = some 0x6005 :=
    executes?_eq_some_iff.mpr ⟨none, rfl, given, running, fetched⟩
  have left : start.after (.cycle none) =
      (start.advance 0x6005).setV 0 5 := after_of_executes executed
  have read := readWord_of_boot booted (k := 2) (by decide)
  have next : (start.after (.cycle none)).fetch? = some 0xF015 := by
    have here : ((start.advance 0x6005).setV 0 5).pc = 0x202 :=
      congrArg (· + 2) pc
    rw [left, fetch?_eq_some_iff, here]
    exact ⟨by decide, read⟩
  have sets : (start.play [.cycle none]).sets? .delay (.cycle none) =
      some 5 := by
    refine sets?_eq_some_iff.mpr ⟨0xF015, ?_, by decide, by decide, ?_⟩
    · refine executes?_eq_some_iff.mpr ⟨none, rfl, given, ?_, next⟩
      change (start.after (.cycle none)).awaiting = none
      rw [left]
      exact running
    · change (start.after (.cycle none)).v _ = 5
      rw [left]
      exact Registers.get_set_self ..
  have last : start.LastSet .delay
      ([.cycle none] ++ .cycle none :: [.tick, .tick]) 5 2 := by
    refine .set _ sets ?_
    simp [Unset, history, sets?, executes?]
  exact ⟨fits, start, booted, last, ((decayed _).1 .delay).2 _ _ last⟩

end Machine

end Chip8
