import Chip8.Proofs.Machine.Decay
import Chip8.Proofs.Machine.Surroundings

/-!
# Interference

What a run does not ask for has no influence on it.  The timers have none on a
run that does not read the delay timer, and the keypad and the random bytes none
on a run that does not read keys and gets the same bytes where it draws some.
-/

namespace Chip8

def Word.ReadsDelay (w : Word) : Prop := w.group = 0xF ∧ w.kk = 0x07

def Word.ReadsKeys (w : Word) : Prop :=
  w.group = 0xE ∧ (w.kk = 0x9E ∨ w.kk = 0xA1) ∨ w.group = 0xF ∧ w.kk = 0x0A

namespace RandomBytes

def skip (r : RandomBytes) (n : Nat) : RandomBytes :=
  { r with drawn := r.drawn + n }

/-- The next `n` bytes are the same. -/
def Agree (r r' : RandomBytes) (n : Nat) : Prop :=
  ∀ k < n, r'.script (r'.drawn + k) = r.script (r.drawn + k)

theorem skip_skip (r : RandomBytes) (a b : Nat) :
    (r.skip a).skip b = r.skip (a + b) := by
  simp only [skip, Nat.add_assoc]

theorem Agree.skip {r r' : RandomBytes} {a b : Nat} (h : r.Agree r' (a + b)) :
    (r.skip a).Agree (r'.skip a) b := by
  intro k inside
  have same := h (a + k) (by omega)
  rwa [← Nat.add_assoc, ← Nat.add_assoc] at same

theorem Agree.mono {r r' : RandomBytes} {a b : Nat} (h : r.Agree r' b)
    (le : a ≤ b) : r.Agree r' a :=
  fun k inside => h k (Nat.lt_of_lt_of_le inside le)

end RandomBytes

/-- The keys of a cycle in either of two runs. -/
abbrev KeyPair := Option Snapshot × Option Snapshot

namespace Event

def untimed (events : List Event) : List Event :=
  events.filter fun e => !e.isTick

theorem exists_of_untimed {e : Event} {rest events : List Event}
    (other : e.isTick = false) (order : untimed events = untimed (e :: rest)) :
    ∃ before later, events = before ++ e :: later ∧
      (∀ e ∈ before, e.isTick = true) ∧ untimed later = untimed rest := by
  have first : untimed (e :: rest) = e :: untimed rest := by
    simp [untimed, other]
  rw [first, untimed, List.filter_eq_cons_iff] at order
  obtain ⟨before, later, rfl, early, -, same⟩ := order
  exact ⟨before, later, rfl, by simpa using early, same⟩

def firsts (pairs : List KeyPair) : List Event :=
  pairs.map fun p => .cycle p.1

def seconds (pairs : List KeyPair) : List Event :=
  pairs.map fun p => .cycle p.2

end Event

abbrev Cycled := Machine × Except CycleError Output

def Cycled.untimed (c : Cycled) : Cycled :=
  ({ c.1 with timers := {} }, c.2.map fun out => { out with sounding := false })

namespace Machine

def cycled? (m : Machine) : Event → Option Cycled
  | .cycle keys => some (m.cycle keys)
  | .tick | .load _ => none

def cycled (m : Machine) (events : List Event) : List Cycled :=
  (m.history events).filterMap fun (m, e) => m.cycled? e

variable {m : Machine}

theorem cycled_cons (m : Machine) (e : Event) (rest : List Event) :
    m.cycled (e :: rest) = (m.cycled? e).toList ++ (m.after e).cycled rest :=
  filterMap_history_cons ..

theorem cycled_append (m : Machine) (before later : List Event) :
    m.cycled (before ++ later) =
      m.cycled before ++ (m.play before).cycled later :=
  filterMap_history_append ..

section Timers

theorem findsAlike_of_timers (timers : Timers)
    (unread : ∀ w, m.awaiting = none → m.fetch? = some w → ¬ w.ReadsDelay) :
    m.FindsAlike { m.surroundings with timers } where
  key _ _ := rfl
  instruction w running fetched := by
    have other : (decode w).instruction.op ≠ .readDelay :=
      op_instruction_ne (unread w running fetched)
    revert other
    generalize (decode w).instruction = i
    cases i <;> simp [ReadsAlike, Instruction.op, surroundings, advance]

theorem run_with_timers {timers : Timers}
    (alike : m.FindsAlike { m.surroundings with timers }) :
    ∃ timers', { m with timers }.run =
      ({ m.run.1 with timers := timers' },
        m.run.2.map fun out => { out with sounding := timers'.sounding }) := by
  have same := run_within alike
  have keypad := m.keypad_leaveCycle { m.surroundings with timers } rfl
  have random := m.random_leaveCycle { m.surroundings with timers } rfl
  generalize m.leaveCycle { m.surroundings with timers } = s at *
  refine ⟨s.timers, same.trans ?_⟩
  rw [within, keypad, random]

theorem cycle_with_timers (timers : Timers) {keys : Option Snapshot}
    (unread : ∀ w, m.executes? (.cycle keys) = some w → ¬ w.ReadsDelay) :
    ∃ timers', { m with timers }.cycle keys =
      ({ (m.cycle keys).1 with timers := timers' },
        (m.cycle keys).2.map fun out =>
          { out with sounding := timers'.sounding }) := by
  by_cases valid : ValidKeys keys
  · rw [cycle_eq_run valid, cycle_eq_run valid]
    apply run_with_timers (m := m.withKeys keys)
    apply findsAlike_of_timers
    intro w running fetched
    exact unread w
      (executes?_eq_some_iff.mpr ⟨keys, rfl, valid, running, fetched⟩)
  · rw [cycle_of_refused valid, cycle_of_refused valid]
    exact ⟨timers, rfl⟩

theorem after_with_timers (timers : Timers) {e : Event}
    (unread : ∀ w, m.executes? e = some w → ¬ w.ReadsDelay) :
    ∃ timers', { m with timers }.after e = { m.after e with timers := timers' } ∧
      ({ m with timers }.cycled? e).map Cycled.untimed =
        (m.cycled? e).map Cycled.untimed := by
  cases e with
  | tick => exact ⟨_, rfl, rfl⟩
  | load data =>
      refine ⟨timers, ?_, rfl⟩
      rw [after, after, loadInts, loadInts]
      cases m.memory.loadInts data <;> rfl
  | cycle keys =>
      obtain ⟨timers', same⟩ := cycle_with_timers timers unread
      refine ⟨timers', congrArg Prod.fst same, ?_⟩
      rw [cycled?, cycled?, same]
      rcases m.cycle keys with ⟨_, _ | _⟩ <;> rfl

theorem play_of_ticks (timers : Timers) {events : List Event}
    (ticks : ∀ e ∈ events, e.isTick = true) :
    (∃ timers', { m with timers }.play events = { m with timers := timers' }) ∧
      { m with timers }.cycled events = [] := by
  induction events generalizing timers with
  | nil => exact ⟨⟨timers, rfl⟩, rfl⟩
  | cons e rest ih =>
      rw [List.forall_mem_cons] at ticks
      cases e with
      | tick => exact ih timers.tick ticks.2
      | cycle keys => cases ticks.1
      | load data => cases ticks.1

theorem cycled_untimed (m : Machine) (timers : Timers)
    (events events' : List Event)
    (order : Event.untimed events' = Event.untimed events)
    (unread : ∀ p ∈ m.history events, ∀ w,
      p.1.executes? p.2 = some w → ¬ w.ReadsDelay) :
    ({ m with timers }.cycled events').map Cycled.untimed =
      (m.cycled events).map Cycled.untimed := by
  induction events generalizing m timers events' with
  | nil =>
      have ticks : ∀ e ∈ events', e.isTick = true := by
        simpa [Event.untimed] using order
      rw [(play_of_ticks timers ticks).2]
      rfl
  | cons e rest ih =>
      rw [history, List.forall_mem_cons] at unread
      cases ticks : e.isTick with
      | true =>
          have tick : e = .tick := by
            cases e <;> first | rfl | cases ticks
          subst tick
          exact ih (m := m.tick) timers events' order unread.2
      | false =>
          obtain ⟨before, later, rfl, early, order⟩ :=
            Event.exists_of_untimed ticks order
          obtain ⟨⟨timers₁, waited⟩, silent⟩ :=
            play_of_ticks (m := m) timers early
          obtain ⟨timers₂, left, same⟩ := after_with_timers timers₁ unread.1
          have others := ih (m.after e) timers₂ later order unread.2
          rw [cycled_append, silent, waited, cycled_cons, cycled_cons, left,
            List.nil_append, List.map_append, List.map_append, others,
            ← Option.toList_map, ← Option.toList_map, same]

/-- A jump to itself, with time on the timers and without. -/
theorem cycled_untimed_jump :
    ∃ m, boot (.repeating #[]) [0x12, 0x00] = .ok m ∧
      Event.untimed [.tick, .cycle none, .tick] = Event.untimed [.cycle none] ∧
      (∀ p ∈ m.history [.cycle none], ∀ w,
        p.1.executes? p.2 = some w → ¬ w.ReadsDelay) ∧
      ({ m with timers := ⟨9, 9⟩ }.cycled
          [.tick, .cycle none, .tick]).map Cycled.untimed =
        (m.cycled [.cycle none]).map Cycled.untimed := by
  obtain ⟨m, booted⟩ := exists_boot (.repeating #[])
    (show ([0x12, 0x00] : List Byte).length ≤ Memory.capacity by decide)
  obtain ⟨running, -⟩ := running_of_boot booted
  have fetched : m.fetch? = some 0x1200 := fetch?_of_boot booted rfl rfl rfl
  have unread : ∀ p ∈ m.history [.cycle none], ∀ w,
      p.1.executes? p.2 = some w → ¬ w.ReadsDelay := by
    rw [history, List.forall_mem_cons]
    refine ⟨?_, List.forall_mem_nil _⟩
    rw [executes?_cycle validKeys_none running, fetched]
    rintro _ ⟨rfl⟩ ⟨group, -⟩
    exact absurd group (by decide)
  exact ⟨m, booted, rfl, unread, cycled_untimed m ⟨9, 9⟩ _ _ rfl unread⟩

end Timers

section Input

def draws (m : Machine) (events : List Event) : Nat :=
  (m.history events).countP fun (m, e) =>
    (m.executes? e).any fun w => w.group == 0xC

theorem draws_append (m : Machine) (before later : List Event) :
    m.draws (before ++ later) =
      m.draws before + (m.play before).draws later := by
  rw [draws, history_append, List.countP_append]
  rfl

theorem draws_singleton (m : Machine) (e : Event) :
    m.draws [e] =
      if (m.executes? e).any (fun w => w.group == 0xC) then 1 else 0 :=
  List.countP_singleton

theorem random_after_of_executes {e : Event} {w : Word}
    (executed : m.executes? e = some w) :
    (m.after e).random =
      if w.group = 0xC then m.random.next.2 else m.random := by
  obtain ⟨keys, rfl, -⟩ := executes?_eq_some_iff.mp executed
  rw [after_of_executes executed]
  exact (footprint_execute (m.withKeys keys) w).random

theorem random_after (m : Machine) (e : Event) :
    (m.after e).random = m.random.skip (m.draws [e]) := by
  cases executed : m.executes? e with
  | none =>
      rw [(after_of_idle executed).2.1, draws_singleton, executed]
      rfl
  | some w =>
      rw [random_after_of_executes executed, draws_singleton, executed,
        Option.any_some]
      by_cases draws : w.group = 0xC
      · rw [if_pos draws, if_pos (beq_iff_eq.mpr draws)]
        rfl
      · rw [if_neg draws, if_neg (mt beq_iff_eq.mp draws)]
        rfl

theorem random_play (m : Machine) (events : List Event) :
    (m.play events).random = m.random.skip (m.draws events) := by
  induction events generalizing m with
  | nil => rfl
  | cons e rest ih =>
      have split := m.draws_append [e] rest
      rw [List.singleton_append] at split
      rw [split, ← RandomBytes.skip_skip, ← random_after]
      exact ih (m.after e)

theorem findsAlike_of_input {s : Surroundings} (running : m.awaiting = none)
    (unread : ∀ w, m.fetch? = some w → ¬ w.ReadsKeys)
    (drawn : ∀ w, m.fetch? = some w → w.group = 0xC →
      s.random.next.1 = m.random.next.1)
    (timers : s.timers = m.timers) : m.FindsAlike s where
  key x waiting := by
    rw [running] at waiting
    cases waiting
  instruction w _ fetched := by
    have key : (decode w).instruction.op ≠ .skipKey :=
      op_instruction_ne fun form => unread w fetched (.inl ⟨form.1, .inl form.2⟩)
    have noKey : (decode w).instruction.op ≠ .skipNoKey :=
      op_instruction_ne fun form => unread w fetched (.inl ⟨form.1, .inr form.2⟩)
    have draws : (decode w).instruction.op = .random →
        s.random.next.1 = m.random.next.1 :=
      fun op => drawn w fetched ((op_instruction_eq_iff w .random).mp op)
    revert key noKey draws
    generalize (decode w).instruction = i
    cases i <;> simp [ReadsAlike, Instruction.op, advance, timers]

theorem map_sounding_run (m : Machine) :
    (m.run.2.map fun out => { out with sounding := m.run.1.sounding }) =
      m.run.2 := by
  cases ok : m.run.2 with
  | error e => rfl
  | ok out =>
      have cycled : (m.cycle none).2 = .ok out := ok
      have own : m.run.1.sounding = out.sounding := (sounding_of_cycle cycled).symm
      rw [own]
      rfl

theorem run_with_input {keypad : Keypad} {random : RandomBytes}
    (alike : m.FindsAlike ⟨m.timers, keypad, random⟩) :
    ∃ keypad' random', { m with keypad, random }.run =
      ({ m.run.1 with keypad := keypad', random := random' }, m.run.2) := by
  have same := run_within alike
  have timers := m.timers_leaveCycle ⟨m.timers, keypad, random⟩ rfl
  generalize m.leaveCycle ⟨m.timers, keypad, random⟩ = s at *
  refine ⟨s.keypad, s.random, same.trans ?_⟩
  rw [within, timers]
  exact congrArg _ m.map_sounding_run

theorem awaiting_after {e : Event} (running : m.awaiting = none)
    (unread : ∀ w, m.executes? e = some w → ¬ w.ReadsKeys) :
    (m.after e).awaiting = none := by
  cases executed : m.executes? e with
  | none => exact (after_of_idle executed).2.2 running
  | some w =>
      obtain ⟨keys, rfl, -⟩ := executes?_eq_some_iff.mp executed
      rw [after_of_executes executed]
      have kept := (footprint_execute (m.withKeys keys) w).awaiting
      exact (kept fun form => unread w executed (.inr form)).trans running

/-- The first run reads no key, and the random bytes that it draws are the same
for the second. -/
structure InputUnread (m : Machine) (random : RandomBytes)
    (pairs : List KeyPair) : Prop where
  valid : ∀ p ∈ pairs, ValidKeys p.1 ∧ ValidKeys p.2
  unread : ∀ p ∈ m.history (Event.firsts pairs), ∀ w,
    p.1.executes? p.2 = some w → ¬ w.ReadsKeys
  agree : m.random.Agree random (m.draws (Event.firsts pairs))

theorem InputUnread.split {random : RandomBytes} {before later : List KeyPair}
    (h : m.InputUnread random (before ++ later)) :
    let events := Event.firsts before
    m.InputUnread random before ∧
      (m.play events).InputUnread (random.skip (m.draws events)) later := by
  intro events
  obtain ⟨valid, unread, agree⟩ := h
  rw [List.forall_mem_append] at valid
  rw [Event.firsts, List.map_append, history_append,
    List.forall_mem_append] at unread
  rw [Event.firsts, List.map_append, draws_append] at agree
  refine ⟨⟨valid.1, unread.1, agree.mono (Nat.le_add_right ..)⟩,
    valid.2, unread.2, ?_⟩
  rw [random_play]
  exact agree.skip

theorem InputUnread.findsAlike {random : RandomBytes}
    {keys keys' : Option Snapshot} (running : m.awaiting = none)
    (h : m.InputUnread random [(keys, keys')]) (keypad : Keypad) :
    (m.withKeys keys).FindsAlike ⟨m.timers, keypad, random⟩ := by
  have valid := (List.forall_mem_singleton.mp h.valid).1
  have executed := executes?_cycle valid running
  have unread := List.forall_mem_singleton.mp h.unread
  rw [executed] at unread
  refine findsAlike_of_input (m := m.withKeys keys) running unread ?_ rfl
  intro w fetched draws
  have found : m.fetch? = some w := fetched
  have one : m.draws [.cycle keys] = 1 := by
    rw [draws_singleton, executed, found, Option.any_some,
      if_pos (beq_iff_eq.mpr draws)]
  exact h.agree 0 (Nat.lt_of_lt_of_eq Nat.zero_lt_one one.symm)

theorem cycle_with_input {random : RandomBytes} (keypad : Keypad)
    {keys keys' : Option Snapshot} (running : m.awaiting = none)
    (h : m.InputUnread random [(keys, keys')]) :
    ∃ keypad', { m with keypad, random }.cycle keys' =
      ({ (m.cycle keys).1 with
          keypad := keypad'
          random := random.skip (m.draws [.cycle keys]) }, (m.cycle keys).2) := by
  obtain ⟨valid, valid'⟩ := List.forall_mem_singleton.mp h.valid
  obtain ⟨keypad', random', same⟩ := run_with_input
    (h.findsAlike running ({ m with keypad, random }.withKeys keys').keypad)
  have cycled : { m with keypad, random }.cycle keys' =
      ({ (m.cycle keys).1 with keypad := keypad', random := random' },
        (m.cycle keys).2) := by
    rw [cycle_eq_run valid, cycle_eq_run valid']
    exact same
  -- The second machine executes the same word, and so draws as many bytes.
  have number : { m with keypad, random }.draws [.cycle keys'] =
      m.draws [.cycle keys] := by
    rw [draws_singleton, draws_singleton, executes?_cycle valid running,
      executes?_cycle (m := { m with keypad, random }) valid' running]
    rfl
  have left := { m with keypad, random }.random_after (.cycle keys')
  rw [number, after, cycled] at left
  obtain rfl : random' = _ := left
  exact ⟨keypad', cycled⟩

theorem runs_with_input {random : RandomBytes} (keypad : Keypad)
    {pairs : List KeyPair} (running : m.awaiting = none)
    (h : m.InputUnread random pairs) :
    (∃ keypad', { m with keypad, random }.play (Event.seconds pairs) =
      { m.play (Event.firsts pairs) with
        keypad := keypad'
        random := random.skip (m.draws (Event.firsts pairs)) }) ∧
    ({ m with keypad, random }.cycled (Event.seconds pairs)).map Prod.snd =
      (m.cycled (Event.firsts pairs)).map Prod.snd := by
  induction pairs generalizing m keypad random with
  | nil => exact ⟨⟨keypad, rfl⟩, rfl⟩
  | cons p rest ih =>
      obtain ⟨keys, keys'⟩ := p
      obtain ⟨first, later⟩ : m.InputUnread random [(keys, keys')] ∧ _ := h.split
      obtain ⟨keypad₁, now⟩ := cycle_with_input keypad running first
      have next : { m with keypad, random }.after (.cycle keys') = _ :=
        congrArg Prod.fst now
      have runs : (m.after (.cycle keys)).awaiting = none :=
        awaiting_after running (List.forall_mem_singleton.mp first.unread)
      obtain ⟨⟨keypad₂, left⟩, answers⟩ := ih keypad₁ runs later
      have number : m.draws (Event.firsts ((keys, keys') :: rest)) = _ :=
        m.draws_append [.cycle keys] _
      refine ⟨⟨keypad₂, ?_⟩, ?_⟩
      · change ({ m with keypad, random }.after (.cycle keys')).play _ = _
        rw [next, number, ← RandomBytes.skip_skip]
        exact left
      · change ({ m with keypad, random }.cycled (.cycle keys' :: _)).map _ =
          (m.cycled (.cycle keys :: _)).map _
        rw [cycled_cons, cycled_cons, next, List.map_append, List.map_append]
        refine congr (congrArg _ ?_) answers
        rw [cycled?, cycled?, now]
        rfl

theorem draws_one {e : Event} {w : Word} (executed : m.executes? e = some w)
    (group : w.group = 0xC) :
    (m.after e).random = m.random.skip 1 ∧
      (m.after e).v w.x = m.random.next.1 &&& w.kk := by
  constructor
  · rw [random_after_of_executes executed, if_pos group]
    rfl
  · obtain ⟨keys, rfl, -⟩ := executes?_eq_some_iff.mp executed
    rw [after_of_executes executed, perform,
      decode_of_form (show Op.random.Form w from group)]
    exact Registers.get_set_self ..

/-- A run that reads no key goes the same way whatever keys are given to it, on
the random bytes that it draws: one for each word that asks for one, and no
others. -/
theorem keys_unread (m : Machine) (keypad : Keypad) (random : RandomBytes)
    (pairs : List KeyPair) (running : m.awaiting = none)
    (h : m.InputUnread random pairs) :
    (∀ before, before <+: pairs →
      let n := m.draws (Event.firsts before)
      (m.play (Event.firsts before)).random = m.random.skip n ∧
      ∃ keypad', { m with keypad, random }.play (Event.seconds before) =
        { m.play (Event.firsts before) with
          keypad := keypad'
          random := random.skip n }) ∧
    ({ m with keypad, random }.cycled (Event.seconds pairs)).map Prod.snd =
      (m.cycled (Event.firsts pairs)).map Prod.snd ∧
    ∀ (any : Machine) e w, any.executes? e = some w → w.group = 0xC →
      (any.after e).random = any.random.skip 1 ∧
        (any.after e).v w.x = any.random.next.1 &&& w.kk := by
  refine ⟨?_, (runs_with_input keypad running h).2, fun _ _ _ => draws_one⟩
  intro before part
  obtain ⟨later, rfl⟩ := part
  exact ⟨m.random_play _, (runs_with_input keypad running h.split.1).1⟩

theorem keys_unread_draw :
    ∃ m, boot (.repeating #[0x5A]) [0xC0, 0x0F] = .ok m ∧
      m.awaiting = none ∧
      m.InputUnread (.repeating #[0x5A, 0x77]) [(none, some fiveDown)] ∧
      ({ m with random := .repeating #[0x5A, 0x77] }.play
          [.cycle (some fiveDown)]).v 0 = (m.play [.cycle none]).v 0 ∧
      (m.play [.cycle none]).v 0 = 0x0A := by
  obtain ⟨m, booted⟩ := exists_boot (.repeating #[0x5A])
    (show ([0xC0, 0x0F] : List Byte).length ≤ Memory.capacity by decide)
  obtain ⟨running, -⟩ := running_of_boot booted
  have fetched : m.fetch? = some 0xC00F := fetch?_of_boot booted rfl rfl rfl
  have executed := executes?_cycle validKeys_none running
  rw [fetched] at executed
  have script : m.random = .repeating #[0x5A] := by
    obtain ⟨memory, -, rfl⟩ := exists_memory_of_boot booted
    rfl
  have unread : m.InputUnread (.repeating #[0x5A, 0x77])
      [(none, some fiveDown)] := by
    refine ⟨List.forall_mem_singleton.mpr ⟨validKeys_none, ?_⟩,
      List.forall_mem_singleton.mpr ?_, ?_⟩
    · simp [ValidKeys, fiveDown]
    · rw [executed]
      rintro _ ⟨rfl⟩ read
      revert read
      simp only [Word.ReadsKeys]
      decide
    · have one : m.draws (Event.firsts [(none, some fiveDown)]) = 1 := by
        refine (m.draws_singleton _).trans ?_
        rw [executed]
        rfl
      rw [one, script]
      intro k first
      obtain rfl : k = 0 := by omega
      rfl
  obtain ⟨same, -, one⟩ := keys_unread m m.keypad _ _ running unread
  obtain ⟨-, keypad, left⟩ := same _ (List.prefix_refl _)
  refine ⟨m, booted, running, unread, congrArg (·.v 0) left, ?_⟩
  have drawn := (one m _ _ executed rfl).2
  rw [script] at drawn
  exact drawn

end Input

end Machine

end Chip8
