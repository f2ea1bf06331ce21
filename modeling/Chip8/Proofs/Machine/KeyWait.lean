import Chip8.Proofs.Machine.Completion
import Chip8.Proofs.Machine.Footprint

/-!
# Waiting for a key

A machine begins to wait by one instruction only, and is woken by the first
cycle whose keypad has a key down.  In between it stands still: cycles change its
keypad, and ticks its timers, and nothing else happens.

A woken machine goes on behind the instruction it waited at, which can be where
nothing is fetched any more: at the address `0xFFE` and the one after it.
-/

namespace Chip8

def Keypad.IsLowest (k : Keypad) (key : Key) : Prop :=
  k.isDown key = true ∧ ∀ other < key, k.isDown other = false

theorem Keypad.firstPressed?_eq_none_iff (k : Keypad) :
    k.firstPressed? = none ↔ k.pressed = [] :=
  List.head?_eq_none_iff

theorem Keypad.firstPressed?_eq_some_iff (k : Keypad) (key : Key) :
    k.firstPressed? = some key ↔ k.IsLowest key := by
  rw [firstPressed?, pressed, List.head?_filter, List.find?_eq_some_iff_getElem]
  constructor
  · rintro ⟨down, i, hi, rfl, lower⟩
    refine ⟨down, ?_⟩
    intro other below
    simpa using lower other.val (by simpa [Fin.lt_def] using below)
  · rintro ⟨down, lower⟩
    refine ⟨down, key.val, by simp, by simp, ?_⟩
    intro j hj
    simpa using lower ⟨j, by omega⟩ hj

theorem Timers.ticks_add (t : Timers) (k n : Nat) :
    t.ticks (k + n) = (t.ticks k).ticks n := by
  induction k generalizing t with
  | zero => simp [ticks]
  | succ k ih => rw [Nat.succ_add, ticks, ticks, ih]

namespace Event

def isTick : Event → Bool
  | tick => true
  | cycle _ | load _ => false

def ticks (events : List Event) : Nat := events.countP isTick

theorem ticks_cons (e : Event) (rest : List Event) :
    ticks (e :: rest) = ticks [e] + ticks rest := by
  rw [ticks, ← List.singleton_append, List.countP_append]
  rfl

end Event

namespace Machine

/-- Whether the event is no cycle, or one that works with a keypad on which no
key is down. -/
def Quiet (m : Machine) : Event → Prop
  | .cycle keys => (m.withKeys keys).keypad.pressed = []
  | .tick | .load _ => True

structure QuietRun (m : Machine) (events : List Event) : Prop where
  valid : ∀ e ∈ events, e.Valid
  kept : ∀ e ∈ events, ¬ e.Loads
  quiet : ∀ p ∈ m.history events, p.1.Quiet p.2

variable {m : Machine} {r : Register}

theorem cycle_of_waiting {keys : Option Snapshot} (valid : ValidKeys keys)
    (waiting : m.awaiting = some r) :
    m.cycle keys =
      (((m.withKeys keys).resume r).1, .ok ((m.withKeys keys).resume r).2) := by
  rw [cycle_eq_run valid]
  exact run_of_awaiting (m := m.withKeys keys) waiting

theorem resume_of_quiet (quiet : m.keypad.pressed = []) :
    m.resume r = (m, m.output false none) := by
  rw [resume, (Keypad.firstPressed?_eq_none_iff _).mpr quiet]

theorem resume_of_lowest {key : Key} (lowest : m.keypad.IsLowest key) :
    (m.resume r).1 =
        { m.setV r (UInt8.ofNat key.val) with awaiting := none } ∧
      (m.resume r).2.updated = false := by
  rw [resume, (Keypad.firstPressed?_eq_some_iff _ key).mpr lowest]
  exact ⟨rfl, rfl⟩

theorem pc_after_of_waiting {e : Event} (valid : e.Valid)
    (waiting : m.awaiting = some r) : (m.after e).pc = m.pc := by
  cases e with
  | cycle keys =>
      rw [after, cycle_of_waiting valid waiting, fst_resume]
      cases (m.withKeys keys).keypad.firstPressed? <;> rfl
  | tick => rfl
  | load data =>
      obtain ⟨memory, same⟩ := m.exists_memory_after_load data
      rw [same]

theorem after_of_quiet {e : Event} (valid : e.Valid) (kept : ¬ e.Loads)
    (waiting : m.awaiting = some r) (quiet : m.Quiet e) :
    ∃ keypad, m.after e =
      { m with keypad, timers := m.timers.ticks (Event.ticks [e]) } := by
  cases e with
  | cycle keys =>
      rw [after, cycle_of_waiting valid waiting, resume_of_quiet quiet]
      exact ⟨_, rfl⟩
  | tick => exact ⟨m.keypad, rfl⟩
  | load data => exact absurd trivial kept

def Calm (p : Machine × Event) : Prop :=
  ∀ keys, p.2 = .cycle keys →
    ∃ out, (p.1.cycle keys).2 = .ok out ∧ out.updated = false

theorem calm_of_quiet {e : Event} (valid : e.Valid)
    (waiting : m.awaiting = some r) (quiet : m.Quiet e) : Calm (m, e) := by
  rintro keys rfl
  have same := cycle_of_waiting valid waiting
  rw [resume_of_quiet quiet] at same
  exact ⟨_, congrArg Prod.snd same, rfl⟩

theorem play_of_quiet {events : List Event} (waiting : m.awaiting = some r)
    (h : m.QuietRun events) :
    (∃ keypad, m.play events =
      { m with keypad, timers := m.timers.ticks (Event.ticks events) }) ∧
    ∀ p ∈ m.history events, Calm p := by
  induction events generalizing m with
  | nil => exact ⟨⟨m.keypad, rfl⟩, List.forall_mem_nil _⟩
  | cons e rest ih =>
      obtain ⟨valid, kept, quiet⟩ := h
      rw [List.forall_mem_cons] at valid kept
      rw [history, List.forall_mem_cons] at quiet ⊢
      obtain ⟨keypad, first⟩ :=
        after_of_quiet valid.1 kept.1 waiting quiet.1
      have waits : (m.after e).awaiting = some r := by rw [first]; exact waiting
      obtain ⟨⟨keypad', later⟩, calm⟩ :=
        ih waits ⟨valid.2, kept.2, quiet.2⟩
      refine ⟨⟨keypad', ?_⟩, calm_of_quiet valid.1 waiting quiet.1, calm⟩
      refine later.trans ?_
      rw [Event.ticks_cons, Timers.ticks_add, first]

theorem perform_wait {w : Word} (keys : Option Snapshot)
    (group : w.group = 0xF) (kk : w.kk = 0x0A) :
    m.perform keys w =
      ({ (m.withKeys keys).advance w with awaiting := some w.x }, .ok ()) := by
  rw [perform, decode_of_form (show Op.waitKey.Form w from ⟨group, kk⟩)]
  rfl

theorem cycle_of_wait {w : Word} {keys : Option Snapshot}
    (valid : ValidKeys keys) (running : m.awaiting = none)
    (fetched : m.fetch? = some w) (group : w.group = 0xF) (kk : w.kk = 0x0A) :
    (m.cycle keys).1 =
      { (m.withKeys keys).advance w with awaiting := some w.x } := by
  have done := m.perform_wait keys group kk
  rw [cycle_of_perform valid running fetched (congrArg Prod.snd done), done]

theorem perform_enters_wait {w : Word} {keys : Option Snapshot}
    (free : m.awaiting ≠ some r)
    (waits : (m.perform keys w).1.awaiting = some r) :
    w.group = 0xF ∧ w.kk = 0x0A ∧ w.x = r ∧ m.perform keys w =
      ({ (m.withKeys keys).advance w with awaiting := some r }, .ok ()) := by
  have kept := (footprint_execute (m.withKeys keys) w).awaiting
  by_cases form : w.group = 0xF ∧ w.kk = 0x0A
  · have done := m.perform_wait keys form.1 form.2
    rw [done] at waits
    have x : w.x = r := Option.some.inj waits
    rw [x] at done
    exact ⟨form.1, form.2, x, done⟩
  · exact absurd ((kept form).symm.trans waits) free

theorem completes_wait {e : Event} (valid : e.Valid)
    (free : m.awaiting ≠ some r) (waits : (m.after e).awaiting = some r) :
    ∃ w, m.completes? e = some w ∧ w.group = 0xF ∧ w.kk = 0x0A ∧ w.x = r ∧
      (m.after e).pc = m.pc + 2 := by
  cases e with
  | tick => exact absurd waits free
  | load data =>
      obtain ⟨memory, same⟩ := m.exists_memory_after_load data
      rw [same] at waits
      exact absurd waits free
  | cycle keys =>
      rw [after] at waits ⊢
      rcases m.cycle_cases valid with
        ⟨x, waiting, same⟩ | ⟨running, -, same⟩ |
          ⟨w, running, fetched, -, same⟩ | ⟨w, t, running, -, trap, same⟩
      · rw [same, fst_resume] at waits
        cases h : (m.withKeys keys).keypad.firstPressed? with
        | none =>
            rw [h] at waits
            exact absurd waits free
        | some key =>
            rw [h] at waits
            cases waits
      · rw [same] at waits
        exact absurd waits free
      · rw [same] at waits ⊢
        obtain ⟨group, kk, x, done⟩ := perform_enters_wait free waits
        refine ⟨w, ?_, group, kk, x, by rw [done]; rfl⟩
        exact completes?_eq_some_iff.mpr
          ⟨keys, rfl, running, fetched, _, congrArg Prod.snd same⟩
      · rw [same] at waits
        obtain ⟨-, -, -, done⟩ := perform_enters_wait free waits
        rw [done] at trap
        cases trap

/-- The event at which a wait for a key into `r` began that has lasted since. -/
structure WaitBegan (start : Machine) (r : Register) (before : List Event)
    (e : Event) (since : List Event) : Prop where
  entered : ∃ w, (start.play before).completes? e = some w ∧
    w.group = 0xF ∧ w.kk = 0x0A ∧ w.x = r
  lasting : ∀ k ≤ since.length,
    (((start.play before).after e).play (since.take k)).awaiting = some r

theorem waits_throughout_or_began {events : List Event}
    (valid : ∀ e ∈ events, e.Valid)
    (waiting : (m.play events).awaiting = some r) :
    ((∀ k ≤ events.length, (m.play (events.take k)).awaiting = some r) ∧
      (m.play events).pc = m.pc) ∨
    ∃ before e since, events = before ++ e :: since ∧
      m.WaitBegan r before e since ∧
      (m.play events).pc = (m.play before).pc + 2 := by
  induction events generalizing m with
  | nil =>
      left
      refine ⟨?_, rfl⟩
      intro k hk
      obtain rfl : k = 0 := Nat.le_zero.mp hk
      exact waiting
  | cons e rest ih =>
      rw [List.forall_mem_cons] at valid
      rcases ih (m := m.after e) valid.2 waiting with
        ⟨lasting, here⟩ | ⟨before, e', since, rfl, began, here⟩
      -- The rest has waited throughout: if `m` waits already, so have all of
      -- them, and if not, the wait began with `e`.
      · have waits : (m.after e).awaiting = some r := lasting 0 (Nat.zero_le _)
        by_cases already : m.awaiting = some r
        · left
          refine ⟨?_, here.trans (pc_after_of_waiting valid.1 already)⟩
          intro k hk
          cases k with
          | zero => exact already
          | succ k => exact lasting k (Nat.le_of_succ_le_succ hk)
        · right
          obtain ⟨w, done, group, kk, x, next⟩ :=
            completes_wait valid.1 already waits
          exact ⟨[], e, rest, rfl, ⟨⟨w, done, group, kk, x⟩, lasting⟩,
            here.trans next⟩
      · right
        exact ⟨e :: before, e', since, rfl, ⟨began.entered, began.lasting⟩, here⟩

/-- A wait for a key into `r` that the instruction at `address` has begun: what
leaves the machine as it is, what wakes it, and where it goes on. -/
structure KeyWait (m : Machine) (r : Register) (address : Int) : Prop where
  counter : m.pc = address + 2
  still : ∀ events, m.QuietRun events →
    (∃ keypad, m.play events =
      { m with keypad, timers := m.timers.ticks (Event.ticks events) }) ∧
    ∀ p ∈ m.history events, Calm p
  woken : ∀ events keys, m.QuietRun events → ValidKeys keys →
    ¬ (m.play events).Quiet (.cycle keys) →
    ∃ key out, ((m.play events).withKeys keys).keypad.IsLowest key ∧
      (m.play events).cycle keys =
        ({ m with
            keypad := ((m.play events).withKeys keys).keypad
            timers := m.timers.ticks (Event.ticks events)
            registers := m.registers.set r (UInt8.ofNat key.val)
            awaiting := none }, .ok out) ∧
      out.updated = false
  next : ∀ events keys, m.QuietRun events → ValidKeys keys →
    ¬ (m.play events).Quiet (.cycle keys) → ∀ n keys', ValidKeys keys' →
    let woken := ((m.play events).cycle keys).1.ticks n
    (address + 2 ≤ 4093 → ∃ w, m.memory.readWord (address + 2) = .ok w ∧
      (woken.cycle keys').1.word = w) ∧
    (4093 < address + 2 →
      (woken.cycle keys').2 = .error (.fault ⟨address + 2, 0, none⟩))

theorem cycle_of_lowest {keys : Option Snapshot} {key : Key}
    (valid : ValidKeys keys) (waiting : m.awaiting = some r)
    (lowest : (m.withKeys keys).keypad.IsLowest key) :
    ∃ out, m.cycle keys =
        ({ m.withKeys keys with
            registers := m.registers.set r (UInt8.ofNat key.val)
            awaiting := none }, .ok out) ∧ out.updated = false := by
  obtain ⟨woken, unchanged⟩ := resume_of_lowest (r := r) lowest
  refine ⟨_, ?_, unchanged⟩
  rw [cycle_of_waiting valid waiting, woken]
  rfl

theorem exists_lowest {keys : Option Snapshot}
    (h : ¬ m.Quiet (.cycle keys)) :
    ∃ key, (m.withKeys keys).keypad.IsLowest key := by
  obtain none | ⟨key, found⟩ := Option.eq_none_or_eq_some
    (m.withKeys keys).keypad.firstPressed?
  · exact absurd ((Keypad.firstPressed?_eq_none_iff _).mp none) h
  · exact ⟨key, (Keypad.firstPressed?_eq_some_iff ..).mp found⟩

theorem cycle_fetches_or_faults {keys : Option Snapshot}
    (valid : ValidKeys keys) (running : m.awaiting = none) (low : 0 ≤ m.pc) :
    (m.pc ≤ 4093 → ∃ w, m.memory.readWord m.pc = .ok w ∧
      (m.cycle keys).1.word = w) ∧
    (4093 < m.pc →
      (m.cycle keys).2 = .error (.fault ⟨m.pc, 0, none⟩)) := by
  constructor
  · intro high
    have read := m.memory.readWord_eq_ok ⟨low, by omega⟩
    have fetched := (fetch?_eq_some_iff _).mpr ⟨high, read⟩
    exact ⟨_, read, (footprint_cycle running fetched valid).word⟩
  · intro high
    have nothing : (m.withKeys keys).fetch? = none :=
      fetch?_eq_none_iff.mpr (.inr high)
    rw [cycle_eq_run valid,
      run_of_fetch_none (m := m.withKeys keys) running nothing]
    rfl

theorem wakes_of_pressed {events : List Event} {keys : Option Snapshot}
    (waiting : m.awaiting = some r) (quiet : m.QuietRun events)
    (valid : ValidKeys keys) (pressed : ¬ (m.play events).Quiet (.cycle keys)) :
    ∃ key out, ((m.play events).withKeys keys).keypad.IsLowest key ∧
      (m.play events).cycle keys =
        ({ m with
            keypad := ((m.play events).withKeys keys).keypad
            timers := m.timers.ticks (Event.ticks events)
            registers := m.registers.set r (UInt8.ofNat key.val)
            awaiting := none }, .ok out) ∧
      out.updated = false := by
  obtain ⟨⟨keypad, same⟩, -⟩ := play_of_quiet waiting quiet
  have waits : (m.play events).awaiting = some r := by
    rw [same]
    exact waiting
  obtain ⟨key, lowest⟩ := exists_lowest pressed
  obtain ⟨out, woken, unchanged⟩ := cycle_of_lowest valid waits lowest
  refine ⟨key, out, lowest, ?_, unchanged⟩
  rw [woken, same]
  rfl

theorem keyWait_of_awaiting {address : Int} (low : 0 ≤ address)
    (waiting : m.awaiting = some r) (counter : m.pc = address + 2) :
    m.KeyWait r address where
  counter := counter
  still _ := play_of_quiet waiting
  woken _ _ := wakes_of_pressed waiting
  next := by
    intro events keys quiet valid pressed n keys' valid'
    obtain ⟨key, out, -, woken, -⟩ :=
      wakes_of_pressed waiting quiet valid pressed
    have here : (((m.play events).cycle keys).1.ticks n).pc = address + 2 := by
      rw [woken]
      exact counter
    have memory :
        (((m.play events).cycle keys).1.ticks n).memory = m.memory := by
      rw [woken]
      rfl
    have running : (((m.play events).cycle keys).1.ticks n).awaiting = none := by
      rw [woken]
      rfl
    have goesOn := cycle_fetches_or_faults valid' running (by rw [here]; omega)
    rwa [here, memory] at goesOn

theorem key_wait_protocol (random : RandomBytes) (program : List Byte)
    (fits : program.length ≤ Memory.capacity) :
    ∃ start, boot random program = .ok start ∧
      ∀ past, (∀ e ∈ past, e.Valid) →
        (∀ e r, e.Valid → (start.play past).awaiting ≠ some r →
          ((start.play past).after e).awaiting = some r →
          ∃ w, (start.play past).completes? e = some w ∧
            w.group = 0xF ∧ w.kk = 0x0A ∧ w.x = r) ∧
        ∀ r, (start.play past).awaiting = some r →
          ∃ before e since, past = before ++ e :: since ∧
            start.WaitBegan r before e since ∧
            (start.play past).KeyWait r (start.play before).pc := by
  obtain ⟨start, booted⟩ := exists_boot random fits
  refine ⟨start, booted, ?_⟩
  intro past valid
  constructor
  · intro e r given free waits
    obtain ⟨w, done, group, kk, x, -⟩ := completes_wait given free waits
    exact ⟨w, done, group, kk, x⟩
  · intro r waiting
    rcases waits_throughout_or_began valid waiting with
      ⟨always, -⟩ | ⟨before, e, since, split, began, counter⟩
    · have booting : start.awaiting = some r := always 0 (Nat.zero_le _)
      rw [(running_of_boot booted).1] at booting
      cases booting
    · obtain ⟨w, done, -⟩ := began.entered
      obtain ⟨_, -, -, fetched, -⟩ := completes?_eq_some_iff.mp done
      exact ⟨before, e, since, split, began,
        keyWait_of_awaiting (pc_of_fetch fetched).1 waiting counter⟩

theorem key_wait_protocol_first :
    ([0xF3, 0x0A, 0x00, 0xE0] : List Byte).length ≤ Memory.capacity ∧
      ∃ start, boot (.repeating #[]) [0xF3, 0x0A, 0x00, 0xE0] = .ok start ∧
        (start.play [.cycle none]).awaiting = some 3 ∧
        (start.play [.cycle none]).KeyWait 3 0x200 := by
  have fits : ([0xF3, 0x0A, 0x00, 0xE0] : List Byte).length ≤
      Memory.capacity := by decide
  obtain ⟨start, booted, protocol⟩ := key_wait_protocol (.repeating #[]) _ fits
  obtain ⟨running, pc⟩ := running_of_boot booted
  have given := validKeys_none
  have fetched : start.fetch? = some 0xF30A :=
    fetch?_of_boot booted rfl rfl rfl
  have waits : (start.play [.cycle none]).awaiting = some 3 := by
    change (start.cycle none).1.awaiting = _
    rw [cycle_of_wait given running fetched (by decide) (by decide)]
    rfl
  refine ⟨fits, start, booted, waits, ?_⟩
  obtain ⟨before, e, since, split, -, wait⟩ :=
    (protocol [.cycle none] (by simp [Event.Valid, given])).2 3 waits
  cases before with
  | nil => rwa [show start.play [] = start from rfl, pc] at wait
  | cons _ _ => simp at split

/-- A jump to a wait at `0xFFC`, behind which nothing is fetched. -/
def lastWait : List Byte :=
  ([0x1F, 0xFC] ++ List.replicate 3578 0) ++ [0xF3, 0x0A, 0x00, 0xE0]

theorem length_lastWait : lastWait.length = Memory.capacity := by
  simp only [lastWait, List.length_append, List.length_replicate]
  rfl

theorem getElem?_lastWait (k : Nat) :
    lastWait[3580 + k]? = [0xF3, 0x0A, 0x00, 0xE0][k]? := by
  have bytes : ([0x1F, 0xFC] ++ List.replicate 3578 0 : List Byte).length =
      3580 := by
    simp only [List.length_append, List.length_replicate]
    rfl
  rw [lastWait, List.getElem?_append_right, bytes, Nat.add_sub_cancel_left]
  rw [bytes]
  exact Nat.le_add_right ..

theorem play_lastWait {random : RandomBytes} {start : Machine}
    (booted : boot random lastWait = .ok start) :
    ∃ m, start.play [.cycle none, .cycle none] = m ∧
      m.awaiting = some 3 ∧ m.pc = 0xFFE ∧
      m.memory.readWord 0xFFE = .ok 0x00E0 := by
  obtain ⟨running, -⟩ := running_of_boot booted
  have given := validKeys_none
  have wait := readWord_of_getElem? booted
    (getElem?_lastWait 0) (getElem?_lastWait 1)
  have beyond := readWord_of_getElem? booted
    (getElem?_lastWait 2) (getElem?_lastWait 3)
  have jump : start.fetch? = some 0x1FFC := fetch?_of_boot booted rfl rfl rfl
  have jumped := congrArg Prod.fst (cycle_of_jump given running jump rfl)
  have here : (start.cycle none).1.pc = 0xFFC := by
    rw [jumped]
    rfl
  have same : (start.cycle none).1.memory = start.memory := by
    rw [jumped]
    rfl
  have fetched : (start.cycle none).1.fetch? = some 0xF30A := by
    rw [fetch?_eq_some_iff, here, same]
    exact ⟨by decide, wait⟩
  have waits := cycle_of_wait given (by rw [jumped]; exact running)
    fetched rfl rfl
  refine ⟨_, waits, rfl, ?_, ?_⟩
  · exact congrArg (· + 2) here
  · exact (congrArg (Memory.readWord · 0xFFE) same).trans beyond

def fiveDown : Snapshot := (List.range 16).map (· == 5)

theorem fault_after_last_wait :
    ∃ start, boot (.repeating #[]) lastWait = .ok start ∧
      (start.play [.cycle none, .cycle none]).awaiting = some 3 ∧
      ∃ woken,
        woken =
          start.play [.cycle none, .cycle none, .cycle (some fiveDown)] ∧
        woken.awaiting = none ∧ woken.memory.readWord 0xFFE = .ok 0x00E0 ∧
        (woken.cycle none).2 = .error (.fault ⟨0xFFE, 0, none⟩) := by
  obtain ⟨start, booted⟩ :=
    exists_boot (.repeating #[]) (Nat.le_of_eq length_lastWait)
  obtain ⟨m, rfl, waiting, pc, beyond⟩ := play_lastWait booted
  have valid : ValidKeys (some fiveDown) := by
    simp [ValidKeys, fiveDown]
  have wait : (start.play [.cycle none, .cycle none]).KeyWait 3 0xFFC :=
    keyWait_of_awaiting (by decide) waiting pc
  have still : (start.play [.cycle none, .cycle none]).QuietRun [] :=
    ⟨List.forall_mem_nil _, List.forall_mem_nil _, List.forall_mem_nil _⟩
  have pressed : ¬ (start.play [.cycle none, .cycle none]).Quiet
      (.cycle (some fiveDown)) :=
    fun quiet => List.cons_ne_nil (5 : Key) [] quiet
  obtain ⟨key, out, -, woken, -⟩ := wait.woken [] _ still valid pressed
  obtain ⟨-, fault⟩ := wait.next [] _ still valid pressed 0 none
    validKeys_none
  have left := congrArg Prod.fst woken
  exact ⟨start, booted, waiting, _, rfl, congrArg awaiting left,
    (congrArg (·.memory.readWord 0xFFE) left).trans beyond, fault (by decide)⟩

end Machine

end Chip8
