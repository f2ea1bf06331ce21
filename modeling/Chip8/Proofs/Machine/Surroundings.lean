import Chip8.Proofs.Machine.Completion

/-!
# Surroundings

Of the world around it a machine has its timers, its keypad and its random
bytes.  In other surroundings it does the same, as long as it finds the same in
them where it looks.
-/

namespace Chip8

structure Surroundings where
  timers : Timers
  keypad : Keypad
  random : RandomBytes

namespace Machine

def surroundings (m : Machine) : Surroundings := ⟨m.timers, m.keypad, m.random⟩

def within (m : Machine) (s : Surroundings) : Machine :=
  { m with timers := s.timers, keypad := s.keypad, random := s.random }

/-- Whether an instruction finds in the surroundings what it would find in those
that the machine has. -/
def ReadsAlike (m : Machine) (s : Surroundings) : Instruction → Prop
  | .readDelay _ => s.timers.delay = m.timers.delay
  | .skipKey x | .skipNoKey x =>
      s.keypad.isDown (m.keyOf x) = m.keypad.isDown (m.keyOf x)
  | .random _ _ => s.random.next.1 = m.random.next.1
  | _ => True

def leave (m : Machine) (s : Surroundings) (i : Instruction) : Surroundings where
  timers :=
    match i with
    | .setDelay x => { s.timers with delay := (m.v x).toNat }
    | .setSound x => { s.timers with sound := (m.v x).toNat }
    | _ => s.timers
  keypad := s.keypad
  random :=
    match i with
    | .random _ _ => s.random.next.2
    | _ => s.random

variable {m : Machine} {s : Surroundings} {i : Instruction}

section

variable (m : Machine) (s : Surroundings)

@[simp] theorem memory_within : (m.within s).memory = m.memory := rfl

@[simp] theorem registers_within : (m.within s).registers = m.registers := rfl

@[simp] theorem screen_within : (m.within s).screen = m.screen := rfl

@[simp] theorem pc_within : (m.within s).pc = m.pc := rfl

@[simp] theorem timers_within : (m.within s).timers = s.timers := rfl

@[simp] theorem keypad_within : (m.within s).keypad = s.keypad := rfl

@[simp] theorem v_within (x : Register) : (m.within s).v x = m.v x := rfl

@[simp] theorem index_within : (m.within s).index = m.index := rfl

@[simp] theorem keyOf_within (x : Register) :
    (m.within s).keyOf x = m.keyOf x := rfl

@[simp] theorem drawOrigin_within (x y : Register) :
    (m.within s).drawOrigin x y = m.drawOrigin x y := rfl

end

theorem skipIf_within (condition : Bool) :
    (m.within s).skipIf condition = (m.skipIf condition).within s := by
  cases condition <;> rfl

theorem finish_within (r : Except Memory.Outside Unit) :
    (m.within s).finish r = ((m.finish r).1.within s, (m.finish r).2) := by
  cases r <;> rfl

theorem call_within (target : Address) :
    (m.within s).call target =
      ((m.call target).1.within s, (m.call target).2) := by
  have same : (m.within s).stack.push (m.within s).pc = m.stack.push m.pc := rfl
  rw [call, call, same]
  rcases m.stack.push m.pc with ⟨_ | _⟩ | _ <;> rfl

theorem ret_within :
    (m.within s).ret = (m.ret.1.within s, m.ret.2) := by
  have same : (m.within s).stack.pop? = m.stack.pop? := rfl
  rw [ret, ret, same]
  cases m.stack.pop? <;> rfl

theorem store_within (bytes : List Byte) :
    (m.within s).store bytes =
      ((m.store bytes).1.within s, (m.store bytes).2) := by
  simp only [store, memory_within, index_within, ← finish_within]
  rfl

theorem loadRegisters_within (x : Register) :
    (m.within s).loadRegisters x =
      ((m.loadRegisters x).1.within s, (m.loadRegisters x).2) := by
  simp only [loadRegisters, memory_within, index_within, registers_within,
    ← finish_within]
  rfl

theorem draw_within (x y : Register) (n : Nat) :
    (m.within s).draw x y n =
      ((m.draw x y n).1.within s, (m.draw x y n).2) := by
  simp only [draw, memory_within, index_within, registers_within,
    screen_within, drawOrigin_within, ← finish_within]
  rfl

theorem execute_within (alike : m.ReadsAlike s i) :
    (m.within s).execute i =
      ((m.execute i).1.within (m.leave s i), (m.execute i).2) := by
  cases i with
  | skipEqByte | skipNeByte | skipEq | skipNe =>
      exact congrArg done (skipIf_within _)
  | skipKey x =>
      have same : (m.within s).keypad.isDown ((m.within s).keyOf x) =
        m.keypad.isDown (m.keyOf x) := alike
      rw [execute, execute, same]
      exact congrArg done (skipIf_within _)
  | skipNoKey x =>
      have same : (m.within s).keypad.isDown ((m.within s).keyOf x) =
        m.keypad.isDown (m.keyOf x) := alike
      rw [execute, execute, same]
      exact congrArg done (skipIf_within _)
  | readDelay x =>
      have same : (m.within s).timers.delay = m.timers.delay := alike
      rw [execute, execute, same]
      rfl
  | random x kk =>
      have same : (m.within s).random.next.1 = m.random.next.1 := alike
      simp only [execute, same]
      rfl
  | ret => exact ret_within
  | call target => exact call_within target
  | draw x y n => exact draw_within x y n.val
  | digits x => simp only [execute, v_within, store_within, leave]
  | store x => simp only [execute, registers_within, store_within, leave]
  | load x => simp only [execute, loadRegisters_within, leave]
  | _ => rfl

theorem describe_within {before after : Machine} {s' : Surroundings}
    (read : i.op = .readDelay → s.timers.delay = before.timers.delay)
    (delay : i.op = .setDelay → s'.timers.delay = after.timers.delay)
    (sound : i.op = .setSound → s'.timers.sound = after.timers.sound) :
    Trace.describe (before.within s) (after.within s') i =
      Trace.describe before after i := by
  unfold Trace.describe
  cases i with
  | or | and | xor | add | sub | subFrom | shiftLeft => rfl
  | readDelay x => simp [read rfl]
  | setDelay x => simp [delay rfl]
  | setSound x => simp [sound rfl]
  | _ => simp

theorem entry_within (alike : m.ReadsAlike s i) :
    Trace.entry (m.within s) ((m.within s).execute i).1 i =
      Trace.entry m (m.execute i).1 i := by
  have text : Trace.describe (m.within s)
      ((m.execute i).1.within (m.leave s i)) i =
      Trace.describe m (m.execute i).1 i := by
    apply describe_within
    · intro op
      cases i <;> cases op
      exact alike
    · intro op
      cases i <;> cases op
      rfl
    · intro op
      cases i <;> cases op
      rfl
  rw [execute_within alike, Trace.entry, text]
  rfl

structure FindsAlike (m : Machine) (s : Surroundings) : Prop where
  key : ∀ x, m.awaiting = some x →
    s.keypad.firstPressed? = m.keypad.firstPressed?
  instruction : ∀ w, m.awaiting = none → m.fetch? = some w →
    (m.advance w).ReadsAlike s (decode w)

def leaveCycle (m : Machine) (s : Surroundings) : Surroundings :=
  match m.awaiting, m.fetch? with
  | none, some w => m.leave s (decode w)
  | _, _ => s

theorem resume_within {x : Register}
    (same : s.keypad.firstPressed? = m.keypad.firstPressed?) :
    (m.within s).resume x =
      ((m.resume x).1.within s,
        { (m.resume x).2 with sounding := s.timers.sounding }) := by
  rw [resume, resume, keypad_within, same]
  cases m.keypad.firstPressed? <;> rfl

theorem leaveCycle_of_waiting {x : Register} (h : m.awaiting = some x) :
    m.leaveCycle s = s := by
  rw [leaveCycle, h]

theorem leaveCycle_of_fetch_none (h : m.fetch? = none) :
    m.leaveCycle s = s := by
  rw [leaveCycle, h]
  cases m.awaiting <;> rfl

theorem leaveCycle_of_fetch {w : Word} (running : m.awaiting = none)
    (fetched : m.fetch? = some w) :
    m.leaveCycle s = m.leave s (decode w) := by
  rw [leaveCycle, running, fetched]

theorem run_within_of_fetch {w : Word} (running : m.awaiting = none)
    (fetched : m.fetch? = some w)
    (alike : (m.advance w).ReadsAlike s (decode w)) :
    let s' := m.leave s (decode w)
    (m.within s).run =
      (m.run.1.within s',
        m.run.2.map fun out => { out with sounding := s'.timers.sounding }) := by
  intro s'
  have running' : (m.within s).awaiting = none := running
  have fetched' : (m.within s).fetch? = some w := fetched
  have executed := execute_within alike
  have left := fst_run_of_fetch running fetched
  have left' := fst_run_of_fetch running' fetched'
  have leaves : (m.within s).run.1 = m.run.1.within s' := by
    rw [left, left']
    exact congrArg Prod.fst executed
  have entry : Trace.entry ((m.within s).advance w) (m.within s).run.1
      (decode w) = Trace.entry (m.advance w) m.run.1 (decode w) := by
    rw [left, left']
    exact entry_within alike
  have same := congrArg Prod.snd executed
  refine Prod.ext leaves ?_
  rcases m.perform_completes_or_traps none fetched with ok | ⟨t, trap⟩
  · rw [snd_run_of_completed running fetched ok,
      snd_run_of_completed running' fetched' (same.trans ok), entry, leaves]
    rfl
  · rw [snd_run_of_trap running fetched trap,
      snd_run_of_trap running' fetched' (same.trans trap)]
    rfl

/-- A cycle does the same where it finds the same, except for the sound. -/
theorem run_within (alike : m.FindsAlike s) :
    (m.within s).run =
      (m.run.1.within (m.leaveCycle s),
        m.run.2.map fun out =>
          { out with sounding := (m.leaveCycle s).timers.sounding }) := by
  obtain running | ⟨x, waiting⟩ := Option.eq_none_or_eq_some m.awaiting
  · obtain nothing | ⟨w, fetched⟩ := Option.eq_none_or_eq_some m.fetch?
    · rw [leaveCycle_of_fetch_none nothing, run_of_fetch_none running nothing,
        run_of_fetch_none (m := m.within s) running nothing]
      rfl
    · rw [leaveCycle_of_fetch running fetched]
      exact run_within_of_fetch running fetched
        (alike.instruction w running fetched)
  · rw [leaveCycle_of_waiting waiting, run_of_awaiting waiting,
      run_of_awaiting (m := m.within s) waiting,
      resume_within (alike.key x waiting)]
    rfl

theorem findsAlike_surroundings (m : Machine) :
    m.FindsAlike m.surroundings where
  key _ _ := rfl
  instruction w _ _ := by
    generalize (decode w).instruction = i
    cases i <;> trivial

theorem surroundings_run (m : Machine) :
    m.run.1.surroundings = m.leaveCycle m.surroundings :=
  congrArg (fun r => r.1.surroundings) (run_within m.findsAlike_surroundings)

section

variable (m) (s)

theorem timers_leaveCycle (same : s.timers = m.timers) :
    (m.leaveCycle s).timers = m.run.1.timers := by
  rw [show m.run.1.timers = (m.leaveCycle m.surroundings).timers from
    congrArg Surroundings.timers m.surroundings_run]
  unfold leaveCycle
  split
  · simp only [leave, same, surroundings]
  · exact same

theorem keypad_leaveCycle (same : s.keypad = m.keypad) :
    (m.leaveCycle s).keypad = m.run.1.keypad := by
  rw [show m.run.1.keypad = (m.leaveCycle m.surroundings).keypad from
    congrArg Surroundings.keypad m.surroundings_run]
  unfold leaveCycle
  split <;> exact same

theorem random_leaveCycle (same : s.random = m.random) :
    (m.leaveCycle s).random = m.run.1.random := by
  rw [show m.run.1.random = (m.leaveCycle m.surroundings).random from
    congrArg Surroundings.random m.surroundings_run]
  unfold leaveCycle
  split
  · simp only [leave, same, surroundings]
  · exact same

end

end Machine

end Chip8
