import Chip8.Proofs.Machine.Fault

/-!
# Completed instructions

A cycle ends in one of four ways, and completes an instruction in only one of
them.  Nothing is assumed of the machine: a word is fetched from inside memory
only, so that the return address of a call fits, and an instruction is completed
or traps.
-/

namespace Chip8.Machine

variable {m : Machine} {w : Word} {keys : Option Snapshot}

theorem pc_of_fetch (h : m.fetch? = some w) : 0 ≤ m.pc ∧ m.pc ≤ 4093 := by
  unfold fetch? at h
  split at h
  · omega
  · cases h

def perform (m : Machine) (keys : Option Snapshot) (w : Word) : Outcome :=
  ((m.withKeys keys).advance w).execute (decode w)

theorem perform_completes_or_traps (keys : Option Snapshot)
    (h : m.fetch? = some w) :
    (m.perform keys w).2 = .ok () ∨
      ∃ t, (m.perform keys w).2 = .error (.trap t) := by
  have inside := pc_of_fetch h
  apply execute_completes_or_traps
  change 0 ≤ m.pc + 2 ∧ m.pc + 2 < 65536
  omega

def answer (m : Machine) (keys : Option Snapshot) (w : Word) : Output :=
  (m.perform keys w).1.output (decode w).instruction.redraws
    (Trace.entry ((m.withKeys keys).advance w) (m.perform keys w).1 (decode w))

theorem cycle_of_perform (valid : ValidKeys keys) (running : m.awaiting = none)
    (fetched : m.fetch? = some w) (ok : (m.perform keys w).2 = .ok ()) :
    m.cycle keys = ((m.perform keys w).1, .ok (m.answer keys w)) := by
  have running' : (m.withKeys keys).awaiting = none := running
  have fetched' : (m.withKeys keys).fetch? = some w := fetched
  have left := fst_run_of_fetch running' fetched'
  rw [cycle_eq_run valid]
  refine Prod.ext left ?_
  rw [snd_run_of_completed running' fetched' ok, left]
  rfl

theorem cycle_of_form {op : Op} (valid : ValidKeys keys)
    (running : m.awaiting = none) (fetched : m.fetch? = some w)
    (form : op.Form w)
    (completes : ∀ m : Machine,
      (m.execute (op.instruction w.operands)).2 = .ok ()) :
    m.cycle keys = ((m.perform keys w).1, .ok (m.answer keys w)) := by
  apply cycle_of_perform valid running fetched
  rw [perform, decode_of_form form]
  exact completes _

theorem cycle_of_jump (valid : ValidKeys keys) (running : m.awaiting = none)
    (fetched : m.fetch? = some w) (group : w.group = 0x1) :
    m.cycle keys = ({ (m.withKeys keys).advance w with pc := w.nnn.val },
      .ok (m.answer keys w)) := by
  have form : Op.jump.Form w := group
  have left : (m.perform keys w).1 =
      { (m.withKeys keys).advance w with pc := w.nnn.val } := by
    rw [perform, decode_of_form form]
    rfl
  rw [← left]
  exact cycle_of_form valid running fetched form fun _ => rfl

theorem cycle_cases (m : Machine) (valid : ValidKeys keys) :
    (∃ x, m.awaiting = some x ∧
      m.cycle keys = (((m.withKeys keys).resume x).1,
        .ok ((m.withKeys keys).resume x).2)) ∨
    (m.awaiting = none ∧ m.fetch? = none ∧
      m.cycle keys = ({ m.withKeys keys with word := 0 },
        .error (.fault ⟨m.pc, 0, none⟩))) ∨
    (∃ w, m.awaiting = none ∧ m.fetch? = some w ∧
      (m.perform keys w).2 = .ok () ∧
      m.cycle keys = ((m.perform keys w).1, .ok (m.answer keys w))) ∨
    ∃ w t, m.awaiting = none ∧ m.fetch? = some w ∧
      (m.perform keys w).2 = .error (.trap t) ∧
      m.cycle keys =
        ((m.perform keys w).1, .error (.fault ⟨m.pc, w, some t⟩)) := by
  obtain running | ⟨x, waiting⟩ := Option.eq_none_or_eq_some m.awaiting
  · have running' : (m.withKeys keys).awaiting = none := running
    obtain nothing | ⟨w, fetched⟩ := Option.eq_none_or_eq_some m.fetch?
    · right; left
      rw [cycle_eq_run valid]
      exact ⟨running, nothing, run_of_fetch_none running' nothing⟩
    · right; right
      rcases m.perform_completes_or_traps keys fetched with ok | ⟨t, trap⟩
      · left
        exact ⟨w, running, fetched, ok,
          cycle_of_perform valid running fetched ok⟩
      · right
        rw [cycle_eq_run valid]
        exact ⟨w, t, running, fetched, trap,
          Prod.ext (fst_run_of_fetch running' fetched)
            (snd_run_of_trap running' fetched trap)⟩
  · left
    rw [cycle_eq_run valid]
    exact ⟨x, waiting, run_of_awaiting (m := m.withKeys keys) waiting⟩

/-- The word that an event completes, if it is a cycle that does. -/
def completes? (m : Machine) : Event → Option Word
  | .cycle keys =>
      if m.awaiting.isNone && (m.cycle keys).2.isOk then m.fetch? else none
  | .tick | .load _ => none

theorem completes?_eq_some_iff {e : Event} :
    m.completes? e = some w ↔
      ∃ keys, e = .cycle keys ∧ m.awaiting = none ∧ m.fetch? = some w ∧
        ∃ out, (m.cycle keys).2 = .ok out := by
  cases e with
  | cycle keys =>
      simp only [completes?, Event.cycle.injEq, exists_eq_left']
      cases (m.cycle keys).2 <;> simp [Except.isOk, Except.toBool]
  | tick => simp [completes?]
  | load data => simp [completes?]

theorem exists_of_completes {e : Event} (valid : e.Valid)
    (h : m.completes? e = some w) :
    ∃ keys, e = .cycle keys ∧ m.fetch? = some w ∧
      (m.perform keys w).2 = .ok () ∧ m.after e = (m.perform keys w).1 := by
  obtain ⟨keys, rfl, running, fetched, out, ok⟩ := completes?_eq_some_iff.mp h
  refine ⟨keys, rfl, fetched, ?_⟩
  rcases m.cycle_cases valid with
    ⟨x, waiting, -⟩ | ⟨-, nothing, -⟩ | ⟨v, -, again, done, same⟩ |
      ⟨v, t, -, -, -, same⟩
  · simp [waiting] at running
  · simp [nothing] at fetched
  · obtain rfl : v = w := Option.some.inj (again.symm.trans fetched)
    exact ⟨done, congrArg Prod.fst same⟩
  · simp [same] at ok

theorem fails_iff_perform (m : Machine) (keys : Option Snapshot) (w : Word)
    (t : Trap) :
    m.Fails w t ↔ (m.perform keys w).2 = .error (.trap t) :=
  fails_iff (m.withKeys keys) w t

theorem completes?_of_not_fails (valid : ValidKeys keys)
    (running : m.awaiting = none) (fetched : m.fetch? = some w)
    (h : ∀ t, ¬ m.Fails w t) : m.completes? (.cycle keys) = some w := by
  refine completes?_eq_some_iff.mpr ⟨keys, rfl, running, fetched, ?_⟩
  rcases m.cycle_cases valid with
    ⟨x, waiting, -⟩ | ⟨-, nothing, -⟩ | ⟨v, -, -, -, same⟩ |
      ⟨v, t, -, again, trap, -⟩
  · simp [waiting] at running
  · simp [nothing] at fetched
  · exact ⟨_, congrArg Prod.snd same⟩
  · obtain rfl : v = w := Option.some.inj (again.symm.trans fetched)
    exact absurd ((fails_iff_perform m keys v t).mpr trap) (h t)

theorem observe_cases (m : Machine) (keys : Option Snapshot) :
    (ValidKeys keys ∧ m.observe keys = .ok (m.withKeys keys)) ∨
      (¬ ValidKeys keys ∧
        m.observe keys = .error (.snapshot (keys.getD []).length)) := by
  cases keys with
  | none => exact .inl ⟨validKeys_none, rfl⟩
  | some flags =>
      cases found : Keypad.ofFlags? flags with
      | some keypad =>
          left
          refine ⟨?_, by simp [observe, withKeys, found]⟩
          rintro _ ⟨rfl⟩
          rw [← Keypad.flags_of_ofFlags? found, Keypad.length_flags]
      | none =>
          right
          refine ⟨?_, by simp [observe, found]⟩
          intro valid
          obtain ⟨_, other⟩ := Keypad.exists_of_length (valid flags rfl)
          rw [found] at other
          cases other

theorem cycle_of_refused (invalid : ¬ ValidKeys keys) :
    m.cycle keys = (m, .error (.snapshot (keys.getD []).length)) := by
  rcases m.observe_cases keys with ⟨valid, -⟩ | ⟨-, refused⟩
  · exact absurd valid invalid
  · rw [cycle, refused]

theorem sounding_of_cycle {out : Output}
    (ok : (m.cycle keys).2 = .ok out) :
    out.sounding = (m.cycle keys).1.sounding := by
  by_cases valid : ValidKeys keys
  · rcases m.cycle_cases valid with
      ⟨x, -, same⟩ | ⟨-, -, same⟩ | ⟨w, -, -, -, same⟩ | ⟨w, t, -, -, -, same⟩
    all_goals
      rw [same] at ok ⊢
      cases ok
    · unfold resume
      split <;> rfl
    · rfl
  · rw [cycle_of_refused valid] at ok
    cases ok

/-- The word that an event executes, be it to the end or up to a trap. -/
def executes? (m : Machine) : Event → Option Word
  | .cycle keys =>
      if m.awaiting.isNone && (m.observe keys).isOk then m.fetch? else none
  | .tick | .load _ => none

theorem executes?_eq_some_iff {e : Event} :
    m.executes? e = some w ↔
      ∃ keys, e = .cycle keys ∧ ValidKeys keys ∧ m.awaiting = none ∧
        m.fetch? = some w := by
  cases e with
  | cycle keys =>
      simp only [executes?, Event.cycle.injEq, exists_eq_left']
      rcases m.observe_cases keys with ⟨valid, same⟩ | ⟨invalid, same⟩
      · simp [same, valid, Except.isOk, Except.toBool]
      · simp [same, invalid, Except.isOk, Except.toBool]
  | tick => simp [executes?]
  | load data => simp [executes?]

theorem executes?_cycle (valid : ValidKeys keys) (running : m.awaiting = none) :
    m.executes? (.cycle keys) = m.fetch? := by
  refine Option.ext fun w => ?_
  rw [executes?_eq_some_iff]
  constructor
  · rintro ⟨_, -, -, -, fetched⟩
    exact fetched
  · intro fetched
    exact ⟨keys, rfl, valid, running, fetched⟩

theorem after_of_executes (h : m.executes? (.cycle keys) = some w) :
    m.after (.cycle keys) = (m.perform keys w).1 := by
  obtain ⟨_, ⟨rfl⟩, valid, running, fetched⟩ := executes?_eq_some_iff.mp h
  rw [after, cycle_eq_run valid]
  exact fst_run_of_fetch (m := m.withKeys keys) running fetched

end Chip8.Machine
