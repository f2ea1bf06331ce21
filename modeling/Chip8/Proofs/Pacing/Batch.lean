import Chip8.Pacing.Runner
import Chip8.Proofs.Machine.Completion

/-!
# Batches

A batch of cycles ends at its first fault.  Its machine, its outputs and its
error are those of the cycles up to there, taken one by one.
-/

namespace Chip8.Machine

def output? (m : Machine) : Event → Option Output
  | .cycle keys => (m.cycle keys).2.toOption
  | .tick | .load _ => none

def fault? (m : Machine) : Event → Option Fault
  | .cycle keys =>
      match (m.cycle keys).2 with
      | .ok _ => none
      | .error e => e.fault?
  | .tick | .load _ => none

def outputs (m : Machine) (events : List Event) : List Output :=
  (m.history events).filterMap fun (m, e) => m.output? e

def firstFault? (m : Machine) (events : List Event) : Option Fault :=
  (m.history events).findSome? fun (m, e) => m.fault? e

/-- The events up to the first that faults, which is the last of them. -/
def untilFault (m : Machine) : List Event → List Event
  | [] => []
  | e :: rest =>
      match m.fault? e with
      | some _ => [e]
      | none => e :: (m.after e).untilFault rest

variable {m : Machine} {e : Event}

theorem outputs_append (m : Machine) (before later : List Event) :
    m.outputs (before ++ later) =
      m.outputs before ++ (m.play before).outputs later :=
  filterMap_history_append ..

theorem firstFault?_append (m : Machine) (before later : List Event) :
    m.firstFault? (before ++ later) =
      (m.firstFault? before).or ((m.play before).firstFault? later) := by
  rw [firstFault?, history_append, List.findSome?_append]
  rfl

theorem firstFault?_cons (m : Machine) (e : Event) (rest : List Event) :
    m.firstFault? (e :: rest) =
      (m.fault? e).or ((m.after e).firstFault? rest) := by
  simp only [firstFault?, history, List.findSome?_cons]
  cases m.fault? e <;> rfl

theorem outputs_cons (m : Machine) (e : Event) (rest : List Event) :
    m.outputs (e :: rest) =
      (m.output? e).toList ++ (m.after e).outputs rest :=
  filterMap_history_cons ..

theorem untilFault_append (m : Machine) (before later : List Event) :
    m.untilFault (before ++ later) =
      match m.firstFault? before with
      | some _ => m.untilFault before
      | none => before ++ (m.play before).untilFault later := by
  induction before generalizing m with
  | nil => rfl
  | cons e rest ih =>
      rw [List.cons_append, untilFault, untilFault, firstFault?_cons, ih]
      cases m.fault? e with
      | some f => rfl
      | none =>
          rw [Option.none_or]
          cases (m.after e).firstFault? rest <;> rfl

theorem untilFault_of_none {events : List Event}
    (h : m.firstFault? events = none) : m.untilFault events = events := by
  have split := m.untilFault_append events []
  rwa [List.append_nil, h, untilFault, List.append_nil] at split

theorem firstFault?_untilFault (m : Machine) (events : List Event) :
    m.firstFault? (m.untilFault events) = m.firstFault? events := by
  induction events generalizing m with
  | nil => rfl
  | cons e rest ih =>
      rw [untilFault, firstFault?_cons]
      cases faulted : m.fault? e with
      | some f => rw [firstFault?_cons, faulted, Option.some_or, Option.some_or]
      | none => rw [firstFault?_cons, faulted, ih]

theorem untilFault_prefix (m : Machine) (events : List Event) :
    m.untilFault events <+: events := by
  induction events generalizing m with
  | nil => exact List.nil_prefix
  | cons e rest ih =>
      rw [untilFault]
      cases m.fault? e with
      | some f => exact ⟨rest, rfl⟩
      | none => exact (List.prefix_cons_inj e).mpr (ih (m.after e))

theorem exists_of_firstFault? {events : List Event} {f : Fault}
    (h : m.firstFault? events = some f) :
    ∃ before keys, m.untilFault events = before ++ [.cycle keys] ∧
      m.firstFault? before = none ∧
      (m.play before).fault? (.cycle keys) = some f := by
  induction events generalizing m with
  | nil => cases h
  | cons e rest ih =>
      rw [firstFault?_cons] at h
      rw [untilFault]
      cases faulted : m.fault? e with
      | some f' =>
          rw [faulted, Option.some_or] at h
          cases e with
          | cycle keys => exact ⟨[], keys, rfl, rfl, faulted.trans h⟩
          | tick => cases faulted
          | load data => cases faulted
      | none =>
          rw [faulted, Option.none_or] at h
          obtain ⟨before, keys, done, fine, fault⟩ := ih h
          refine ⟨e :: before, keys, congrArg (e :: ·) done, ?_, fault⟩
          rw [firstFault?_cons, faulted, fine]
          rfl

def Faulted (m : Machine) (events : List Event) (f : Fault) : Prop :=
  ∃ before keys later, events = before ++ .cycle keys :: later ∧
    ((m.play before).cycle keys).2 = .error (.fault f)

theorem fault?_cycle_eq_some_iff {keys : Option Snapshot} {f : Fault} :
    m.fault? (.cycle keys) = some f ↔ (m.cycle keys).2 = .error (.fault f) := by
  rw [fault?]
  cases (m.cycle keys).2 with
  | ok out => simp
  | error e => cases e <;> simp [CycleError.fault?]

theorem untilFault_eq_append {events before later : List Event} {f : Fault}
    (done : m.untilFault events = before ++ e :: later)
    (fault : (m.play before).fault? e = some f) :
    later = [] ∧ m.firstFault? before = none := by
  induction before generalizing m events with
  | nil =>
      cases events with
      | nil => cases done
      | cons first rest =>
          rw [untilFault] at done
          cases faulted : m.fault? first with
          | some f' =>
              rw [faulted] at done
              cases done
              exact ⟨rfl, rfl⟩
          | none =>
              rw [faulted] at done
              cases done
              cases faulted.symm.trans fault
  | cons b before ih =>
      cases events with
      | nil => cases done
      | cons first rest =>
          rw [untilFault] at done
          cases faulted : m.fault? first with
          | some f' =>
              rw [faulted] at done
              cases before <;> cases done
          | none =>
              rw [faulted] at done
              injection done with same done
              subst same
              rw [firstFault?_cons, faulted]
              exact ih done fault

theorem firstFault?_untilFault_eq_some_iff {events : List Event} {f : Fault} :
    m.firstFault? (m.untilFault events) = some f ↔
      m.Faulted (m.untilFault events) f := by
  constructor
  · intro h
    rw [firstFault?_untilFault] at h
    obtain ⟨before, keys, done, -, fault⟩ := exists_of_firstFault? h
    exact ⟨before, keys, [], done, fault?_cycle_eq_some_iff.mp fault⟩
  · rintro ⟨before, keys, later, done, fault⟩
    rw [← fault?_cycle_eq_some_iff] at fault
    obtain ⟨-, fine⟩ := untilFault_eq_append done fault
    rw [done, firstFault?_append, fine, Option.none_or, firstFault?_cons,
      fault, Option.some_or]

theorem cycle_answers_or_faults (m : Machine) {keys : Option Snapshot}
    (valid : ValidKeys keys) :
    (∃ out, m.cycle keys = (m.after (.cycle keys), .ok out) ∧
      m.output? (.cycle keys) = some out ∧ m.fault? (.cycle keys) = none) ∨
    ∃ f, m.cycle keys = (m.after (.cycle keys), .error (.fault f)) ∧
      m.output? (.cycle keys) = none ∧ m.fault? (.cycle keys) = some f := by
  simp only [output?, fault?, after]
  rcases m.cycle_cases valid with
    ⟨_, -, same⟩ | ⟨-, -, same⟩ | ⟨_, -, -, -, same⟩ | ⟨_, _, -, -, -, same⟩
  · left
    exact ⟨_, by rw [same], by rw [same]; rfl, by rw [same]⟩
  · right
    exact ⟨_, by rw [same], by rw [same]; rfl, by rw [same]; rfl⟩
  · left
    exact ⟨_, by rw [same], by rw [same]; rfl, by rw [same]⟩
  · right
    exact ⟨_, by rw [same], by rw [same]; rfl, by rw [same]; rfl⟩

theorem cyclesAfter_eq {keys : Option Snapshot} (valid : ValidKeys keys)
    (outputs : List Output) (n : Nat) (m : Machine) :
    cyclesAfter keys outputs n m =
      let done := m.untilFault (List.replicate n (.cycle keys))
      ⟨m.play done, outputs.reverse ++ m.outputs done,
        (m.firstFault? done).map .fault⟩ := by
  induction n generalizing m outputs with
  | zero => simp [cyclesAfter, untilFault, Machine.outputs, history, firstFault?, play]
  | succ n ih =>
      rw [cyclesAfter, List.replicate_succ, untilFault]
      rcases m.cycle_answers_or_faults valid with
        ⟨out, same, answered, fine⟩ | ⟨f, same, silent, fault⟩
      · simp only [same, fine, ih, outputs_cons, answered, firstFault?_cons]
        simp [play]
      · simp only [same, fault, outputs_cons, silent, firstFault?_cons]
        simp [play, Machine.outputs, history]

theorem cycles_eq {keys : Option Snapshot} (valid : ValidKeys keys)
    (m : Machine) (n : Nat) :
    m.cycles keys n =
      let done := m.untilFault (List.replicate n (.cycle keys))
      ⟨m.play done, m.outputs done, (m.firstFault? done).map .fault⟩ :=
  cyclesAfter_eq valid [] n m

theorem cycles_fine_or_fault {keys : Option Snapshot} (valid : ValidKeys keys)
    (m : Machine) (n : Nat) :
    (m.cycles keys n).error = none ∨
      ∃ f, (m.cycles keys n).error = some (.fault f) := by
  simp only [cycles_eq valid]
  cases m.firstFault? _ with
  | none => exact .inl rfl
  | some f => exact .inr ⟨f, rfl⟩

theorem length_outputs_replicate {keys : Option Snapshot}
    (valid : ValidKeys keys) {n : Nat}
    (fine : m.firstFault? (List.replicate n (.cycle keys)) = none) :
    (m.outputs (List.replicate n (.cycle keys))).length = n := by
  induction n generalizing m with
  | zero => rfl
  | succ n ih =>
      rw [List.replicate_succ, firstFault?_cons, Option.or_eq_none_iff] at fine
      rcases m.cycle_answers_or_faults valid with
        ⟨out, -, answered, -⟩ | ⟨f, -, -, fault⟩
      · rw [List.replicate_succ, outputs_cons, answered, Option.toList_some,
          List.singleton_append, List.length_cons, ih fine.2]
      · rw [fault] at fine
        cases fine.1

theorem cycles_of_fault {keys : Option Snapshot} (valid : ValidKeys keys)
    {k n : Nat} {f : Fault} (inside : k < n)
    (fine : m.firstFault? (List.replicate k (.cycle keys)) = none)
    (fault : (m.play (List.replicate k (.cycle keys))).fault? (.cycle keys) =
      some f) :
    ∃ outputs, m.cycles keys n =
        ⟨m.play (List.replicate (k + 1) (.cycle keys)), outputs,
          some (.fault f)⟩ ∧
      outputs.length = k := by
  obtain ⟨rest, rfl⟩ := Nat.exists_eq_add_of_lt inside
  have done : m.untilFault (List.replicate (k + rest + 1) (.cycle keys)) =
      List.replicate k (.cycle keys) ++ [.cycle keys] := by
    rw [Nat.add_assoc, ← List.replicate_append_replicate, untilFault_append,
      fine, List.replicate_succ, untilFault, fault]
  have silent : (m.play (List.replicate k (.cycle keys))).outputs
      [.cycle keys] = [] := by
    rcases (m.play _).cycle_answers_or_faults valid with
      ⟨out, -, -, none⟩ | ⟨f, -, silent, -⟩
    · rw [fault] at none
      cases none
    · rw [outputs_cons, silent]
      rfl
  have first : m.firstFault? (List.replicate k (.cycle keys) ++
      [.cycle keys]) = some f := by
    rw [firstFault?_append, fine, Option.none_or, firstFault?_cons, fault,
      Option.some_or]
  refine ⟨_, ?_, length_outputs_replicate valid fine⟩
  rw [cycles_eq valid, List.replicate_succ' (n := k)]
  simp only [done, first, outputs_append, silent, List.append_nil,
    Option.map_some]

theorem play_ticks (m : Machine) (n : Nat) :
    m.play (List.replicate n .tick) = m.ticks n := by
  induction n generalizing m with
  | zero => rfl
  | succ n ih => exact ih m.tick

theorem quiet_ticks (m : Machine) (n : Nat) :
    m.outputs (List.replicate n .tick) = [] ∧
      m.firstFault? (List.replicate n .tick) = none := by
  induction n generalizing m with
  | zero => exact ⟨rfl, rfl⟩
  | succ n ih => exact ih m.tick

end Chip8.Machine
