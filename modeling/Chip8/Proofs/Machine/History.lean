import Chip8.Proofs.Machine.Cycle

/-!
# Histories

What can happen to a machine from outside is a cycle, a tick of its timers, or
the loading of a program.  A machine goes on from what an event leaves, also
when the event has failed.
-/

namespace Chip8

inductive Event where
  | cycle (keys : Option Snapshot)
  | tick
  | load (data : List Int)

namespace Event

def Valid : Event → Prop
  | cycle keys => ValidKeys keys
  | tick | load _ => True

def Loads : Event → Prop
  | load _ => True
  | cycle _ | tick => False

end Event

namespace Machine

/-- The machine that an event leaves; data that does not load leaves it as it
was. -/
def after (m : Machine) : Event → Machine
  | .cycle keys => (m.cycle keys).1
  | .tick => m.tick
  | .load data =>
      match m.loadInts data with
      | .ok loaded => loaded
      | .error _ => m

def play (m : Machine) (events : List Event) : Machine :=
  events.foldl after m

def history (m : Machine) : List Event → List (Machine × Event)
  | [] => []
  | e :: rest => (m, e) :: (m.after e).history rest

inductive Reachable : Machine → Prop
  | boot {random : RandomBytes} {program : List Byte} {m : Machine}
      (h : Machine.boot random program = .ok m) : Reachable m
  | after {m : Machine} (h : Reachable m) (e : Event) (valid : e.Valid) :
      Reachable (m.after e)

theorem play_induction {P : Machine → Prop} {ok : Event → Prop}
    (step : ∀ m e, ok e → P m → P (m.after e)) {m : Machine} (start : P m)
    {events : List Event} (all : ∀ e ∈ events, ok e) : P (m.play events) := by
  induction events generalizing m with
  | nil => exact start
  | cons e rest ih =>
      have first := step m e (all e List.mem_cons_self) start
      exact ih first fun e' he' => all e' (List.mem_cons_of_mem _ he')

theorem Reachable.play {m : Machine} (h : Reachable m) {events : List Event}
    (valid : ∀ e ∈ events, e.Valid) : Reachable (m.play events) :=
  play_induction (fun _ e ok h => h.after e ok) h valid

theorem play_append (m : Machine) (before later : List Event) :
    m.play (before ++ later) = (m.play before).play later :=
  List.foldl_append ..

theorem history_append (m : Machine) (before later : List Event) :
    m.history (before ++ later) =
      m.history before ++ (m.play before).history later := by
  induction before generalizing m with
  | nil => rfl
  | cons e rest ih => exact congrArg ((m, e) :: ·) (ih (m.after e))

theorem filterMap_history_cons {α : Type} (f : Machine × Event → Option α)
    (m : Machine) (e : Event) (rest : List Event) :
    (m.history (e :: rest)).filterMap f =
      (f (m, e)).toList ++ ((m.after e).history rest).filterMap f := by
  rw [history, List.filterMap_cons]
  cases f (m, e) <;> rfl

theorem filterMap_history_append {α : Type} (f : Machine × Event → Option α)
    (m : Machine) (before later : List Event) :
    (m.history (before ++ later)).filterMap f =
      (m.history before).filterMap f ++
        ((m.play before).history later).filterMap f := by
  rw [history_append, List.filterMap_append]

theorem exists_boot (random : RandomBytes) {program : List Byte}
    (h : program.length ≤ Memory.capacity) :
    ∃ start, boot random program = .ok start := by
  obtain ⟨memory, loaded⟩ := Memory.exists_load (initial random).memory h
  exact ⟨{ initial random with memory }, by rw [boot, load, loaded]⟩

theorem exists_memory_of_boot {random : RandomBytes} {program : List Byte}
    {start : Machine} (h : boot random program = .ok start) :
    ∃ memory, Memory.initial.load program = .ok memory ∧
      start = { initial random with memory } := by
  unfold boot load at h
  split at h
  · rename_i memory loaded
    cases h
    exact ⟨memory, loaded, rfl⟩
  · cases h

theorem running_of_boot {random : RandomBytes} {program : List Byte}
    {start : Machine} (h : boot random program = .ok start) :
    start.awaiting = none ∧ start.pc = Memory.programStart := by
  obtain ⟨memory, -, rfl⟩ := exists_memory_of_boot h
  exact ⟨rfl, rfl⟩

theorem readWord_of_boot {random : RandomBytes} {program : List Byte}
    {start : Machine} (h : boot random program = .ok start) {k : Nat}
    (hk : k + 1 < program.length) :
    start.memory.readWord (Memory.programStart + k : Nat) =
      .ok (Word.ofBytes program[k] program[k + 1]) := by
  obtain ⟨memory, loaded, rfl⟩ := exists_memory_of_boot h
  exact Memory.readWord_of_load loaded (List.getElem?_eq_getElem _)
    (List.getElem?_eq_getElem hk)

theorem readWord_of_getElem? {random : RandomBytes} {program : List Byte}
    {start : Machine} (h : boot random program = .ok start) {k : Nat}
    {high low : Byte} (first : program[k]? = some high)
    (second : program[k + 1]? = some low) :
    start.memory.readWord (Memory.programStart + k : Nat) =
      .ok (Word.ofBytes high low) := by
  obtain ⟨memory, loaded, rfl⟩ := exists_memory_of_boot h
  exact Memory.readWord_of_load loaded first second

theorem fetch?_of_boot {random : RandomBytes} {program : List Byte}
    {start : Machine} (h : boot random program = .ok start) {high low : Byte}
    {w : Word} (first : program[0]? = some high)
    (second : program[1]? = some low) (word : Word.ofBytes high low = w) :
    start.fetch? = some w := by
  obtain ⟨-, pc⟩ := running_of_boot h
  have read := readWord_of_getElem? h (k := 0) first second
  rw [fetch?_eq_some_iff, pc, ← word]
  exact ⟨by decide, read⟩

theorem getElem_memory_of_boot {random : RandomBytes} {program : List Byte}
    {start : Machine} (booted : boot random program = .ok start) {k : Nat}
    (hk : k < program.length) {a : Nat} (inside : a < 4096)
    (ha : a = Memory.programStart + k) :
    start.memory.bytes[a] = program[k] := by
  obtain ⟨memory, loaded, rfl⟩ := exists_memory_of_boot booted
  exact Memory.getElem_load_program loaded hk inside ha

theorem screen_of_boot {random : RandomBytes} {program : List Byte}
    {start : Machine} (booted : boot random program = .ok start) :
    start.screen = .blank := by
  obtain ⟨memory, -, rfl⟩ := exists_memory_of_boot booted
  rfl

theorem exists_memory_after_load (m : Machine) (data : List Int) :
    ∃ memory, m.after (.load data) = { m with memory } := by
  rw [after, loadInts]
  cases m.memory.loadInts data with
  | ok memory => exact ⟨memory, rfl⟩
  | error e => exact ⟨m.memory, rfl⟩

end Machine

end Chip8
