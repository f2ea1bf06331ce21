import Chip8.Proofs.Machine.History

/-!
# Well-formed machines

Registers, memory and screen are bounded by their types.  The program counter,
the timers and the return addresses stay in bounds because of how machines run:
the counter goes furthest by a jump to `0xFFF` and V0, and a return address is
that of the instruction after a call, which was fetched from inside memory.
-/

namespace Chip8

namespace Timers

def InRange (t : Timers) : Prop :=
  (0 ≤ t.delay ∧ t.delay ≤ 255) ∧ 0 ≤ t.sound ∧ t.sound ≤ 255

theorem countDown_le {value : Int} (h : 0 ≤ value ∧ value ≤ 255) :
    0 ≤ countDown value ∧ countDown value ≤ 255 := by
  unfold countDown
  split <;> omega

theorem InRange.tick {t : Timers} (h : t.InRange) : t.tick.InRange :=
  ⟨countDown_le h.1, countDown_le h.2⟩

end Timers

namespace CallStack

def InRange (s : CallStack) : Prop :=
  ∀ a ∈ s.addresses, 2 ≤ a.toNat ∧ a.toNat ≤ 4095

variable {s t : CallStack}

theorem InRange.push (h : s.InRange) {value : Int}
    (inside : 2 ≤ value ∧ value ≤ 4095) (pushed : s.push value = .ok t) :
    t.InRange := by
  intro a mem
  rw [addresses_push pushed, List.mem_append, List.mem_singleton] at mem
  rcases mem with old | rfl
  · exact h a old
  · rw [Word.toNat_ofInt]
    omega

theorem InRange.pop (h : s.InRange) {a : Word} (popped : s.pop? = some (a, t)) :
    (2 ≤ a.toNat ∧ a.toNat ≤ 4095) ∧ t.InRange := by
  have split := addresses_pop popped
  constructor
  · apply h
    simp [split]
  · intro b mem
    apply h
    simp [split, mem]

end CallStack

namespace Machine

structure WellFormed (m : Machine) : Prop where
  counter : 0 ≤ m.pc ∧ m.pc ≤ 4350
  returns : m.stack.InRange
  timers : m.timers.InRange

theorem WellFormed.initial (random : RandomBytes) :
    (initial random).WellFormed where
  counter := by
    simp [Machine.initial, Memory.programStart]
  returns := by
    intro a mem
    simp [Machine.initial, CallStack.addresses] at mem
  timers := by
    simp [Machine.initial, Timers.InRange]

variable {m : Machine}

theorem counter_call (target : Address) (inside : 2 ≤ m.pc ∧ m.pc ≤ 4095) :
    0 ≤ (m.call target).1.pc ∧ (m.call target).1.pc ≤ 4350 := by
  have := target.isLt
  rw [fst_call]
  cases m.stack.push m.pc with
  | ok stack =>
      simp only
      omega
  | error e =>
      simp only
      omega

theorem counter_ret (inside : 2 ≤ m.pc ∧ m.pc ≤ 4095)
    (returns : m.stack.InRange) :
    0 ≤ m.ret.1.pc ∧ m.ret.1.pc ≤ 4350 := by
  rw [fst_ret]
  cases popped : m.stack.pop? with
  | none =>
      simp only
      omega
  | some top =>
      have := (returns.pop popped).1
      simp only
      omega

/-- The bounds are those of a jump with offset, of a return, and of a skip over
the last word of memory. -/
theorem counter_execute (i : Instruction) (inside : 2 ≤ m.pc ∧ m.pc ≤ 4095)
    (returns : m.stack.InRange) :
    0 ≤ (m.execute i).1.pc ∧ (m.execute i).1.pc ≤ 4350 := by
  cases i with
  | jump nnn =>
      have := nnn.isLt
      simp only [execute, fst_done]
      omega
  | jumpOffset nnn =>
      have := nnn.isLt
      have := (m.v 0).toNat_lt
      simp only [execute, fst_done]
      omega
  | call nnn => exact counter_call nnn inside
  | ret => exact counter_ret inside returns
  | _ =>
      rw [pc_execute _ _ rfl]
      split <;> omega

theorem returns_execute (i : Instruction) (inside : 2 ≤ m.pc ∧ m.pc ≤ 4095)
    (returns : m.stack.InRange) : (m.execute i).1.stack.InRange := by
  cases i with
  | call nnn =>
      rw [execute, fst_call]
      cases pushed : m.stack.push m.pc with
      | error e => exact returns
      | ok stack => exact returns.push inside pushed
  | ret =>
      rw [execute, fst_ret]
      cases popped : m.stack.pop? with
      | none => exact returns
      | some top => exact (returns.pop popped).2
  | _ =>
      rw [stack_execute] <;> simp [Instruction.op, returns]

theorem timers_execute (i : Instruction) (h : m.timers.InRange) :
    (m.execute i).1.timers.InRange := by
  cases i with
  | setDelay x =>
      have := (m.v x).toNat_lt
      exact ⟨by simp [execute]; omega, h.2⟩
  | setSound x =>
      have := (m.v x).toNat_lt
      exact ⟨h.1, by simp [execute]; omega⟩
  | _ =>
      rw [Timers.InRange, delay_execute _ _ (by simp [Instruction.op]),
        sound_execute _ _ (by simp [Instruction.op])]
      exact h

theorem WellFormed.execute (h : m.WellFormed) (i : Instruction)
    (inside : 2 ≤ m.pc ∧ m.pc ≤ 4095) : (m.execute i).1.WellFormed where
  counter := counter_execute i inside h.returns
  returns := returns_execute i inside h.returns
  timers := timers_execute i h.timers

theorem WellFormed.pc_advance (h : m.WellFormed) {w : Word}
    (fetched : m.fetch? = some w) :
    2 ≤ (m.advance w).pc ∧ (m.advance w).pc ≤ 4095 := by
  have low := h.counter.1
  have high := ((fetch?_eq_some_iff w).mp fetched).1
  simp only [advance]
  omega

theorem WellFormed.resume (h : m.WellFormed) (x : Register) :
    (m.resume x).1.WellFormed := by
  rw [fst_resume]
  cases m.keypad.firstPressed? with
  | none => exact h
  | some key => exact ⟨h.counter, h.returns, h.timers⟩

theorem WellFormed.run (h : m.WellFormed) : m.run.1.WellFormed := by
  rcases m.fst_run_cases with
    ⟨x, -, same⟩ | ⟨-, -, same⟩ | ⟨w, -, fetched, same⟩
  · rw [same]
    exact h.resume x
  · rw [same]
    exact ⟨h.counter, h.returns, h.timers⟩
  · have inside := h.pc_advance fetched
    have advanced : (m.advance w).WellFormed :=
      ⟨by omega, h.returns, h.timers⟩
    rw [same]
    exact advanced.execute (decode w) inside

theorem WellFormed.withKeys (h : m.WellFormed) (keys : Option Snapshot) :
    (m.withKeys keys).WellFormed :=
  ⟨h.counter, h.returns, h.timers⟩

theorem WellFormed.after (h : m.WellFormed) (e : Event) (valid : e.Valid) :
    (m.after e).WellFormed := by
  cases e with
  | cycle keys =>
      simp only [Machine.after, cycle_eq_run valid]
      exact (h.withKeys keys).run
  | tick => exact ⟨h.counter, h.returns, h.timers.tick⟩
  | load data =>
      obtain ⟨memory, same⟩ := m.exists_memory_after_load data
      rw [same]
      exact ⟨h.counter, h.returns, h.timers⟩

theorem Reachable.wellFormed (h : m.Reachable) : m.WellFormed := by
  induction h with
  | @boot random _ _ booted =>
      obtain ⟨memory, -, rfl⟩ := exists_memory_of_boot booted
      have h := WellFormed.initial random
      exact ⟨h.counter, h.returns, h.timers⟩
  | after _ e valid h => exact h.after e valid

theorem WellFormed.run_completes_or_faults (h : m.WellFormed) :
    (∃ out, m.run.2 = .ok out) ∨ ∃ f, m.run.2 = .error (.fault f) := by
  obtain running | ⟨x, waiting⟩ := Option.eq_none_or_eq_some m.awaiting
  · obtain nothing | ⟨w, fetched⟩ := Option.eq_none_or_eq_some m.fetch?
    · right
      rw [run_of_fetch_none running nothing]
      exact ⟨_, rfl⟩
    · have inside := h.pc_advance fetched
      rcases execute_completes_or_traps (m.advance w) (by omega) (decode w) with
        ok | ⟨t, trap⟩
      · exact .inl ⟨_, snd_run_of_completed running fetched ok⟩
      · exact .inr ⟨_, snd_run_of_trap running fetched trap⟩
  · left
    rw [run_of_awaiting waiting]
    exact ⟨_, rfl⟩

theorem WellFormed.cycle_completes_or_faults (h : m.WellFormed)
    {keys : Option Snapshot} (valid : ValidKeys keys) :
    (∃ out, (m.cycle keys).2 = .ok out) ∨
      ∃ f, (m.cycle keys).2 = .error (.fault f) := by
  rw [cycle_eq_run valid]
  exact (h.withKeys keys).run_completes_or_faults

structure InRange (m : Machine) : Prop extends WellFormed m where
  registers : m.registers.v.toList.length = 16 ∧
    ∀ b ∈ m.registers.v.toList, b.toNat ≤ 255
  index : m.registers.index.toNat ≤ 65535
  memory : m.memory.bytes.toList.length = 4096 ∧
    ∀ b ∈ m.memory.bytes.toList, b.toNat ≤ 255
  depth : m.stack.addresses.length = m.stack.depth.val ∧ m.stack.depth.val ≤ 16
  screen : m.screen.bytes.length = 2048 ∧
    ∀ cell ∈ m.screen.bytes, cell = 0 ∨ cell = 1
  awaiting : ∀ x, m.awaiting = some x → x.val ≤ 15
  word : m.word.toNat ≤ 65535

theorem WellFormed.inRange (h : m.WellFormed) : m.InRange where
  toWellFormed := h
  registers :=
    ⟨m.registers.v.length_toList, fun b _ => Nat.le_of_lt_succ b.toNat_lt⟩
  index := Nat.le_of_lt_succ m.registers.index.toNat_lt
  memory :=
    ⟨m.memory.bytes.length_toList, fun b _ => Nat.le_of_lt_succ b.toNat_lt⟩
  depth := ⟨m.stack.length_addresses, Nat.le_of_lt_succ m.stack.depth.isLt⟩
  screen := by
    refine ⟨m.screen.length_bytes, ?_⟩
    intro cell mem
    obtain ⟨lit, -, rfl⟩ := List.mem_map.mp mem
    cases lit
    · exact .inl rfl
    · exact .inr rfl
  awaiting := fun x _ => Nat.le_of_lt_succ x.isLt
  word := Nat.le_of_lt_succ m.word.toNat_lt

theorem boot_play_inRange (random : RandomBytes) (program : List Byte)
    (fits : program.length ≤ Memory.capacity) (events : List Event)
    (valid : ∀ e ∈ events, e.Valid) :
    ∃ start, boot random program = .ok start ∧
      (start.play events).InRange ∧
      ∀ keys, ValidKeys keys →
        (∃ out, ((start.play events).cycle keys).2 = .ok out) ∨
          ∃ f, ((start.play events).cycle keys).2 = .error (.fault f) := by
  obtain ⟨start, booted⟩ := exists_boot random fits
  have h : (start.play events).WellFormed :=
    ((Reachable.boot booted).play valid).wellFormed
  exact ⟨start, booted, h.inRange, fun _ given =>
    h.cycle_completes_or_faults given⟩

/-- The first cycle is a return on an empty stack; the machine is used on. -/
theorem boot_play_inRange_ret :
    ([0x00, 0xEE] : List Byte).length ≤ Memory.capacity ∧
      (∀ e ∈ [Event.cycle none, .tick, .load [0xF0, 0x0A]], e.Valid) ∧
      ∃ start, boot (.repeating #[7]) [0x00, 0xEE] = .ok start ∧
        (start.play [.cycle none, .tick, .load [0xF0, 0x0A]]).InRange := by
  have fits : ([0x00, 0xEE] : List Byte).length ≤ Memory.capacity := by decide
  have valid : ∀ e ∈ [Event.cycle none, .tick, .load [0xF0, 0x0A]],
      e.Valid := by
    simp [Event.Valid, ValidKeys]
  obtain ⟨start, booted, inRange, -⟩ :=
    boot_play_inRange (.repeating #[7]) [0x00, 0xEE] fits _ valid
  exact ⟨fits, valid, start, booted, inRange⟩

end Machine

end Chip8
