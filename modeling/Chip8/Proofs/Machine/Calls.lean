import Chip8.Proofs.Machine.Completion
import Chip8.Proofs.Machine.Footprint
import Chip8.Proofs.Machine.Transfer

/-!
# Calls and returns

The calls and returns that a run completes are brackets.  The call stack holds,
for each call that no later return matches, the address behind the call, so that
the first return to the depth before a call goes on right behind it.
-/

namespace Chip8

namespace Machine

def returnAddresses (m : Machine) : List Int :=
  m.stack.addresses.map fun a => (a.toNat : Int)

def transfer? (m : Machine) (e : Event) : Option Transfer :=
  match m.completes? e with
  | some w =>
      if w.group = 0x2 then some (.call m.pc)
      else if w = 0x00EE then some .ret
      else none
  | none => none

def transfers (m : Machine) (events : List Event) : List Transfer :=
  (m.history events).filterMap fun (m, e) => m.transfer? e

variable {m : Machine}

theorem transfers_cons (m : Machine) (e : Event) (rest : List Event) :
    m.transfers (e :: rest) =
      (m.transfer? e).toList ++ (m.after e).transfers rest :=
  filterMap_history_cons ..

theorem returnAddresses_call {target : Address}
    (inside : 0 ≤ m.pc ∧ m.pc < 65536) (ok : (m.call target).2 = .ok ()) :
    (m.call target).1.returnAddresses = m.returnAddresses ++ [m.pc] := by
  rw [snd_call] at ok
  cases pushed : m.stack.push m.pc with
  | ok stack =>
      have fits : ((Word.ofInt m.pc).toNat : Int) = m.pc := by
        rw [Word.toNat_ofInt]
        omega
      rw [fst_call, pushed]
      simp only [returnAddresses, CallStack.addresses_push pushed,
        List.map_append, List.map_cons, List.map_nil, fits]
  | error e => cases e <;> simp [pushed] at ok

theorem returnAddresses_ret (ok : m.ret.2 = .ok ()) :
    m.returnAddresses = m.ret.1.returnAddresses ++ [m.ret.1.pc] := by
  obtain ⟨a, split, here⟩ := ret_of_ok m ok
  simp [returnAddresses, split, here]

theorem stack_execute_of_not_ok {i : Instruction}
    (failed : (m.execute i).2 ≠ .ok ()) : (m.execute i).1.stack = m.stack := by
  by_cases call : i.op = .call
  · cases i <;> cases call
    exact congrArg stack (call_of_not_ok m failed)
  · by_cases ret : i.op = .ret
    · cases i <;> cases ret
      exact congrArg stack (ret_of_not_ok m failed)
    · exact stack_execute m i call ret

theorem stack_resume (x : Register) : (m.resume x).1.stack = m.stack := by
  rw [fst_resume]
  cases m.keypad.firstPressed? <;> rfl

theorem transfer?_eq_call_iff {e : Event} {address : Int} :
    m.transfer? e = some (.call address) ↔
      address = m.pc ∧ ∃ w, m.completes? e = some w ∧ w.group = 0x2 := by
  unfold transfer?
  cases m.completes? e with
  | none => simp
  | some w =>
      by_cases group : w.group = 0x2
      · simp [group, eq_comm]
      · simp only [group, if_false, Option.some.injEq, exists_eq_left',
          and_false, iff_false]
        split <;> simp

theorem transfer?_eq_ret_iff {e : Event} :
    m.transfer? e = some .ret ↔ m.completes? e = some 0x00EE := by
  unfold transfer?
  cases m.completes? e with
  | none => simp
  | some w =>
      by_cases ret : w = 0x00EE
      · simp [ret, Word.group]
      · by_cases group : w.group = 0x2 <;> simp [group, ret]

theorem transfer?_eq_none_iff {e : Event} :
    m.transfer? e = none ↔
      ∀ w, m.completes? e = some w → w.group ≠ 0x2 ∧ w ≠ 0x00EE := by
  unfold transfer?
  cases m.completes? e with
  | none => simp
  | some w =>
      by_cases group : w.group = 0x2
      · simp [group]
      · simp only [group, if_false, Option.some.injEq, forall_eq',
          ne_eq, not_false_eq_true, true_and]
        split <;> simp_all

variable {e : Event}

theorem returnAddresses_of_call {address : Int} (valid : e.Valid)
    (h : m.transfer? e = some (.call address)) :
    (m.after e).returnAddresses = m.returnAddresses ++ [address + 2] := by
  obtain ⟨rfl, w, done, group⟩ := transfer?_eq_call_iff.mp h
  obtain ⟨keys, rfl, fetched, ok, same⟩ := exists_of_completes valid done
  have inside := pc_of_fetch fetched
  rw [perform, decode_of_form (show Op.call.Form w from group)] at ok same
  rw [same]
  exact returnAddresses_call (m := (m.withKeys keys).advance w)
    (show 0 ≤ m.pc + 2 ∧ m.pc + 2 < 65536 by omega) ok

theorem returnAddresses_of_ret (valid : e.Valid)
    (h : m.transfer? e = some .ret) :
    m.returnAddresses = (m.after e).returnAddresses ++ [(m.after e).pc] := by
  obtain ⟨keys, rfl, fetched, ok, same⟩ :=
    exists_of_completes valid (transfer?_eq_ret_iff.mp h)
  rw [same]
  exact returnAddresses_ret (m := (m.withKeys keys).advance 0x00EE) ok

theorem stack_of_no_transfer (valid : e.Valid) (h : m.transfer? e = none) :
    (m.after e).stack = m.stack := by
  cases e with
  | tick => rfl
  | load data =>
      obtain ⟨memory, same⟩ := m.exists_memory_after_load data
      rw [same]
  | cycle keys =>
      rw [after]
      rcases m.cycle_cases valid with
        ⟨x, -, same⟩ | ⟨-, -, same⟩ | ⟨w, running, fetched, -, same⟩ |
          ⟨w, t, -, -, trap, same⟩
      · rw [same]
        exact stack_resume x
      · rw [same]
        rfl
      · have done : m.completes? (.cycle keys) = some w :=
          completes?_eq_some_iff.mpr
            ⟨keys, rfl, running, fetched, m.answer keys w, by rw [same]⟩
        obtain ⟨call, ret⟩ := transfer?_eq_none_iff.mp h w done
        rw [same]
        exact (footprint_execute (m.withKeys keys) w).stack call ret
      · rw [same]
        exact stack_execute_of_not_ok (by rw [← perform, trap]; simp)

theorem returnAddresses_play {events : List Event}
    (valid : ∀ e ∈ events, e.Valid) :
    (m.play events).returnAddresses =
      Transfer.outstanding m.returnAddresses (m.transfers events) := by
  induction events generalizing m with
  | nil => exact (Transfer.outstanding_nil _).symm
  | cons e rest ih =>
      rw [List.forall_mem_cons] at valid
      have tail := ih (m := m.after e) valid.2
      rw [transfers_cons]
      refine tail.trans ?_
      cases moved : m.transfer? e with
      | none =>
          have same := stack_of_no_transfer valid.1 moved
          simp [returnAddresses, same]
      | some t =>
          cases t with
          | call address =>
              rw [returnAddresses_of_call valid.1 moved]
              exact (Transfer.outstanding_call ..).symm
          | ret =>
              rw [returnAddresses_of_ret valid.1 moved]
              exact (Transfer.outstanding_ret ..).symm

/-- An event leaves an entry of the stack where it is, with all below it, or
returns to it. -/
theorem above_or_return {below : List Int} {a : Int} (valid : e.Valid)
    (above : below ++ [a] <+: m.returnAddresses) :
    below ++ [a] <+: (m.after e).returnAddresses ∨
      m.transfer? e = some .ret ∧ (m.after e).pc = a ∧
        (m.after e).returnAddresses = below := by
  cases moved : m.transfer? e with
  | none =>
      left
      rw [returnAddresses, stack_of_no_transfer valid moved]
      exact above
  | some t =>
      cases t with
      | call address =>
          left
          rw [returnAddresses_of_call valid moved]
          exact above.trans (List.prefix_append ..)
      | ret =>
          rw [returnAddresses_of_ret valid moved] at above
          rcases List.prefix_concat_iff.mp above with popped | kept
          · right
            obtain ⟨same, here⟩ := List.append_inj' popped rfl
            exact ⟨rfl, (List.singleton_inj.mp here).symm, same.symm⟩
          · exact .inl kept

/-- A run that begins above some entries of the stack, and is down to them at
its end for the first time, ends with the return to the entry on top of
them. -/
theorem ends_with_return {below : List Int} {a : Int} {later : List Event}
    (valid : ∀ e ∈ later, e.Valid)
    (above : below ++ [a] <+: m.returnAddresses)
    (first : ∀ k < later.length,
      (m.play (later.take k)).returnAddresses.length ≠ below.length)
    (down : (m.play later).returnAddresses.length = below.length) :
    (∀ k < later.length,
      below ++ [a] <+: (m.play (later.take k)).returnAddresses) ∧
    (∃ before last, later = before ++ [last] ∧
      (m.play before).transfer? last = some .ret) ∧
    (m.play later).pc = a ∧ (m.play later).returnAddresses = below := by
  induction later generalizing m with
  | nil =>
      have := above.length_le
      simp [play] at this down
      omega
  | cons e rest ih =>
      rw [List.forall_mem_cons] at valid
      rcases above_or_return valid.1 above with kept | ⟨ret, pc, here⟩
      · obtain ⟨deep, ⟨before, last, rfl, ret⟩, goal⟩ :=
          ih valid.2 kept
            (fun k hk => first (k + 1) (Nat.succ_lt_succ hk)) down
        refine ⟨?_, ⟨e :: before, last, rfl, ret⟩, goal⟩
        intro k hk
        cases k with
        | zero => exact above
        | succ k => exact deep k (Nat.lt_of_succ_lt_succ hk)
      · cases rest with
        | nil =>
            refine ⟨?_, ⟨[], e, rfl, ret⟩, pc, here⟩
            intro k hk
            obtain rfl : k = 0 := by simpa using hk
            exact above
        | cons next rest =>
            exact absurd (congrArg List.length here) (first 1 (by simp))

structure Disciplined (start : Machine) (events : List Event) : Prop where
  stack : (start.play events).returnAddresses =
    (Transfer.unmatched (start.transfers events)).map fun a => a + 2
  returns : ∀ e address, e.Valid →
    (start.play events).transfer? e = some (.call address) →
    ∀ later, (∀ e ∈ later, e.Valid) →
    let before := start.play events
    let called := before.after e
    (∀ k < later.length,
      (called.play (later.take k)).stack.depth ≠ before.stack.depth) →
    (called.play later).stack.depth = before.stack.depth →
    (∀ k < later.length, before.returnAddresses ++ [address + 2] <+:
      (called.play (later.take k)).returnAddresses) ∧
    (∃ inside last, later = inside ++ [last] ∧
      (called.play inside).transfer? last = some .ret) ∧
    (called.play later).pc = address + 2 ∧
    (called.play later).returnAddresses = before.returnAddresses
  refusals : ∀ keys w t, ValidKeys keys →
    (start.play events).awaiting = none →
    (start.play events).fetch? = some w →
    (w.group = 0x2 ∧ t = .stackOverflow ∧
        (Transfer.unmatched (start.transfers events)).length = 16 ∨
      w = 0x00EE ∧ t = .stackUnderflow ∧
        Transfer.unmatched (start.transfers events) = []) →
    ((start.play events).cycle keys).2 =
      .error (.fault ⟨(start.play events).pc, w, some t⟩) ∧
    ((start.play events).cycle keys).1.stack = (start.play events).stack

@[simp] theorem length_returnAddresses (m : Machine) :
    m.returnAddresses.length = m.stack.depth.val := by
  simp [returnAddresses]

theorem stack_of_fault {keys : Option Snapshot} {f : Fault}
    (valid : ValidKeys keys) (fault : (m.cycle keys).2 = .error (.fault f)) :
    (m.cycle keys).1.stack = m.stack := by
  apply stack_of_no_transfer (e := .cycle keys) valid
  rw [transfer?_eq_none_iff]
  intro w done
  obtain ⟨_, ⟨⟩, -, -, out, ok⟩ := completes?_eq_some_iff.mp done
  rw [fault] at ok
  cases ok

theorem completes?_of_call {w : Word} {keys : Option Snapshot}
    (valid : ValidKeys keys) (running : m.awaiting = none)
    (fetched : m.fetch? = some w) (group : w.group = 0x2)
    (room : m.returnAddresses.length < 16) :
    m.completes? (.cycle keys) = some w := by
  apply completes?_of_not_fails valid running fetched
  intro t fails
  cases t with
  | stackUnderflow =>
      obtain ⟨rfl, -⟩ := fails
      exact absurd group (by decide)
  | stackOverflow =>
      rw [returnAddresses, List.length_map, fails.2] at room
      exact absurd room (Nat.lt_irrefl 16)
  | outsideMemory e => simp [Fails, Word.Overruns, group] at fails

theorem completes?_of_ret {keys : Option Snapshot} (valid : ValidKeys keys)
    (running : m.awaiting = none) (fetched : m.fetch? = some 0x00EE)
    (called : m.returnAddresses ≠ []) :
    m.completes? (.cycle keys) = some 0x00EE := by
  apply completes?_of_not_fails valid running fetched
  intro t fails
  cases t with
  | stackUnderflow => exact called (congrArg (List.map _) fails.2)
  | stackOverflow => exact absurd fails.1 (by decide)
  | outsideMemory e => simp [Fails, Word.Overruns, Word.group] at fails

theorem returnAddresses_of_boot {random : RandomBytes} {program : List Byte}
    {start : Machine} (h : boot random program = .ok start) :
    start.returnAddresses = [] := by
  obtain ⟨memory, -, rfl⟩ := exists_memory_of_boot h
  rfl

theorem play_disciplined (random : RandomBytes) (program : List Byte)
    (fits : program.length ≤ Memory.capacity) :
    ∃ start, boot random program = .ok start ∧
      ∀ events, (∀ e ∈ events, e.Valid) → start.Disciplined events := by
  obtain ⟨start, booted⟩ := exists_boot random fits
  refine ⟨start, booted, ?_⟩
  intro events valid
  have stack : (start.play events).returnAddresses =
      (Transfer.unmatched (start.transfers events)).map fun a => a + 2 := by
    rw [returnAddresses_play valid, returnAddresses_of_boot booted,
      Transfer.outstanding_on_empty]
  refine ⟨stack, ?_, ?_⟩
  · intro e address given call later given' before called first down
    have above : before.returnAddresses ++ [address + 2] <+:
        called.returnAddresses :=
      ⟨[], (List.append_nil _).trans (returnAddresses_of_call given call).symm⟩
    apply ends_with_return given' above
    · intro k hk
      simpa [Fin.val_inj] using first k hk
    · simpa [Fin.val_inj] using down
  · intro keys w t given running fetched refused
    have fault : ((start.play events).cycle keys).2 =
        .error (.fault ⟨(start.play events).pc, w, some t⟩) := by
      have wellFormed := ((Reachable.boot booted).play valid).wellFormed
      rw [wellFormed.cycle_eq_fault_iff given]
      refine ⟨running, (faults_iff_of_fetch fetched _).mpr ⟨t, ?_, rfl⟩⟩
      have depth := congrArg List.length stack
      rcases refused with ⟨group, rfl, full⟩ | ⟨rfl, rfl, empty⟩
      · refine ⟨group, ?_⟩
        simpa [full] using depth
      · refine ⟨rfl, ?_⟩
        rw [← List.length_eq_zero_iff]
        simpa [empty] using depth
    exact ⟨fault, stack_of_fault given fault⟩

theorem play_disciplined_subroutine :
    ([0x22, 0x04, 0x00, 0xE0, 0x00, 0xEE] : List Byte).length ≤
        Memory.capacity ∧
      ∃ start, boot (.repeating #[]) [0x22, 0x04, 0x00, 0xE0, 0x00, 0xEE] =
          .ok start ∧
        start.transfers [.cycle none, .cycle none] = [.call 0x200, .ret] ∧
        (start.play [.cycle none]).returnAddresses = [0x202] ∧
        (start.play [.cycle none, .cycle none]).pc = 0x202 := by
  have fits : ([0x22, 0x04, 0x00, 0xE0, 0x00, 0xEE] : List Byte).length ≤
      Memory.capacity := by decide
  obtain ⟨start, booted, disciplined⟩ :=
    play_disciplined (.repeating #[]) _ fits
  obtain ⟨running, pc⟩ := running_of_boot booted
  have given := validKeys_none
  have bottom := returnAddresses_of_boot booted
  have fetched : start.fetch? = some 0x2204 :=
    fetch?_of_boot booted rfl rfl rfl
  have call := completes?_of_call given running fetched rfl
    (by rw [bottom]; decide)
  have called := transfer?_eq_call_iff.mpr ⟨pc.symm, _, call, rfl⟩
  have pushed := returnAddresses_of_call (e := .cycle none) given called
  rw [bottom, List.nil_append] at pushed
  have footprint := footprint_cycle running fetched given
  have memory : (start.after (.cycle none)).memory = start.memory := by
    obtain ⟨_, ⟨⟩, -, -, same⟩ :=
      exists_of_completes (e := .cycle none) given call
    rw [same]
    exact memory_execute _ _ (op_instruction_ne fun h => absurd h.1 (by decide))
      (op_instruction_ne fun h => absurd h.1 (by decide))
  have here : (start.after (.cycle none)).pc = 0x204 := by
    obtain ⟨_, ⟨⟩, -, -, done⟩ := completes?_eq_some_iff.mp call
    exact footprint.call rfl done
  have read' := readWord_of_boot booted (k := 4) (by decide)
  have fetched' : (start.after (.cycle none)).fetch? = some 0x00EE := by
    rw [fetch?_eq_some_iff, here, memory]
    exact ⟨by decide, read'⟩
  have ret : (start.after (.cycle none)).completes? (.cycle none) =
      some 0x00EE :=
    completes?_of_ret given ((footprint.awaiting (by decide)).trans running)
      fetched' (by rw [pushed]; exact List.cons_ne_nil _ _)
  have returned := transfer?_eq_ret_iff.mpr ret
  have popped := returnAddresses_of_ret (e := .cycle none) given returned
  have valid : ∀ e ∈ [Event.cycle none], e.Valid :=
    List.forall_mem_singleton.mpr given
  refine ⟨fits, start, booted, ?_, ?_, ?_⟩
  · rw [transfers_cons, transfers_cons, called, returned]
    rfl
  · rw [(disciplined _ valid).stack, transfers_cons, called]
    rfl
  · have depth := congrArg List.length pushed
    have depths := congrArg List.length popped
    rw [List.length_append, depth, length_returnAddresses] at depths
    have back := (disciplined [] (by simp)).returns (.cycle none) _ given called
      [.cycle none] valid ?_ ?_
    · exact back.2.2.1
    · intro k hk same
      obtain rfl : k = 0 := by simpa using hk
      have flat := congrArg Fin.val same
      rw [← length_returnAddresses, ← length_returnAddresses] at flat
      exact absurd ((depth.symm.trans flat).trans (congrArg List.length bottom))
        (by decide)
    · have lengths := (Nat.succ.inj depths).symm.trans
        (congrArg List.length bottom).symm
      rw [length_returnAddresses] at lengths
      exact Fin.ext lengths

end Machine

end Chip8
