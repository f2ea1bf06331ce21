import Chip8.Proofs.Machine.Trap

/-!
# The stack as a list

A stack is as good as the list of its entries, at most sixteen numbers of
sixteen bits.  It answers whatever it is asked, in whatever order, as the list
does, and nothing that its slots above the entries hold is ever seen.
-/

namespace Chip8

section

variable {σ τ α β : Type} {step : σ → α → σ × β} {step' : τ → α → τ × β}

def results (step : σ → α → σ × β) (s : σ) : List α → σ × List β
  | [] => (s, [])
  | a :: rest =>
      let (s, b) := step s a
      let (s, more) := results step s rest
      (s, b :: more)

theorem results_cons (s : σ) (a : α) (rest : List α) :
    results step s (a :: rest) =
      ((results step (step s a).1 rest).1,
        (step s a).2 :: (results step (step s a).1 rest).2) := rfl

theorem results_view {view : σ → τ}
    (each : ∀ s a, step' (view s) a = (view (step s a).1, (step s a).2))
    (s : σ) (l : List α) :
    results step' (view s) l =
      (view (results step s l).1, (results step s l).2) := by
  induction l generalizing s with
  | nil => rfl
  | cons a rest ih => rw [results_cons, each, ih, results_cons]

end

namespace CallStack

inductive Operation where
  | push (value : Int)
  | pop
  | peek
  | addresses
  | depth

def Operation.isQuery : Operation → Bool
  | .push _ | .pop => false
  | .peek | .addresses | .depth => true

inductive Answer where
  | done
  | popped (value : Int)
  | top (value : Option Int)
  | entries (values : List Int)
  | depth (count : Nat)
  deriving DecidableEq, Repr

inductive Failure where
  | push (e : PushError)
  | underflow
  deriving DecidableEq, Repr

/-! ## The list -/

/-- At most sixteen numbers of sixteen bits, the oldest first. -/
@[ext]
structure Entries where
  values : List Int
  length_le : values.length ≤ 16
  inside : ∀ value ∈ values, 0 ≤ value ∧ value ≤ 65535

namespace Entries

def empty : Entries where
  values := []
  length_le := Nat.zero_le 16
  inside := nofun

theorem length_append_le (l : Entries) (value : Int)
    (room : l.values.length < 16) : (l.values ++ [value]).length ≤ 16 := by
  simp
  omega

theorem inside_append (l : Entries) {value : Int}
    (inside : 0 ≤ value ∧ value ≤ 65535) :
    ∀ other ∈ l.values ++ [value], 0 ≤ other ∧ other ≤ 65535 := by
  intro other mem
  rcases List.mem_append.mp mem with old | new
  · exact l.inside other old
  · rwa [List.mem_singleton.mp new]

def append (l : Entries) (value : Int) (room : l.values.length < 16)
    (inside : 0 ≤ value ∧ value ≤ 65535) : Entries where
  values := l.values ++ [value]
  length_le := l.length_append_le value room
  inside := l.inside_append inside

def dropLast (l : Entries) : Entries where
  values := l.values.dropLast
  length_le := Nat.le_trans l.values.dropLast_sublist.length_le l.length_le
  inside := fun value mem => l.inside value (l.values.dropLast_subset mem)

def perform (l : Entries) : Operation → Entries × Except Failure Answer
  | .push value =>
      if room : l.values.length < 16 then
        if inside : 0 ≤ value ∧ value ≤ 65535 then
          (l.append value room inside, .ok .done)
        else (l, .error (.push (.unrepresentable value)))
      else (l, .error (.push .full))
  | .pop =>
      match l.values.getLast? with
      | some value => (l.dropLast, .ok (.popped value))
      | none => (l, .error .underflow)
  | .peek => (l, .ok (.top l.values.getLast?))
  | .addresses => (l, .ok (.entries l.values))
  | .depth => (l, .ok (.depth l.values.length))

end Entries

/-! ## The stack -/

variable {s t : CallStack}

def values (s : CallStack) : List Int :=
  s.addresses.map fun w => (w.toNat : Int)

def perform (s : CallStack) : Operation → CallStack × Except Failure Answer
  | .push value =>
      match s.push value with
      | .ok pushed => (pushed, .ok .done)
      | .error e => (s, .error (.push e))
  | .pop =>
      match s.pop? with
      | some (w, popped) => (popped, .ok (.popped w.toNat))
      | none => (s, .error .underflow)
  | .peek => (s, .ok (.top (s.peek?.map fun w => (w.toNat : Int))))
  | .addresses => (s, .ok (.entries s.values))
  | .depth => (s, .ok (.depth s.depth))

@[simp] theorem length_values (s : CallStack) :
    s.values.length = s.depth.val := by
  simp [values]

def entries (s : CallStack) : Entries where
  values := s.values
  length_le := by
    simp
    omega
  inside := by
    intro value mem
    obtain ⟨w, -, rfl⟩ := List.mem_map.mp mem
    have := w.toNat_lt
    omega

@[simp] theorem values_entries (s : CallStack) :
    s.entries.values = s.values := rfl

theorem values_push {value : Int} (inside : 0 ≤ value ∧ value ≤ 65535)
    (h : s.push value = .ok t) : t.values = s.values ++ [value] := by
  have same : ((Word.ofInt value).toNat : Int) = value := by
    simp
    omega
  simp only [values, addresses_push h, List.map_append, List.map_cons,
    List.map_nil, same]

theorem values_pop {w : Word} (h : s.pop? = some (w, t)) :
    s.values = t.values ++ [(w.toNat : Int)] := by
  simp [values, addresses_pop h]

theorem values_eq_nil_of_pop? (h : s.pop? = none) : s.values = [] := by
  simp [values, (pop?_eq_none_iff s).mp h]

theorem push_of_room {value : Int} (room : s.depth.val < 16)
    (inside : 0 ≤ value ∧ value ≤ 65535) : ∃ t, s.push value = .ok t := by
  rw [push, dif_pos room, if_pos (by omega)]
  exact ⟨_, rfl⟩

theorem push_of_outside {value : Int} (room : s.depth.val < 16)
    (outside : ¬ (0 ≤ value ∧ value ≤ 65535)) :
    s.push value = .error (.unrepresentable value) := by
  rw [push, dif_pos room, if_neg (by omega)]

theorem push_entries (s : CallStack) (value : Int) :
    s.entries.perform (.push value) =
      ((s.perform (.push value)).1.entries, (s.perform (.push value)).2) := by
  by_cases room : s.depth.val < 16
  · have room' : s.entries.values.length < 16 := by simpa using room
    by_cases inside : 0 ≤ value ∧ value ≤ 65535
    · obtain ⟨t, pushed⟩ := push_of_room room inside
      have appended : s.entries.append value room' inside = t.entries :=
        Entries.ext (values_push inside pushed).symm
      simp [Entries.perform, perform, room, inside, appended, pushed]
    · have refused := push_of_outside room inside
      simp [Entries.perform, perform, room, inside, refused]
  · have full : s.push value = .error .full :=
      (s.push_eq_full_iff value).mpr (by omega)
    simp [Entries.perform, perform, room, full]

theorem pop_entries (s : CallStack) :
    s.entries.perform .pop =
      ((s.perform .pop).1.entries, (s.perform .pop).2) := by
  cases popped : s.pop? with
  | none =>
      have empty := values_eq_nil_of_pop? popped
      simp [Entries.perform, perform, empty, popped]
  | some found =>
      obtain ⟨w, t⟩ := found
      have split := values_pop popped
      have dropped : s.entries.dropLast = t.entries := by
        apply Entries.ext
        simp [Entries.dropLast, split]
      simp [Entries.perform, perform, split, popped, dropped]

theorem perform_entries (s : CallStack) (operation : Operation) :
    s.entries.perform operation =
      ((s.perform operation).1.entries, (s.perform operation).2) := by
  cases operation with
  | push value => exact s.push_entries value
  | pop => exact s.pop_entries
  | peek =>
      have top : s.values.getLast? =
          s.peek?.map fun w => (w.toNat : Int) := by
        rw [peek?_eq_getLast?]
        exact List.getLast?_map
      simp [Entries.perform, perform, top]
  | addresses => rfl
  | depth => simp [Entries.perform, perform]

theorem fst_perform_eq_self {operation : Operation}
    (h : operation.isQuery = true ∨ ∃ e, (s.perform operation).2 = .error e) :
    (s.perform operation).1 = s := by
  cases operation with
  | push value =>
      obtain query | ⟨e, failed⟩ := h
      · cases query
      · cases pushed : s.push value with
        | ok t => simp [perform, pushed] at failed
        | error e => simp [perform, pushed]
  | pop =>
      obtain query | ⟨e, failed⟩ := h
      · cases query
      · cases popped : s.pop? with
        | none => simp [perform, popped]
        | some found => simp [perform, popped] at failed
  | peek | addresses | depth => rfl

theorem entries_congr (depth : t.depth = s.depth)
    (same : ∀ k : Fin 16, k.val < s.depth.val → t.slots.get k = s.slots.get k) :
    t.entries = s.entries := by
  have addresses : t.addresses = s.addresses := by
    rw [CallStack.addresses, CallStack.addresses, depth]
    apply List.ext_getElem
    · simp
    · intro k inside _
      have below : k < s.depth.val :=
        Nat.lt_of_lt_of_le inside (List.length_take_le ..)
      have slot : t.slots[k] = s.slots[k] := same ⟨k, by omega⟩ below
      simpa using slot
  apply Entries.ext
  simp [entries, values, addresses]

/-- Whatever is asked of a new stack, it answers as a list that is empty at
first, and so would a stack with anything else in the slots above its entries.
No query and no failure changes it. -/
theorem answers_as_list (operations : List Operation) :
    let run := results perform ({} : CallStack) operations
    results Entries.perform Entries.empty operations =
      (run.1.entries, run.2) ∧
    (∀ operation, operation.isQuery = true ∨
        (∃ e, (run.1.perform operation).2 = .error e) →
      (run.1.perform operation).1 = run.1) ∧
    ∀ t : CallStack, t.depth = run.1.depth →
      (∀ k : Fin 16, k.val < run.1.depth.val →
        t.slots.get k = run.1.slots.get k) →
      ∀ more, (results perform t more).2 = (results perform run.1 more).2 := by
  intro run
  refine ⟨?_, fun _ => fst_perform_eq_self, ?_⟩
  · have new : ({} : CallStack).entries = Entries.empty := Entries.ext rfl
    rw [← new]
    exact results_view perform_entries _ operations
  · intro t depth same more
    have alike := results_view perform_entries t more
    rw [entries_congr depth same, results_view perform_entries] at alike
    exact (congrArg Prod.snd alike).symm

/-- Both errors of a push, and a stale slot where a popped entry stood. -/
theorem answers_as_list_stale :
    let operations : List Operation :=
      [.push 0x202, .push 65536, .push 0x30A, .addresses, .pop, .peek] ++
        List.replicate 15 (.push 7) ++ [.push (-1), .depth]
    let stale : CallStack :=
      { slots := #v[0x202, 0x999, 0, 0, 0, 0, 0, 0, 0, 0, 0, 0, 0, 0, 0, 0]
        depth := 1 }
    (results perform ({} : CallStack) operations).2 =
        [.ok .done, .error (.push (.unrepresentable 65536)), .ok .done,
          .ok (.entries [0x202, 0x30A]), .ok (.popped 0x30A),
          .ok (.top (some 0x202))] ++
        List.replicate 15 (.ok .done) ++
        [.error (.push .full), .ok (.depth 16)] ∧
      (results perform stale [.pop, .pop, .peek]).2 =
        [.ok (.popped 0x202), .error .underflow, .ok (.top none)] := by
  intro operations stale
  constructor
  · obtain ⟨asked, -⟩ := answers_as_list operations
    exact (congrArg Prod.snd asked).symm.trans rfl
  · obtain ⟨-, -, seen⟩ := answers_as_list [.push 0x202]
    exact (seen stale rfl (by decide) [.pop, .pop, .peek]).trans rfl

end CallStack

end Chip8
