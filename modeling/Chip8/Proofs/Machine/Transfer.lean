/-!
# Calls and returns as brackets

Which calls of a list have been returned from is defined on the list alone.
`surplus` counts the returns that lead below the start of a list: a call is
matched when the list behind it has one.
-/

namespace Chip8

inductive Transfer where
  | call (address : Int)
  | ret
  deriving DecidableEq, Repr

namespace Transfer

inductive Balanced : List Transfer → Prop
  | nil : Balanced []
  | nest (address : Int) {inner rest : List Transfer} (first : Balanced inner)
      (second : Balanced rest) :
      Balanced (.call address :: inner ++ .ret :: rest)

def Returns (later : List Transfer) : Prop :=
  ∃ inner rest, Balanced inner ∧ later = inner ++ .ret :: rest

def surplus : List Transfer → Nat
  | [] => 0
  | .call _ :: later => surplus later - 1
  | .ret :: later => surplus later + 1

theorem surplus_append {inner : List Transfer} (h : Balanced inner)
    (rest : List Transfer) : surplus (inner ++ rest) = surplus rest := by
  induction h generalizing rest with
  | nil => rfl
  | nest address _ _ first second =>
      rw [List.append_assoc, List.cons_append, List.cons_append, surplus, first,
        surplus, second, Nat.add_sub_cancel]

theorem returns_of_surplus_pos {later : List Transfer}
    (h : 0 < surplus later) : Returns later := by
  induction size : later.length using Nat.strongRecOn
    generalizing later with
  | ind n ih =>
      match later with
      | [] => exact absurd h (Nat.lt_irrefl 0)
      | .ret :: rest => exact ⟨[], rest, .nil, rfl⟩
      | .call address :: rest =>
          -- The first return that leads below the start of `rest` matches this
          -- call, and the next one the call in front.
          rw [surplus] at h
          rw [List.length_cons] at size
          have pos : 0 < surplus rest := by omega
          obtain ⟨inner, behind, first, rfl⟩ :=
            ih rest.length (by omega) pos rfl
          rw [surplus_append first, surplus] at h
          rw [List.length_append, List.length_cons] at size
          have pos' : 0 < surplus behind := by omega
          obtain ⟨inner', behind', second, rfl⟩ :=
            ih behind.length (by omega) pos' rfl
          exact ⟨_, behind', .nest address first second, by simp⟩

theorem returns_iff (later : List Transfer) :
    Returns later ↔ 0 < surplus later := by
  constructor
  · rintro ⟨inner, rest, balanced, rfl⟩
    rw [surplus_append balanced, surplus]
    exact Nat.succ_pos _
  · exact returns_of_surplus_pos

instance (later : List Transfer) : Decidable (Returns later) :=
  decidable_of_iff' _ (returns_iff later)

/-- The addresses of the calls that no later return matches, oldest first. -/
def unmatched : List Transfer → List Int
  | [] => []
  | .call address :: later =>
      if Returns later then unmatched later else address :: unmatched later
  | .ret :: later => unmatched later

/-- The return addresses that transfers leave on a stack: what they do not
return below, and one behind each unmatched call. -/
def outstanding (stack : List Int) (later : List Transfer) : List Int :=
  stack.take (stack.length - surplus later) ++
    (unmatched later).map fun address => address + 2

theorem outstanding_nil (stack : List Int) : outstanding stack [] = stack := by
  simp [outstanding, surplus, unmatched]

theorem outstanding_call (stack : List Int) (address : Int)
    (later : List Transfer) :
    outstanding stack (.call address :: later) =
      outstanding (stack ++ [address + 2]) later := by
  rw [outstanding, outstanding, surplus, unmatched, List.length_append,
    List.length_singleton]
  by_cases returned : Returns later
  · have pos := (returns_iff later).mp returned
    rw [if_pos returned, List.take_append_of_le_length (by omega)]
    congr 2
    omega
  · have zero : surplus later = 0 :=
      Nat.eq_zero_of_not_pos (mt (returns_iff later).mpr returned)
    rw [if_neg returned, zero, List.map_cons, Nat.sub_zero, Nat.sub_zero,
      List.take_length, List.take_of_length_le (by simp), List.append_assoc,
      List.singleton_append]

theorem outstanding_ret (stack : List Int) (a : Int) (later : List Transfer) :
    outstanding (stack ++ [a]) (.ret :: later) = outstanding stack later := by
  rw [outstanding, outstanding, surplus, unmatched, List.length_append,
    List.length_singleton, Nat.add_sub_add_right,
    List.take_append_of_le_length (Nat.sub_le ..)]

theorem outstanding_on_empty (later : List Transfer) :
    outstanding [] later = (unmatched later).map fun address => address + 2 := by
  simp [outstanding]

end Transfer

end Chip8
