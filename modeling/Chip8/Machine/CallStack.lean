import Chip8.Instruction.Word

/-!
# The call stack

Sixteen slots of sixteen bits, of which the lowest `depth` hold return
addresses.  Slots above them keep what they held before.
-/

namespace Chip8

structure CallStack where
  slots : Vector Word 16 := Vector.replicate 16 0
  depth : Fin 17 := 0
  deriving DecidableEq

namespace CallStack

inductive PushError where
  | full
  | unrepresentable (value : Int)
  deriving DecidableEq, Repr

/-- The return addresses, oldest first. -/
def addresses (s : CallStack) : List Word := s.slots.toList.take s.depth

/-- A full stack refuses every value, also one that would not fit a slot. -/
def push (s : CallStack) (value : Int) : Except PushError CallStack :=
  if h : s.depth.val < 16 then
    if 0 ≤ value ∧ value < 65536 then
      .ok ⟨s.slots.set s.depth (Word.ofInt value), ⟨s.depth.val + 1, by omega⟩⟩
    else .error (.unrepresentable value)
  else .error .full

@[simp] theorem length_addresses (s : CallStack) :
    s.addresses.length = s.depth.val := by
  simp [addresses]
  omega

theorem addresses_push {s t : CallStack} {value : Int}
    (h : s.push value = .ok t) :
    t.addresses = s.addresses ++ [Word.ofInt value] := by
  unfold push at h
  split at h
  · split at h
    · rename_i hd _
      cases h
      simp only [addresses, Vector.toList_set, List.take_add_one,
        List.take_set, List.getElem?_set_self, Vector.length_toList, hd,
        Option.toList_some]
      rw [List.set_eq_of_length_le (List.length_take_le ..)]
    · cases h
  · cases h

def peek? (s : CallStack) : Option Word :=
  if h : 0 < s.depth.val then some s.slots[s.depth.val - 1] else none

def pop? (s : CallStack) : Option (Word × CallStack) :=
  if h : 0 < s.depth.val then
    some (s.slots[s.depth.val - 1],
      { s with depth := ⟨s.depth.val - 1, by omega⟩ })
  else none

theorem peek?_eq_getLast? (s : CallStack) : s.peek? = s.addresses.getLast? := by
  unfold peek?
  split
  · have : s.depth.val - 1 < s.depth.val := by omega
    rw [List.getLast?_eq_getElem?]
    simp [addresses, this, Nat.min_eq_left (Nat.le_of_lt_succ s.depth.isLt)]
  · have : s.depth.val = 0 := by omega
    simp [addresses, this]

theorem addresses_pop {s t : CallStack} {w : Word}
    (h : s.pop? = some (w, t)) : s.addresses = t.addresses ++ [w] := by
  unfold pop? at h
  split at h
  · cases h
    have below : s.depth.val - 1 < 16 := by omega
    have split : s.addresses = s.slots.toList.take (s.depth.val - 1 + 1) := by
      rw [addresses, show s.depth.val - 1 + 1 = s.depth.val by omega]
    rw [split, List.take_add_one]
    simp [addresses, below]
  · cases h

theorem pop?_eq_none_iff (s : CallStack) :
    s.pop? = none ↔ s.addresses = [] := by
  unfold pop?
  split <;> simp [← List.length_eq_zero_iff] <;> omega

end CallStack

end Chip8
