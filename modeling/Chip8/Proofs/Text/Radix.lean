import Chip8.Text.Radix
import Mathlib.Algebra.Group.Nat.Defs

/-!
# Reading numerals

A numeral in a base of at most thirty-six has one reading, whatever zeros stand
before it, so a written number determines the number.  A field is just as long
as its width if the number fits, and what ends it is the end of the text or a
separator.
-/

namespace Chip8.Radix

def digitValue (c : Char) : Nat :=
  if c.toNat < 58 then c.toNat - 48 else c.toNat - 55

def readDigits (base : Nat) (cs : List Char) : Nat :=
  cs.foldl (fun n c => n * base + digitValue c) 0

def read (base : Nat) : List Char → Int
  | '-' :: cs => -(readDigits base cs)
  | cs => readDigits base cs

theorem digitValue_digitChar : ∀ d < 36, digitValue (digitChar d) = d := by
  decide

theorem digitChar_ne_minus : ∀ d < 36, digitChar d ≠ '-' := by decide

theorem readDigits_leftpad (base width : Nat) (cs : List Char) :
    readDigits base (cs.leftpad width '0') = readDigits base cs := by
  have zeros : ∀ k, readDigits base (List.replicate k '0') = 0 := by
    intro k
    induction k with
    | zero => rfl
    | succ k ih =>
        rw [List.replicate_succ', readDigits, List.foldl_append, ← readDigits, ih]
        simp [digitValue]
  rw [List.leftpad, readDigits, List.foldl_append, ← readDigits, zeros, readDigits]

theorem read_of_unsigned (base : Nat) {cs : List Char} (h : '-' ∉ cs) :
    read base cs = readDigits base cs := by
  unfold read
  split
  · exact absurd List.mem_cons_self h
  · rfl

section

variable {base : Nat} (low : 2 ≤ base) (high : base ≤ 36)

include low

theorem length_digits_le {n k : Nat} (h : n < base ^ (k + 1)) :
    (digits base n).length ≤ k + 1 := by
  induction k generalizing n with
  | zero =>
      rw [Nat.zero_add, Nat.pow_one] at h
      rw [digits, dif_neg (by omega)]
      exact Nat.le_refl 1
  | succ k ih =>
      rw [digits]
      split
      · have smaller : n / base < base ^ (k + 1) := by
          rw [Nat.div_lt_iff_lt_mul (by omega)]
          exact h
        rw [List.length_append]
        exact Nat.succ_le_succ (ih smaller)
      · exact Nat.le_add_left ..

theorem length_padded {n k : Nat} (h : n < base ^ (k + 1)) :
    (padded base (k + 1) n).length = k + 1 := by
  have short := length_digits_le low h
  change ((digits base n).leftpad (k + 1) '0').length = k + 1
  rw [List.leftpad, List.length_append, List.length_replicate]
  omega

theorem mem_digits {n : Nat} {c : Char} (h : c ∈ digits base n) :
    ∃ d < base, c = digitChar d := by
  fun_induction digits base n with
  | case1 n longer ih =>
      rcases List.mem_append.mp h with front | last
      · exact ih front
      · exact ⟨n % base, Nat.mod_lt _ (by omega), List.mem_singleton.mp last⟩
  | case2 n small =>
      exact ⟨n, by omega, List.mem_singleton.mp h⟩

theorem mem_leftpad {n width : Nat} {c : Char}
    (h : c ∈ (digits base n).leftpad width '0') :
    ∃ d < base, c = digitChar d := by
  rcases List.mem_append.mp h with zero | digit
  · exact ⟨0, by omega, List.eq_of_mem_replicate zero⟩
  · exact mem_digits low digit

theorem mem_padded {width : Nat} {value : Int} {c : Char}
    (h : c ∈ padded base width value) :
    c = '-' ∨ ∃ d < base, c = digitChar d := by
  cases value with
  | ofNat n => exact .inr (mem_leftpad low h)
  | negSucc n =>
      rcases List.mem_cons.mp h with sign | digit
      · exact .inl sign
      · exact .inr (mem_leftpad low digit)

theorem not_mem_padded {c : Char} (sign : c ≠ '-')
    (digit : ∀ d < base, digitChar d ≠ c) (width : Nat) (value : Int) :
    c ∉ padded base width value := by
  intro mem
  rcases mem_padded low mem with same | ⟨d, small, same⟩
  · exact sign same
  · exact digit d small same.symm

include high

theorem readDigits_digits (n : Nat) : readDigits base (digits base n) = n := by
  fun_induction digits base n with
  | case1 n longer ih =>
      have small : n % base < 36 :=
        Nat.lt_of_lt_of_le (Nat.mod_lt _ (by omega)) high
      rw [readDigits, List.foldl_append, ← readDigits, ih, List.foldl_cons,
        List.foldl_nil, digitValue_digitChar _ small]
      exact Nat.div_add_mod' n base
  | case2 n small =>
      rw [readDigits, List.foldl_cons, List.foldl_nil, Nat.zero_mul,
        Nat.zero_add, digitValue_digitChar n (by omega)]

theorem read_padded (width : Nat) (value : Int) :
    read base (padded base width value) = value := by
  cases value with
  | ofNat n =>
      have unsigned : '-' ∉ (digits base n).leftpad width '0' := by
        intro sign
        obtain ⟨d, small, same⟩ := mem_leftpad low sign
        exact digitChar_ne_minus d (by omega) same.symm
      rw [padded, read_of_unsigned base unsigned, readDigits_leftpad,
        readDigits_digits low high]
      rfl
  | negSucc n =>
      rw [padded, read, readDigits_leftpad, readDigits_digits low high]
      rfl

theorem padded_injective {width : Nat} {a b : Int}
    (h : padded base width a = padded base width b) : a = b := by
  rw [← read_padded low high width a, h, read_padded low high]

end

/-- Where a field ends, if it does not hold the separator `c`. -/
theorem append_inj_of_stops {α : Type} {c : α} {l l' s s' : List α}
    (h : c ∉ l) (h' : c ∉ l') (stop : ∀ d ∈ s.head?, d = c)
    (stop' : ∀ d ∈ s'.head?, d = c) (same : l ++ s = l' ++ s') :
    l = l' ∧ s = s' := by
  induction l generalizing l' with
  | nil =>
      cases l' with
      | nil => simpa using same
      | cons b l' =>
          have here : s = b :: (l' ++ s') := by simpa using same
          simp [stop b (by simp [here])] at h'
  | cons a l ih =>
      cases l' with
      | nil =>
          have here : s' = a :: (l ++ s) := by simpa using same.symm
          simp [stop' a (by simp [here])] at h
      | cons b l' =>
          obtain ⟨rfl, rest⟩ := List.cons.inj same
          simp only [List.mem_cons, not_or] at h h'
          simpa using ih h.2 h'.2 rest

end Chip8.Radix
