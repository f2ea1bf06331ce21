import Chip8.Frontend.Tone

/-!
# The wave of a tone

Whatever numbers a tone is asked for with, it has as many samples as were
counted, fewer than two to the thirty-first, all of them at the peak or its
opposite, and it repeats itself period by period.  Where the period is positive,
the first samples of each are up and the others down.
-/

namespace Chip8.Tone

variable {duration frequency rate : Amount} {tone : Tone} {count : Nat}
  {period high : Int} {samples : List Int}

/-! ## One sample -/

theorem sample_eq_or (period high : Int) (k : Nat) :
    sample period high k = peak ∨ sample period high k = -peak := by
  unfold sample
  split
  · exact .inl rfl
  · exact .inr rfl

theorem sample_add_period (period high : Int) (k : Nat) :
    sample period high (k + period.natAbs) = sample period high k := by
  have span : period * period.sign = (period.natAbs : Int) := by
    rw [Int.mul_comm, Int.sign_mul_self]
  rw [sample, sample, Int.natCast_add, ← span, Int.add_mul_fmod_self_left]

theorem sample_add_periods (period high : Int) (k n : Nat) :
    sample period high (k + n * period.natAbs) = sample period high k := by
  induction n with
  | zero => rw [Nat.zero_mul, Nat.add_zero]
  | succ n ih => rw [Nat.succ_mul, ← Nat.add_assoc, sample_add_period, ih]

theorem sample_of_lt {k : Nat} (within : (k : Int) < period) (n : Nat) :
    sample period high (k + n * period.natAbs) =
      if (k : Int) < high then peak else -peak := by
  rw [sample_add_periods, sample, Int.fmod_eq_emod_of_nonneg _ (by omega),
    Int.emod_eq_of_lt (by omega) within]

/-! ## The number of samples -/

theorem sampleCount_lt (counted : sampleCount duration rate = .ok count) :
    count < 0x80000000 := by
  have half (n : Int) : (n % wrap / 2).toNat < 0x80000000 := by
    unfold wrap
    omega
  unfold sampleCount at counted
  obtain ⟨twice, -, counted⟩ := exists_of_bind_ok counted
  obtain ⟨bytes, -, counted⟩ := exists_of_bind_ok counted
  cases bytes with
  | integer n =>
      cases counted
      exact half n
  | real x =>
      obtain ⟨n, -, counted⟩ := exists_of_bind_ok counted
      cases counted
      exact half n

theorem sampleCount_of_integers (seconds perSecond : Nat)
    (fits : seconds * perSecond < 0x80000000) :
    sampleCount (.integer seconds) (.integer perSecond) =
      .ok (seconds * perSecond) := by
  have bytes : 2 * (perSecond : Int) * seconds =
      ((2 * (seconds * perSecond) : Nat) : Int) := by
    rw [Int.natCast_mul, Int.natCast_mul, Int.mul_assoc,
      Int.mul_comm (perSecond : Int)]
    rfl
  change Except.ok ((2 * (perSecond : Int) * seconds) % wrap / 2).toNat = _
  rw [bytes, wrap]
  congr 1
  omega

/-! ## The wave -/

theorem exists_of_wave (made : wave frequency rate count = .ok samples) :
    ∃ period high, period ≠ 0 ∧
      samples = (List.range count).map (sample period high) := by
  unfold wave at made
  by_cases empty : count = 0
  · subst empty
    cases made
    exact ⟨1, 0, by decide, rfl⟩
  · rw [if_neg empty] at made
    obtain ⟨quotient, -, made⟩ := exists_of_bind_ok made
    obtain ⟨period, -, made⟩ := exists_of_bind_ok made
    by_cases still : period = 0
    · rw [if_pos still] at made
      cases made
    · rw [if_neg still] at made
      obtain ⟨high, -, made⟩ := exists_of_bind_ok made
      cases made
      exact ⟨period, high, still, rfl⟩

theorem samples_of_square (made : square duration frequency rate = .ok tone) :
    tone.rate = rate ∧ ∃ count period high,
      sampleCount duration rate = .ok count ∧ period ≠ 0 ∧
        tone.samples = (List.range count).map (sample period high) := by
  unfold square at made
  obtain ⟨count, counted, made⟩ := exists_of_bind_ok made
  obtain ⟨samples, waved, made⟩ := exists_of_bind_ok made
  obtain ⟨perByte, -, made⟩ := exists_of_bind_ok made
  obtain ⟨seconds, -, made⟩ := exists_of_bind_ok made
  cases made
  obtain ⟨period, high, moves, shape⟩ := exists_of_wave waved
  exact ⟨rfl, count, period, high, counted, moves, shape⟩

theorem length_samples (made : square duration frequency rate = .ok tone) :
    sampleCount duration rate = .ok tone.samples.length := by
  obtain ⟨-, count, period, high, counted, -, shape⟩ := samples_of_square made
  rw [shape, List.length_map, List.length_range, counted]

theorem mem_samples (made : square duration frequency rate = .ok tone) :
    ∀ x ∈ tone.samples, x = peak ∨ x = -peak := by
  obtain ⟨-, count, period, high, -, -, shape⟩ := samples_of_square made
  intro x member
  rw [shape] at member
  obtain ⟨k, -, rfl⟩ := List.mem_map.mp member
  exact sample_eq_or period high k

theorem square_repeats (made : square duration frequency rate = .ok tone) :
    ∃ period, 0 < period ∧ ∀ k n, k + n * period < tone.samples.length →
      tone.samples[k + n * period]? = tone.samples[k]? := by
  obtain ⟨-, count, period, high, -, moves, shape⟩ := samples_of_square made
  refine ⟨period.natAbs, Int.natAbs_pos.mpr moves, fun k n within => ?_⟩
  rw [shape, List.length_map, List.length_range] at within
  rw [shape, List.getElem?_map, List.getElem?_map,
    List.getElem?_range within, List.getElem?_range (by omega),
    Option.map_some, Option.map_some, sample_add_periods]

end Chip8.Tone
