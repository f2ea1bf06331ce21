import Chip8.Instruction.Decode

/-!
# Forms of words

`Op.Form` says by nibbles which words belong to an operation.  The pattern
table comes to the same thing: `classify_eq_iff` states that a word is
classified as an operation exactly when it has its form.
-/

namespace Chip8

namespace Word

theorem eq_iff_toNat (v w : Word) : v = w ↔ v.toNat = w.toNat :=
  UInt16.toNat_inj.symm

theorem ofInt_eq_iff (a b : Int) :
    ofInt a = ofInt b ↔ a % 65536 = b % 65536 := by
  rw [eq_iff_toNat, toNat_ofInt, toNat_ofInt]
  omega

theorem ofInt_toNat (w : Word) : ofInt w.toNat = w := by
  have := w.toNat_lt
  rw [eq_iff_toNat, toNat_ofInt]
  omega

theorem group_eq_iff (w : Word) (g : Nibble) :
    w.group = g ↔ w.toNat / 4096 = g.val := by
  have := w.toNat_lt
  simp [group, Fin.ext_iff, Fin.ofNat]
  omega

theorem n_eq_iff (w : Word) (g : Nibble) : w.n = g ↔ w.toNat % 16 = g.val := by
  simp [n, Fin.ext_iff, Fin.ofNat]

theorem kk_eq_iff (w : Word) (b : Byte) : w.kk = b ↔ w.toNat % 256 = b.toNat := by
  simp [kk, low, ← UInt8.toNat_inj]

theorem toNat_eq_group (w : Word) :
    w.toNat = 4096 * w.group.val + w.nnn.val := by
  have := w.toNat_lt
  simp [group, nnn, Fin.ofNat]
  omega

theorem val_nnn (w : Word) : w.nnn.val = 256 * w.x.val + w.kk.toNat := by
  simp [nnn, x, kk, low, Fin.ofNat]
  omega

theorem toNat_kk (w : Word) : w.kk.toNat = 16 * w.y.val + w.n.val := by
  simp [kk, low, y, n, Fin.ofNat]
  omega

theorem toNat_and_mask (w mask : Word) (n : Nat)
    (hn : n ∈ [1, 16, 256, 4096]) (hmask : mask.toNat = 0xF000 + (n - 1)) :
    (w &&& mask).toNat = w.toNat / 4096 * 4096 + w.toNat % n := by
  obtain ⟨k, hk, rfl⟩ : ∃ k, k ≤ 12 ∧ n = 2 ^ k := by
    simp only [List.mem_cons, List.not_mem_nil, or_false] at hn
    rcases hn with rfl | rfl | rfl | rfl
    · exact ⟨0, by decide, rfl⟩
    · exact ⟨4, by decide, rfl⟩
    · exact ⟨8, by decide, rfl⟩
    · exact ⟨12, by decide, rfl⟩
  have small : 2 ^ k ≤ 2 ^ 12 := Nat.pow_le_pow_right (by decide) hk
  have pos : 0 < 2 ^ k := Nat.two_pow_pos k
  have bound := w.toNat_lt
  have high : (w.toNat &&& mask.toNat) / 2 ^ 12 = w.toNat / 2 ^ 12 := by
    rw [Nat.and_div_two_pow, hmask,
      show (0xF000 + (2 ^ k - 1)) / 2 ^ 12 = 2 ^ 4 - 1 by omega,
      Nat.and_two_pow_sub_one_eq_mod]
    omega
  have low : (w.toNat &&& mask.toNat) % 2 ^ 12 = w.toNat % 2 ^ k := by
    rw [Nat.and_mod_two_pow, hmask,
      show (0xF000 + (2 ^ k - 1)) % 2 ^ 12 = 2 ^ k - 1 by omega,
      Nat.and_two_pow_sub_one_eq_mod]
    exact Nat.mod_mod_of_dvd _ (Nat.pow_dvd_pow 2 hk)
  rw [UInt16.toNat_and]
  omega

end Word

def Op.Form (w : Word) : Op → Prop
  | sys => w.group = 0x0 ∧ w ≠ 0x00E0 ∧ w ≠ 0x00EE
  | clear => w = 0x00E0
  | ret => w = 0x00EE
  | jump => w.group = 0x1
  | call => w.group = 0x2
  | skipEqByte => w.group = 0x3
  | skipNeByte => w.group = 0x4
  | skipEq => w.group = 0x5 ∧ w.n = 0x0
  | setByte => w.group = 0x6
  | addByte => w.group = 0x7
  | copy => w.group = 0x8 ∧ w.n = 0x0
  | or => w.group = 0x8 ∧ w.n = 0x1
  | and => w.group = 0x8 ∧ w.n = 0x2
  | xor => w.group = 0x8 ∧ w.n = 0x3
  | add => w.group = 0x8 ∧ w.n = 0x4
  | sub => w.group = 0x8 ∧ w.n = 0x5
  | shiftRight => w.group = 0x8 ∧ w.n = 0x6
  | subFrom => w.group = 0x8 ∧ w.n = 0x7
  | shiftLeft => w.group = 0x8 ∧ w.n = 0xE
  | skipNe => w.group = 0x9 ∧ w.n = 0x0
  | setIndex => w.group = 0xA
  | jumpOffset => w.group = 0xB
  | random => w.group = 0xC
  | draw => w.group = 0xD
  | skipKey => w.group = 0xE ∧ w.kk = 0x9E
  | skipNoKey => w.group = 0xE ∧ w.kk = 0xA1
  | readDelay => w.group = 0xF ∧ w.kk = 0x07
  | waitKey => w.group = 0xF ∧ w.kk = 0x0A
  | setDelay => w.group = 0xF ∧ w.kk = 0x15
  | setSound => w.group = 0xF ∧ w.kk = 0x18
  | addIndex => w.group = 0xF ∧ w.kk = 0x1E
  | glyph => w.group = 0xF ∧ w.kk = 0x29
  | digits => w.group = 0xF ∧ w.kk = 0x33
  | store => w.group = 0xF ∧ w.kk = 0x55
  | load => w.group = 0xF ∧ w.kk = 0x65
  | unknown => ∀ p ∈ patterns, ¬ p.Matches w

/-- A pattern is matched by the words of its form, and the pattern of `sys` also
by the two words that earlier patterns take. -/
theorem matches_iff (w : Word) : ∀ p ∈ patterns,
    p.Matches w ↔ p.op.Form w ∨ p.op = .sys ∧ (w = 0x00E0 ∨ w = 0x00EE) := by
  have whole := w.toNat_and_mask 0xFFFF 4096 (by decide) rfl
  have nibble := w.toNat_and_mask 0xF000 1 (by decide) rfl
  have outer := w.toNat_and_mask 0xF00F 16 (by decide) rfl
  have byte := w.toNat_and_mask 0xF0FF 256 (by decide) rfl
  have bound := w.toNat_lt
  simp only [patterns, List.forall_mem_cons, List.not_mem_nil,
    false_implies, implies_true, and_true]
  and_intros
  all_goals
    simp only [Pattern.Matches, Op.Form, Word.eq_iff_toNat, Word.group_eq_iff,
      Word.n_eq_iff, Word.kk_eq_iff, whole, nibble, outer, byte, ne_eq,
      UInt16.reduceToNat, UInt8.reduceToNat, reduceCtorEq, false_and, or_false,
      true_and]
    clear whole nibble outer byte
    omega

namespace Pattern

def Overlaps (p q : Pattern) : Prop := ∃ w, p.Matches w ∧ q.Matches w

theorem bits_of_overlaps {p q : Pattern} (h : p.Overlaps q) :
    p.bits &&& q.mask = q.bits &&& p.mask := by
  obtain ⟨w, hp, hq⟩ := h
  rw [← hp, ← hq, UInt16.and_assoc, UInt16.and_assoc, UInt16.and_comm p.mask]

end Pattern

private theorem op_eq_of_matches {w : Word} {p q : Pattern}
    (hp : p ∈ patterns) (hq : q ∈ patterns) (matched : p.Matches w)
    (matched' : q.Matches w) :
    p.op = q.op ∨ p.op = .sys ∧ (q.op = .clear ∨ q.op = .ret) ∨
      q.op = .sys ∧ (p.op = .clear ∨ p.op = .ret) := by
  have apart : ∀ p ∈ patterns, ∀ q ∈ patterns,
      p.bits &&& q.mask = q.bits &&& p.mask →
        p.op = q.op ∨ p.op = .sys ∧ (q.op = .clear ∨ q.op = .ret) ∨
          q.op = .sys ∧ (p.op = .clear ∨ p.op = .ret) := by decide
  exact apart p hp q hq (Pattern.bits_of_overlaps ⟨w, matched, matched'⟩)

private theorem exists_matches {w : Word} {op : Op} (known : op ≠ .unknown)
    (form : op.Form w) : ∃ p ∈ patterns, p.op = op ∧ p.Matches w := by
  have listed : ∃ p ∈ patterns, p.op = op := by
    revert known
    cases op <;> decide
  obtain ⟨p, hp, rfl⟩ := listed
  exact ⟨p, hp, rfl, (matches_iff w p hp).mpr (.inl form)⟩

private theorem not_form_of_sys {w : Word} {op : Op} (sys : Op.sys.Form w)
    (h : op = .clear ∨ op = .ret) : ¬ op.Form w := by
  rcases h with rfl | rfl
  · exact sys.2.1
  · exact sys.2.2

theorem Op.Form.unique {w : Word} {a b : Op} (ha : a.Form w) (hb : b.Form w) :
    a = b := by
  by_cases known : a = .unknown ∨ b = .unknown
  · by_cases both : a = b
    · exact both
    · rcases known with rfl | rfl
      · obtain ⟨p, hp, -, matched⟩ := exists_matches (Ne.symm both) hb
        exact absurd matched (ha p hp)
      · obtain ⟨p, hp, -, matched⟩ := exists_matches both ha
        exact absurd matched (hb p hp)
  · obtain ⟨p, hp, rfl, matched⟩ := exists_matches (not_or.mp known).1 ha
    obtain ⟨q, hq, rfl, matched'⟩ := exists_matches (not_or.mp known).2 hb
    rcases op_eq_of_matches hp hq matched matched' with
      same | ⟨sys, h⟩ | ⟨sys, h⟩
    · exact same
    · exact absurd hb (not_form_of_sys (sys ▸ ha) h)
    · exact absurd ha (not_form_of_sys (sys ▸ hb) h)

theorem form_classify (w : Word) : (classify patterns w).Form w := by
  by_cases taken : w = 0x00E0 ∨ w = 0x00EE
  · rcases taken with rfl | rfl
    · exact (rfl : (0x00E0 : Word) = 0x00E0)
    · exact (rfl : (0x00EE : Word) = 0x00EE)
  · unfold classify
    cases found : patterns.find? (fun p => decide (p.Matches w)) with
    | none =>
        intro p hp
        simpa using List.find?_eq_none.mp found p hp
    | some p =>
        have matched : p.Matches w := by simpa using List.find?_some found
        have hp : p ∈ patterns := List.mem_of_find?_eq_some found
        rcases (matches_iff w p hp).mp matched with form | ⟨-, special⟩
        · exact form
        · exact absurd special taken

theorem decode_of_form {w : Word} {op : Op} (form : op.Form w) :
    (decode w).instruction = op.instruction w.operands := by
  rw [decode, decodeWith, Decoded.instruction, (form_classify w).unique form]

theorem exists_form (w : Word) :
    ∃ op : Op, op.Form w ∧
      (decode w).instruction = op.instruction w.operands :=
  ⟨_, form_classify w, rfl⟩

theorem classify_eq_iff (w : Word) (op : Op) :
    classify patterns w = op ↔ op.Form w :=
  ⟨fun h => h ▸ form_classify w, fun h => (form_classify w).unique h⟩

theorem op_decode_eq_iff (w : Word) (op : Op) :
    (decode w).op = op ↔ op.Form w := by
  rw [decode, op_decodeWith, classify_eq_iff]

theorem op_instruction_eq_iff (w : Word) (op : Op) :
    (decode w).instruction.op = op ↔ op.Form w := by
  rw [Decoded.op_instruction, op_decode_eq_iff]

theorem op_instruction_ne {w : Word} {op : Op} (h : ¬ op.Form w) :
    (decode w).instruction.op ≠ op :=
  mt (op_instruction_eq_iff w op).mp h

end Chip8
