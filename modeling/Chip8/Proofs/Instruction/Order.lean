import Chip8.Proofs.Instruction.Form

/-!
# The order of the pattern table

The first pattern that a word matches comes before all others that it matches.
So a table can be rearranged if patterns that overlap keep their order.  In the
table of the instruction set the only ones that do are `clear` and `ret`, each
with `sys`, and there the order counts.
-/

namespace Chip8

/-- The pattern `p` comes before `q`, which need not be in the table. -/
def Before (table : List Pattern) (p q : Pattern) : Prop :=
  table.idxOf p < table.idxOf q

instance (table : List Pattern) (p q : Pattern) : Decidable (Before table p q) :=
  inferInstanceAs (Decidable (_ < _))

def first? (table : List Pattern) (w : Word) : Option Pattern :=
  table.find? fun p => decide (p.Matches w)

section

variable {table table' : List Pattern} {w : Word} {p q : Pattern}

theorem classify_eq_first? (table : List Pattern) (w : Word) :
    classify table w = ((first? table w).map Pattern.op).getD .unknown := by
  unfold classify first?
  cases table.find? (fun p => decide (p.Matches w)) <;> rfl

theorem first?_eq_none_iff :
    first? table w = none ↔ ∀ p ∈ table, ¬ p.Matches w := by
  simp [first?]

theorem mem_of_first? (found : first? table w = some p) :
    p ∈ table ∧ p.Matches w :=
  ⟨List.mem_of_find?_eq_some found, by simpa using List.find?_some found⟩

theorem before_of_first? (found : first? table w = some p) (mem : q ∈ table)
    (matched : q.Matches w) (other : q ≠ p) : Before table p q := by
  induction table with
  | nil => cases found
  | cons head rest ih =>
      by_cases here : head.Matches w
      · have same : head = p := by simpa [first?, here] using found
        simp [Before, List.idxOf_cons, same, beq_false_of_ne other.symm]
      · have found : first? rest w = some p := by
          simpa [first?, here] using found
        have passed : head ≠ q := fun same => here (same ▸ matched)
        have passed' : head ≠ p := fun same =>
          here (same ▸ (mem_of_first? found).2)
        have mem : q ∈ rest := by simpa [passed.symm] using mem
        simpa [Before, List.idxOf_cons, beq_false_of_ne passed,
          beq_false_of_ne passed'] using ih found mem

theorem first?_congr (same : ∀ p, p ∈ table ↔ p ∈ table')
    (order : ∀ p ∈ table, ∀ q ∈ table, p.Overlaps q →
      Before table p q → Before table' p q) (w : Word) :
    first? table w = first? table' w := by
  cases found : first? table w with
  | none =>
      symm
      rw [first?_eq_none_iff] at found ⊢
      exact fun p hp => found p ((same p).mpr hp)
  | some p =>
      obtain ⟨hp, matched⟩ := mem_of_first? found
      cases found' : first? table' w with
      | none =>
          exact absurd matched
            (first?_eq_none_iff.mp found' p ((same p).mp hp))
      | some q =>
          obtain ⟨hq', matched'⟩ := mem_of_first? found'
          have hq : q ∈ table := (same q).mpr hq'
          -- Two first matches overlap, so each would come before the other.
          by_cases other : q = p
          · rw [other]
          · have first := order p hp q hq ⟨w, matched, matched'⟩
              (before_of_first? found hq matched' other)
            have first' := before_of_first? found' ((same p).mp hp) matched
              (Ne.symm other)
            exact absurd first (Nat.lt_asymm first')

theorem before_of_classify (decides : classify table w = p.op)
    (known : p.op ≠ .unknown) (only : ∀ r ∈ table, r.op = p.op → r = p)
    (mem : q ∈ table) (matched : q.Matches w) (other : q ≠ p) :
    Before table p q := by
  rw [classify_eq_first?] at decides
  cases found : first? table w with
  | none => simp [found, known.symm] at decides
  | some r =>
      have op : r.op = p.op := by simpa [found] using decides
      obtain rfl := only r (mem_of_first? found).1 op
      exact before_of_first? found mem matched other

end

namespace Pattern

def clear : Pattern := ⟨0xFFFF, 0x00E0, .clear⟩

def ret : Pattern := ⟨0xFFFF, 0x00EE, .ret⟩

def sys : Pattern := ⟨0xF000, 0x0000, .sys⟩

end Pattern

theorem overlaps_patterns : ∀ p ∈ patterns, ∀ q ∈ patterns, p.Overlaps q →
    Before patterns p q → (p = .clear ∨ p = .ret) ∧ q = .sys := by
  have apart : ∀ p ∈ patterns, ∀ q ∈ patterns,
      p.bits &&& q.mask = q.bits &&& p.mask → Before patterns p q →
        (p = .clear ∨ p = .ret) ∧ q = .sys := by decide
  exact fun p hp q hq h => apart p hp q hq (Pattern.bits_of_overlaps h)

theorem decodeWith_eq_decode_iff {table : List Pattern}
    (perm : table.Perm patterns) :
    (∀ w, decodeWith table w = decode w) ↔
      Before table .clear .sys ∧ Before table .ret .sys := by
  constructor
  · intro same
    have classified : ∀ w, classify table w = classify patterns w := by
      intro w
      exact congrArg Decoded.op (same w)
    have only : ∀ p ∈ [Pattern.clear, .ret], ∀ r ∈ patterns,
        r.op = p.op → r = p := by decide
    have sys : Pattern.sys ∈ table := perm.mem_iff.mpr (by decide)
    constructor
    · exact before_of_classify (p := .clear) (classified 0x00E0) (by decide)
        (fun r hr => only _ (by simp) r (perm.mem_iff.mp hr)) sys
        (by decide) (by decide)
    · exact before_of_classify (p := .ret) (classified 0x00EE) (by decide)
        (fun r hr => only _ (by simp) r (perm.mem_iff.mp hr)) sys
        (by decide) (by decide)
  · rintro ⟨clear, ret⟩ w
    have kept : ∀ p ∈ patterns, ∀ q ∈ patterns, p.Overlaps q →
        Before patterns p q → Before table p q := by
      intro p hp q hq overlap before
      obtain ⟨rfl | rfl, rfl⟩ := overlaps_patterns p hp q hq overlap before
      · exact clear
      · exact ret
    rw [decode, decodeWith, decodeWith, classify_eq_first?, classify_eq_first?,
      first?_congr (fun p => perm.mem_iff.symm) kept]

/-- The operands of an instruction are these fields. -/
def Instruction.Uses (f : Operands) : Instruction → Prop
  | sys nnn | jump nnn | call nnn | jumpOffset nnn | setIndex nnn =>
      nnn = f.nnn
  | clear | ret => True
  | skipEqByte x kk | skipNeByte x kk | setByte x kk | addByte x kk
  | random x kk =>
      x = f.x ∧ kk = f.kk
  | skipEq x y | skipNe x y | copy x y | or x y | and x y | xor x y
  | add x y | sub x y | subFrom x y =>
      x = f.x ∧ y = f.y
  | skipKey x | skipNoKey x | shiftRight x | shiftLeft x | addIndex x
  | glyph x | digits x | store x | load x | readDelay x | setDelay x
  | setSound x | waitKey x =>
      x = f.x
  | draw x y n => x = f.x ∧ y = f.y ∧ n = f.n
  | unknown word => word = f.word

theorem Decoded.instruction_uses (d : Decoded) :
    d.instruction.Uses d.toOperands := by
  obtain ⟨fields, op⟩ := d
  cases op <;> simp [instruction, Op.instruction, Instruction.Uses]

/-- Integers are decoded by their low sixteen bits.  What they are decoded to
depends on the order of the table only where the patterns of `clear`, `ret` and
`sys` stand, and its fields make up those bits. -/
theorem decode_in_any_order (table : List Pattern)
    (perm : table.Perm patterns) :
    ((∀ value : Int, decodeWith table (.ofInt value) = decode (.ofInt value)) ↔
      Before table .clear .sys ∧ Before table .ret .sys) ∧
    ∀ value : Int,
      let d := decode (.ofInt value)
      d = decode (.ofInt (value % 65536)) ∧
      (d.op = .unknown ↔ ∀ p ∈ patterns, ¬ p.Matches (.ofInt value)) ∧
      d.word.toNat = value % 65536 ∧
      d.word.toNat = 4096 * d.word.group.val + d.nnn.val ∧
      d.nnn.val = 256 * d.x.val + d.kk.toNat ∧
      d.kk.toNat = 16 * d.y.val + d.n.val ∧
      d.word.group.val ≤ 15 ∧ d.x.val ≤ 15 ∧ d.y.val ≤ 15 ∧ d.n.val ≤ 15 ∧
      d.instruction.op = d.op ∧ d.instruction.Uses d.toOperands := by
  constructor
  · rw [← decodeWith_eq_decode_iff perm]
    constructor
    · intro same w
      rw [← Word.ofInt_toNat w]
      exact same _
    · exact fun same value => same (.ofInt value)
  · intro value d
    have word : d.word = .ofInt value := rfl
    refine ⟨?_, op_decode_eq_iff _ .unknown, ?_, Word.toNat_eq_group _,
      Word.val_nnn _, Word.toNat_kk _, by omega, by omega, by omega, by omega,
      d.op_instruction, d.instruction_uses⟩
    · have low : Word.ofInt (value % 65536) = .ofInt value :=
        (Word.ofInt_eq_iff ..).mpr (Int.emod_emod_of_dvd value (by decide))
      rw [low]
    · rw [word, Word.toNat_ofInt]
      omega

theorem decode_in_any_order_rotated :
    let table : List Pattern := patterns.drop 3 ++ [.ret, .clear, .sys]
    table.Perm patterns ∧
      decodeWith table (.ofInt 0x100E0) =
        ⟨⟨0x00E0, 0x0, 0xE, 0x0, 0xE0, 0x0E0⟩, .clear⟩ := by
  intro table
  have perm : table.Perm patterns := by decide
  obtain ⟨order, fields⟩ := decode_in_any_order table perm
  refine ⟨perm, ?_⟩
  rw [order.mpr ⟨by decide, by decide⟩, (fields _).1]
  decide

/-- The other way round `sys` takes the words of `clear`. -/
example : (decodeWith patterns.reverse 0x00E0).op = .sys := by decide

end Chip8
