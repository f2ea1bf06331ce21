import Chip8.Instruction.Mnemonic
import Chip8.Proofs.Instruction.Form
import Chip8.Proofs.Text.Radix

/-!
# Reading assembly text

The template of an operation is given here as data: characters, and places for
fields.  No field holds a comma, and in a template each field is followed by a
comma or by the end, so a text has at most one reading.  It determines the
instruction, and so all of the word but the `y` of a shift.
-/

namespace Chip8

inductive Slot where
  | word | x | y | n | kk | nnn
  deriving DecidableEq

namespace Slot

def value (f : Fields) : Slot → Int
  | word => f.word
  | x => f.x
  | y => f.y
  | n => f.n
  | kk => f.kk
  | nnn => f.nnn

def width : Slot → Nat
  | word => 4
  | nnn => 3
  | kk => 2
  | x | y | n => 1

def base : Slot → Nat
  | n => 10
  | word | x | y | kk | nnn => 16

def text (f : Fields) (s : Slot) : List Char :=
  Radix.padded s.base s.width (s.value f)

theorem two_le_base (s : Slot) : 2 ≤ s.base := by
  cases s <;> decide

theorem comma_not_mem_text (f : Fields) (s : Slot) : ',' ∉ s.text f := by
  have digit : ∀ d < s.base, Radix.digitChar d ≠ ',' := by
    cases s <;> decide
  exact Radix.not_mem_padded s.two_le_base (by decide) digit _ _

theorem value_of_text {f g : Fields} {s : Slot} (h : s.text f = s.text g) :
    s.value f = s.value g := by
  have high : s.base ≤ 36 := by
    cases s <;> decide
  exact Radix.padded_injective s.two_le_base high h

end Slot

inductive Piece where
  | char (c : Char)
  | slot (s : Slot)

def Piece.text (f : Fields) : Piece → List Char
  | char c => [c]
  | slot s => s.text f

abbrev Template := List Piece

namespace Template

def fill (f : Fields) (t : Template) : List Char := t.flatMap (·.text f)

def stops : Template → Bool
  | [] => true
  | .char c :: _ => c == ','
  | .slot _ :: _ => false

def separated : Template → Bool
  | [] => true
  | .char _ :: t => separated t
  | .slot _ :: t => stops t && separated t

/-- Whether two templates come to different characters while their fields still
stand in the same places. -/
def clash : Template → Template → Bool
  | .char c :: t, .char d :: u => c != d || clash t u
  | .slot _ :: t, .slot _ :: u => stops t && stops u && clash t u
  | _, _ => false

section

variable {f g : Fields} {t u : Template}

theorem head?_fill (h : stops t) : ∀ c ∈ (t.fill f).head?, c = ',' := by
  match t with
  | [] => simp [fill]
  | .char c :: t => simpa [fill, Piece.text, stops] using h

theorem fill_slot_inj {r s : Slot} (ht : stops t) (hu : stops u)
    (h : fill f (.slot r :: t) = fill g (.slot s :: u)) :
    r.text f = s.text g ∧ t.fill f = u.fill g :=
  Radix.append_inj_of_stops (r.comma_not_mem_text f) (s.comma_not_mem_text g)
    (head?_fill ht) (head?_fill hu) h

theorem fill_ne_of_clash (h : clash t u) : t.fill f ≠ u.fill g := by
  fun_induction clash t u with
  | case1 c t d u ih =>
      intro same
      obtain ⟨rfl, rest⟩ := List.cons.inj same
      simp only [bne_self_eq_false, Bool.false_or] at h
      exact ih h rest
  | case2 r t s u ih =>
      -- Both fields end here, whatever they hold, so the rest would agree.
      intro same
      simp only [Bool.and_eq_true] at h
      exact ih h.2 (fill_slot_inj h.1.1 h.1.2 same).2
  | case3 => cases h

theorem fill_eq_iff (h : separated t) :
    t.fill f = t.fill g ↔ ∀ s, .slot s ∈ t → s.value f = s.value g := by
  induction t with
  | nil => simp [fill]
  | cons piece t ih =>
      cases piece with
      | char c => simpa [fill, Piece.text] using ih h
      | slot r =>
          simp only [separated, Bool.and_eq_true] at h
          constructor
          · intro same s mem
            have split := fill_slot_inj h.1 h.1 same
            rcases List.mem_cons.mp mem with here | later
            · cases here
              exact Slot.value_of_text split.1
            · exact (ih h.2).mp split.2 s later
          · intro values
            have first : r.value f = r.value g := values r List.mem_cons_self
            have rest : fill f t = fill g t :=
              (ih h.2).mpr fun s mem => values s (List.mem_cons_of_mem _ mem)
            simp only [fill, List.flatMap_cons, Piece.text, Slot.text, first]
              at rest ⊢
            simp only [rest]

end

def chars (text : String) : Template := text.toList.map .char

def register (s : Slot) : Template := [.char 'V', .slot s]

def byte : Template := chars "0x" ++ [.slot .kk]

def address : Template := chars "0x" ++ [.slot .nnn]

def pair (name : String) : Template :=
  chars name ++ register .x ++ chars ", " ++ register .y

def immediate (name : String) : Template :=
  chars name ++ register .x ++ chars ", " ++ byte

def ofOp : Op → Template
  | .sys => chars "SYS " ++ address
  | .clear => chars "CLS"
  | .ret => chars "RET"
  | .jump => chars "JP " ++ address
  | .call => chars "CALL " ++ address
  | .jumpOffset => chars "JP V0, " ++ address
  | .skipEqByte => immediate "SE "
  | .skipNeByte => immediate "SNE "
  | .skipEq => pair "SE "
  | .skipNe => pair "SNE "
  | .skipKey => chars "SKP " ++ register .x
  | .skipNoKey => chars "SKNP " ++ register .x
  | .setByte => immediate "LD "
  | .addByte => immediate "ADD "
  | .copy => pair "LD "
  | .or => pair "OR "
  | .and => pair "AND "
  | .xor => pair "XOR "
  | .add => pair "ADD "
  | .sub => pair "SUB "
  | .shiftRight => chars "SHR " ++ register .x
  | .subFrom => pair "SUBN "
  | .shiftLeft => chars "SHL " ++ register .x
  | .setIndex => chars "LD I, " ++ address
  | .addIndex => chars "ADD I, " ++ register .x
  | .glyph => chars "LD F, " ++ register .x
  | .digits => chars "LD B, " ++ register .x
  | .store => chars "LD [I], " ++ register .x
  | .load => chars "LD " ++ register .x ++ chars ", [I]"
  | .draw => pair "DRW " ++ chars ", " ++ [.slot .n]
  | .readDelay => chars "LD " ++ register .x ++ chars ", DT"
  | .setDelay => chars "LD DT, " ++ register .x
  | .setSound => chars "LD ST, " ++ register .x
  | .random => immediate "RND "
  | .waitKey => chars "LD " ++ register .x ++ chars ", K"
  | .unknown => chars "UNKNOWN 0x" ++ [.slot .word]

theorem toList_text (f : Fields) (op : Op) :
    (op.text f).toList = (ofOp op).fill f := by
  cases op <;>
    simp [Op.text, ofOp, fill, chars, register, byte, address, pair, immediate,
      Piece.text, Slot.text, Slot.base, Slot.width, Slot.value]

theorem separated_ofOp (op : Op) : (ofOp op).separated := by
  cases op <;> decide

theorem clash_ofOp {a b : Op} (h : a ≠ b) : (ofOp a).clash (ofOp b) := by
  have apart : ∀ a ∈ Op.all, ∀ b ∈ Op.all, a ≠ b →
      (ofOp a).clash (ofOp b) := by decide +kernel
  exact apart a a.mem_all b b.mem_all h

theorem text_eq_iff (a b : Op) (f g : Fields) :
    a.text f = b.text g ↔
      a = b ∧ ∀ s, .slot s ∈ ofOp a → s.value f = s.value g := by
  rw [← String.toList_inj, toList_text, toList_text]
  by_cases same : a = b
  · subst same
    simp [fill_eq_iff (separated_ofOp a)]
  · simp [same, fill_ne_of_clash (clash_ofOp same)]

theorem instruction_eq_iff {op : Op} {f g : Operands} :
    op.instruction f = op.instruction g ↔
      ∀ s, .slot s ∈ ofOp op → s.value f.fields = s.value g.fields := by
  cases op <;>
    simp [Op.instruction, ofOp, chars, register, byte, address, pair, immediate,
      Slot.value, Operands.fields, or_imp, forall_and, ↓Int.natCast_inj,
      Fin.val_inj, UInt8.toNat_inj, UInt16.toNat_inj]

end Template

theorem text_eq_iff_instruction_eq (d e : Decoded) :
    d.text = e.text ↔ d.instruction = e.instruction := by
  rw [Decoded.text, Decoded.text, Template.text_eq_iff]
  constructor
  · rintro ⟨op, operands⟩
    rw [Decoded.instruction, Decoded.instruction, ← op]
    exact Template.instruction_eq_iff.mpr operands
  · intro same
    have op : d.op = e.op := by
      rw [← d.op_instruction, same, e.op_instruction]
    rw [Decoded.instruction, Decoded.instruction, ← op] at same
    exact ⟨op, Template.instruction_eq_iff.mp same⟩

section Words

variable {v w : Word}

namespace Word

theorem eq_of_group_nnn (group : v.group = w.group) (nnn : v.nnn = w.nnn) :
    v = w := by
  rw [eq_iff_toNat, toNat_eq_group, toNat_eq_group w, group, nnn]

theorem eq_of_group_kk (group : v.group = w.group) (x : v.x = w.x)
    (kk : v.kk = w.kk) : v = w := by
  apply eq_of_group_nnn group
  rw [Fin.ext_iff, val_nnn, val_nnn, x, kk]

theorem eq_of_group_n (group : v.group = w.group) (x : v.x = w.x)
    (y : v.y = w.y) (n : v.n = w.n) : v = w := by
  apply eq_of_group_kk group x
  rw [← UInt8.toNat_inj, toNat_kk, toNat_kk, y, n]

end Word

/-- Words for the same shift of the same register differ only in `y`. -/
def SameShift (v w : Word) : Prop :=
  ∃ op ∈ [Op.shiftRight, .shiftLeft],
    (decode v).op = op ∧ (decode w).op = op ∧ v.x = w.x

theorem SameShift.instruction_eq (h : SameShift v w) :
    (decode v).instruction = (decode w).instruction := by
  obtain ⟨op, shift, hv, hw, x⟩ := h
  rw [decode_of_form ((op_decode_eq_iff ..).mp hv),
    decode_of_form ((op_decode_eq_iff ..).mp hw)]
  simp only [List.mem_cons, List.not_mem_nil, or_false] at shift
  rcases shift with rfl | rfl <;> simp [Op.instruction, x]

/-- With the operation, which fixes some nibbles, the operands make up the word,
except that a shift has no operand `y`. -/
theorem eq_or_sameShift
    (h : (decode v).instruction = (decode w).instruction) :
    v = w ∨ SameShift v w := by
  obtain ⟨op, form, decoded⟩ := exists_form v
  have form' : op.Form w := by
    rw [← op_instruction_eq_iff, ← h, op_instruction_eq_iff]
    exact form
  rw [decoded, decode_of_form form'] at h
  cases op with
  | clear | ret => exact .inl (form.trans form'.symm)
  | unknown => exact .inl (by simpa [Op.instruction] using h)
  | sys =>
      have nnn : v.nnn = w.nnn := by simpa [Op.instruction] using h
      exact .inl (Word.eq_of_group_nnn (form.1.trans form'.1.symm) nnn)
  | jump | call | jumpOffset | setIndex =>
      have nnn : v.nnn = w.nnn := by simpa [Op.instruction] using h
      exact .inl (Word.eq_of_group_nnn (form.trans form'.symm) nnn)
  | skipEqByte | skipNeByte | setByte | addByte | random =>
      have same : v.x = w.x ∧ v.kk = w.kk := by simpa [Op.instruction] using h
      exact .inl (Word.eq_of_group_kk (form.trans form'.symm) same.1 same.2)
  | skipEq | skipNe | copy | or | and | xor | add | sub | subFrom =>
      have same : v.x = w.x ∧ v.y = w.y := by simpa [Op.instruction] using h
      exact .inl (Word.eq_of_group_n (form.1.trans form'.1.symm) same.1 same.2
        (form.2.trans form'.2.symm))
  | draw =>
      have same : v.x = w.x ∧ v.y = w.y ∧ v.n = w.n := by
        simpa [Op.instruction] using h
      exact .inl (Word.eq_of_group_n (form.trans form'.symm) same.1 same.2.1
        same.2.2)
  | shiftRight | shiftLeft =>
      have x : v.x = w.x := by simpa [Op.instruction] using h
      exact .inr ⟨_, by simp, (op_decode_eq_iff ..).mpr form,
        (op_decode_eq_iff ..).mpr form', x⟩
  | _ =>
      have x : v.x = w.x := by simpa [Op.instruction] using h
      exact .inl (Word.eq_of_group_kk (form.1.trans form'.1.symm) x
        (form.2.trans form'.2.symm))

theorem instruction_decode_eq_iff :
    (decode v).instruction = (decode w).instruction ↔
      v = w ∨ SameShift v w := by
  constructor
  · exact eq_or_sameShift
  · rintro (rfl | shift)
    · rfl
    · exact shift.instruction_eq

end Words

end Chip8
