import Chip8.Proofs.Listing.Bytes
import Chip8.Proofs.Text.Radix

/-!
# The text of a listing

Nothing of a program is lost in its printed listing.  A line begins with the
address, which a colon ends, and with the bytes, in a column of four places;
the rest of it follows from the bytes.  So no line begins another, and lines
can be told apart from the left.
-/

namespace Chip8

section

variable {α β : Type} {f : β → List α} {sep : List α}

private theorem intercalate_cons (x : β) (xs : List β) :
    sep.intercalate ((x :: xs).map f) =
      f x ++ if xs = [] then [] else sep ++ sep.intercalate (xs.map f) := by
  cases xs <;> simp

/-- Texts none of which begins another can be joined without loss. -/
theorem intercalate_inj (separates : sep ≠ []) (nonempty : ∀ x, f x ≠ [])
    (apart : ∀ x y s s', f x ++ s = f y ++ s' → x = y ∧ s = s')
    {xs ys : List β}
    (h : sep.intercalate (xs.map f) = sep.intercalate (ys.map f)) :
    xs = ys := by
  induction xs generalizing ys with
  | nil =>
      cases ys with
      | nil => rfl
      | cons y ys =>
          rw [intercalate_cons] at h
          exact absurd (List.append_eq_nil_iff.mp h.symm).1 (nonempty y)
  | cons x xs ih =>
      cases ys with
      | nil =>
          rw [intercalate_cons] at h
          exact absurd (List.append_eq_nil_iff.mp h).1 (nonempty x)
      | cons y ys =>
          rw [intercalate_cons, intercalate_cons] at h
          obtain ⟨rfl, rest⟩ := apart _ _ _ _ h
          by_cases last : xs = [] <;> by_cases last' : ys = [] <;>
            simp only [last, last', if_true, if_false] at rest
          · rw [last, last']
          · simp [separates] at rest
          · simp [separates] at rest
          · rw [ih (List.append_cancel_left rest)]

end

section

open Radix

theorem colon_not_mem_hex (width : Nat) (value : Int) :
    ':' ∉ padded 16 width value :=
  not_mem_padded (by decide) (by decide) (by decide) width value

theorem space_not_mem_hex (width : Nat) (value : Int) :
    ' ' ∉ padded 16 width value :=
  not_mem_padded (by decide) (by decide) (by decide) width value

theorem padded_hex_inj {width : Nat} {a b : Int}
    (h : padded 16 width a = padded 16 width b) : a = b :=
  padded_injective (by decide) (by decide) h

namespace Item

theorem toList_bytesColumn (i : Item) :
    i.bytesColumn.toList =
      match i with
      | word w => padded 16 4 w.toNat
      | data b => padded 16 2 b.toNat ++ [' ', ' '] := by
  cases i <;> simp [bytesColumn, hex]

theorem length_bytesColumn (i : Item) : i.bytesColumn.toList.length = 4 := by
  rw [toList_bytesColumn]
  cases i with
  | word w => exact length_padded (by decide) w.toNat_lt
  | data b =>
      rw [List.length_append, length_padded (k := 1) (by decide) b.toNat_lt]
      rfl

theorem bytesColumn_inj {a b : Item}
    (h : a.bytesColumn.toList = b.bytesColumn.toList) : a = b := by
  rw [toList_bytesColumn, toList_bytesColumn] at h
  cases a with
  | word v =>
      cases b with
      | word w =>
          have same := padded_hex_inj h
          rw [UInt16.toNat.inj (Int.ofNat.inj same)]
      | data b => exact absurd (by simp [h]) (space_not_mem_hex 4 v.toNat)
  | data a =>
      cases b with
      | word w => exact absurd (by simp [← h]) (space_not_mem_hex 4 w.toNat)
      | data b =>
          have same := padded_hex_inj (List.append_cancel_right h)
          rw [UInt8.toNat.inj (Int.ofNat.inj same)]

end Item

theorem Entry.toList_line (e : Entry) :
    e.line.toList = padded 16 3 e.address ++ ':' :: ' ' ::
      (e.item.bytesColumn.toList ++ ' ' :: ' ' :: e.item.text.toList) := by
  simp [line, hex]

theorem Entry.line_apart (a b : Entry) (s s' : List Char)
    (h : a.line.toList ++ s = b.line.toList ++ s') : a = b ∧ s = s' := by
  rw [toList_line, toList_line] at h
  simp only [List.append_assoc, List.cons_append] at h
  obtain ⟨address, rest⟩ := append_inj_of_stops (colon_not_mem_hex 3 _)
    (colon_not_mem_hex 3 _) (by simp) (by simp) h
  simp only [List.cons.injEq, true_and] at rest
  obtain ⟨column, rest⟩ := List.append_inj rest
    (by rw [Item.length_bytesColumn, Item.length_bytesColumn])
  obtain ⟨p, i⟩ := a
  obtain ⟨q, j⟩ := b
  obtain rfl : p = q := padded_hex_inj address
  obtain rfl : i = j := Item.bytesColumn_inj column
  simpa using rest

end

theorem toList_listing (origin : Int) (program : List Byte) :
    (listing origin program).toList =
      ['\n'].intercalate
        ((disassemble origin program).map (·.line.toList)) := by
  rw [listing, String.toList_intercalate, List.map_map]
  rfl

theorem entries_of_listing {o o' : Int} {program program' : List Byte}
    (h : listing o program = listing o' program') :
    disassemble o program = disassemble o' program' := by
  have joined := congrArg String.toList h
  rw [toList_listing, toList_listing] at joined
  refine intercalate_inj (List.cons_ne_nil _ _) ?_ Entry.line_apart joined
  intro e
  simp [Entry.toList_line]

theorem origin_of_disassemble {o o' : Int} {program : List Byte}
    (nonempty : program ≠ [])
    (h : disassemble o program = disassemble o' program) : o = o' := by
  have first : 0 < (disassemble o program).length := by
    have := List.length_pos_iff.mpr nonempty
    rw [length_disassemble]
    omega
  obtain ⟨e, found⟩ : ∃ e, (disassemble o program)[0]? = some e :=
    ⟨_, List.getElem?_eq_getElem first⟩
  have left := address_disassemble o program found
  rw [h] at found
  have right := address_disassemble o' program found
  omega

/-- The text determines the program, and where the program begins, if it has
any bytes at all. -/
theorem listing_eq_iff (o o' : Int) (program program' : List Byte) :
    listing o program = listing o' program' ↔
      program = program' ∧ (program ≠ [] → o = o') := by
  constructor
  · intro h
    have entries := entries_of_listing h
    obtain rfl : program = program' := by
      rw [← bytes_disassemble o program, entries, bytes_disassemble]
    exact ⟨rfl, fun nonempty => origin_of_disassemble nonempty entries⟩
  · rintro ⟨rfl, same⟩
    by_cases empty : program = []
    · rw [empty]
      rfl
    · rw [same empty]

end Chip8
