import Chip8.Listing
import Chip8.Machine.State
import Chip8.Proofs.Machine.Access

/-!
# Listings and bytes

A listing keeps all the bytes of a program: assembling its words, with the byte
left over behind them, gives the program back.  The other way round, the listing
of assembled words has these words and nothing else, and so has a memory into
which they have been loaded.
-/

namespace Chip8

def Item.bytes : Item → List Byte
  | word w => [w.high, w.low]
  | data b => [b]

def words (entries : List Entry) : List Word :=
  entries.filterMap (·.item.word?)

theorem length_disassemble (origin : Int) (program : List Byte) :
    (disassemble origin program).length = (program.length + 1) / 2 := by
  fun_induction disassemble origin program with
  | case1 => rfl
  | case2 origin b => simp
  | case3 origin high low rest ih =>
      simp only [List.length_cons, ih]
      omega

theorem bytes_disassemble (origin : Int) (program : List Byte) :
    (disassemble origin program).flatMap (·.item.bytes) = program := by
  fun_induction disassemble origin program with
  | case1 => rfl
  | case2 origin b => rfl
  | case3 origin high low rest ih =>
      rw [List.flatMap_cons, ih, Item.bytes, Word.high_ofBytes,
        Word.low_ofBytes]
      rfl

theorem disassemble_append (origin : Int) {front : List Byte}
    (back : List Byte) (even : front.length % 2 = 0) :
    disassemble origin (front ++ back) =
      disassemble origin front ++
        disassemble (origin + front.length) back := by
  fun_induction disassemble origin front with
  | case1 => simp
  | case2 origin b => simp at even
  | case3 origin high low rest ih =>
      have later : rest.length % 2 = 0 := by
        simp only [List.length_cons] at even
        omega
      have shift : origin + 2 + rest.length =
          origin + (high :: low :: rest).length := by
        simp only [List.length_cons]
        omega
      rw [List.cons_append, List.cons_append, disassemble, ih later, shift]
      rfl

theorem getElem?_disassemble (origin : Int) (program : List Byte) {k : Nat}
    (h : 2 * k + 1 < program.length) :
    (disassemble origin program)[k]? =
      some ⟨origin + 2 * k,
        .word (Word.ofBytes program[2 * k] program[2 * k + 1])⟩ := by
  induction k generalizing origin program with
  | zero =>
      match program, h with
      | high :: low :: rest, _ => simp [disassemble]
  | succ k ih =>
      match program, h with
      | high :: low :: rest, h =>
          have later : 2 * k + 1 < rest.length := by
            simp only [List.length_cons] at h
            omega
          rw [disassemble, List.getElem?_cons_succ, ih _ _ later]
          have shift : 2 * (k + 1) = 2 * k + 1 + 1 := by omega
          simp [shift]
          omega

theorem address_disassemble (origin : Int) (program : List Byte) {k : Nat}
    {e : Entry} (h : (disassemble origin program)[k]? = some e) :
    e.address = origin + 2 * k := by
  fun_induction disassemble origin program generalizing k with
  | case1 => simp at h
  | case2 origin b =>
      cases k with
      | zero =>
          cases h
          simp
      | succ k => simp at h
  | case3 origin high low rest ih =>
      cases k with
      | zero =>
          cases h
          simp
      | succ k =>
          rw [List.getElem?_cons_succ] at h
          rw [ih h]
          omega

theorem item_of_mem_disassemble {origin : Int} {program : List Byte} {k : Nat}
    (h : 2 * k + 1 < program.length) {e : Entry}
    (mem : e ∈ disassemble origin program) (here : e.address = origin + 2 * k) :
    e.item = .word (Word.ofBytes program[2 * k] program[2 * k + 1]) := by
  obtain ⟨j, found⟩ := List.mem_iff_getElem?.mp mem
  have address := address_disassemble origin program found
  obtain rfl : j = k := by omega
  rw [getElem?_disassemble origin program h] at found
  cases found
  rfl

theorem assemble_words_of_even (origin : Int) {program : List Byte}
    (even : program.length % 2 = 0) :
    assemble (words (disassemble origin program)) = program := by
  fun_induction disassemble origin program with
  | case1 => rfl
  | case2 origin b => simp at even
  | case3 origin high low rest ih =>
      have later : rest.length % 2 = 0 := by
        simp only [List.length_cons] at even
        omega
      have split : ∀ w entries, words (⟨origin, .word w⟩ :: entries) =
          w :: words entries := fun _ _ => rfl
      rw [split, assemble, List.flatMap_cons, Word.high_ofBytes,
        Word.low_ofBytes, ← assemble, ih later]
      rfl

theorem exists_front {program : List Byte} (odd : program.length % 2 = 1) :
    ∃ front b, program = front ++ [b] ∧ front.length % 2 = 0 := by
  obtain rfl | ⟨front, b, rfl⟩ := program.eq_nil_or_concat
  · simp at odd
  · rw [List.concat_eq_append] at odd ⊢
    refine ⟨front, b, rfl, ?_⟩
    rw [List.length_append, List.length_singleton] at odd
    omega

theorem disassemble_assemble (origin : Int) (ws : List Word) :
    (disassemble origin (assemble ws)).map Entry.item = ws.map .word := by
  induction ws generalizing origin with
  | nil => rfl
  | cons w rest ih =>
      have split : assemble (w :: rest) = w.high :: w.low :: assemble rest := rfl
      rw [split, disassemble, Word.ofBytes_high_low, List.map_cons, ih]
      rfl

theorem length_assemble (ws : List Word) :
    (assemble ws).length = 2 * ws.length := by
  induction ws with
  | nil => rfl
  | cons w rest ih =>
      rw [assemble, List.flatMap_cons, List.length_append, ← assemble, ih,
        List.length_cons]
      exact Nat.add_comm ..

theorem words_assemble (origin : Int) (ws : List Word) :
    words (disassemble origin (assemble ws)) = ws := by
  have items := congrArg (List.filterMap Item.word?)
    (disassemble_assemble origin ws)
  rw [List.filterMap_map, List.filterMap_map] at items
  exact items.trans List.filterMap_some

theorem readWord_of_load_assemble {m loaded : Memory} {ws : List Word}
    (h : m.load (assemble ws) = .ok loaded) {k : Nat} (hk : k < ws.length) :
    loaded.readWord (Memory.programStart + 2 * k : Nat) = .ok ws[k] := by
  have inside : 2 * k + 1 < (assemble ws).length := by
    rw [length_assemble]
    omega
  have listed := congrArg (Option.map Entry.item)
    (getElem?_disassemble 0 (assemble ws) inside)
  rw [← List.getElem?_map, disassemble_assemble, List.getElem?_map,
    List.getElem?_eq_getElem hk] at listed
  have word : ws[k] = _ := Item.word.inj (Option.some.inj listed)
  rw [Memory.readWord_of_load h (List.getElem?_eq_getElem _)
    (List.getElem?_eq_getElem inside), word]

structure Lists (origin : Int) (program : List Byte) (entries : List Entry) :
    Prop where
  length : entries.length = (program.length + 1) / 2
  address : ∀ k (h : k < entries.length), entries[k].address = origin + 2 * k
  word : ∀ k, 2 * k + 1 < program.length → ∃ e w, entries[k]? = some e ∧
    e.item = .word w ∧ w.toNat ≤ 65535 ∧ e.item.text = (decode w).text
  even : program.length % 2 = 0 → assemble (words entries) = program
  odd : program.length % 2 = 1 → ∃ b, program.getLast? = some b ∧
    entries.getLast? = some ⟨origin + program.length - 1, .data b⟩ ∧
    (Item.data b).text = "DB 0x" ++ hex 2 b.toNat ∧
    assemble (words entries) ++ [b] = program

theorem lists_disassemble (origin : Int) (program : List Byte) :
    Lists origin program (disassemble origin program) where
  length := length_disassemble origin program
  address k h := address_disassemble origin program (List.getElem?_eq_getElem h)
  word k h :=
    ⟨_, _, getElem?_disassemble origin program h, rfl,
      Nat.le_of_lt_succ (UInt16.toNat_lt _), rfl⟩
  even h := assemble_words_of_even origin h
  odd h := by
    obtain ⟨front, b, rfl, even⟩ := exists_front h
    have cut := disassemble_append origin [b] even
    have last : origin + (front ++ [b]).length - 1 = origin + front.length := by
      rw [List.length_append, List.length_singleton]
      omega
    refine ⟨b, List.getLast?_concat, ?_, rfl, ?_⟩
    · rw [cut, last]
      exact List.getLast?_concat
    · rw [cut, words, List.filterMap_append, ← words]
      exact congrArg (· ++ [b])
        ((congrArg assemble (List.append_nil _)).trans
          (assemble_words_of_even origin even))

theorem disassembly_inverts_assembly :
    (∀ origin program, Lists origin program (disassemble origin program)) ∧
    (∀ (origin : Int) (values : List Int),
      let entries := disassemble origin (assemble (values.map Word.ofInt))
      (words entries).map (fun w => (w.toNat : Int)) =
          values.map (· % 65536) ∧
        ∀ e ∈ entries, ∃ w, e.item = .word w) ∧
    ∀ (m : Machine) (values : List Int),
      2 * values.length ≤ Memory.capacity →
      ∃ loaded, m.load (assemble (values.map Word.ofInt)) = .ok loaded ∧
        ∀ k (h : k < values.length), ∃ w,
          loaded.memory.readWord (Memory.programStart + 2 * k : Nat) = .ok w ∧
            (w.toNat : Int) = values[k] % 65536 := by
  have residue : ∀ v : Int, ((Word.ofInt v).toNat : Int) = v % 65536 := by
    intro v
    rw [Word.toNat_ofInt]
    omega
  refine ⟨lists_disassemble, ?_, ?_⟩
  · intro origin values entries
    constructor
    · rw [words_assemble, List.map_map]
      exact List.map_congr_left fun v _ => residue v
    · intro e mem
      have item := List.mem_map_of_mem (f := Entry.item) mem
      rw [disassemble_assemble, List.mem_map] at item
      obtain ⟨w, -, same⟩ := item
      exact ⟨w, same.symm⟩
  · intro m values fits
    have short : (assemble (values.map Word.ofInt)).length ≤ Memory.capacity := by
      rwa [length_assemble, List.length_map]
    obtain ⟨memory, loaded⟩ := m.memory.exists_load short
    refine ⟨{ m with memory }, by rw [Machine.load, loaded], ?_⟩
    intro k h
    refine ⟨_, readWord_of_load_assemble loaded (by simpa using h), ?_⟩
    rw [List.getElem_map, residue]

/-- A negative value and one of seventeen bits. -/
theorem disassembly_inverts_assembly_two :
    2 * [-1, 0x1F00D].length ≤ Memory.capacity ∧
      ∃ loaded, (Machine.initial (.repeating #[])).load
          (assemble ([-1, 0x1F00D].map Word.ofInt)) = .ok loaded ∧
        loaded.memory.readWord (Memory.programStart + 2 : Nat) = .ok 0xF00D := by
  have fits : 2 * [(-1 : Int), 0x1F00D].length ≤ Memory.capacity := by decide
  obtain ⟨-, -, loads⟩ := disassembly_inverts_assembly
  obtain ⟨loaded, ok, reads⟩ := loads (.initial (.repeating #[])) _ fits
  obtain ⟨w, read, value⟩ := reads 1 (by decide)
  obtain rfl : w = 0xF00D := UInt16.toNat.inj (Int.ofNat.inj value)
  exact ⟨fits, loaded, ok, read⟩

end Chip8
