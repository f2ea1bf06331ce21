import Chip8.Proofs.Listing.Bytes
import Chip8.Proofs.Machine.Footprint

/-!
# Listings and runs

A listing reads a program two bytes at a time, a machine wherever its counter
points.  Where the program has not been overwritten both find the same words.
-/

namespace Chip8

namespace Machine

def Writes (m : Machine) (address : Nat) : Event → Prop
  | .cycle _ => m.awaiting = none ∧ ∃ w, m.fetch? = some w ∧
      w.Stores m.registers.index.toNat address
  | .tick | .load _ => False

variable {m : Machine}

theorem getElem_memory_run {a : Nat} (inside : a < 4096)
    (untouched : ∀ w, m.awaiting = none → m.fetch? = some w →
      ¬ w.Stores m.registers.index.toNat a) :
    m.run.1.memory.bytes[a] = m.memory.bytes[a] := by
  rcases m.fst_run_cases with
    ⟨x, -, same⟩ | ⟨-, -, same⟩ | ⟨w, running, fetched, same⟩
  · rw [same, fst_resume]
    cases m.keypad.firstPressed? <;> rfl
  · rw [same]
  · rw [same]
    exact (m.footprint_execute w).memory ⟨a, inside⟩
      (untouched w running fetched)

theorem getElem_memory_after {a : Nat} (inside : a < 4096) {e : Event}
    (valid : e.Valid) (kept : ¬ e.Loads) (untouched : ¬ m.Writes a e) :
    (m.after e).memory.bytes[a] = m.memory.bytes[a] := by
  cases e with
  | cycle keys =>
      simp only [Machine.after, cycle_eq_run valid]
      apply getElem_memory_run (m := m.withKeys keys) inside
      intro w running fetched stores
      exact untouched ⟨running, w, fetched, stores⟩
  | tick => rfl
  | load data => exact absurd trivial kept

theorem getElem_memory_play {a : Nat} (inside : a < 4096)
    {events : List Event} (valid : ∀ e ∈ events, e.Valid)
    (kept : ∀ e ∈ events, ¬ e.Loads)
    (untouched : ∀ p ∈ m.history events, ¬ p.1.Writes a p.2) :
    (m.play events).memory.bytes[a] = m.memory.bytes[a] := by
  induction events generalizing m with
  | nil => rfl
  | cons e rest ih =>
      rw [List.forall_mem_cons] at valid kept
      rw [history, List.forall_mem_cons] at untouched
      have head := getElem_memory_after inside valid.1 kept.1 untouched.1
      have tail := ih valid.2 kept.2 untouched.2
      exact tail.trans head

/-- A run of cycles and ticks in which nothing stores to the two bytes at an
address. -/
structure Undisturbed (start : Machine) (events : List Event) (address : Nat) :
    Prop where
  valid : ∀ e ∈ events, e.Valid
  kept : ∀ e ∈ events, ¬ e.Loads
  high : ∀ p ∈ start.history events, ¬ p.1.Writes address p.2
  low : ∀ p ∈ start.history events, ¬ p.1.Writes (address + 1) p.2

theorem Undisturbed.readWord {start : Machine} {events : List Event}
    {address : Nat} (h : start.Undisturbed events address)
    (inside : address + 1 < 4096) :
    (start.play events).memory.readWord address =
      start.memory.readWord address := by
  apply Memory.readWord_congr inside
  · exact getElem_memory_play (by omega) h.valid h.kept h.high
  · exact getElem_memory_play inside h.valid h.kept h.low

structure Follows (m : Machine) (keys : Option Snapshot) (e : Entry) : Prop where
  word : e.item = .word (m.cycle keys).1.word
  fault : ∀ f, (m.cycle keys).2 = .error (.fault f) → e.item = .word f.word
  fetched : m.fetch?.map (fun w => (decode w).text) = some e.item.text
  executed : ∀ done, (m.withKeys keys).step.2 = .ok done →
    done.decoded.text = e.item.text

theorem follows_of_fetch (h : m.WellFormed) (running : m.awaiting = none)
    {keys : Option Snapshot} (valid : ValidKeys keys) {w : Word} {e : Entry}
    (fetched : m.fetch? = some w) (item : e.item = .word w) :
    m.Follows keys e := by
  constructor
  · rw [(footprint_cycle running fetched valid).word, item]
  · intro f fault
    have faults := ((h.cycle_eq_fault_iff valid f).mp fault).2
    obtain ⟨t, -, rfl⟩ := (faults_iff_of_fetch fetched f).mp faults
    exact item
  · rw [fetched, item]
    rfl
  · intro done ok
    rw [instruction_of_step (m := m.withKeys keys) fetched ok, item]
    rfl

theorem play_follows_listing (random : RandomBytes) (program : List Byte)
    (fits : program.length ≤ Memory.capacity) :
    ∃ start, boot random program = .ok start ∧
      ∀ events k, 2 * k + 1 < program.length →
        start.Undisturbed events (Memory.programStart + 2 * k) →
        (start.play events).awaiting = none →
        (start.play events).pc = (Memory.programStart + 2 * k : Nat) →
        (start.play events).pc ≤ 4093 →
        ∀ keys, ValidKeys keys →
          (∃ e ∈ disassemble Memory.programStart program,
            e.address = (start.play events).pc) ∧
          ∀ e ∈ disassemble Memory.programStart program,
            e.address = (start.play events).pc →
              (start.play events).Follows keys e := by
  obtain ⟨start, booted⟩ := exists_boot random fits
  refine ⟨start, booted, ?_⟩
  intro events k inside undisturbed running here low keys given
  have read := readWord_of_boot booted inside
  rw [← undisturbed.readWord (by omega), ← here] at read
  have fetched := (fetch?_eq_some_iff _).mpr ⟨low, read⟩
  have wellFormed :=
    ((Reachable.boot booted).play undisturbed.valid).wellFormed
  constructor
  · have listed := getElem?_disassemble Memory.programStart program inside
    refine ⟨_, List.mem_of_getElem? listed, ?_⟩
    rw [here]
    simp
  · intro e mem address
    have item := item_of_mem_disassemble inside mem (by rw [address, here]; simp)
    exact follows_of_fetch wellFormed running given fetched item

/-- The second word of a program, after a cycle on the first and a tick. -/
theorem play_follows_listing_second :
    ∃ start, boot (.repeating #[]) [0x00, 0xE0, 0x00, 0xEE] = .ok start ∧
      start.Undisturbed [.cycle none, .tick] 0x202 ∧
      (start.play [.cycle none, .tick]).awaiting = none ∧
      (start.play [.cycle none, .tick]).pc = 0x202 ∧
      ∀ e ∈ disassemble 0x200 [0x00, 0xE0, 0x00, 0xEE], e.address = 0x202 →
        (start.play [.cycle none, .tick]).Follows none e := by
  obtain ⟨start, booted, follows⟩ := play_follows_listing (.repeating #[])
    [0x00, 0xE0, 0x00, 0xEE] (by decide)
  obtain ⟨running, pc⟩ := running_of_boot booted
  have given : ValidKeys none := nofun
  have read := readWord_of_boot booted (k := 0) (by decide)
  have fetched : start.fetch? = some 0x00E0 := by
    rw [fetch?_eq_some_iff, pc]
    exact ⟨by decide, read⟩
  have footprint := footprint_cycle running fetched given
  have later : (start.play [.cycle none, .tick]).pc = 0x202 := by
    have next := footprint.next (by decide) (fun h => absurd h.1 (by decide))
      (fun h => absurd h.1 (by decide)) (by decide) (by simp [Skips, Word.group])
    exact next.trans (congrArg (· + 2) pc)
  have undisturbed : start.Undisturbed [.cycle none, .tick] 0x202 := by
    have plain : ∀ index address, ¬ Word.Stores 0x00E0 index address := by
      simp [Word.Stores, Word.group]
    constructor
    · simp [Event.Valid, given]
    · simp [Event.Loads]
    · simp [history, Writes, fetched, plain]
    · simp [history, Writes, fetched, plain]
  have free : (start.play [.cycle none, .tick]).awaiting = none :=
    (footprint.awaiting (by decide)).trans running
  have second := follows [.cycle none, .tick] 1 (by decide) undisturbed free
    later (by rw [later]; decide) none given
  refine ⟨start, booted, undisturbed, free, later, ?_⟩
  intro e mem address
  exact second.2 e mem (address.trans later.symm)

end Machine

end Chip8
