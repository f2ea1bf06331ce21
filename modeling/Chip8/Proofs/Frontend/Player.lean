import Chip8.Frontend.Buzzer

/-!
# The player of a buzzer

A player starts silent, and can be played when silent, paused when sounding and
deleted once.  A buzzer asks its player only for what it can do.
-/

namespace Chip8

inductive Player where
  | silent | sounding | deleted
  deriving DecidableEq, Repr

def DeviceCall.forPlayer : DeviceCall → Bool
  | play | pause | deletePlayer => true
  | _ => false

namespace Player

/-- The player after a device call, unless the call is for a player that cannot
take it. -/
def hear : Player → DeviceCall → Option Player
  | silent, .play => some sounding
  | sounding, .pause => some silent
  | silent, .deletePlayer | sounding, .deletePlayer => some deleted
  | p, call => if call.forPlayer then none else some p

def hearAll (p : Player) (calls : List DeviceCall) : Option Player :=
  calls.foldlM hear p

variable {p p' : Player} {call : DeviceCall} {calls : List DeviceCall}

theorem hearAll_append (p : Player) (calls more : List DeviceCall) :
    p.hearAll (calls ++ more) = (p.hearAll calls).bind (·.hearAll more) :=
  List.foldlM_append

theorem hearAll_cons (p : Player) (call : DeviceCall)
    (calls : List DeviceCall) :
    p.hearAll (call :: calls) = (p.hear call).bind (·.hearAll calls) :=
  List.foldlM_cons

theorem hear_of_not_forPlayer (h : call.forPlayer = false) :
    p.hear call = some p := by
  cases p <;> cases call <;> first | rfl | cases h

theorem hearAll_of_not_forPlayer
    (h : ∀ call ∈ calls, call.forPlayer = false) :
    p.hearAll calls = some p := by
  induction calls with
  | nil => rfl
  | cons call rest ih =>
      rw [List.forall_mem_cons] at h
      rw [hearAll_cons, hear_of_not_forPlayer h.1, Option.bind_some, ih h.2]

theorem deleted_of_hear (h : p.hear .deletePlayer = some p') :
    p' = .deleted := by
  cases p <;> cases h <;> rfl

theorem deleted_iff_of_hear (h : p.hear call = some p') :
    p' = .deleted ↔ p = .deleted ∨ call = .deletePlayer := by
  cases p <;> cases call <;> cases h <;> simp

theorem hearAll_of_deleted (h : Player.deleted.hearAll calls = some p') :
    p' = .deleted ∧ ∀ call ∈ calls, call.forPlayer = false := by
  induction calls with
  | nil => exact ⟨(Option.some.inj h).symm, List.forall_mem_nil _⟩
  | cons call rest ih =>
      rw [hearAll_cons] at h
      cases other : call.forPlayer with
      | true => cases call <;> first | cases h | cases other
      | false =>
          rw [hear_of_not_forPlayer other, Option.bind_some] at h
          exact ⟨(ih h).1, List.forall_mem_cons.mpr ⟨other, (ih h).2⟩⟩

theorem count_deletePlayer (h : p.hearAll calls = some p')
    (there : p ≠ .deleted) :
    calls.count .deletePlayer = if p' = .deleted then 1 else 0 := by
  induction calls generalizing p with
  | nil =>
      cases h
      rw [if_neg there, List.count_nil]
  | cons call rest ih =>
      rw [hearAll_cons] at h
      obtain ⟨next, heard, h⟩ := Option.bind_eq_some_iff.mp h
      by_cases deletes : call = .deletePlayer
      · subst deletes
        obtain rfl := deleted_of_hear heard
        obtain ⟨rfl, none⟩ := hearAll_of_deleted h
        rw [List.count_cons_self, if_pos rfl, List.count_eq_zero_of_not_mem]
        intro mem
        cases none _ mem
      · have still : next ≠ .deleted := by
          rw [Ne, deleted_iff_of_hear heard, not_or]
          exact ⟨there, deletes⟩
        rw [List.count_cons_of_ne deletes, ih h still]

theorem not_forPlayer_of_deletePlayer {before later : List DeviceCall}
    (h : p.hearAll (before ++ .deletePlayer :: later) = some p') :
    ∀ call ∈ later, call.forPlayer = false := by
  rw [hearAll_append] at h
  obtain ⟨middle, -, h⟩ := Option.bind_eq_some_iff.mp h
  rw [hearAll_cons] at h
  obtain ⟨next, heard, h⟩ := Option.bind_eq_some_iff.mp h
  obtain rfl := deleted_of_hear heard
  exact (hearAll_of_deleted h).2

end Player

namespace Buzzer

def player (b : Buzzer) : Player := if b.playing then .sounding else .silent

theorem player_ne_deleted (b : Buzzer) : b.player ≠ .deleted := by
  cases b with
  | mk playing => cases playing <;> decide

theorem hearAll_update (b : Buzzer) (sounding : Bool) :
    b.player.hearAll (b.update sounding).2.1 =
      some (b.update sounding).1.player := by
  cases b with
  | mk playing => cases playing <;> cases sounding <;> rfl

theorem hearAll_updateAll (b : Buzzer) (tones : List Bool) :
    b.player.hearAll (b.updateAll tones).2.1 =
      some (b.updateAll tones).1.player := by
  induction tones generalizing b with
  | nil => rfl
  | cons sounding rest ih =>
      simp only [updateAll]
      rw [Player.hearAll_append, hearAll_update, Option.bind_some, ih]

end Buzzer

end Chip8
