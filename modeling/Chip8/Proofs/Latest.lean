import Mathlib.Data.List.Basic

/-!
# Latest values

What a run leaves in one place is the last of the values that its steps put
there, or what was there before if none of them puts anything.
-/

namespace Chip8

variable {σ α β : Type}

def latest? (f : α → Option β) (l : List α) : Option β :=
  (l.filterMap f).getLast?

theorem latest?_append (f : α → Option β) (l more : List α) :
    latest? f (l ++ more) = (latest? f more).or (latest? f l) := by
  rw [latest?, List.filterMap_append, List.getLast?_append]
  rfl

theorem latest?_cons (f : α → Option β) (a : α) (l : List α) :
    latest? f (a :: l) = (latest? f l).or (f a) := by
  rw [← List.singleton_append, latest?_append]
  cases given : f a <;> simp [latest?, given]

theorem view_foldl {step : σ → α → σ} {view : σ → β} {f : α → Option β}
    (each : ∀ s a, view (step s a) = (f a).getD (view s)) (s : σ)
    (l : List α) : view (l.foldl step s) = (latest? f l).getD (view s) := by
  induction l generalizing s with
  | nil => rfl
  | cons a rest ih =>
      rw [List.foldl_cons, ih, each, latest?_cons]
      cases latest? f rest <;> rfl

end Chip8
