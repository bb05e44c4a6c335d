import KserveClient.Lib.Run
import Mathlib.Logic.Function.Iterate

/-!
# Delivery — operations that take effect once or not at all

A caller sends an operation until it is told of a success or gives up.  `AtMostOnce` is what the caller
would like: the operation takes effect once, or not at all if it failed.

* `iterate_idempotent`: an operation that is idempotent may as well take effect several times.
* `effects_of_run`: over a run, some operations take effect, in order: all that succeeded, and of those that
  failed any.
-/

namespace Delivery

variable {α ω : Type*} {apply : ω → α → α} {s s' : α}

theorem iterate_idempotent {f : α → α} (hf : ∀ a, f (f a) = f a) (k : ℕ) (a : α) :
    f^[k + 1] a = f a := by
  induction k with
  | zero => rfl
  | succ k ih => rw [Function.iterate_succ_apply', ih, hf]

/-- An operation, and whether its caller was told of its success. -/
abbrev Call (ω : Type*) := ω × Bool

def AtMostOnce (apply : ω → α → α) (s : α) (c : Call ω) (s' : α) : Prop :=
  s' = apply c.1 s ∨ c.2 = false ∧ s' = s

/-- **The effects of a run**: the state is what the operations that took effect make of it, one after the
other. -/
theorem effects_of_run {cs : List (Call ω)} (hrun : Run (AtMostOnce apply) s cs s') :
    ∃ effects : List ω, effects.Sublist (cs.map Prod.fst) ∧
      ((cs.filter Prod.snd).map Prod.fst).Sublist effects ∧
      s' = effects.foldl (fun a o => apply o a) s := by
  induction hrun with
  | nil s => exact ⟨[], .slnil, .slnil, rfl⟩
  | @cons s s₁ s₂ c cs first rest ih =>
    obtain ⟨effects, hall, hdone, rfl⟩ := ih
    rcases first with rfl | ⟨hfailed, rfl⟩
    · refine ⟨c.1 :: effects, hall.cons_cons c.1, ?_, rfl⟩
      rw [List.filter_cons]
      split_ifs
      · exact hdone.cons_cons c.1
      · exact hdone.cons c.1
    · refine ⟨effects, hall.cons c.1, ?_, rfl⟩
      rw [List.filter_cons, if_neg (by simp [hfailed])]
      exact hdone

end Delivery
