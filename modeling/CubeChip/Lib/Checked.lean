import Mathlib.Data.Option.Basic

/-!
# Checked results

`checked P a` is `a` where `P` holds and undefined elsewhere: arithmetic that may leave its range.
Steps that are checked one by one are one result, checked once (`bind_checked`, `foldlM_checked`),
so what a computation yields and where it is defined can be told apart.
-/

namespace Checked

universe u

variable {α β σ : Type u} {P : Prop} [Decidable P] {a b : α}

/-- `a`, if `P`. -/
def checked (P : Prop) [Decidable P] (a : α) : Option α := if P then some a else none

/-- The check holds. -/
theorem checked_of (h : P) : checked P a = some a := if_pos h

/-- The check fails. -/
theorem checked_of_not (h : ¬ P) : checked P a = none := if_neg h

/-- Two checks that hold alike, and give the same where they hold. -/
theorem checked_congr {Q : Prop} [Decidable Q] (hiff : P ↔ Q) (h : Q → a = b) :
    checked P a = checked Q b := by
  by_cases hQ : Q
  · rw [checked_of (hiff.2 hQ), checked_of hQ, h hQ]
  · rw [checked_of_not fun hP => hQ (hiff.1 hP), checked_of_not hQ]

/-- What a checked value is. -/
@[simp] theorem checked_eq_some_iff : checked P a = some b ↔ P ∧ a = b := by
  unfold checked
  split
  · next h => simp [h]
  · next h => simp [h]

/-- Two checks in a row are one. -/
@[simp] theorem bind_checked {Q : α → Prop} [DecidablePred Q] {f : α → β} :
    (checked P a >>= fun x => checked (Q x) (f x)) = checked (P ∧ Q a) (f a) := by
  by_cases h : P
  · rw [checked_of h, Option.bind_eq_bind, Option.bind_some]
    simp only [checked, h, true_and]
  · rw [checked_of_not h, checked_of_not fun hboth => h hboth.1]
    rfl

/-- A check and then a function that never fails. -/
@[simp] theorem bind_some_checked {f : α → β} :
    (checked P a >>= fun x => some (f x)) = checked P (f a) := by
  unfold checked
  split <;> rfl

/-- A fold whose steps are checked is the fold of the steps, if every item passes. -/
theorem foldlM_checked {stepM : σ → α → Option σ} {step : σ → α → σ} {Q : α → Prop}
    [DecidablePred Q] (h : ∀ s a, stepM s a = checked (Q a) (step s a)) (l : List α) (s : σ) :
    l.foldlM stepM s = checked (∀ a ∈ l, Q a) (l.foldl step s) := by
  induction l generalizing s with
  | nil => exact (checked_of fun a ha => absurd ha List.not_mem_nil).symm
  | cons a l ih =>
      rw [List.foldlM_cons, h, List.foldl_cons]
      by_cases ha : Q a
      · rw [checked_of ha, Option.bind_eq_bind, Option.bind_some, ih]
        simp only [checked, List.forall_mem_cons, ha, true_and]
      · rw [checked_of_not ha, checked_of_not fun hall => ha (hall a List.mem_cons_self)]
        rfl

end Checked
