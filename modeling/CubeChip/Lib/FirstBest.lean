import Mathlib.Data.List.MinMax

/-!
# The first best of a list

A search that goes over a list once, keeping the best value so far and the index it was found at.
Only something strictly better replaces it, so where anything beats the value the search starts
from, what it finds is the first best of the list (`foldl_improve_of_lt`). In the dual order the
best is the least.
-/

namespace FirstBest

variable {α β : Type*} [LinearOrder β] {f : α → β} {b : β} {i : Int} {l : List α}

/-- One step of the search. -/
def improve (f : α → β) (best : β × Int) (item : α × Nat) : β × Int :=
  if best.1 < f item.1 then (f item.1, item.2) else best

theorem foldl_improve_of_le (h : ∀ a ∈ l, f a ≤ b) :
    l.zipIdx.foldl (improve f) (b, i) = (b, i) := by
  induction l using List.reverseRecOn with
  | nil => rfl
  | append_singleton l a ih =>
      have hlast : ¬ b < f a := not_lt_of_ge (h a (by simp))
      rw [List.zipIdx_append, List.foldl_append, ih fun c hc => h c (by simp [hc])]
      simp [improve, hlast]

/-- What the search finds is the first best, with its index. -/
theorem foldl_improve_of_lt (h : ∃ a ∈ l, b < f a) :
    ∃ (k : Nat) (a : α), l.zipIdx.foldl (improve f) (b, i) = (f a, (k : Int)) ∧ l[k]? = some a ∧
      l.argmax f = some a := by
  induction l using List.reverseRecOn with
  | nil =>
      obtain ⟨a, ha, _⟩ := h
      exact absurd ha List.not_mem_nil
  | append_singleton l a ih =>
      have hsplit : ∀ best, l.zipIdx.foldl (improve f) (b, i) = best →
          (l ++ [a]).zipIdx.foldl (improve f) (b, i) = improve f best (a, l.length) := by
        intro best hbest
        rw [List.zipIdx_append, List.foldl_append, hbest]
        simp
      have hnew : (l ++ [a])[l.length]? = some a := by simp
      by_cases hbefore : ∃ c ∈ l, b < f c
      · obtain ⟨k, c, hfold, hk, hbest⟩ := ih hbefore
        rw [hsplit _ hfold, List.argmax_concat, hbest]
        by_cases hlt : f c < f a
        · exact ⟨l.length, a, by simp [improve, hlt], hnew, by simp [hlt]⟩
        · have hold : (l ++ [a])[k]? = some c := by
            rw [List.getElem?_append_left (List.getElem?_eq_some_iff.1 hk).1, hk]
          exact ⟨k, c, by simp [improve, hlt], hold, by simp [hlt]⟩
      · have hle : ∀ c ∈ l, f c ≤ b := fun c hc => le_of_not_gt fun hlt => hbefore ⟨c, hc, hlt⟩
        have hlt : b < f a := by
          obtain ⟨c, hc, hlt⟩ := h
          rcases List.mem_append.1 hc with hc | hc
          · exact absurd ⟨c, hc, hlt⟩ hbefore
          · rwa [List.mem_singleton.1 hc] at hlt
        rw [hsplit _ (foldl_improve_of_le hle), List.argmax_concat]
        refine ⟨l.length, a, by simp [improve, hlt], hnew, ?_⟩
        cases hbest : l.argmax f with
        | none => rfl
        | some c =>
            have hc := lt_of_le_of_lt (hle c (List.argmax_mem hbest)) hlt
            simp [hc]

/-! ## The least -/

/-- One step of the search for the least. -/
def improveLeast (f : α → β) (best : β × Int) (item : α × Nat) : β × Int :=
  if f item.1 < best.1 then (f item.1, item.2) else best

theorem foldl_improveLeast_of_lt (h : ∃ a ∈ l, f a < b) :
    ∃ (k : Nat) (a : α), l.zipIdx.foldl (improveLeast f) (b, i) = (f a, (k : Int)) ∧
      l[k]? = some a ∧ l.argmin f = some a :=
  foldl_improve_of_lt (β := βᵒᵈ) (f := f) h

end FirstBest
