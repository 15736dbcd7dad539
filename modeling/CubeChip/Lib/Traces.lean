import Mathlib.Logic.Function.Iterate
import CubeChip.Lib.Loops

/-!
# A quantity along a list of states

A quantity that changes at some states of a system alone is known from the list of these states.
`Traced m act b l b'` says so of the states `l` in their order: the first of them finds `b`, each
of the others what `act` has made of it at the one before, and the last one leaves `b'`. Lists are
put together by `append`, a guarded loop gives one by `loop`, and `iterate` is the case of a
quantity to which every second state or so applies one and the same function.
-/

/-- The quantity `m` along a list of states. -/
inductive Traced {σ β : Type*} (m act : σ → β) : β → List σ → β → Prop
  | nil (b : β) : Traced m act b [] b
  | cons {s : σ} {l : List σ} {b : β} (h : Traced m act (act s) l b) : Traced m act (m s) (s :: l) b

namespace Traced

variable {σ β : Type*} {m act : σ → β} {b b' b'' : β} {l l' : List σ}

theorem append (h : Traced m act b l b') (h' : Traced m act b' l' b'') :
    Traced m act b (l ++ l') b'' := by
  induction h with
  | nil b => exact h'
  | cons _ ih => exact .cons (ih h')

/-- **A guarded loop** and the states its iterations start from. -/
theorem loop {go : σ → Bool} {step : σ → Option σ}
    (hstep : ∀ s s', step s = some s' → m s' = act s) {n : Nat} {s t : σ}
    (h : Loops.loop go step n s = some t) :
    Traced m act (m s) (Loops.starts go step n s) (m t) := by
  induction n generalizing s with
  | zero => cases h; exact .nil _
  | succ n ih =>
      cases hgo : go s with
      | false =>
          rw [Loops.loop_stop hgo] at h
          cases h
          rw [Loops.starts_stop hgo]
          exact .nil _
      | true =>
          rw [Loops.loop_go hgo] at h
          obtain ⟨s', hs', hrest⟩ := Option.bind_eq_some_iff.1 h
          rw [Loops.starts_go hgo, hs', Option.elim_some]
          exact .cons (hstep s s' hs' ▸ ih hrest)

/-- What has changed in the end was changed at one of the states. -/
theorem exists_of_ne {γ : Type*} {f : β → γ} (h : Traced m act b l b') (hne : f b' ≠ f b) :
    ∃ s ∈ l, f (act s) ≠ f (m s) := by
  induction h with
  | nil b => exact absurd rfl hne
  | @cons s l b' _ ih =>
      by_cases hact : f (act s) = f (m s)
      · obtain ⟨t, ht, hchange⟩ := ih (hact ▸ hne)
        exact ⟨t, .tail _ ht, hchange⟩
      · exact ⟨s, .head _, hact⟩

/-- **One function**, applied at the states that meet a test: each of them finds what the ones
before have left. -/
theorem iterate {f : β → β} {p : σ → Bool} (hact : ∀ s, act s = if p s then f (m s) else m s)
    (h : Traced m act b l b') :
    b' = f^[(l.filter p).length] b ∧
      (l.filter p).map m = (List.range (l.filter p).length).map fun k => f^[k] b := by
  induction h with
  | nil b => exact ⟨rfl, rfl⟩
  | @cons s l b' _ ih =>
      rw [hact] at ih
      cases hp : p s with
      | false =>
          rw [hp] at ih
          rwa [List.filter_cons_of_neg (by rw [hp]; exact Bool.false_ne_true)]
      | true =>
          rw [hp, if_pos rfl] at ih
          rw [List.filter_cons_of_pos hp, List.length_cons, List.map_cons, ih.2,
            List.range_succ_eq_map, List.map_cons, List.map_map]
          exact ⟨ih.1, rfl⟩

end Traced
