import Mathlib.Data.List.Basic

/-!
# Guarded loops

`loop go step n` repeats `step`, which may fail, at most `n` times and only while `go` holds:
the shape of an interpreter's main loop. `starts` lists the states an iteration started from.
`loop_invariant` and `starts_invariant` are the invariant rules. `starts_pairwise` is what
the guard gives by itself: an iteration that has another one after it ends in a state that
lets the loop go on, so whatever stops the loop happens in the last one. `loop_rel` and
`foldl_range_rel` are the rules of two loops side by side, and `loop_counts` is the invariant
rule that counts iterations.
-/

/-! ## Partial functions side by side -/

section
variable {α β γ δ : Type*} {R : α → β → Prop} {x : Option α} {y : Option β}

/-- What is done with two related results. -/
theorem Option.Rel.elim (h : Option.Rel R x y) {P : γ → δ → Prop} {f : α → γ} {g : β → δ} {c : γ}
    {d : δ} (hnone : P c d) (hsome : ∀ a b, x = .some a → R a b → P (f a) (g b)) :
    P (x.elim c f) (y.elim d g) := by
  cases h with
  | none => exact hnone
  | some hab => exact hsome _ _ rfl hab

theorem Option.Rel.bind (h : Option.Rel R x y) {S : γ → δ → Prop} {f : α → Option γ}
    {g : β → Option δ} (hsome : ∀ a b, x = .some a → R a b → Option.Rel S (f a) (g b)) :
    Option.Rel S (x.bind f) (y.bind g) := by
  cases h with
  | none => exact .none
  | some hab => exact hsome _ _ rfl hab

theorem Option.Rel.map (h : Option.Rel R x y) {S : γ → δ → Prop} {f : α → γ} {g : β → δ}
    (hsome : ∀ a b, R a b → S (f a) (g b)) : Option.Rel S (x.map f) (y.map g) := by
  cases h with
  | none => exact .none
  | some hab => exact .some (hsome _ _ hab)

/-- What is the same of two related results. -/
theorem Option.Rel.map_eq (h : Option.Rel R x y) {f : α → γ} {g : β → γ}
    (hsome : ∀ a b, R a b → f a = g b) : x.map f = y.map g := by
  cases h with
  | none => rfl
  | some hab => exact congrArg Option.some (hsome _ _ hab)

end

namespace Loops

variable {σ : Type*} {go : σ → Bool} {step : σ → Option σ}

/-- At most `n` iterations while `go` holds. -/
def loop (go : σ → Bool) (step : σ → Option σ) : Nat → σ → Option σ
  | 0, s => some s
  | n + 1, s => if go s then (step s).bind (loop go step n) else some s

/-- The states the iterations start from. -/
def starts (go : σ → Bool) (step : σ → Option σ) : Nat → σ → List σ
  | 0, _ => []
  | n + 1, s => if go s then s :: (step s).elim [] (starts go step n) else []

/-! ## One iteration -/

theorem loop_stop {n : Nat} {s : σ} (h : go s = false) : loop go step n s = some s := by
  cases n with
  | zero => rfl
  | succ n => rw [loop, h]; rfl

theorem starts_stop {n : Nat} {s : σ} (h : go s = false) : starts go step n s = [] := by
  cases n with
  | zero => rfl
  | succ n => rw [starts, h]; rfl

theorem loop_go {n : Nat} {s : σ} (h : go s = true) :
    loop go step (n + 1) s = (step s).bind (loop go step n) := by rw [loop, if_pos h]

theorem starts_go {n : Nat} {s : σ} (h : go s = true) :
    starts go step (n + 1) s = s :: (step s).elim [] (starts go step n) := by
  rw [starts, if_pos h]

/-! ## Invariants -/

/-- **Invariant rule.** -/
theorem loop_invariant {I : σ → Prop}
    (hstep : ∀ s s', I s → go s = true → step s = some s' → I s') {n : Nat} {s t : σ}
    (hs : I s) (h : loop go step n s = some t) : I t := by
  induction n generalizing s with
  | zero => cases h; exact hs
  | succ n ih =>
      cases hgo : go s with
      | false => rw [loop_stop hgo] at h; cases h; exact hs
      | true =>
          rw [loop_go hgo] at h
          obtain ⟨s', hs', hrest⟩ := Option.bind_eq_some_iff.1 h
          exact ih (hstep s s' hs hgo hs') hrest

/-- The invariant holds wherever an iteration starts, and so does the guard. -/
theorem starts_invariant {I : σ → Prop}
    (hstep : ∀ s s', I s → go s = true → step s = some s' → I s') {n : Nat} {s : σ}
    (hs : I s) : ∀ t ∈ starts go step n s, I t ∧ go t = true := by
  induction n generalizing s with
  | zero => exact fun t ht => nomatch ht
  | succ n ih =>
      cases hgo : go s with
      | false => rw [starts_stop hgo]; exact fun t ht => nomatch ht
      | true =>
          rw [starts_go hgo]
          intro t ht
          rcases List.mem_cons.1 ht with rfl | ht
          · exact ⟨hs, hgo⟩
          · cases hs' : step s with
            | none => rw [hs'] at ht; exact nomatch ht
            | some s' =>
                rw [hs'] at ht
                exact ih (hstep s s' hs hgo hs') t ht

/-! ## Counting iterations -/

/-- There are at most `n` iterations. -/
theorem length_starts_le (n : Nat) (s : σ) : (starts go step n s).length ≤ n := by
  induction n generalizing s with
  | zero => exact Nat.le_refl 0
  | succ n ih =>
      cases hgo : go s with
      | false => rw [starts_stop hgo]; exact Nat.zero_le _
      | true =>
          rw [starts_go hgo, List.length_cons]
          cases step s with
          | none => exact Nat.succ_le_succ (Nat.zero_le n)
          | some s' => exact Nat.succ_le_succ (ih s')

/-- **Invariant rule, counting.** A loop ends after as many iterations as were started, which are
fewer than `n` only if the guard fails. -/
theorem loop_counts {I : Nat → σ → Prop}
    (hstep : ∀ k s s', I k s → go s = true → step s = some s' → I (k + 1) s') {n : Nat} {s t : σ}
    (hs : I 0 s) (h : loop go step n s = some t) :
    I (starts go step n s).length t ∧ ((starts go step n s).length = n ∨ go t = false) := by
  suffices hgen : ∀ k s, I k s → loop go step n s = some t →
      I (k + (starts go step n s).length) t ∧
        ((starts go step n s).length = n ∨ go t = false) by
    have := hgen 0 s hs h
    rwa [Nat.zero_add] at this
  clear hs h s
  induction n with
  | zero => intro k s hs h; cases h; exact ⟨hs, .inl rfl⟩
  | succ n ih =>
      intro k s hs h
      cases hgo : go s with
      | false =>
          rw [loop_stop hgo] at h
          cases h
          rw [starts_stop hgo]
          exact ⟨hs, .inr hgo⟩
      | true =>
          rw [loop_go hgo] at h
          obtain ⟨s', hs', hrest⟩ := Option.bind_eq_some_iff.1 h
          obtain ⟨hI, hlen⟩ := ih (k + 1) s' (hstep k s s' hs hgo hs') hrest
          rw [starts_go hgo, hs', Option.elim_some, List.length_cons]
          rw [Nat.add_right_comm] at hI
          exact ⟨hI, hlen.imp (congrArg (· + 1)) id⟩

/-! ## What stops a loop -/

/-- The iteration that starts from `t` ends where the loop goes on. -/
def GoesOn (go : σ → Bool) (step : σ → Option σ) (t : σ) : Prop :=
  ∃ t', step t = some t' ∧ go t' = true

/-- If an iteration follows, the loop went on after the one before. -/
theorem goesOn_of_starts {n : Nat} {s s' t : σ} (hs' : step s = some s')
    (ht : t ∈ starts go step n s') : GoesOn go step s := by
  cases hgo : go s' with
  | false => rw [starts_stop hgo] at ht; exact nomatch ht
  | true => exact ⟨s', hs', hgo⟩

/-- **All but the last iteration go on.** -/
theorem starts_pairwise (n : Nat) (s : σ) :
    (starts go step n s).Pairwise fun t _ => GoesOn go step t := by
  induction n generalizing s with
  | zero => exact .nil
  | succ n ih =>
      cases hgo : go s with
      | false => rw [starts_stop hgo]; exact .nil
      | true =>
          rw [starts_go hgo]
          cases hs' : step s with
          | none => exact List.pairwise_singleton _ _
          | some s' => exact .cons (fun t ht => goesOn_of_starts hs' ht) (ih s')

/-- If the loop ends where it could go on, every iteration went on. -/
theorem goesOn_of_loop {n : Nat} {s t : σ} (h : loop go step n s = some t)
    (ht : go t = true) : ∀ x ∈ starts go step n s, GoesOn go step x := by
  induction n generalizing s with
  | zero => exact fun x hx => nomatch hx
  | succ n ih =>
      cases hgo : go s with
      | false => rw [starts_stop hgo]; exact fun x hx => nomatch hx
      | true =>
          rw [loop_go hgo] at h
          obtain ⟨s', hs', hrest⟩ := Option.bind_eq_some_iff.1 h
          rw [starts_go hgo, hs']
          intro x hx
          rcases List.mem_cons.1 hx with rfl | hx
          · refine ⟨s', hs', ?_⟩
            cases hgo' : go s' with
            | true => rfl
            | false =>
                rw [loop_stop hgo'] at hrest
                cases hrest
                exact hgo'.symm.trans ht
          · exact ih hrest x hx

/-- An iteration after which the loop does not go on is the last one, and the loop ends there. -/
theorem last_of_stop {n : Nat} {s t u : σ} (ht : t ∈ starts go step n s) (hstep : step t = some u)
    (hu : go u = false) : loop go step n s = some u ∧ ∃ l, starts go step n s = l ++ [t] := by
  induction n generalizing s with
  | zero => exact nomatch ht
  | succ n ih =>
      cases hgo : go s with
      | false => rw [starts_stop hgo] at ht; exact nomatch ht
      | true =>
          rw [starts_go hgo] at ht
          rw [loop_go hgo, starts_go hgo]
          rcases List.mem_cons.1 ht with rfl | ht
          · rw [hstep]
            exact ⟨loop_stop hu, [], congrArg (t :: ·) (starts_stop hu)⟩
          · cases hs : step s with
            | none => rw [hs] at ht; exact nomatch ht
            | some s' =>
                rw [hs] at ht
                obtain ⟨hloop, l, hl⟩ := ih ht
                exact ⟨hloop, s :: l, congrArg (s :: ·) hl⟩

/-! ## Side by side -/

/-- **Simulation rule.** Two loops that agree on when to go on stay related as long as the
first meets `C` wherever an iteration starts, and start related iterations. -/
theorem loop_rel {τ : Type*} {go' : τ → Bool} {step' : τ → Option τ} {R : σ → τ → Prop}
    {C : σ → Prop} (hgo : ∀ s t, R s t → go s = go' t)
    (hstep : ∀ s t, R s t → C s → go s = true → Option.Rel R (step s) (step' t)) {n : Nat}
    {s : σ} {t : τ} (h : R s t) (hC : ∀ u ∈ starts go step n s, C u) :
    Option.Rel R (loop go step n s) (loop go' step' n t) ∧
      List.Forall₂ R (starts go step n s) (starts go' step' n t) := by
  induction n generalizing s t with
  | zero => exact ⟨.some h, .nil⟩
  | succ n ih =>
      cases hs : go s with
      | false =>
          have ht : go' t = false := (hgo s t h).symm.trans hs
          rw [loop_stop hs, loop_stop ht, starts_stop hs, starts_stop ht]
          exact ⟨.some h, .nil⟩
      | true =>
          have ht : go' t = true := (hgo s t h).symm.trans hs
          rw [starts_go hs, List.forall_mem_cons] at hC
          have hnext := hstep s t h hC.1 hs
          rw [loop_go hs, loop_go ht, starts_go hs, starts_go ht]
          refine ⟨hnext.bind fun s' t' hs' h' => (ih h' ?_).1,
            .cons h (hnext.elim .nil fun s' t' hs' h' => (ih h' ?_).2)⟩
          all_goals
            have hrest := hC.2
            rwa [hs', Option.elim_some] at hrest

/-! ## Counted loops -/

/-- Two counted loops with what relates them after each number of iterations. -/
theorem foldl_range_rel {τ : Type*} {f : σ → Nat → σ} {g : τ → Nat → τ} {R : Nat → σ → τ → Prop}
    {n : Nat} (hstep : ∀ k < n, ∀ s t, R k s t → R (k + 1) (f s k) (g t k)) {s : σ} {t : τ}
    (h : R 0 s t) : R n ((List.range n).foldl f s) ((List.range n).foldl g t) := by
  induction n with
  | zero => exact h
  | succ n ih =>
      have hprev := ih fun k hk => hstep k (Nat.lt_succ_of_lt hk)
      rw [List.range_succ, List.foldl_append, List.foldl_append]
      exact hstep n (Nat.lt_succ_self n) _ _ hprev

/-- One counted loop. -/
theorem foldl_range_invariant {f : σ → Nat → σ} {I : Nat → σ → Prop} {n : Nat}
    (hstep : ∀ k < n, ∀ s, I k s → I (k + 1) (f s k)) {s : σ} (h : I 0 s) :
    I n ((List.range n).foldl f s) :=
  foldl_range_rel (R := fun k s (_ : Unit) => I k s) (g := fun u _ => u)
    (fun k hk s _ => hstep k hk s) (t := ()) h

/-! ## Guards -/

/-- At most the last state satisfies what the others do not. -/
theorem filter_length_le_one {p : σ → Bool} {l : List σ}
    (h : l.Pairwise fun t _ => p t = false) : (l.filter p).length ≤ 1 := by
  induction l with
  | nil => exact Nat.zero_le 1
  | cons t l ih =>
      obtain ⟨ht, hl⟩ := List.pairwise_cons.1 h
      cases l with
      | nil => exact List.length_filter_le p [t]
      | cons u l =>
          rw [List.filter_cons_of_neg (by rw [ht u (.head l)]; exact Bool.false_ne_true)]
          exact ih hl

end Loops
