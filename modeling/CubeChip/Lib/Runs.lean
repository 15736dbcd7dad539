import CubeChip.Lib.Loops

/-!
# Runs of a partial step function

A system is a step function `step : σ → α → Option σ`: `none` where the label is not
enabled, or where the step does not return. `run` folds it over a list of labels,
`visited` lists the states on the way and `taken` the steps. `run_invariant` is the
invariant rule, `run_countP` the one that counts and `run_history` the one that remembers the
steps taken. `forall_visited_iff` is the exact form of the first: a property that each step keeps
*precisely when* a guard holds of it is kept along a run precisely when every step taken meets the
guard. `forall_prefix_iff` is the rule of the same kind for two runs, one of which leaves out some
of the labels of the other, `run_rel` the rule for two runs of as many steps, and `run_without` the
one for a run and what is left of it without its idle steps.
-/

namespace Runs

variable {σ α : Type*}

/-! ## Runs -/

/-- The state after the labels, if every step is enabled. -/
def run (step : σ → α → Option σ) : σ → List α → Option σ
  | s, [] => some s
  | s, a :: as => (step s a).bind fun s' => run step s' as

variable {step : σ → α → Option σ}

/-- A run is a first step and a run from there. -/
theorem run_cons_eq_some {s t : σ} {a : α} {as : List α} :
    run step s (a :: as) = some t ↔ ∃ s', step s a = some s' ∧ run step s' as = some t :=
  Option.bind_eq_some_iff

/-- **Invariant rule.** What every step keeps holds after every run. -/
theorem run_invariant {I : σ → Prop} (hstep : ∀ s a s', I s → step s a = some s' → I s')
    {s t : σ} {as : List α} (hs : I s) (h : run step s as = some t) : I t := by
  induction as generalizing s with
  | nil => cases h; exact hs
  | cons a as ih =>
      obtain ⟨s', h₁, h₂⟩ := run_cons_eq_some.1 h
      exact ih (hstep s a s' hs h₁) h₂

/-- **Invariant rule, counting** the labels that meet a test. -/
theorem run_countP {p : α → Bool} {I : Nat → σ → Prop}
    (hstep : ∀ n s a s', I n s → step s a = some s' → I (if p a then n + 1 else n) s')
    {s t : σ} {as : List α} (hs : I 0 s) (h : run step s as = some t) : I (as.countP p) t := by
  suffices hgen : ∀ n s, I n s → run step s as = some t → I (n + as.countP p) t by
    have := hgen 0 s hs h
    rwa [Nat.zero_add] at this
  clear hs h s
  induction as with
  | nil => intro n s hs h; cases h; exact hs
  | cons a as ih =>
      intro n s hs h
      obtain ⟨s', h₁, h₂⟩ := run_cons_eq_some.1 h
      have hnext := ih _ s' (hstep n s a s' hs h₁) h₂
      cases ha : p a with
      | true =>
          rw [ha, if_pos rfl, Nat.add_right_comm] at hnext
          rwa [List.countP_cons_of_pos ha, ← Nat.add_assoc]
      | false =>
          rw [ha] at hnext
          rwa [List.countP_cons_of_neg (by rw [ha]; decide)]

/-- **Progress rule, counting.** If every step is enabled, those that meet a test up to the
`m`-th, a run with at most `m` of them goes through. -/
theorem exists_run_countP {p : α → Bool} {I : Nat → σ → Prop} {m : Nat}
    (hstep : ∀ n s a, I n s → (p a = true → n < m) →
      ∃ s', step s a = some s' ∧ I (if p a then n + 1 else n) s')
    {s : σ} {as : List α} (hs : I 0 s) (hm : as.countP p ≤ m) :
    ∃ t, run step s as = some t ∧ I (as.countP p) t := by
  suffices hgen : ∀ n s, I n s → n + as.countP p ≤ m →
      ∃ t, run step s as = some t ∧ I (n + as.countP p) t by
    have := hgen 0 s hs (by rwa [Nat.zero_add])
    rwa [Nat.zero_add] at this
  clear hs hm s
  induction as with
  | nil => exact fun n s hs _ => ⟨s, rfl, hs⟩
  | cons a as ih =>
      intro n s hs hm
      rw [List.countP_cons] at hm ⊢
      obtain ⟨s', hs', hI⟩ := hstep n s a hs fun ha => by rw [if_pos ha] at hm; omega
      cases ha : p a with
      | true =>
          rw [ha] at hI hm
          obtain ⟨t, ht, hIt⟩ := ih (n + 1) s' hI (by simp only [if_true] at hm; omega)
          refine ⟨t, run_cons_eq_some.2 ⟨s', hs', ht⟩, ?_⟩
          rwa [if_pos rfl, Nat.add_comm (as.countP p), ← Nat.add_assoc]
      | false =>
          rw [ha] at hI hm
          obtain ⟨t, ht, hIt⟩ := ih n s' hI (by simpa using hm)
          exact ⟨t, run_cons_eq_some.2 ⟨s', hs', ht⟩, hIt⟩

/-- The label before which `n` others have met a test. -/
theorem exists_split_of_lt_countP {p : α → Bool} {n : Nat} {as : List α} (h : n < as.countP p) :
    ∃ before a after, as = before ++ a :: after ∧ p a = true ∧ before.countP p = n := by
  induction as generalizing n with
  | nil => exact absurd h (Nat.not_lt_zero n)
  | cons a as ih =>
      cases ha : p a with
      | false =>
          rw [List.countP_cons_of_neg (by rw [ha]; decide)] at h
          obtain ⟨before, b, after, rfl, hb, hcount⟩ := ih h
          exact ⟨a :: before, b, after, rfl, hb,
            (List.countP_cons_of_neg (by rw [ha]; decide)).trans hcount⟩
      | true =>
          rw [List.countP_cons_of_pos ha] at h
          cases n with
          | zero => exact ⟨[], a, as, rfl, ha, rfl⟩
          | succ n =>
              obtain ⟨before, b, after, rfl, hb, hcount⟩ := ih (Nat.lt_of_succ_lt_succ h)
              exact ⟨a :: before, b, after, rfl, hb, by rw [List.countP_cons_of_pos ha, hcount]⟩

/-! ## States visited and steps taken -/

/-- The states of a run, the first included, up to the first step that is not enabled. -/
def visited (step : σ → α → Option σ) : σ → List α → List σ
  | s, [] => [s]
  | s, a :: as => s :: (step s a).elim [] fun s' => visited step s' as

/-- The steps of a run, each with the state it starts from. -/
def taken (step : σ → α → Option σ) : σ → List α → List (σ × α)
  | _, [] => []
  | s, a :: as => (step s a).elim [] fun s' => (s, a) :: taken step s' as

/-- The steps tried, as `taken`, with the one that is not enabled. -/
def tried (step : σ → α → Option σ) : σ → List α → List (σ × α)
  | _, [] => []
  | s, a :: as => (s, a) :: (step s a).elim [] fun s' => tried step s' as

/-- **Invariant rule, with history.** -/
theorem run_history {I : List (σ × α) → σ → Prop}
    (hstep : ∀ l s a s', I l s → step s a = some s' → I (l ++ [(s, a)]) s') {s t : σ}
    {as : List α} (hs : I [] s) (h : run step s as = some t) : I (taken step s as) t := by
  suffices hgen : ∀ l s, I l s → run step s as = some t → I (l ++ taken step s as) t from
    hgen [] s hs h
  clear hs h s
  induction as with
  | nil => intro l s hs h; cases h; rwa [taken, List.append_nil]
  | cons a as ih =>
      intro l s hs h
      obtain ⟨s', h₁, h₂⟩ := run_cons_eq_some.1 h
      have hrest := ih _ s' (hstep l s a s' hs h₁) h₂
      rwa [taken, h₁, Option.elim_some, ← List.singleton_append, ← List.append_assoc]

/-- The state a run ends in is visited. -/
theorem mem_visited_of_run {s t : σ} {as : List α} (h : run step s as = some t) :
    t ∈ visited step s as := by
  induction as generalizing s with
  | nil => cases h; exact .head _
  | cons a as ih =>
      obtain ⟨s', h₁, h₂⟩ := run_cons_eq_some.1 h
      simp only [visited, h₁, Option.elim_some, List.mem_cons]
      exact .inr (ih h₂)

/-- Every state visited is reached by a run. -/
theorem exists_run_of_mem_visited {s t : σ} {as : List α} (h : t ∈ visited step s as) :
    ∃ bs, run step s bs = some t := by
  induction as generalizing s with
  | nil => exact ⟨[], by rw [List.mem_singleton.1 h]; rfl⟩
  | cons a as ih =>
      rcases List.mem_cons.1 h with rfl | h
      · exact ⟨[], rfl⟩
      · cases hs : step s a with
        | none => simp [hs] at h
        | some s' =>
            obtain ⟨bs, hbs⟩ := ih (by simpa [hs] using h)
            exact ⟨a :: bs, run_cons_eq_some.2 ⟨s', hs, hbs⟩⟩

/-- Every step taken starts in a state visited. -/
theorem mem_visited_of_mem_taken {s : σ} {x : σ × α} {as : List α} (h : x ∈ taken step s as) :
    x.1 ∈ visited step s as := by
  induction as generalizing s with
  | nil => exact absurd h List.not_mem_nil
  | cons a as ih =>
      cases hs : step s a with
      | none => simp [taken, hs] at h
      | some s' =>
          simp only [taken, visited, hs, Option.elim_some, List.mem_cons] at h ⊢
          rcases h with rfl | h
          · exact .inl rfl
          · exact .inr (ih h)

/-- The labels of the steps taken are labels of the run. -/
theorem snd_mem_of_mem_taken {s : σ} {x : σ × α} {as : List α} (h : x ∈ taken step s as) :
    x.2 ∈ as := by
  induction as generalizing s with
  | nil => exact nomatch h
  | cons a as ih =>
      cases hs : step s a with
      | none => simp [taken, hs] at h
      | some s' =>
          rw [taken, hs, Option.elim_some] at h
          rcases List.mem_cons.1 h with rfl | h
          · exact .head _
          · exact .tail _ (ih h)

/-- **Refinement rule.** If every step is enabled where the invariant holds, and shows as one
action or as none, a run shows as the actions of its steps. -/
theorem exists_run_of_actions {γ β : Type*} {I : σ → Prop} {obs : σ → γ} {act : γ → β → γ}
    {action : σ → α → Option β}
    (hstep : ∀ s a, I s → ∃ s', step s a = some s' ∧ I s' ∧
      obs s' = (action s a).elim (obs s) (act (obs s)))
    {s : σ} (hs : I s) (as : List α) : ∃ t, run step s as = some t ∧ I t ∧
      obs t = ((taken step s as).filterMap fun x => action x.1 x.2).foldl act (obs s) := by
  induction as generalizing s with
  | nil => exact ⟨s, rfl, hs, rfl⟩
  | cons a as ih =>
      obtain ⟨s', hs', hI, hobs⟩ := hstep s a hs
      obtain ⟨t, ht, hIt, hobst⟩ := ih hI
      refine ⟨t, run_cons_eq_some.2 ⟨s', hs', ht⟩, hIt, ?_⟩
      rw [taken, hs', Option.elim_some, List.filterMap_cons, hobst, hobs]
      cases action s a <;> rfl

/-- **Guarded invariant rule.** What every step that meets a guard keeps holds all along a run
whose steps meet it. -/
theorem forall_visited_of_taken {I : σ → Prop} {G : σ → α → Prop}
    (hstep : ∀ s a s', I s → G s a → step s a = some s' → I s') {s : σ} {as : List α}
    (hs : I s) (hG : ∀ x ∈ taken step s as, G x.1 x.2) : ∀ t ∈ visited step s as, I t := by
  induction as generalizing s with
  | nil => intro t ht; rwa [List.mem_singleton.1 ht]
  | cons a as ih =>
      intro t ht
      rcases List.mem_cons.1 ht with rfl | ht
      · exact hs
      · cases h : step s a with
        | none => simp [h] at ht
        | some s' =>
            rw [h, Option.elim_some] at ht
            rw [taken, h, Option.elim_some, List.forall_mem_cons] at hG
            exact ih (hstep s a s' hs hG.1 h) hG.2 t ht

/-- **Exact invariant rule.** Under an invariant `J`, a property `P` that survives a step
precisely when the guard `G` holds of it, survives a run precisely when `G` holds of every
step taken. -/
theorem forall_visited_iff {J P : σ → Prop} {G : σ → α → Prop}
    (hJ : ∀ s a s', J s → P s → P s' → step s a = some s' → J s')
    (hP : ∀ s a s', J s → P s → step s a = some s' → (P s' ↔ G s a))
    {s : σ} (as : List α) (hs : J s) (hPs : P s) :
    (∀ t ∈ visited step s as, P t) ↔ ∀ x ∈ taken step s as, G x.1 x.2 := by
  induction as generalizing s with
  | nil => simpa [visited, taken] using hPs
  | cons a as ih =>
      cases h : step s a with
      | none => simpa [visited, taken, h] using hPs
      | some s' =>
          have hnext : P s' ↔ G s a := hP s a s' hs hPs h
          simp only [visited, taken, h, Option.elim_some, List.forall_mem_cons]
          constructor
          · rintro ⟨_, hrest⟩
            have hPs' : P s' := hrest s' (by cases as <;> simp [visited])
            exact ⟨hnext.1 hPs', (ih (hJ s a s' hs hPs hPs' h) hPs').1 hrest⟩
          · rintro ⟨hG, hrest⟩
            have hPs' : P s' := hnext.2 hG
            exact ⟨hPs, (ih (hJ s a s' hs hPs hPs' h) hPs').2 hrest⟩

/-! ## Side by side -/

/-- **Simulation rule.** Two runs whose labels are related one by one stay related as long as
the steps of the first meet `C`, and try related steps. -/
theorem run_rel {τ β : Type*} {step' : τ → β → Option τ} {R : σ → τ → Prop} {E : α → β → Prop}
    {C : σ → α → Prop}
    (hstep : ∀ s t a b, R s t → E a b → C s a → Option.Rel R (step s a) (step' t b))
    {s : σ} {t : τ} {as : List α} {bs : List β} (h : R s t) (hE : List.Forall₂ E as bs)
    (hC : ∀ x ∈ tried step s as, C x.1 x.2) :
    Option.Rel R (run step s as) (run step' t bs) ∧
      List.Forall₂ (fun x y => R x.1 y.1 ∧ E x.2 y.2 ∧ C x.1 x.2) (tried step s as)
        (tried step' t bs) := by
  induction hE generalizing s t with
  | nil => exact ⟨.some h, .nil⟩
  | @cons a b as bs hab hE ih =>
      have hC : C s a ∧ ∀ x ∈ (step s a).elim [] fun s' => tried step s' as, C x.1 x.2 :=
        List.forall_mem_cons.1 hC
      have hnext := hstep s t a b h hab hC.1
      refine ⟨hnext.bind fun s' t' hs' h' => (ih h' ?_).1,
        .cons ⟨h, hab, hC.1⟩ (hnext.elim .nil fun s' t' hs' h' => (ih h' ?_).2)⟩
      all_goals
        have hrest := hC.2
        rwa [hs', Option.elim_some] at hrest

/-! ## Leaving labels out -/

/-- A statement about the runs of all prefixes, when the first step is known. -/
theorem forall_prefix_cons {Q : List α → σ → Prop} {s s' : σ} {a : α} {as : List α}
    (hstep : step s a = some s') (hnil : Q [] s) :
    (∀ bs t, bs <+: a :: as → run step s bs = some t → Q bs t) ↔
      ∀ bs t, bs <+: as → run step s' bs = some t → Q (a :: bs) t := by
  constructor
  · intro hall bs t hbs ht
    exact hall (a :: bs) t (List.cons_prefix_cons.2 ⟨rfl, hbs⟩)
      (run_cons_eq_some.2 ⟨s', hstep, ht⟩)
  · intro hall bs t hbs ht
    cases bs with
    | nil => cases ht; exact hnil
    | cons b bs =>
        obtain ⟨rfl, hsub⟩ := List.cons_prefix_cons.1 hbs
        obtain ⟨s'', hs'', ht⟩ := run_cons_eq_some.1 ht
        cases hstep.symm.trans hs''
        exact hall bs t hsub ht

/-- A label kept, for which the observations agree precisely when it meets the guard. -/
theorem forall_prefix_kept_iff {β : Type*} {R : σ → σ → Prop} {obs : σ → β} {keep : α → Bool}
    {s' u u' : σ} {a : α} {as : List α} {G : Prop} (hu' : step u a = some u')
    (hiff : obs s' = obs u' ↔ G) (hR : G → R s' u') {rest : Prop}
    (ih : R s' u' → ((∀ bs t, bs <+: as → run step s' bs = some t →
      ∃ v, run step u' (bs.filter keep) = some v ∧ obs t = obs v) ↔ rest)) :
    (∀ bs t, bs <+: as → run step s' bs = some t →
      ∃ v, run step u (a :: bs.filter keep) = some v ∧ obs t = obs v) ↔ G ∧ rest := by
  have hrun : ∀ bs v, run step u (a :: bs) = some v ↔ run step u' bs = some v := by
    intro bs v
    rw [run_cons_eq_some]
    constructor
    · rintro ⟨u'', hu'', hv⟩
      cases hu'.symm.trans hu''
      exact hv
    · exact fun hv => ⟨u', hu', hv⟩
  simp only [hrun]
  constructor
  · intro hall
    have hG : G := by
      obtain ⟨v, hv, hobs⟩ := hall [] s' List.nil_prefix rfl
      cases hv
      exact hiff.1 hobs
    exact ⟨hG, (ih (hR hG)).1 hall⟩
  · rintro ⟨hG, hrest⟩
    exact (ih (hR hG)).2 hrest

/-- **Exact two-run rule.** Let `R` relate a run to the one that leaves out the labels not
in `keep`. If a label left out keeps `R`, and a label kept gives the same observation in
both runs precisely when the guard `G` holds, and then keeps `R`, the two runs agree on the
observation after every prefix precisely when every kept step taken meets the guard. -/
theorem forall_prefix_iff {β : Type*} {R : σ → σ → Prop} {G : σ → α → Prop} {obs : σ → β}
    {keep : α → Bool} (hobs : ∀ s u, R s u → obs s = obs u)
    (hdrop : ∀ s u a s', R s u → keep a = false → step s a = some s' → R s' u)
    (hkeep : ∀ s u a s', R s u → keep a = true → step s a = some s' →
      ∃ u', step u a = some u' ∧ (obs s' = obs u' ↔ G s a) ∧ (G s a → R s' u'))
    {s u : σ} (as : List α) (h : R s u) :
    (∀ bs t, bs <+: as → run step s bs = some t →
      ∃ v, run step u (bs.filter keep) = some v ∧ obs t = obs v) ↔
    ∀ x ∈ taken step s as, keep x.2 = true → G x.1 x.2 := by
  induction as generalizing s u with
  | nil =>
      refine ⟨fun _ x hx => absurd hx List.not_mem_nil, fun _ bs t hbs ht => ?_⟩
      obtain rfl := List.prefix_nil.1 hbs
      cases ht
      exact ⟨u, rfl, hobs s u h⟩
  | cons a as ih =>
      cases hstep : step s a with
      | none =>
          refine ⟨fun _ x hx => by simp [taken, hstep] at hx, fun _ bs t hbs ht => ?_⟩
          cases bs with
          | nil => cases ht; exact ⟨u, rfl, hobs s u h⟩
          | cons b bs =>
              obtain ⟨rfl, _⟩ := List.cons_prefix_cons.1 hbs
              simp [run, hstep] at ht
      | some s' =>
          have htaken : taken step s (a :: as) = (s, a) :: taken step s' as := by
            simp only [taken, hstep, Option.elim_some]
          rw [htaken, List.forall_mem_cons, forall_prefix_cons hstep ⟨u, rfl, hobs s u h⟩]
          cases hk : keep a with
          | false =>
              simp only [List.filter_cons, hk, Bool.false_eq_true, if_false, false_imp_iff,
                true_and]
              exact ih (hdrop s u a s' h hk hstep)
          | true =>
              obtain ⟨u', hu', hiff, hR⟩ := hkeep s u a s' h hk hstep
              simp only [List.filter_cons, hk, if_true, true_imp_iff]
              exact forall_prefix_kept_iff hu' hiff hR ih

/-! ## Leaving steps out -/

/-- The labels of a run without those of its idle steps. -/
def without (step : σ → α → Option σ) (idle : σ → α → Bool) (s : σ) (as : List α) : List α :=
  ((tried step s as).filter fun x => !idle x.1 x.2).map Prod.snd

/-- **Stuttering rule.** Let `R` relate a run to the one that leaves out the idle steps. If an idle
step shows nothing and keeps `R`, and the other steps show the same in both runs and keep `R`, the
runs end alike and show the same. -/
theorem run_without {R : σ → σ → Prop} {idle : σ → α → Bool} {β : Type*} {obs : σ → α → List β}
    (hidle : ∀ s u a, R s u → idle s a = true → obs s a = [] ∧ ∃ s', step s a = some s' ∧ R s' u)
    (hbusy : ∀ s u a, R s u → idle s a = false →
      obs s a = obs u a ∧ Option.Rel R (step s a) (step u a))
    {s u : σ} (h : R s u) (as : List α) :
    Option.Rel R (run step s as) (run step u (without step idle s as)) ∧
      ((tried step s as).flatMap fun x => obs x.1 x.2) =
        (tried step u (without step idle s as)).flatMap fun x => obs x.1 x.2 := by
  induction as generalizing s u with
  | nil => exact ⟨.some h, rfl⟩
  | cons a as ih =>
      cases ha : idle s a with
      | true =>
          obtain ⟨hobs, s', hs', hR⟩ := hidle s u a h ha
          have hwithout : without step idle s (a :: as) = without step idle s' as := by
            rw [without, tried, hs', Option.elim_some, List.filter_cons_of_neg (by simp [ha])]
            rfl
          obtain ⟨hrun, hflat⟩ := ih hR
          rw [hwithout, run, tried, hs', Option.bind_some, Option.elim_some, List.flatMap_cons,
            hobs, List.nil_append]
          exact ⟨hrun, hflat⟩
      | false =>
          obtain ⟨hobs, hR⟩ := hbusy s u a h ha
          have hwithout : without step idle s (a :: as) =
              a :: (step s a).elim [] fun s' => without step idle s' as := by
            rw [without, tried, List.filter_cons_of_pos (by simp [ha]), List.map_cons]
            cases step s a <;> rfl
          rw [hwithout]
          generalize hs : step s a = x at hR ⊢
          generalize hu : step u a = y at hR
          cases hR with
          | none => exact ⟨by simp [run, hs, hu], by simp [tried, hs, hu, hobs]⟩
          | some hR =>
              obtain ⟨hrun, hflat⟩ := ih hR
              exact ⟨by simpa [run, hs, hu] using hrun, by simp [tried, hs, hu, hobs, hflat]⟩

end Runs
