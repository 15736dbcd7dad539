import Mathlib.Data.List.Basic

/-!
# Turns

A list whose items have a turn each, in order: one that is alive is called, which may change
anything, and one that has expired is not. `walk` is what comes of it and `kept` the items called.
`serve` is the loop that does it over a buffer and an index that is the number of items called,
erasing what has expired; it is the walk over what stands at the index and after (`serve_eq`). An
item that has expired may as well be left out, as it stays so (`walk_filter`).
-/

namespace Turns

variable {α σ : Type*} {expired : σ → α → Bool} {call : α → σ → σ}

/-- One turn. -/
def turn (expired : σ → α → Bool) (call : α → σ → σ) (s : σ) (a : α) : σ :=
  if expired s a then s else call a s

/-- A turn for each, in order. -/
def walk (expired : σ → α → Bool) (call : α → σ → σ) (as : List α) (s : σ) : σ :=
  as.foldl (turn expired call) s

/-- The items called on the way. -/
def kept (expired : σ → α → Bool) (call : α → σ → σ) : List α → σ → List α
  | [], _ => []
  | a :: as, s =>
      if expired s a then kept expired call as s else a :: kept expired call as (call a s)

/-- At most `n` turns of the loop, from a buffer and an index. -/
def serve (expired : σ → α → Bool) (call : α → σ → σ) :
    Nat → List α → Nat → σ → List α × Nat × σ
  | 0, buffer, offset, s => (buffer, offset, s)
  | n + 1, buffer, offset, s =>
      match buffer[offset]? with
      | none => (buffer, offset, s)
      | some a =>
          if expired s a then serve expired call n (buffer.eraseIdx offset) offset s
          else serve expired call n buffer (offset + 1) (call a s)

/-! ## The walk -/

theorem walk_append (as bs : List α) (s : σ) :
    walk expired call (as ++ bs) s = walk expired call bs (walk expired call as s) :=
  List.foldl_append

theorem walk_cons (a : α) (as : List α) (s : σ) :
    walk expired call (a :: as) s = walk expired call as (turn expired call s a) := rfl

theorem kept_append (as bs : List α) (s : σ) :
    kept expired call (as ++ bs) s =
      kept expired call as s ++ kept expired call bs (walk expired call as s) := by
  induction as generalizing s with
  | nil => rfl
  | cons a as ih =>
      rw [List.cons_append, kept, kept, walk_cons, turn]
      split
      · exact ih s
      · rw [ih, List.cons_append]

theorem kept_sublist (as : List α) (s : σ) :
    (kept expired call as s).Sublist as := by
  induction as generalizing s with
  | nil => exact .slnil
  | cons a as ih =>
      rw [kept]
      split
      · exact (ih s).cons a
      · exact (ih _).cons_cons a

/-- **Invariant rule.** What every call of an item of the list keeps is kept. -/
theorem walk_invariant {I : σ → Prop} {as : List α}
    (hcall : ∀ a ∈ as, ∀ s, I s → expired s a = false → I (call a s)) {s : σ} (h : I s) :
    I (walk expired call as s) := by
  induction as generalizing s with
  | nil => exact h
  | cons a as ih =>
      obtain ⟨hfirst, hrest⟩ := List.forall_mem_cons.1 hcall
      refine ih hrest ?_
      cases ha : expired s a with
      | true => rwa [turn, ha, if_pos rfl]
      | false =>
          rw [turn, ha, if_neg (Bool.eq_false_iff.1 rfl)]
          exact hfirst s h ha

/-- **Projection rule.** A walk is seen through a projection that every call is seen through. -/
theorem walk_map {τ : Type*} {expired' : τ → α → Bool} {call' : α → τ → τ} {π : σ → τ}
    (hexpired : ∀ s a, expired' (π s) a = expired s a) (hcall : ∀ s a, π (call a s) = call' a (π s))
    (as : List α) (s : σ) :
    π (walk expired call as s) = walk expired' call' as (π s) ∧
      kept expired call as s = kept expired' call' as (π s) := by
  induction as generalizing s with
  | nil => exact ⟨rfl, rfl⟩
  | cons a as ih =>
      rw [walk_cons, walk_cons, kept, kept, turn, turn, hexpired]
      cases expired s a with
      | true => exact ih s
      | false =>
          obtain ⟨hwalk, hkept⟩ := ih (call a s)
          refine ⟨?_, ?_⟩
          · simpa [hcall] using hwalk
          · simpa [hcall] using hkept

/-- What has expired may be left out, if it stays so. -/
theorem walk_filter (hstays : ∀ a b s, expired s a = true → expired (call b s) a = true)
    (as : List α) (s : σ) :
    walk expired call (as.filter fun a => !expired s a) s = walk expired call as s := by
  suffices hlater : ∀ t, (∀ a, expired s a = true → expired t a = true) →
      walk expired call (as.filter fun a => !expired s a) t = walk expired call as t from
    hlater s fun _ h => h
  induction as with
  | nil => exact fun _ _ => rfl
  | cons a as ih =>
      intro t ht
      cases hs : expired s a with
      | true =>
          have hskip : turn expired call t a = t := if_pos (ht a hs)
          rw [List.filter_cons_of_neg (by simp [hs]), walk_cons, hskip]
          exact ih t ht
      | false =>
          rw [List.filter_cons_of_pos (by simp [hs]), walk_cons, walk_cons]
          refine ih _ fun b hb => ?_
          unfold turn
          split
          · exact ht b hb
          · exact hstays b a t (ht b hb)

/-- What was not called has expired in the end, if it stays so. -/
theorem expired_walk (hstays : ∀ a b s, expired s a = true → expired (call b s) a = true)
    {as : List α} {a : α} {s : σ} (ha : a ∈ as) (hkept : a ∉ kept expired call as s) :
    expired (walk expired call as s) a = true := by
  induction as generalizing s with
  | nil => exact absurd ha List.not_mem_nil
  | cons b as ih =>
      rw [kept] at hkept
      rw [walk_cons, turn]
      split at hkept
      · next hb =>
        rw [if_pos hb]
        rcases List.mem_cons.1 ha with rfl | ha
        · exact walk_invariant (I := fun s => expired s a = true)
            (fun b _ s h _ => hstays a b s h) hb
        · exact ih ha hkept
      · next hb =>
        rw [if_neg hb]
        obtain ⟨hne, hrest⟩ := List.ne_and_not_mem_of_not_mem_cons hkept
        exact ih ((List.mem_cons.1 ha).resolve_left hne) hrest

/-! ## The loop -/

/-- The loop walks over what stands at the index and after. -/
theorem serve_eq {n : Nat} {buffer : List α} {offset : Nat} (h : buffer.length ≤ offset + n)
    (s : σ) :
    serve expired call n buffer offset s =
      (buffer.take offset ++ kept expired call (buffer.drop offset) s,
        offset + (kept expired call (buffer.drop offset) s).length,
        walk expired call (buffer.drop offset) s) := by
  have hstop : ∀ {buffer : List α} {offset : Nat} (s : σ), buffer.length ≤ offset →
      (buffer, offset, s) =
        (buffer.take offset ++ kept expired call (buffer.drop offset) s,
          offset + (kept expired call (buffer.drop offset) s).length,
          walk expired call (buffer.drop offset) s) := by
    intro buffer offset s hend
    rw [List.drop_of_length_le hend, List.take_of_length_le hend, kept, List.append_nil]
    rfl
  induction n generalizing buffer offset s with
  | zero => exact hstop s h
  | succ n ih =>
      rw [serve]
      cases hat : buffer[offset]? with
      | none => exact hstop s (List.getElem?_eq_none_iff.1 hat)
      | some a =>
          obtain ⟨hlt, ha⟩ := List.getElem?_eq_some_iff.1 hat
          rw [List.drop_eq_getElem_cons hlt, ha, kept, walk_cons, turn]
          cases hexpired : expired s a with
          | true =>
              have hlen := List.length_eraseIdx_of_lt hlt
              have htake : (buffer.eraseIdx offset).take offset = buffer.take offset := by
                simp [List.eraseIdx_eq_take_drop_succ, Nat.le_of_lt hlt]
              have hdrop : (buffer.eraseIdx offset).drop offset = buffer.drop (offset + 1) := by
                simp [List.eraseIdx_eq_take_drop_succ, Nat.le_of_lt hlt]
              simp only [hexpired, if_true]
              rw [ih (by omega), htake, hdrop]
          | false =>
              simp only [hexpired, Bool.false_eq_true, if_false]
              rw [ih (by omega), List.take_succ_eq_append_getElem hlt, ha, List.length_cons,
                Nat.add_right_comm, List.append_assoc, List.singleton_append]
              rfl

end Turns
