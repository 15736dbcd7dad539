import Mathlib.Data.List.Basic

/-!
# Nested pushes and pops over a store of bounded depth

The entries pushed and not yet popped, newest first, without a bound. A store of `n` places keeps
the newest `n` of them only: what is pushed over `n` others loses the one that lies `n` below, and
a lost entry stays lost (`step`). An entry on top of which at most `n - 1` others are ever pushed
before its own pop is found there by it (`run_matched`).
-/

namespace Nesting

variable {α : Type*}

/-- What is done to the store. -/
inductive Event (α : Type*) where
  | push (value : α)
  | pop
  | clear

/-- An entry pushed and not popped, and whether the store has it still. -/
structure Entry (α : Type*) where
  value : α
  kept : Bool

/-- The entry at `i` is lost. -/
def lose (i : Nat) (entries : List (Entry α)) : List (Entry α) :=
  entries.modify i fun e => { e with kept := false }

/-- One event: a push loses the entry `n` below it. -/
def step (n : Nat) (entries : List (Entry α)) : Event α → List (Entry α)
  | .push value => lose n (⟨value, true⟩ :: entries)
  | .pop => entries.tail
  | .clear => []

/-- Some events in turn. -/
def run (n : Nat) (entries : List (Entry α)) (events : List (Event α)) : List (Entry α) :=
  events.foldl (step n) entries

/-! ## What is kept -/

/-- The other entries stay. -/
theorem getElem?_lose_of_ne {i j : Nat} (h : j ≠ i) (entries : List (Entry α)) :
    (lose i entries)[j]? = entries[j]? := List.getElem?_modify_ne _ _ h.symm

/-- An entry still kept is not the one lost. -/
theorem ne_of_kept_lose {i j : Nat} {entries : List (Entry α)} {e : Entry α}
    (h : (lose i entries)[j]? = some e) (hkept : e.kept = true) : j ≠ i := by
  rintro rfl
  rw [lose, List.getElem?_modify_eq] at h
  obtain ⟨e', _, rfl⟩ := Option.map_eq_some_iff.1 h
  cases hkept

/-! ## Matching -/

/-- Pushes less pops. -/
def net : List (Event α) → Int
  | [] => 0
  | .push _ :: events => net events + 1
  | .pop :: events => net events - 1
  | .clear :: events => net events

/-- Between a push and its own pop: as many pops as pushes, at no point more, and no clear. -/
structure Matched (events : List (Event α)) : Prop where
  noClear : .clear ∉ events
  nonneg : ∀ first, first <+: events → 0 ≤ net first
  even : net events = 0

/-- An entry that is at every point among the newest `n` goes up and down with the others and is
not lost. -/
theorem run_getElem? {n : Nat} {events : List (Event α)} (hclear : .clear ∉ events)
    {entries : List (Entry α)} {e : Entry α} {d : Nat} (he : entries[d]? = some e)
    (hbound : ∀ first, first <+: events → 0 ≤ d + net first ∧ d + net first < n) :
    ∃ d' : Nat, (d' : Int) = d + net events ∧ (run n entries events)[d']? = some e := by
  induction events generalizing entries d with
  | nil => exact ⟨d, (Int.add_zero _).symm, he⟩
  | cons event events ih =>
      have hclear' : Event.clear ∉ events := fun hmem => hclear (.tail _ hmem)
      have hfirst := hbound [event] (List.cons_prefix_cons.2 ⟨rfl, List.nil_prefix⟩)
      have hnext := fun (first : List (Event α)) (h : first <+: events) =>
        hbound (event :: first) (List.cons_prefix_cons.2 ⟨rfl, h⟩)
      cases event with
      | push value =>
          -- one deeper, and not yet at `n`
          simp only [net] at hfirst hnext
          have hstep : (step n entries (.push value))[d + 1]? = some e := by
            rw [step, getElem?_lose_of_ne (by omega), List.getElem?_cons_succ, he]
          obtain ⟨d', hd', hrun⟩ := ih hclear' hstep fun first h => by
            have := hnext first h
            omega
          exact ⟨d', by rw [hd', net]; omega, hrun⟩
      | pop =>
          simp only [net] at hfirst hnext
          obtain ⟨d, rfl⟩ : ∃ k, d = k + 1 := ⟨d - 1, by omega⟩
          have hstep : (step n entries .pop)[d]? = some e := by
            rw [step, List.getElem?_tail, he]
          obtain ⟨d', hd', hrun⟩ := ih hclear' hstep fun first h => by
            have := hnext first h
            omega
          exact ⟨d', by rw [hd', net]; omega, hrun⟩
      | clear => exact absurd (.head _) hclear

/-- **A push's own pop finds it**, if no more than `n` entries from it on are ever there. -/
theorem run_matched {n : Nat} {entries : List (Entry α)} {value : α} {between : List (Event α)}
    (h : Matched between) (hdeep : ∀ first, first <+: between → 1 + net first ≤ n) :
    (run n entries (.push value :: between)).head? = some ⟨value, true⟩ := by
  have hn : 1 + net ([] : List (Event α)) ≤ n := hdeep [] List.nil_prefix
  have he : (step n entries (.push value))[0]? = some ⟨value, true⟩ := by
    rw [step, getElem?_lose_of_ne (by simp only [net] at hn; omega), List.getElem?_cons_zero]
  have hbound : ∀ first, first <+: between →
      0 ≤ ((0 : Nat) : Int) + net first ∧ ((0 : Nat) : Int) + net first < n := by
    intro first hfirst
    have := h.nonneg first hfirst
    have := hdeep first hfirst
    omega
  obtain ⟨d', hd', hrun⟩ := run_getElem? h.noClear he hbound
  obtain rfl : d' = 0 := by
    rw [h.even] at hd'
    omega
  rw [List.head?_eq_getElem?]
  exact hrun

end Nesting
