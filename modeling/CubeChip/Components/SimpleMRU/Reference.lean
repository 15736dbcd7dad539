import CubeChip.Components.SimpleMRU
import Mathlib.Data.Finset.Card
import Mathlib.Data.List.Basic

/-!
# `SimpleMRU` keeps the values used most recently

What the list is for, as a set: every value kept is stamped with the number of the request that
inserted it last, and a cut to a limit keeps the values fewer than that many are newer than
(`Kept`). `Represents` relates a list to such a set, each request of a client keeps it
(`Represents.perform`), and so does every run of requests.
-/

namespace CubeChip.SimpleMRU

variable {T : Type*} [DecidableEq T]

/-- What a client asks of the list. -/
inductive Request (T : Type*) where
  | insert (value : T)
  | erase (value : T)
  | setLimit (limit : Nat)
  | clear

/-- The list after one request. -/
def perform (m : SimpleMRU T) : Request T → SimpleMRU T
  | .insert value => m.insert value
  | .erase value => m.erase value
  | .setLimit limit => m.setLimit limit
  | .clear => m.clear

/-- The list of initial limit `limit` after the requests. -/
def afterRequests (limit : Nat) (requests : List (Request T)) : SimpleMRU T :=
  requests.foldl perform (ofLimit limit)

/-! ## The reference -/

/-- The values kept, the number of the request that inserted each last, the number of requests so
far and the limit. -/
structure Kept (T : Type*) where
  values : Finset T
  stamp : T → Nat
  clock : Nat
  limit : Nat

namespace Kept

/-- The values newer than `value`. -/
def newer (k : Kept T) (value : T) : Finset T :=
  k.values.filter fun other => k.stamp value < k.stamp other

/-- The values fewer than `limit` are newer than; all of them when the limit is 0. -/
def cut (k : Kept T) : Kept T :=
  { k with values := k.values.filter fun value => k.limit = 0 ∨ (k.newer value).card < k.limit }

/-- One more request. -/
def tick (k : Kept T) : Kept T := { k with clock := k.clock + 1 }

/-- What the set is after one request. -/
def perform (k : Kept T) : Request T → Kept T
  | .insert value =>
      tick (cut { k with
        values := Insert.insert value k.values, stamp := Function.update k.stamp value k.clock })
  | .erase value => tick { k with values := k.values.erase value }
  | .setLimit limit => tick (cut { k with limit := limit })
  | .clear => tick { k with values := ∅ }

/-- Nothing is kept at the start. -/
def ofLimit (limit : Nat) : Kept T :=
  { values := ∅, stamp := fun _ => 0, clock := 0, limit := limit }

/-- The set after the requests. -/
def afterRequests (limit : Nat) (requests : List (Request T)) : Kept T :=
  requests.foldl perform (ofLimit limit)

end Kept

/-! ## Lists by falling stamp -/

section Stamps

variable {stamp : T → Nat} {items : List T}

/-- Newest first, no two of one stamp. -/
def Falling (stamp : T → Nat) (items : List T) : Prop :=
  items.Pairwise fun a b => stamp b < stamp a

omit [DecidableEq T] in
theorem Falling.nodup (h : Falling stamp items) : items.Nodup :=
  h.imp fun hlt heq => absurd (congrArg stamp heq) (Nat.ne_of_gt hlt)

omit [DecidableEq T] in
/-- The last of the list has the least stamp. -/
theorem Falling.getLast_le (h : Falling stamp items) {last value : T}
    (hlast : items.getLast? = some last) (hvalue : value ∈ items) : stamp last ≤ stamp value := by
  induction items with
  | nil => cases hvalue
  | cons a rest ih =>
      obtain ⟨ha, hrest⟩ := List.pairwise_cons.1 h
      cases rest with
      | nil =>
          obtain rfl : a = last := by simpa using hlast
          rw [List.mem_singleton.1 hvalue]
      | cons b rest =>
          rw [List.getLast?_cons_cons] at hlast
          rcases List.mem_cons.1 hvalue with rfl | hmem
          · exact Nat.le_of_lt (ha last (List.mem_of_getLast? hlast))
          · exact ih hrest hlast hmem

/-- The first `n` are those fewer than `n` are newer than. -/
theorem Falling.mem_take (h : Falling stamp items) (n : Nat) (value : T) :
    value ∈ items.take n ↔
      value ∈ items ∧ (items.toFinset.filter fun other => stamp value < stamp other).card < n := by
  induction items generalizing n with
  | nil => simp
  | cons a rest ih =>
      obtain ⟨ha, hrest⟩ := List.pairwise_cons.1 h
      have hnot : a ∉ rest := (List.nodup_cons.1 h.nodup).1
      rw [List.toFinset_cons, Finset.filter_insert]
      cases n with
      | zero => simp
      | succ n =>
          rw [List.take_succ_cons, List.mem_cons, List.mem_cons, ih hrest]
          by_cases hvalue : value = a
          · -- nothing is newer than the first
            subst hvalue
            have hnone : rest.toFinset.filter (fun other => stamp value < stamp other) = ∅ := by
              refine Finset.filter_eq_empty_iff.2 fun other hother => ?_
              exact Nat.not_lt.2 (Nat.le_of_lt (ha other (List.mem_toFinset.1 hother)))
            simp [hnone]
          · simp only [hvalue, false_or]
            refine and_congr_right fun hmem => ?_
            have hfresh : a ∉ rest.toFinset.filter fun other => stamp value < stamp other := by
              simp [hnot]
            rw [if_pos (ha value hmem), Finset.card_insert_of_notMem hfresh,
              Nat.add_lt_add_iff_right]

end Stamps

/-! ## The list represents the set -/

/-- `m` lists the values of `k`, newest first, under the same limit and no more than it allows. -/
structure Represents (m : SimpleMRU T) (k : Kept T) : Prop where
  values : m.items.toFinset = k.values
  falling : Falling k.stamp m.items
  old : ∀ value ∈ m.items, k.stamp value < k.clock
  limit : m.limit = k.limit
  bounded : m.limit ≠ 0 → m.items.length ≤ m.limit

section Represents

variable {m : SimpleMRU T} {k : Kept T}

theorem Represents.mem (h : Represents m k) (value : T) : value ∈ m.items ↔ value ∈ k.values := by
  rw [← h.values, List.mem_toFinset]

/-- Taking the first items of a list that may be too long is the cut. -/
theorem Represents.cut {items : List T} (hvalues : items.toFinset = k.values)
    (hfalling : Falling k.stamp items) (hold : ∀ value ∈ items, k.stamp value ≤ k.clock) :
    Represents { items := if k.limit = 0 then items else items.take k.limit, limit := k.limit }
      k.cut.tick := by
  by_cases hlimit : k.limit = 0
  · refine ⟨?_, ?_, ?_, rfl, fun hne => absurd hlimit hne⟩
    · ext value
      simp [Kept.cut, Kept.tick, hlimit, hvalues]
    · rw [if_pos hlimit]
      exact hfalling
    · intro value hmem
      rw [if_pos hlimit] at hmem
      exact Nat.lt_succ_of_le (hold value hmem)
  · rw [if_neg hlimit]
    refine ⟨?_, hfalling.sublist (List.take_sublist _ _), ?_, rfl, fun _ => List.length_take_le _ _⟩
    · ext value
      simp only [List.mem_toFinset, hfalling.mem_take, Kept.cut, Kept.tick, Finset.mem_filter,
        Kept.newer, hlimit, false_or, ← hvalues]
    · intro value hmem
      exact Nat.lt_succ_of_le (hold value (List.mem_of_mem_take hmem))

/-- The value inserted is the newest; the rest keep their stamps. -/
theorem Represents.falling_insert (h : Represents m k) (value : T) :
    Falling (Function.update k.stamp value k.clock) (value :: m.items.erase value) := by
  have hnodup := h.falling.nodup
  have hne : ∀ other ∈ m.items.erase value, other ≠ value :=
    fun other hother => (hnodup.mem_erase_iff.1 hother).1
  refine List.pairwise_cons.2 ⟨?_, ?_⟩
  · intro other hother
    rw [Function.update_self, Function.update_of_ne (hne other hother)]
    exact h.old other (List.mem_of_mem_erase hother)
  · refine (h.falling.sublist (List.erase_sublist)).imp_of_mem ?_
    intro a b ha hb hlt
    rwa [Function.update_of_ne (hne a ha), Function.update_of_ne (hne b hb)]

/-- `insert` puts the value in front and cuts to the limit. -/
theorem Represents.insert_eq (h : Represents m k) (value : T) :
    m.insert value =
      { items := if m.limit = 0 then value :: m.items.erase value
                 else (value :: m.items.erase value).take m.limit,
        limit := m.limit } := by
  unfold SimpleMRU.insert
  split
  · next hmem =>
      rw [rotateToFront_idxOf hmem]
      split
      · rfl
      · next hlimit =>
          -- the items are as many as before, so the cut takes all of them
          rw [List.take_of_length_le]
          have hlength := List.length_erase_add_one hmem
          rw [List.length_cons, hlength]
          exact h.bounded hlimit
  · next hmem =>
      rw [List.erase_of_not_mem hmem]
      by_cases hlimit : m.limit = 0
      · simp [hlimit]
      · have hbounded := h.bounded hlimit
        dsimp only
        by_cases hover : m.limit < (value :: m.items).length
        · have hlast : (value :: m.items).length - 1 = m.limit := by
            rw [List.length_cons] at hover ⊢
            omega
          rw [if_pos (And.intro hlimit hover), if_neg hlimit, List.dropLast_eq_take, hlast]
        · rw [if_neg fun hboth : m.limit ≠ 0 ∧ _ => hover hboth.2, if_neg hlimit,
            List.take_of_length_le (Nat.le_of_not_lt hover)]

omit [DecidableEq T] in
/-- `set_limit` cuts to the new limit. -/
theorem setLimit_eq (m : SimpleMRU T) (limit : Nat) :
    m.setLimit limit =
      { items := if limit = 0 then m.items else m.items.take limit, limit := limit } := by
  unfold setLimit
  by_cases hlimit : limit = 0
  · simp [hlimit]
  · by_cases hover : limit < m.items.length
    · rw [if_pos ⟨hlimit, hover⟩, if_neg hlimit]
    · rw [if_neg fun hboth => hover hboth.2, if_neg hlimit,
        List.take_of_length_le (Nat.le_of_not_lt hover)]

/-- **One request.** -/
theorem Represents.perform (h : Represents m k) (request : Request T) :
    Represents (m.perform request) (k.perform request) := by
  cases request with
  | insert value =>
      show Represents (m.insert value) _
      rw [h.insert_eq, h.limit]
      refine Represents.cut (k := { k with
        values := Insert.insert value k.values
        stamp := Function.update k.stamp value k.clock }) ?_ (h.falling_insert value) ?_
      · ext other
        by_cases hother : other = value
        · simp [hother]
        · simp [hother, List.mem_erase_of_ne hother, h.mem]
      · intro other hmem
        rcases List.mem_cons.1 hmem with rfl | hmem
        · exact Nat.le_of_eq (Function.update_self ..)
        · have hne := (h.falling.nodup.mem_erase_iff.1 hmem).1
          refine Nat.le_trans (Nat.le_of_eq (Function.update_of_ne hne ..)) ?_
          exact Nat.le_of_lt (h.old other (List.mem_of_mem_erase hmem))
  | erase value =>
      refine ⟨?_, h.falling.sublist List.erase_sublist, ?_, h.limit, ?_⟩
      · ext other
        simp [SimpleMRU.perform, SimpleMRU.erase, Kept.perform, Kept.tick,
          h.falling.nodup.mem_erase_iff, h.mem]
      · intro other hmem
        exact Nat.lt_succ_of_lt (h.old other (List.mem_of_mem_erase hmem))
      · intro hlimit
        exact Nat.le_trans List.length_erase_le (h.bounded hlimit)
  | setLimit limit =>
      show Represents (m.setLimit limit) _
      rw [setLimit_eq]
      exact Represents.cut (k := { k with limit := limit }) h.values h.falling
        fun value hmem => Nat.le_of_lt (h.old value hmem)
  | clear =>
      refine ⟨rfl, List.Pairwise.nil, ?_, h.limit, fun _ => Nat.zero_le _⟩
      intro value hmem
      cases hmem

theorem represents_ofLimit (limit : Nat) :
    Represents (T := T) (ofLimit limit) (Kept.ofLimit limit) := by
  have hitems : (ofLimit (T := T) limit).items = [] := by simp [ofLimit, setLimit]
  have hlimit : (ofLimit (T := T) limit).limit = limit := by simp [ofLimit, setLimit]
  refine ⟨?_, ?_, ?_, hlimit, ?_⟩ <;> rw [hitems]
  · rfl
  · exact List.Pairwise.nil
  · intro value hmem
    cases hmem
  · exact fun _ => Nat.zero_le _

/-- Every run of requests keeps the list and the set together. -/
theorem represents_afterRequests (limit : Nat) (requests : List (Request T)) :
    Represents (afterRequests limit requests) (Kept.afterRequests limit requests) :=
  List.foldl_rel (represents_ofLimit limit) fun request _ _ _ h => h.perform request

/-- The value inserted is in front. -/
theorem Represents.head?_insert (h : Represents m k) (value : T) :
    (m.insert value).items.head? = some value := by
  rw [h.insert_eq]
  split
  · rfl
  · next hlimit =>
      obtain ⟨limit, hlimit'⟩ := Nat.exists_eq_succ_of_ne_zero hlimit
      rw [hlimit', List.take_succ_cons, List.head?_cons]

/-- `insert` drops no value but the last, and never the one inserted. -/
theorem evicted_insert {value gone : T} (hgone : gone ∈ m.items)
    (hnot : gone ∉ (m.insert value).items) : gone ≠ value ∧ m.items.getLast? = some gone := by
  unfold SimpleMRU.insert at hnot
  split at hnot
  · next hmem =>
      rw [rotateToFront_idxOf hmem, List.mem_cons, not_or] at hnot
      exact absurd ((List.mem_erase_of_ne hnot.1).2 hgone) hnot.2
  · next hmem =>
      have hne : gone ≠ value := fun heq => hmem (heq ▸ hgone)
      refine ⟨hne, ?_⟩
      dsimp only at hnot
      split at hnot
      · have hitems : m.items ≠ [] := List.ne_nil_of_mem hgone
        rw [List.dropLast_cons_of_ne_nil hitems, List.mem_cons, not_or] at hnot
        rw [← List.dropLast_concat_getLast hitems, List.mem_append] at hgone
        have hlast := List.mem_singleton.1 (hgone.resolve_left hnot.2)
        rw [List.getLast?_eq_some_getLast hitems, hlast]
      · exact absurd (.tail _ hgone) hnot

end Represents

/-- **The list is the reference's.** After any requests the items are the values kept, each once
and newest first, no more than a limit allows; the next insert puts its value in front, and what
it drops is another value, which no value kept is older than. -/
theorem afterRequests_eq_kept (limit : Nat) (requests : List (Request T)) :
    (afterRequests limit requests).items.Nodup ∧
    (afterRequests limit requests).limit = (Kept.afterRequests limit requests).limit ∧
    ((afterRequests limit requests).limit ≠ 0 →
      (afterRequests limit requests).items.length ≤ (afterRequests limit requests).limit) ∧
    (∀ value, value ∈ (afterRequests limit requests).items ↔
      value ∈ (Kept.afterRequests limit requests).values) ∧
    Falling (Kept.afterRequests limit requests).stamp (afterRequests limit requests).items ∧
    ∀ value, ((afterRequests limit requests).insert value).items.head? = some value ∧
      ∀ gone ∈ (afterRequests limit requests).items,
        gone ∉ ((afterRequests limit requests).insert value).items →
        gone ≠ value ∧ (afterRequests limit requests).items.getLast? = some gone ∧
        ∀ other ∈ (afterRequests limit requests).items,
          (Kept.afterRequests limit requests).stamp gone ≤
            (Kept.afterRequests limit requests).stamp other := by
  have h := represents_afterRequests limit requests
  refine ⟨h.falling.nodup, h.limit, h.bounded, h.mem, h.falling, fun value => ?_⟩
  refine ⟨h.head?_insert value, fun gone hgone hnot => ?_⟩
  obtain ⟨hne, hlast⟩ := evicted_insert hgone hnot
  exact ⟨hne, hlast, fun other hother => h.falling.getLast_le hlast hother⟩

/-- Limits 2, none and 1 in turn: 3 evicts 1, and the cut to 1 leaves the 2 inserted again. -/
example : (afterRequests 2 [.insert 1, .insert 2, .insert 3, .setLimit 0, .insert 2, .insert 4,
    .erase 4, .setLimit 1]).items = [2] := by decide

end CubeChip.SimpleMRU
