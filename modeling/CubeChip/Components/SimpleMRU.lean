import Mathlib.Data.List.Perm.Basic
import Mathlib.Data.List.Nodup

/-!
# `SimpleMRU`

The list of most recently used items of `components/SimpleMRU.hpp`, newest first, over a vector
and with a limit that is 0 for none. Inserting an item that is there rotates it to the front.
-/

namespace CubeChip

/-- A `SimpleMRU<T>`. -/
structure SimpleMRU (T : Type*) where
  items : List T
  limit : Nat

namespace SimpleMRU

variable {T : Type*} [DecidableEq T]

/-- `std::rotate(begin, begin + i, begin + i + 1)`: the item at `i` goes to the front. -/
def rotateToFront (i : Nat) (items : List T) : List T :=
  (items.drop i).take 1 ++ items.take i ++ items.drop (i + 1)

/-- `insert`. -/
def insert (value : T) (m : SimpleMRU T) : SimpleMRU T :=
  if value ∈ m.items then
    { m with items := rotateToFront (m.items.idxOf value) m.items }
  else
    let items := value :: m.items
    { m with items := if m.limit ≠ 0 ∧ m.limit < items.length then items.dropLast else items }

/-- `erase`. -/
def erase (value : T) (m : SimpleMRU T) : SimpleMRU T := { m with items := m.items.erase value }

omit [DecidableEq T] in
/-- `clear`. The limit stays. -/
def clear (m : SimpleMRU T) : SimpleMRU T := { m with items := [] }

omit [DecidableEq T] in
/-- `set_limit`. Room for the items of the limit is reserved otherwise, which changes none. -/
def setLimit (limit : Nat) (m : SimpleMRU T) : SimpleMRU T :=
  if limit ≠ 0 ∧ limit < m.items.length then
    { items := m.items.take limit, limit := limit }
  else
    { m with limit := limit }

omit [DecidableEq T] in
/-- `SimpleMRU(limit)`. -/
def ofLimit (limit : Nat) : SimpleMRU T := setLimit limit { items := [], limit := 0 }

omit [DecidableEq T] in
theorem rotateToFront_eq {i : Nat} {value : T} {items : List T} (h : items[i]? = some value) :
    rotateToFront i items = value :: items.eraseIdx i := by
  obtain ⟨hi, hvalue⟩ := List.getElem?_eq_some_iff.1 h
  rw [rotateToFront, List.drop_eq_getElem_cons hi, hvalue, List.take_succ_cons, List.take_zero,
    List.append_assoc, List.eraseIdx_eq_take_drop_succ]
  rfl

/-- An item that is there is moved to the front of the others. -/
theorem rotateToFront_idxOf {value : T} {items : List T} (h : value ∈ items) :
    rotateToFront (items.idxOf value) items = value :: items.erase value := by
  rw [rotateToFront_eq (List.getElem?_idxOf h), List.eraseIdx_idxOf_eq_erase]

/-- Without a limit, `insert` puts the item in front of the others. -/
theorem items_insert {m : SimpleMRU T} (hlimit : m.limit = 0) (value : T) :
    (m.insert value).items = value :: m.items.erase value := by
  unfold insert
  split
  · next h => exact rotateToFront_idxOf h
  · next h =>
      rw [List.erase_of_not_mem h]
      exact if_neg fun hover => hover.1 hlimit

theorem limit_insert (m : SimpleMRU T) (value : T) : (m.insert value).limit = m.limit := by
  unfold insert
  split <;> rfl

theorem nodup_insert {m : SimpleMRU T} (hlimit : m.limit = 0) (h : m.items.Nodup) (value : T) :
    (m.insert value).items.Nodup := by
  rw [items_insert hlimit]
  exact List.nodup_cons.2 ⟨h.not_mem_erase, h.erase value⟩

theorem mem_insert {m : SimpleMRU T} (hlimit : m.limit = 0) {value x : T} :
    x ∈ (m.insert value).items ↔ x = value ∨ x ∈ m.items := by
  rw [items_insert hlimit, List.mem_cons]
  by_cases hx : x = value
  · exact ⟨fun _ => .inl hx, fun _ => .inl hx⟩
  · rw [List.mem_erase_of_ne hx]

/-- Behind the place of the item moved nothing changes. -/
theorem drop_insert {m : SimpleMRU T} {i : Nat} {value : T} (h : m.items[i]? = some value)
    (hnodup : m.items.Nodup) : (m.insert value).items.drop (i + 1) = m.items.drop (i + 1) := by
  obtain ⟨hi, hvalue⟩ := List.getElem?_eq_some_iff.1 h
  have hmem : value ∈ m.items := List.mem_of_getElem? h
  have hidx : m.items.idxOf value = i := by rw [← hvalue, hnodup.idxOf_getElem]
  have hinsert : (m.insert value).items = value :: m.items.eraseIdx i := by
    rw [insert, if_pos hmem, hidx, rotateToFront_eq h]
  rw [hinsert, List.drop_succ_cons, List.eraseIdx_eq_take_drop_succ, List.drop_append,
    List.drop_take_self, List.length_take_of_le (Nat.le_of_lt hi), Nat.sub_self]
  rfl

end SimpleMRU

end CubeChip
