import Mathlib.Logic.Function.Basic
import Mathlib.Data.List.Basic
import CubeChip.Lib.Runs

/-!
# `AtomicBox`: copies on write

The container of `utilities/AtomicBox.hpp`, with any number of threads in its members. `edit`
is taken apart at what other threads can see: the load of `m_ptr`, the copy of the object, each
change the callable makes to the copy, and the store. `read` and `view` load and hold.

`Monitor` adds the edits stored so far and, for each object, the edits it has seen: its lineage.
No step of the code reads either. An object that can be reached is never changed again and is
the work of whole edits, in every interleaving; edits are lost precisely where one is stored
that had loaded `m_ptr` before another store.
-/

namespace CubeChip

namespace AtomicBox

/-- The address of an object; `make_shared` takes a new one. -/
abbrev Addr := Nat

/-- What a callable does to the object, change after change. -/
abbrev Callable (T : Type*) := List (T → T)

variable {T : Type*}

def Callable.apply (callable : Callable T) (object : T) : T :=
  callable.foldl (fun object change => change object) object

/-- Edits, the first one first. -/
def applyAll (edits : List (Callable T)) (object : T) : T :=
  edits.foldl (fun object callable => callable.apply object) object

theorem applyAll_append (edits : List (Callable T)) (callable : Callable T) (object : T) :
    applyAll (edits ++ [callable]) object = callable.apply (applyAll edits object) :=
  List.foldl_append ..

/-- Where a thread is. -/
inductive Call (T : Type*) where
  | idle
  /-- `edit` holds what it loaded, and is about to copy it. -/
  | copying (source : Addr) (callable : Callable T)
  /-- The callable works on the copy; the code has let go of the source. -/
  | editing (source dup : Addr) (callable rest : Callable T)
  /-- The callable of `read`, or the caller of `view`, holds the object. -/
  | reading (object : Addr)

/-- What a thread has loaded. -/
def Call.loaded : Call T → Option Addr
  | .idle => none
  | .copying source _ => some source
  | .editing source _ _ _ => some source
  | .reading object => some object

/-- The copy a thread works on. -/
def Call.dup : Call T → Option Addr
  | .editing _ dup _ _ => some dup
  | _ => none

/-- The box, the objects in memory, and where all threads are. -/
structure Box (T : Type*) where
  heap : Addr → T
  /-- The first address never taken. -/
  next : Addr
  /-- `m_ptr`. -/
  ptr : Addr
  calls : Nat → Call T

/-- The box with its history. -/
structure Monitor (T : Type*) extends Box T where
  /-- The edits stored, the first one first. -/
  stored : List (Callable T)
  /-- The edits an object has seen. -/
  lineage : Addr → List (Callable T)

/-- A new box. -/
def start (object : T) : Monitor T where
  heap := fun _ => object
  next := 1
  ptr := 0
  calls := fun _ => .idle
  stored := []
  lineage := fun _ => []

/-- The steps of a thread. -/
inductive Action (T : Type*) where
  /-- `edit`: `m_ptr.load`. -/
  | edit (callable : Callable T)
  /-- `make_shared<T>(copy())`. -/
  | copy
  /-- The callable changes the copy. -/
  | change
  /-- The callable throws: the copy is discarded. -/
  | throwing
  /-- The callable has returned: `m_ptr.store`. -/
  | store
  /-- `read` and `view`: `m_ptr.load`. -/
  | load
  /-- The callable of `read` has returned, the pointer of `view` is gone. -/
  | release

def setCall (i : Nat) (call : Call T) (s : Monitor T) : Monitor T :=
  { s with calls := Function.update s.calls i call }

/-- `make_shared`: the object at the next address. -/
def makeShared (object : T) (s : Monitor T) : Monitor T :=
  { s with heap := Function.update s.heap s.next object, next := s.next + 1 }

/-- A change of an object in place. -/
def changeObject (a : Addr) (change : T → T) (s : Monitor T) : Monitor T :=
  { s with heap := Function.update s.heap a (change (s.heap a)) }

/-- `m_ptr.store`, of the copy of `source` that `callable` has changed. -/
def storePtr (source dup : Addr) (callable : Callable T) (s : Monitor T) : Monitor T :=
  { s with
    ptr := dup
    stored := s.stored ++ [callable]
    lineage := Function.update s.lineage dup (s.lineage source ++ [callable]) }

/-- One step of a thread; `none` where the thread is elsewhere. -/
def step (s : Monitor T) (x : Nat × Action T) : Option (Monitor T) :=
  match x.2, s.calls x.1 with
  | .edit callable, .idle => some (setCall x.1 (.copying s.ptr callable) s)
  | .copy, .copying source callable =>
      some (setCall x.1 (.editing source s.next callable callable)
        (makeShared (s.heap source) s))
  | .change, .editing source dup callable (change :: rest) =>
      some (setCall x.1 (.editing source dup callable rest) (changeObject dup change s))
  | .throwing, .editing _ _ _ _ => some (setCall x.1 .idle s)
  | .store, .editing source dup callable [] =>
      some (setCall x.1 .idle (storePtr source dup callable s))
  | .load, .idle => some (setCall x.1 (.reading s.ptr) s)
  | .release, .reading _ => some (setCall x.1 .idle s)
  | _, _ => none

/-! ## What a step can do -/

/-- The steps, by what they are. -/
inductive StepOf (s : Monitor T) (i : Nat) : Monitor T → Prop where
  | edit (callable : Callable T) : StepOf s i (setCall i (.copying s.ptr callable) s)
  | copy (source : Addr) (callable : Callable T) (h : s.calls i = .copying source callable) :
      StepOf s i (setCall i (.editing source s.next callable callable)
        (makeShared (s.heap source) s))
  | change (source dup : Addr) (callable rest : Callable T) (change : T → T)
      (h : s.calls i = .editing source dup callable (change :: rest)) :
      StepOf s i (setCall i (.editing source dup callable rest) (changeObject dup change s))
  | store (source dup : Addr) (callable : Callable T)
      (h : s.calls i = .editing source dup callable []) :
      StepOf s i (setCall i .idle (storePtr source dup callable s))
  | load : StepOf s i (setCall i (.reading s.ptr) s)
  | leave : StepOf s i (setCall i .idle s)

variable {s s' : Monitor T} {x : Nat × Action T}

theorem stepOf_of_step (h : step s x = some s') : StepOf s x.1 s' := by
  unfold step at h
  split at h <;> cases h
  next => exact .edit _
  next hcall => exact .copy _ _ hcall
  next hcall => exact .change _ _ _ _ _ hcall
  next => exact .leave
  next hcall => exact .store _ _ _ hcall
  next => exact .load
  next => exact .leave

/-! ## What can be reached -/

/-- The objects other threads can come to read: the one in the box, and those loaded. -/
def Public (s : Monitor T) (a : Addr) : Prop := a = s.ptr ∨ ∃ i, (s.calls i).loaded = some a

/-- What every interleaving keeps. -/
structure Inv (object : T) (s : Monitor T) : Prop where
  public_lt : ∀ a, Public s a → a < s.next
  public_value : ∀ a, Public s a → s.heap a = applyAll (s.lineage a) object
  public_lineage : ∀ a, Public s a → (s.lineage a).Sublist s.stored
  dup_lt : ∀ i a, (s.calls i).dup = some a → a < s.next
  dup_private : ∀ i a, (s.calls i).dup = some a → ¬ Public s a
  dup_inj : ∀ i j a, (s.calls i).dup = some a → (s.calls j).dup = some a → i = j
  /-- What is left of a callable makes the copy the work of the whole callable. -/
  dup_value : ∀ i source dup callable rest, s.calls i = .editing source dup callable rest →
    rest.apply (s.heap dup) = callable.apply (applyAll (s.lineage source) object)

variable {object : T}

theorem inv_start (object : T) : Inv object (start object) where
  public_lt := by
    rintro a (rfl | ⟨i, hi⟩)
    · exact Nat.zero_lt_one
    · exact nomatch hi
  public_value := fun _ _ => rfl
  public_lineage := fun _ _ => .refl _
  dup_lt := fun _ _ h => nomatch h
  dup_private := fun _ _ h => nomatch h
  dup_inj := fun _ _ _ h => nomatch h
  dup_value := fun _ _ _ _ _ h => nomatch h

/-- The call of a thread, or that of another. -/
theorem calls_setCall (i j : Nat) (call : Call T) (s : Monitor T) :
    j = i ∧ (setCall i call s).calls j = call ∨
      j ≠ i ∧ (setCall i call s).calls j = s.calls j := by
  rcases eq_or_ne j i with rfl | hne
  · exact .inl ⟨rfl, Function.update_self ..⟩
  · exact .inr ⟨hne, Function.update_of_ne hne ..⟩

/-- What can be reached after a thread has moved on. -/
theorem public_of_setCall {i : Nat} {call : Call T} {a : Addr} (h : Public (setCall i call s) a) :
    call.loaded = some a ∨ Public s a := by
  rcases h with rfl | ⟨j, hj⟩
  · exact .inr (.inl rfl)
  · rcases calls_setCall i j call s with ⟨-, heq⟩ | ⟨-, heq⟩
    · exact .inl (heq ▸ hj)
    · exact .inr (.inr ⟨j, heq ▸ hj⟩)

/-- **A load, or a step back.** -/
theorem Inv.setCall (h : Inv object s) (i : Nat) {call : Call T} (hdup : call.dup = none)
    (hcall : ∀ a, call.loaded = some a → Public s a) : Inv object (setCall i call s) := by
  have hpublic {a : Addr} (ha : Public (AtomicBox.setCall i call s) a) : Public s a :=
    (public_of_setCall ha).elim (hcall a) id
  have hprivate {j : Nat} (hj : ((AtomicBox.setCall i call s).calls j).dup ≠ none) :
      (AtomicBox.setCall i call s).calls j = s.calls j := by
    rcases calls_setCall i j call s with ⟨-, heq⟩ | ⟨-, heq⟩
    · exact absurd hdup (heq ▸ hj)
    · exact heq
  have hdup' {j : Nat} {a : Addr} (hj : ((AtomicBox.setCall i call s).calls j).dup = some a) :
      (s.calls j).dup = some a :=
    hprivate (by rw [hj]; exact Option.some_ne_none a) ▸ hj
  exact
    { public_lt := fun a ha => h.public_lt a (hpublic ha)
      public_value := fun a ha => h.public_value a (hpublic ha)
      public_lineage := fun a ha => h.public_lineage a (hpublic ha)
      dup_lt := fun j a ha => h.dup_lt j a (hdup' ha)
      dup_private := fun j a ha hpub => h.dup_private j a (hdup' ha) (hpublic hpub)
      dup_inj := fun j k a hj hk => h.dup_inj j k a (hdup' hj) (hdup' hk)
      dup_value := fun j source dup callable rest hj =>
        h.dup_value j source dup callable rest
          ((hprivate (by rw [hj]; exact Option.some_ne_none dup)).symm.trans hj) }

/-- The copies threads work on after one of them has moved on. -/
theorem dup_of_setCall {i j : Nat} {call : Call T} {a : Addr}
    (h : ((setCall i call s).calls j).dup = some a) :
    j = i ∧ call.dup = some a ∨ j ≠ i ∧ (s.calls j).dup = some a := by
  rcases calls_setCall i j call s with ⟨hj, heq⟩ | ⟨hj, heq⟩
  · exact .inl ⟨hj, heq ▸ h⟩
  · exact .inr ⟨hj, heq ▸ h⟩

/-- **A copy**: the object behind it is nobody else's. -/
theorem Inv.copy (h : Inv object s) {i source : Nat} {callable : Callable T}
    (hi : s.calls i = .copying source callable) :
    Inv object (AtomicBox.setCall i (.editing source s.next callable callable)
      (makeShared (s.heap source) s)) := by
  have hsource : Public s source := .inr ⟨i, by rw [hi]; rfl⟩
  have hpublic {a : Addr} (ha : Public (AtomicBox.setCall i
      (.editing source s.next callable callable) (makeShared (s.heap source) s)) a) : Public s a :=
    (public_of_setCall ha).elim (fun heq => Option.some.inj heq ▸ hsource) id
  have hheap {a : Addr} (ha : a < s.next) : (makeShared (s.heap source) s).heap a = s.heap a :=
    Function.update_of_ne (Nat.ne_of_lt ha) ..
  have hdup {j : Nat} {a : Addr} (hj : ((AtomicBox.setCall i
      (.editing source s.next callable callable) (makeShared (s.heap source) s)).calls j).dup =
        some a) : j = i ∧ a = s.next ∨ (s.calls j).dup = some a :=
    (dup_of_setCall hj).imp (And.imp_right fun heq => (Option.some.inj heq).symm) And.right
  refine ⟨fun a ha => Nat.lt_succ_of_lt (h.public_lt a (hpublic ha)), fun a ha => ?_,
    fun a ha => h.public_lineage a (hpublic ha), fun j a hj => ?_, fun j a hj hpub => ?_,
    fun j k a hj hk => ?_, fun j source' dup callable' rest hj => ?_⟩
  · exact (hheap (h.public_lt a (hpublic ha))).trans (h.public_value a (hpublic ha))
  · rcases hdup hj with ⟨-, rfl⟩ | hj
    · exact Nat.lt_succ_self _
    · exact Nat.lt_succ_of_lt (h.dup_lt j a hj)
  · rcases hdup hj with ⟨-, rfl⟩ | hj
    · exact Nat.lt_irrefl _ (h.public_lt _ (hpublic hpub))
    · exact h.dup_private j a hj (hpublic hpub)
  · rcases hdup hj with ⟨hji, ha⟩ | hj' <;> rcases hdup hk with ⟨hki, ha'⟩ | hk'
    · exact hji.trans hki.symm
    · exact absurd (h.dup_lt k a hk') (ha ▸ Nat.lt_irrefl _)
    · exact absurd (h.dup_lt j a hj') (ha' ▸ Nat.lt_irrefl _)
    · exact h.dup_inj j k a hj' hk'
  · rcases calls_setCall i j (.editing source s.next callable callable)
      (makeShared (s.heap source) s) with ⟨-, heq⟩ | ⟨-, heq⟩
    · cases heq.symm.trans hj
      exact congrArg callable.apply ((Function.update_self ..).trans (h.public_value _ hsource))
    · have hj : s.calls j = _ := heq.symm.trans hj
      have hlt : dup < s.next := h.dup_lt j dup (congrArg Call.dup hj)
      exact (congrArg rest.apply (hheap hlt)).trans (h.dup_value j source' dup callable' rest hj)

/-- **A change** reaches nothing but the copy. -/
theorem Inv.change (h : Inv object s) {i : Nat} {source dup : Addr} {callable rest : Callable T}
    {change : T → T} (hi : s.calls i = .editing source dup callable (change :: rest)) :
    Inv object (AtomicBox.setCall i (.editing source dup callable rest)
      (changeObject dup change s)) := by
  have hdupi : (s.calls i).dup = some dup := by rw [hi]; rfl
  have hpublic {a : Addr} (ha : Public (AtomicBox.setCall i (.editing source dup callable rest)
      (changeObject dup change s)) a) : Public s a :=
    (public_of_setCall ha).elim (fun heq => .inr ⟨i, by rw [hi]; exact heq⟩) id
  have hheap {a : Addr} (ha : a ≠ dup) : (changeObject dup change s).heap a = s.heap a :=
    Function.update_of_ne ha ..
  have hdup {j : Nat} {a : Addr} (hj : ((AtomicBox.setCall i (.editing source dup callable rest)
      (changeObject dup change s)).calls j).dup = some a) : (s.calls j).dup = some a :=
    (dup_of_setCall hj).elim (fun ⟨hji, heq⟩ => by rw [hji, hi]; exact heq) And.right
  refine ⟨fun a ha => h.public_lt a (hpublic ha), fun a ha => ?_,
    fun a ha => h.public_lineage a (hpublic ha), fun j a hj => h.dup_lt j a (hdup hj),
    fun j a hj hpub => h.dup_private j a (hdup hj) (hpublic hpub),
    fun j k a hj hk => h.dup_inj j k a (hdup hj) (hdup hk),
    fun j source' dup' callable' rest' hj => ?_⟩
  · have hne : a ≠ dup := fun heq => h.dup_private i dup hdupi (heq ▸ hpublic ha)
    exact (hheap hne).trans (h.public_value a (hpublic ha))
  · rcases calls_setCall i j (.editing source dup callable rest) (changeObject dup change s) with
      ⟨-, heq⟩ | ⟨hji, heq⟩
    · cases heq.symm.trans hj
      exact (congrArg rest.apply (Function.update_self ..)).trans
        (h.dup_value i source dup callable (change :: rest) hi)
    · have hj : s.calls j = _ := heq.symm.trans hj
      have hne : dup' ≠ dup := fun heq =>
        hji (h.dup_inj j i dup (heq ▸ congrArg Call.dup hj) hdupi)
      exact (congrArg rest'.apply (hheap hne)).trans
        (h.dup_value j source' dup' callable' rest' hj)

/-- **A store**: the copy is the work of the whole callable. -/
theorem Inv.store (h : Inv object s) {i : Nat} {source dup : Addr} {callable : Callable T}
    (hi : s.calls i = .editing source dup callable []) :
    Inv object (AtomicBox.setCall i .idle (storePtr source dup callable s)) := by
  have hdupi : (s.calls i).dup = some dup := by rw [hi]; rfl
  have hsource : Public s source := .inr ⟨i, by rw [hi]; rfl⟩
  have hpublic {a : Addr} (ha : Public (AtomicBox.setCall i .idle
      (storePtr source dup callable s)) a) : a = dup ∨ a ≠ dup ∧ Public s a := by
    by_cases heq : a = dup
    · exact .inl heq
    · refine .inr ⟨heq, ?_⟩
      rcases public_of_setCall ha with hnone | hptr | hcall
      · exact nomatch hnone
      · exact absurd hptr heq
      · exact .inr hcall
  have hlineage {a : Addr} (ha : a ≠ dup) :
      (storePtr source dup callable s).lineage a = s.lineage a := Function.update_of_ne ha ..
  have hlineage' : (storePtr source dup callable s).lineage dup = s.lineage source ++ [callable] :=
    Function.update_self ..
  have hdup {j : Nat} {a : Addr} (hj : ((AtomicBox.setCall i .idle
      (storePtr source dup callable s)).calls j).dup = some a) : j ≠ i ∧ (s.calls j).dup = some a :=
    (dup_of_setCall hj).elim (fun ⟨_, heq⟩ => nomatch heq) id
  refine ⟨fun a ha => ?_, fun a ha => ?_, fun a ha => ?_, fun j a hj => h.dup_lt j a (hdup hj).2,
    fun j a hj hpub => ?_, fun j k a hj hk => h.dup_inj j k a (hdup hj).2 (hdup hk).2,
    fun j source' dup' callable' rest hj => ?_⟩
  · rcases hpublic ha with rfl | ⟨-, ha⟩
    · exact h.dup_lt i a hdupi
    · exact h.public_lt a ha
  · rcases hpublic ha with rfl | ⟨hne, ha⟩
    · have hvalue := h.dup_value i source a callable [] hi
      rw [← applyAll_append] at hvalue
      exact hvalue.trans (congrArg (applyAll · object) hlineage'.symm)
    · exact (h.public_value a ha).trans (congrArg (applyAll · object) (hlineage hne).symm)
  · rcases hpublic ha with rfl | ⟨hne, ha⟩
    · exact hlineage'.symm ▸ (h.public_lineage source hsource).append (.refl [callable])
    · exact (hlineage hne).symm ▸ (h.public_lineage a ha).trans (List.sublist_append_left _ _)
  · obtain ⟨hji, hj'⟩ := hdup hj
    rcases hpublic hpub with rfl | ⟨-, ha⟩
    · exact hji (h.dup_inj j i a hj' hdupi)
    · exact h.dup_private j a hj' ha
  · rcases calls_setCall i j .idle (storePtr source dup callable s) with ⟨-, heq⟩ | ⟨-, heq⟩
    · exact nomatch heq.symm.trans hj
    · have hj : s.calls j = _ := heq.symm.trans hj
      have hne : source' ≠ dup := fun heq =>
        h.dup_private i dup hdupi (.inr ⟨j, by rw [hj]; exact congrArg some heq⟩)
      exact (h.dup_value j source' dup' callable' rest hj).trans
        (congrArg (fun l => callable'.apply (applyAll l object)) (hlineage hne).symm)

/-- **One step.** -/
theorem Inv.step (h : Inv object s) (hstep : step s x = some s') : Inv object s' := by
  cases stepOf_of_step hstep with
  | edit callable => exact h.setCall x.1 rfl fun a ha => .inl (Option.some.inj ha).symm
  | copy source callable hi => exact h.copy hi
  | change source dup callable rest change hi => exact h.change hi
  | store source dup callable hi => exact h.store hi
  | load => exact h.setCall x.1 rfl fun a ha => .inl (Option.some.inj ha).symm
  | leave => exact h.setCall x.1 rfl fun a ha => nomatch ha

/-! ## What is read -/

/-- No thread will write to the object. -/
def Settled (s : Monitor T) (a : Addr) : Prop := a < s.next ∧ ∀ i, (s.calls i).dup ≠ some a

/-- A settled object stays, and stays as it is. -/
theorem Settled.step {a : Addr} (h : Settled s a) (hstep : step s x = some s') :
    Settled s' a ∧ s'.heap a = s.heap a := by
  have hkept {call : Call T} {t : Monitor T} (hcalls : t.calls = s.calls)
      (hcall : call.dup ≠ some a) (j : Nat) : ((setCall x.1 call t).calls j).dup ≠ some a := by
    rcases calls_setCall x.1 j call t with ⟨-, heq⟩ | ⟨-, heq⟩
    · rwa [heq]
    · rw [heq, hcalls]
      exact h.2 j
  cases stepOf_of_step hstep with
  | edit callable => exact ⟨⟨h.1, hkept rfl (fun heq => nomatch heq)⟩, rfl⟩
  | load | leave => exact ⟨⟨h.1, hkept rfl (fun heq => nomatch heq)⟩, rfl⟩
  | copy source callable hi =>
      have hne : a ≠ s.next := Nat.ne_of_lt h.1
      exact ⟨⟨Nat.lt_succ_of_lt h.1, hkept rfl fun heq => hne (Option.some.inj heq).symm⟩,
        Function.update_of_ne hne ..⟩
  | change source dup callable rest change hi =>
      have hne : dup ≠ a := fun heq => h.2 x.1 (by rw [hi]; exact congrArg some heq)
      exact ⟨⟨h.1, hkept rfl fun heq => hne (Option.some.inj heq)⟩,
        Function.update_of_ne hne.symm ..⟩
  | store source dup callable hi => exact ⟨⟨h.1, hkept rfl (fun heq => nomatch heq)⟩, rfl⟩

theorem Settled.run {a : Addr} (h : Settled s a) {actions : List (Nat × Action T)} {t : Monitor T}
    (hrun : Runs.run AtomicBox.step s actions = some t) : t.heap a = s.heap a :=
  (Runs.run_invariant (I := fun t => Settled t a ∧ t.heap a = s.heap a)
    (fun _ _ _ ht hstep => (ht.1.step hstep).imp id fun heq => heq.trans ht.2) ⟨h, rfl⟩ hrun).2

/-- So every state of an interleaving satisfies the invariant. -/
theorem inv_visited {object : T} {actions : List (Nat × Action T)} {s : Monitor T}
    (hs : s ∈ Runs.visited step (start object) actions) : Inv object s := by
  obtain ⟨before, hrun⟩ := Runs.exists_run_of_mem_visited hs
  exact Runs.run_invariant (fun _ _ _ h => h.step) (inv_start object) hrun

/-- **What can be read is whole and stays.** In every interleaving the object in the box, and
every object a thread has loaded, is what some of the edits stored so far have made of the first
object, each from its first change to its last, and no later step of any thread changes it. -/
theorem public_run (object : T) (actions : List (Nat × Action T)) :
    ∀ s ∈ Runs.visited step (start object) actions, ∀ a, Public s a →
      s.heap a = applyAll (s.lineage a) object ∧ (s.lineage a).Sublist s.stored ∧
        ∀ later t, Runs.run step s later = some t → t.heap a = s.heap a := by
  intro s hs a ha
  have hinv := inv_visited hs
  have hsettled : Settled s a :=
    ⟨hinv.public_lt a ha, fun i hi => hinv.dup_private i a hi ha⟩
  exact ⟨hinv.public_value a ha, hinv.public_lineage a ha, fun _ _ => hsettled.run⟩

/-- A reader that an edit overtakes keeps the object it has loaded. -/
theorem public_run_overtaken : ∃ s ∈ Runs.visited step (start 0)
      [(1, .load), (0, .edit [(· + 1)]), (0, .copy), (0, .change), (0, .store)],
    (s.calls 1).loaded = some 0 ∧ s.heap s.ptr = 1 ∧ s.heap 0 = applyAll (s.lineage 0) 0 := by
  obtain ⟨s, hs, hloaded, hptr⟩ : ∃ s, Runs.run step (start 0)
      [(1, .load), (0, .edit [(· + 1)]), (0, .copy), (0, .change), (0, .store)] = some s ∧
      (s.calls 1).loaded = some 0 ∧ s.heap s.ptr = 1 := ⟨_, rfl, rfl, rfl⟩
  have hvisited := Runs.mem_visited_of_run hs
  exact ⟨s, hvisited, hloaded, hptr, (public_run 0 _ s hvisited 0 (.inr ⟨1, hloaded⟩)).1⟩

/-! ## What is lost -/

/-- The object in the box has seen every edit stored. -/
def NoneLost (s : Monitor T) : Prop := s.lineage s.ptr = s.stored

/-- The step, if it is a store, is that of an edit that has loaded what is in the box. -/
def Fresh (s : Monitor T) (x : Nat × Action T) : Prop :=
  x.2 = .store → ∀ source dup callable, s.calls x.1 = .editing source dup callable [] →
    source = s.ptr

/-- What was loaded is in the box, or has seen fewer edits. -/
def Behind (s : Monitor T) : Prop :=
  ∀ a, Public s a → a = s.ptr ∨ (s.lineage a).length < s.stored.length

/-- A load or a step back leaves the history. -/
theorem Behind.setCall (h : Behind s) (i : Nat) {call : Call T}
    (hcall : ∀ a, call.loaded = some a → Public s a) : Behind (setCall i call s) :=
  fun a ha => h a ((public_of_setCall ha).elim (hcall a) id)

theorem Behind.step (hs : Behind s) (hlost : NoneLost s) (hstep : step s x = some s') :
    Behind s' := by
  cases stepOf_of_step hstep with
  | edit callable => exact hs.setCall x.1 fun a ha => .inl (Option.some.inj ha).symm
  | load => exact hs.setCall x.1 fun a ha => .inl (Option.some.inj ha).symm
  | leave => exact hs.setCall x.1 fun a ha => nomatch ha
  | copy source callable hi =>
      exact Behind.setCall (s := makeShared (s.heap source) s) hs x.1
        fun a ha => .inr ⟨x.1, show (s.calls x.1).loaded = some a by rw [hi]; exact ha⟩
  | change source dup callable rest change hi =>
      exact Behind.setCall (s := changeObject dup change s) hs x.1
        fun a ha => .inr ⟨x.1, show (s.calls x.1).loaded = some a by rw [hi]; exact ha⟩
  | store source dup callable hi =>
      intro a ha
      by_cases heq : a = dup
      · exact .inl heq
      · refine .inr ?_
        have hlength : (s.stored ++ [callable]).length = s.stored.length + 1 :=
          List.length_append
        have hlineage : (storePtr source dup callable s).lineage a = s.lineage a :=
          Function.update_of_ne heq ..
        have hpublic : Public s a := by
          rcases public_of_setCall ha with hnone | hptr | hcall
          · exact nomatch hnone
          · exact absurd hptr heq
          · exact .inr hcall
        show ((storePtr source dup callable s).lineage a).length < (s.stored ++ [callable]).length
        rw [hlineage, hlength]
        rcases hs a hpublic with rfl | hlt
        · rw [show s.lineage s.ptr = s.stored from hlost]
          exact Nat.lt_succ_self _
        · exact Nat.lt_succ_of_lt hlt

/-- **One step** loses an edit precisely if it stores one that is not fresh. -/
theorem NoneLost.step_iff (hlost : NoneLost s) (hs : Behind s) (hstep : step s x = some s') :
    NoneLost s' ↔ Fresh s x := by
  unfold step at hstep
  split at hstep <;> cases hstep
  case h_5 source dup callable haction hcall =>
    have hpublic : Public s source := .inr ⟨x.1, by rw [hcall]; rfl⟩
    have hnew : NoneLost (setCall x.1 .idle (storePtr source dup callable s)) ↔
        s.lineage source = s.stored := by
      have hlineage : (storePtr source dup callable s).lineage dup =
          s.lineage source ++ [callable] := Function.update_self ..
      show (storePtr source dup callable s).lineage dup = s.stored ++ [callable] ↔ _
      rw [hlineage, List.append_left_inj]
    rw [hnew]
    constructor
    · intro heq _ source' dup' callable' hcall'
      cases hcall.symm.trans hcall'
      refine (hs source hpublic).resolve_right fun hlt => ?_
      exact absurd (congrArg List.length heq) (Nat.ne_of_lt hlt)
    · intro hfresh
      rw [hfresh haction source dup callable hcall]
      exact hlost
  all_goals
    next haction _ => exact iff_of_true hlost fun hstore => nomatch haction.symm.trans hstore

/-- **When no edit is lost.** In every state of an interleaving the object in the box has seen
all edits stored so far, in their order, precisely when none is stored that had loaded `m_ptr`
before another store. -/
theorem noneLost_run (object : T) (actions : List (Nat × Action T)) :
    (∀ s ∈ Runs.visited step (start object) actions, s.lineage s.ptr = s.stored ∧
      s.heap s.ptr = applyAll s.stored object) ↔
      ∀ x ∈ Runs.taken step (start object) actions, Fresh x.1 x.2 := by
  have hstart : Behind (start object) := by
    rintro a (rfl | ⟨i, hi⟩)
    · exact .inl rfl
    · exact nomatch hi
  have hiff := Runs.forall_visited_iff (P := NoneLost) (G := Fresh)
    (fun _ _ _ hs hlost _ hstep => hs.step hlost hstep)
    (fun _ _ _ hs hlost hstep => hlost.step_iff hs hstep) actions hstart rfl
  rw [← hiff]
  refine forall₂_congr fun s hs => ⟨fun h => h.1, fun h => ⟨h, ?_⟩⟩
  have hvalue := (inv_visited hs).public_value s.ptr (.inl rfl)
  rwa [show s.lineage s.ptr = s.stored from h] at hvalue

/-- Two threads count to 1. -/
example : (Runs.run step (start 0) [(0, .edit [(· + 1)]), (1, .edit [(· + 1)]), (0, .copy),
    (1, .copy), (0, .change), (1, .change), (0, .store), (1, .store)]).map
    (fun s => s.heap s.ptr) = some 1 := rfl

end AtomicBox

end CubeChip
