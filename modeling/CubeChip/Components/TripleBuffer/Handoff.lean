import Mathlib.Data.List.Perm.Basic
import CubeChip.Components.TripleBuffer

/-!
# Ownership and freshness of the triple buffer

`Inv` is what every interleaving of one writer and one reader keeps. Ownership: the three
pointers are the three slots. Freshness: a dirty `m_swap_ptr` holds the latest publication
and the reader's slot an earlier one; a clean one means that the reader already has the
latest. Between the reader's load and its exchange the writer may publish any number of
times, and the invariant survives because a publication only replaces one dirty slot by
another. `handoff` reads the guarantees of the class off it.
-/

namespace CubeChip

namespace TripleBuffer

/-! ## The tag -/

/-- The flag is bit 0 alone. -/
theorem dirtyFlag_bit (i : Nat) (h : i < 64) : dirtyFlag.toBitVec[i] = decide (i = 0) := by
  show (1#64)[i] = _
  exact BitVec.getElem_one h

/-- The tag is bit 0. -/
theorem getDirty_eq (p : Ptr) : getDirty p = p.toBitVec[0] := by
  have clear : p &&& dirtyFlag = 0 ↔ p.toBitVec[0] = false := by
    rw [← UInt64.toBitVec_inj, UInt64.toBitVec_and]
    constructor
    · intro h
      have := congrArg (fun x : BitVec 64 => x[0]) h
      simpa [dirtyFlag_bit] using this
    · intro h
      ext i hi
      rcases i with _ | i
      · simpa [dirtyFlag_bit] using h
      · simp [dirtyFlag_bit]
  unfold getDirty
  cases h : p.toBitVec[0] with
  | false => simp [clear.2 h]
  | true => simpa [bne_iff_ne, clear] using h

@[simp] theorem getDirty_addDirty (p : Ptr) : getDirty (addDirty p) = true := by
  simp [getDirty_eq, addDirty, dirtyFlag_bit]

/-- Stripping a clean pointer does nothing. -/
theorem subDirty_of_clean {p : Ptr} (h : getDirty p = false) : subDirty p = p := by
  rw [getDirty_eq] at h
  apply UInt64.toBitVec_inj.1
  ext i hi
  rcases i with _ | i <;> simp [subDirty, dirtyFlag_bit, h]

/-- Stripping undoes tagging. -/
theorem subDirty_addDirty {p : Ptr} (h : getDirty p = false) : subDirty (addDirty p) = p := by
  rw [getDirty_eq] at h
  apply UInt64.toBitVec_inj.1
  ext i hi
  rcases i with _ | i <;> simp [subDirty, addDirty, dirtyFlag_bit, h]

/-! ## The invariant -/

variable {α : Type*} {slots : Slots} {initialBuffer : Ptr → α}

/-- What a delivery says of the history: it shows a publication made no earlier than its
load and no later than the one the reader has, with that publication's contents. What is
shown as dirty has been published. -/
structure Delivery.Faithful (published : List α) (held : Nat) (d : Delivery α) : Prop where
  not_stale : d.publishedAtLoad ≤ d.publication
  le_held : d.publication ≤ held
  content : d.publication ≠ 0 → published[d.publication - 1]? = some d.content
  published_of_dirty : d.dirty = true → d.publication ≠ 0

/-- Each delivery is dirty exactly when it is the first of its publication. -/
def FirstDirty (deliveries : List (Delivery α)) : Prop :=
  ∀ later d earlier, deliveries = later ++ d :: earlier → d.publication ≠ 0 →
    (d.dirty = true ↔ ∀ e ∈ earlier, e.publication ≠ d.publication)

/-- A buffer holds the publication it is stamped with. -/
def Stamped (s : Monitor α) (p : Ptr) : Prop :=
  s.stamp p ≠ 0 → s.published[s.stamp p - 1]? = some (s.buffer p)

/-- The invariant of both threads. -/
structure Inv (slots : Slots) (s : Monitor α) : Prop where
  /-- Each slot has exactly one owner. -/
  owners : [s.workPtr, s.readPtr, subDirty s.swapPtr].Perm
    [slots.writer, slots.reader, slots.middle]
  /-- A dirty handoff slot holds the latest publication, which the reader does not have. -/
  dirty : getDirty s.swapPtr = true →
    s.stamp (subDirty s.swapPtr) = s.published.length ∧ s.stamp s.readPtr < s.published.length ∧
      Stamped s (subDirty s.swapPtr)
  /-- With a clean handoff slot the reader has the latest publication. -/
  clean : getDirty s.swapPtr = false → s.stamp s.readPtr = s.published.length
  /-- Only the reader cleans the slot, and it does so in the exchange. -/
  exchanging : s.readerPc = .exchanging → getDirty s.swapPtr = true
  loaded : s.loadedAt ≤ s.published.length
  held : Stamped s s.readPtr
  /-- What the reader has was shown as dirty. -/
  shown : s.stamp s.readPtr ≠ 0 → ∃ d ∈ s.deliveries, d.publication = s.stamp s.readPtr
  faithful : ∀ d ∈ s.deliveries, d.Faithful s.published (s.stamp s.readPtr)
  /-- Dirty deliveries go forward. -/
  ordered : (s.deliveries.filter (·.dirty)).Pairwise fun d e => e.publication < d.publication
  first : FirstDirty s.deliveries
  /-- While the reader's callable runs, its buffer is what it was shown. -/
  reading : ∀ dirty, s.readerPc = .reading dirty →
    ∃ d rest, s.deliveries = d :: rest ∧ d.dirty = dirty ∧ d.content = s.buffer s.readPtr

namespace Inv

variable {s s' : Monitor α}

/-- An owner is one of the slots, so its pointer is untagged. -/
theorem slot_clean (h : Inv slots s) {p : Ptr}
    (hp : p ∈ [s.workPtr, s.readPtr, subDirty s.swapPtr]) : getDirty p = false :=
  slots.aligned p (h.owners.mem_iff.1 hp)

/-- No two owners share a slot. -/
theorem owners_nodup (h : Inv slots s) : [s.workPtr, s.readPtr, subDirty s.swapPtr].Nodup :=
  h.owners.nodup_iff.2 slots.distinct

theorem read_ne_work (h : Inv slots s) : s.readPtr ≠ s.workPtr := by
  have := h.owners_nodup
  simp only [List.nodup_cons, List.mem_cons] at this
  exact fun he => this.1 (.inl he.symm)

theorem swap_ne_work (h : Inv slots s) : subDirty s.swapPtr ≠ s.workPtr := by
  have := h.owners_nodup
  simp only [List.nodup_cons, List.mem_cons] at this
  exact fun he => this.1 (.inr (.inl he.symm))

/-- A new context satisfies the invariant. -/
theorem initial (slots : Slots) (buffer : Ptr → α) : Inv slots (initial slots buffer) := by
  have hmiddle : getDirty slots.middle = false := slots.aligned _ (by simp)
  refine ⟨?_, ?_, fun _ => rfl, ?_, Nat.le_refl 0, ?_, ?_, ?_, .nil, ?_, ?_⟩
  · simp only [TripleBuffer.initial, subDirty_of_clean hmiddle, List.Perm.refl]
  · intro h
    simp only [TripleBuffer.initial, hmiddle, Bool.false_eq_true] at h
  · intro h; cases h
  · intro h; exact absurd rfl h
  · intro h; exact absurd rfl h
  · intro d hd; cases hd
  · intro later d earlier h
    simp [TripleBuffer.initial] at h
  · intro dirty h; cases h

/-- The reader never has more than the latest publication. -/
theorem stamp_read_le (h : Inv slots s) : s.stamp s.readPtr ≤ s.published.length := by
  cases hd : getDirty s.swapPtr with
  | true => exact Nat.le_of_lt (h.dirty hd).2.1
  | false => exact Nat.le_of_eq (h.clean hd)

/-- Writing through the work pointer changes no buffer the others own. -/
theorem fill (h : Inv slots s) (content : α) :
    Inv slots { s with buffer := Function.update s.buffer s.workPtr content } := by
  have hread : Function.update s.buffer s.workPtr content s.readPtr = s.buffer s.readPtr :=
    Function.update_of_ne h.read_ne_work _ _
  have hswap : Function.update s.buffer s.workPtr content (subDirty s.swapPtr)
      = s.buffer (subDirty s.swapPtr) := Function.update_of_ne h.swap_ne_work _ _
  refine { h with dirty := fun hd => ?_, held := fun hs => ?_, reading := fun dirty hpc => ?_ }
  · obtain ⟨h₁, h₂, h₃⟩ := h.dirty hd
    exact ⟨h₁, h₂, fun hs => (h₃ hs).trans (congrArg some hswap.symm)⟩
  · exact (h.held hs).trans (congrArg some hread.symm)
  · obtain ⟨d, rest, h₁, h₂, h₃⟩ := h.reading dirty hpc
    exact ⟨d, rest, h₁, h₂, h₃.trans hread.symm⟩

/-- Publishing trades the work slot for the handoff slot, which it leaves dirty and latest. -/
theorem publish (h : Inv slots s) (hs : step s .publish = some s') : Inv slots s' := by
  simp only [step] at hs
  split at hs
  case isFalse => cases hs
  case isTrue =>
    cases hs
    have hwork : subDirty (addDirty s.workPtr) = s.workPtr :=
      subDirty_addDirty (h.slot_clean (by simp))
    have hread : Function.update s.stamp s.workPtr (s.published.length + 1) s.readPtr
        = s.stamp s.readPtr := Function.update_of_ne h.read_ne_work _ _
    have old : ∀ {n : Nat} {c : α}, s.published[n]? = some c →
        (s.published ++ [s.buffer s.workPtr])[n]? = some c := fun hn => by
      rw [List.getElem?_append_left (List.getElem?_eq_some_iff.1 hn).1]; exact hn
    have hlen : (s.published ++ [s.buffer s.workPtr]).length = s.published.length + 1 := by simp
    refine ⟨?_, fun _ => ⟨?_, ?_, fun _ => ?_⟩, fun hd => ?_, fun _ => getDirty_addDirty _, ?_,
      fun hne => ?_, fun hne => ?_, fun d hd => ?_, h.ordered, h.first, h.reading⟩
    · refine List.Perm.trans ?_ h.owners
      simp only [hwork]
      exact (List.Perm.swap _ _ _).trans (((List.Perm.swap _ _ _).cons _).trans (.swap _ _ _))
    · simp only [hwork, Function.update_self, hlen]
    · simp only [hread, hlen]
      exact Nat.lt_succ_of_le h.stamp_read_le
    · simp only [hwork, Function.update_self, Nat.add_sub_cancel, List.getElem?_concat_length]
    · simp only [getDirty_addDirty, Bool.true_eq_false] at hd
    · simp only [hlen]
      exact Nat.le_succ_of_le h.loaded
    · simp only [hread] at hne ⊢
      exact old (h.held hne)
    · simp only [hread] at hne ⊢
      exact h.shown hne
    · have hf := h.faithful d hd
      exact ⟨hf.not_stale, by simp only [hread]; exact hf.le_held,
        fun hp => old (hf.content hp), hf.published_of_dirty⟩

end Inv

/-- A first delivery in front, judged against those before it. -/
theorem FirstDirty.cons {d : Delivery α} {rest : List (Delivery α)} (h : FirstDirty rest)
    (hd : d.publication ≠ 0 → (d.dirty = true ↔ ∀ e ∈ rest, e.publication ≠ d.publication)) :
    FirstDirty (d :: rest) := by
  intro later e earlier heq hne
  cases later with
  | nil => cases heq; exact hd hne
  | cons d' later => cases heq; exact h later e earlier rfl hne

namespace Inv

variable {s s' : Monitor α}

/-- A clean load shows again what the reader has, which is the latest publication. -/
theorem load_clean (h : Inv slots s) (hclean : getDirty s.swapPtr = false) :
    Inv slots (deliver { s with loadedAt := s.published.length } false) := by
  have hlatest := h.clean hclean
  refine ⟨h.owners, h.dirty, h.clean, fun hpc => ?_, Nat.le_refl _, h.held, fun hne => ?_,
    fun d hd => ?_, h.ordered, h.first.cons fun hne => ?_, fun dirty hpc => ?_⟩
  · cases hpc
  · obtain ⟨d, hd, hp⟩ := h.shown hne
    exact ⟨d, .tail _ hd, hp⟩
  · rcases List.mem_cons.1 hd with rfl | hd
    · exact ⟨Nat.le_of_eq hlatest.symm, Nat.le_refl _, h.held, nofun⟩
    · exact h.faithful d hd
  · obtain ⟨d, hd, hp⟩ := h.shown hne
    simp only [Bool.false_eq_true, false_iff]
    exact fun hall => hall d hd hp
  · cases hpc
    exact ⟨_, _, rfl, rfl, rfl⟩

/-- The exchange hands the reader the latest publication, never shown before. -/
theorem exchange (h : Inv slots s) (hpc : s.readerPc = .exchanging) :
    Inv slots (deliver { s with readPtr := subDirty s.swapPtr, swapPtr := s.readPtr } true) := by
  obtain ⟨hlatest, hnewer, hstamped⟩ := h.dirty (h.exchanging hpc)
  have hread : getDirty s.readPtr = false := h.slot_clean (by simp)
  have earlier : ∀ d ∈ s.deliveries, d.publication < s.stamp (subDirty s.swapPtr) :=
    fun d hd => by have := (h.faithful d hd).le_held; omega
  refine ⟨?_, fun hd => ?_, fun _ => hlatest, fun hpc' => ?_, h.loaded, hstamped, fun _ => ?_,
    fun d hd => ?_, ?_, h.first.cons fun _ => ?_, fun dirty hpc' => ?_⟩
  · refine List.Perm.trans ?_ h.owners
    simp only [deliver, subDirty_of_clean hread]
    exact (List.Perm.swap _ _ _).cons _
  · simp only [deliver, hread, Bool.false_eq_true] at hd
  · cases hpc'
  · exact ⟨_, .head _, rfl⟩
  · rcases List.mem_cons.1 hd with rfl | hd
    · have hloaded := h.loaded
      exact ⟨by simp only; omega, Nat.le_refl _, hstamped, fun _ => by simp only; omega⟩
    · have hf := h.faithful d hd
      exact ⟨hf.not_stale, Nat.le_of_lt (earlier d hd), hf.content, hf.published_of_dirty⟩
  · simp only [deliver, List.filter_cons, if_true, List.pairwise_cons]
    exact ⟨fun d hd => earlier d (List.mem_of_mem_filter hd), h.ordered⟩
  · exact ⟨fun _ d hd => Nat.ne_of_lt (earlier d hd), fun _ => rfl⟩
  · cases hpc'
    exact ⟨_, _, rfl, rfl, rfl⟩

/-- Every step of either thread keeps the invariant. -/
theorem step (h : Inv slots s) (a : Step α) (hs : TripleBuffer.step s a = some s') :
    Inv slots s' := by
  cases a with
  | publish => exact h.publish hs
  | acquire | acquireThrow =>
      simp only [TripleBuffer.step] at hs
      split at hs
      · cases hs; exact { h with }
      · cases hs
  | fill f =>
      simp only [TripleBuffer.step] at hs
      split at hs
      · cases hs; exact h.fill _
      · cases hs
  | present =>
      simp only [TripleBuffer.step] at hs
      split at hs
      · cases hs
        exact { h with exchanging := nofun, reading := nofun }
      · cases hs
  | load =>
      simp only [TripleBuffer.step] at hs
      split at hs
      · split at hs
        case isTrue hd =>
          cases hs
          exact { h with exchanging := fun _ => hd, loaded := Nat.le_refl _, reading := nofun }
        case isFalse hd => cases hs; exact h.load_clean (by simpa using hd)
      · cases hs
  | exchange =>
      simp only [TripleBuffer.step] at hs
      split at hs
      case isTrue hpc => cases hs; exact h.exchange hpc
      case isFalse => cases hs
  | presentDone =>
      simp only [TripleBuffer.step] at hs
      split at hs
      · cases hs
        exact { h with exchanging := nofun, reading := nofun }
      · cases hs

end Inv

/-- Every reachable state satisfies the invariant. -/
theorem Reachable.inv {s : Monitor α} (h : Reachable slots initialBuffer s) : Inv slots s := by
  obtain ⟨steps, hrun⟩ := h
  exact Runs.run_invariant (fun _ a _ hi hs => hi.step a hs) (Inv.initial slots initialBuffer) hrun

/-! ## The guarantees -/

/-- **Ownership and freshness.** In every reachable state of one writer and one reader: the
three pointers are the three slots, and the callables never share one; each delivery shows
the contents of its publication, a dirty one always of some publication, and keeps showing
them while the callable runs; dirty deliveries show strictly later and later publications; and
a `present` that loaded after the last publication shows that one, dirty exactly when no call
showed it before. -/
theorem handoff {s : Monitor α} (h : Reachable slots initialBuffer s) :
    [s.workPtr, s.readPtr, subDirty s.swapPtr].Perm [slots.writer, slots.reader, slots.middle] ∧
    s.workPtr ≠ s.readPtr ∧
    (∀ d ∈ s.deliveries, d.publication ≠ 0 →
      s.published[d.publication - 1]? = some d.content) ∧
    (∀ d ∈ s.deliveries, d.dirty = true → d.publication ≠ 0) ∧
    (∀ dirty, s.readerPc = .reading dirty → ∃ d rest, s.deliveries = d :: rest ∧
      d.dirty = dirty ∧ d.content = s.buffer s.readPtr) ∧
    ((s.deliveries.filter (·.dirty)).Pairwise fun d e => e.publication < d.publication) ∧
    (∀ later d earlier, s.deliveries = later ++ d :: earlier →
      d.publishedAtLoad = s.published.length → s.published ≠ [] →
      d.publication = s.published.length ∧ s.published.getLast? = some d.content ∧
      (d.dirty = true ↔ ∀ e ∈ earlier, e.publication ≠ d.publication)) := by
  have hi := h.inv
  refine ⟨hi.owners, hi.read_ne_work.symm, fun d hd => (hi.faithful d hd).content,
    fun d hd => (hi.faithful d hd).published_of_dirty, hi.reading, hi.ordered,
    fun later d earlier heq hload hne => ?_⟩
  have hf := hi.faithful d (by rw [heq]; simp)
  have hpos : 0 < s.published.length := List.length_pos_of_ne_nil hne
  have hlast : d.publication = s.published.length := by
    have := hf.not_stale
    have := hf.le_held
    have := hi.stamp_read_le
    omega
  refine ⟨hlast, ?_, hi.first later d earlier heq (by omega)⟩
  rw [List.getLast?_eq_getElem?, ← hlast]
  exact hf.content (by omega)

/-- Slots at three even addresses. -/
def exampleSlots : Slots where
  writer := 0x100
  reader := 0x200
  middle := 0x300
  aligned := List.forall_mem_cons.2 ⟨by decide, List.forall_mem_cons.2 ⟨by decide,
    List.forall_mem_singleton.2 (by decide)⟩⟩
  distinct := by decide

/-- Two publications between the load and the exchange of one `present`. -/
def exampleSteps : List (Step Nat) :=
  [.acquire, .fill fun _ => 5, .publish, .present, .load, .acquire, .fill fun _ => 6, .publish,
    .acquire, .fill fun _ => 7, .publish, .exchange, .presentDone, .present, .load]

/-- There the three pointers are the three slots, and dirty deliveries go forward. -/
theorem handoff_example :
    ∃ s, Runs.run step (initial exampleSlots fun _ => 0) exampleSteps = some s ∧
      s.published = [5, 6, 7] ∧
      [s.workPtr, s.readPtr, subDirty s.swapPtr].Perm [0x100, 0x200, 0x300] ∧
      (s.deliveries.filter (·.dirty)).Pairwise fun d e => e.publication < d.publication := by
  have hrun : (Runs.run step (initial exampleSlots fun _ => 0) exampleSteps).map (·.published)
      = some [5, 6, 7] := by decide +kernel
  obtain ⟨s, hs, hpublished⟩ := Option.map_eq_some_iff.1 hrun
  have h := handoff ⟨exampleSteps, hs⟩
  obtain ⟨howners, _, _, _, _, hordered, _⟩ := h
  exact ⟨s, hs, hpublished, howners, hordered⟩

end TripleBuffer

end CubeChip
