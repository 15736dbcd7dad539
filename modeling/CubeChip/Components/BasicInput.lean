import CubeChip.Components.Peripherals
import CubeChip.Lib.Runs

/-!
# `BasicKeyboard`: polling and advancing

`poll_global_state` runs on the main thread: it copies the keys into the buffer that is not
active and then makes it the active one. `advance_state` runs on the worker of each system, and
copies the active buffer key by key. The keys are copied in any order, and nothing keeps the
main thread out of a buffer that a worker still reads.

`snapshots_run` says exactly when that goes wrong, and that it takes a whole poll and the start
of another one while a worker copies. Where it does not, `advance_state` is one step: the one
the systems are modelled with. Which poll a key comes from is history, no step of the code
reads it.
-/

namespace CubeChip

namespace BasicKeyboard

/-- An `advance_state` under way, with its history. -/
structure Advance where
  /-- What `get_active_buffer` gave. -/
  source : Bool
  copied : Scancode → Bool
  /-- The keyboard it started from. -/
  before : BasicKeyboard
  /-- The polls there had been when it loaded the active buffer. -/
  loadedAt : Nat
  /-- The poll a key copied comes from. -/
  stamp : Scancode → Nat

/-- A keyboard of a system. -/
structure Instance extends BasicKeyboard where
  advance : Option Advance

/-- The static members and all keyboards, with their history. -/
structure Global where
  /-- `s_buffers`. -/
  buffers : Bool → Scancode → Bool
  /-- `s_current`. -/
  current : Bool
  /-- The keys the poll under way has copied. -/
  copied : Option (Scancode → Bool)
  instances : Nat → Instance
  /-- The polls that have begun, and those that are complete. -/
  begun : Nat
  completed : Nat
  /-- The keys each poll saw, from 1 on. -/
  polled : Nat → Scancode → Bool
  /-- The poll a key in a buffer comes from. -/
  stamp : Bool → Scancode → Nat

/-- Before the first poll. -/
def start : Global where
  buffers := fun _ _ => false
  current := false
  copied := none
  instances := fun _ => ⟨resetState, none⟩
  begun := 0
  completed := 0
  polled := fun _ _ => false
  stamp := fun _ _ => 0

/-- The steps of the main thread and of the workers. -/
inductive Action where
  /-- `poll_global_state` begins, with the keys as they are. -/
  | poll (keyboard : Scancode → Bool)
  /-- It copies a key. -/
  | write (key : Scancode)
  /-- `swap_active_buffer`. -/
  | swap
  /-- `advance_state`: the new keys become the old ones, and the active buffer is loaded. -/
  | advance (i : Nat)
  /-- It copies a key. -/
  | read (i : Nat) (key : Scancode)
  /-- It returns. -/
  | finish (i : Nat)
  /-- `reset_state`. -/
  | reset (i : Nat)

def setInstance (i : Nat) (k : Instance) (s : Global) : Global :=
  { s with instances := Function.update s.instances i k }

/-- A new poll. -/
def beginPoll (keyboard : Scancode → Bool) (s : Global) : Global :=
  { s with
    copied := some fun _ => false
    begun := s.begun + 1
    polled := Function.update s.polled (s.begun + 1) keyboard }

/-- A key of the poll under way goes into the backup buffer. -/
def writeKey (key : Scancode) (copied : Scancode → Bool) (s : Global) : Global :=
  { s with
    buffers := Function.update s.buffers (!s.current)
      (Function.update (s.buffers !s.current) key (s.polled s.begun key))
    stamp := Function.update s.stamp (!s.current)
      (Function.update (s.stamp !s.current) key s.begun)
    copied := some (Function.update copied key true) }

/-- The backup buffer becomes the active one. -/
def swapActiveBuffer (s : Global) : Global :=
  { s with current := !s.current, copied := none, completed := s.begun }

/-- A keyboard that begins to advance. -/
def beginAdvance (s : Global) (k : BasicKeyboard) : Instance where
  newBuf := k.newBuf
  oldBuf := k.newBuf
  advance := some ⟨s.current, fun _ => false, k, s.completed, fun _ => 0⟩

/-- A keyboard that copies a key. -/
def readKey (s : Global) (key : Scancode) (a : Advance) (k : BasicKeyboard) : Instance where
  newBuf := Function.update k.newBuf key (s.buffers a.source key)
  oldBuf := k.oldBuf
  advance := some { a with
    copied := Function.update a.copied key true
    stamp := Function.update a.stamp key (s.stamp a.source key) }

/-- One step, over `c_total_keys` keys; `none` where the thread is elsewhere. -/
def step (totalKeys : Nat) (s : Global) (action : Action) : Option Global :=
  match action with
  | .poll keyboard => if s.copied.isNone then some (beginPoll keyboard s) else none
  | .write key => s.copied.bind fun copied =>
      if key < totalKeys ∧ copied key = false then some (writeKey key copied s) else none
  | .swap => s.copied.bind fun copied =>
      if ∀ key < totalKeys, copied key = true then some (swapActiveBuffer s) else none
  | .advance i =>
      if (s.instances i).advance.isNone then
        some (setInstance i (beginAdvance s (s.instances i).toBasicKeyboard) s)
      else none
  | .read i key => (s.instances i).advance.bind fun a =>
      if key < totalKeys ∧ a.copied key = false then
        some (setInstance i (readKey s key a (s.instances i).toBasicKeyboard) s)
      else none
  | .finish i => (s.instances i).advance.bind fun a =>
      if ∀ key < totalKeys, a.copied key = true then
        some (setInstance i ⟨(s.instances i).toBasicKeyboard, none⟩ s)
      else none
  | .reset i =>
      if (s.instances i).advance.isNone then some (setInstance i ⟨resetState, none⟩ s) else none

variable {totalKeys : Nat} {s s' : Global} {action : Action}

/-- The steps, by what they are. -/
inductive StepOf (totalKeys : Nat) (s : Global) : Action → Global → Prop where
  | poll (keyboard : Scancode → Bool) (h : s.copied = none) :
      StepOf totalKeys s (.poll keyboard) (beginPoll keyboard s)
  | write (key : Scancode) (copied : Scancode → Bool) (h : s.copied = some copied)
      (hkey : key < totalKeys) (hnew : copied key = false) :
      StepOf totalKeys s (.write key) (writeKey key copied s)
  | swap (copied : Scancode → Bool) (h : s.copied = some copied)
      (hall : ∀ key < totalKeys, copied key = true) :
      StepOf totalKeys s .swap (swapActiveBuffer s)
  | advance (i : Nat) (h : (s.instances i).advance = none) :
      StepOf totalKeys s (.advance i)
        (setInstance i (beginAdvance s (s.instances i).toBasicKeyboard) s)
  | read (i : Nat) (key : Scancode) (a : Advance) (h : (s.instances i).advance = some a)
      (hkey : key < totalKeys) (hnew : a.copied key = false) :
      StepOf totalKeys s (.read i key)
        (setInstance i (readKey s key a (s.instances i).toBasicKeyboard) s)
  | leave (action : Action) (i : Nat) (k : BasicKeyboard) (haction : ∀ key, action ≠ .write key) :
      StepOf totalKeys s action (setInstance i ⟨k, none⟩ s)

theorem stepOf_of_step (h : step totalKeys s action = some s') : StepOf totalKeys s action s' := by
  cases action with
  | poll keyboard =>
      obtain ⟨hnone, ⟨⟩⟩ := Option.ite_none_right_eq_some.1 h
      exact .poll keyboard (Option.isNone_iff_eq_none.1 hnone)
  | write key =>
      obtain ⟨copied, hcopied, h⟩ := Option.bind_eq_some_iff.1 h
      obtain ⟨⟨hkey, hnew⟩, ⟨⟩⟩ := Option.ite_none_right_eq_some.1 h
      exact .write key copied hcopied hkey hnew
  | swap =>
      obtain ⟨copied, hcopied, h⟩ := Option.bind_eq_some_iff.1 h
      obtain ⟨hall, ⟨⟩⟩ := Option.ite_none_right_eq_some.1 h
      exact .swap copied hcopied hall
  | advance i =>
      obtain ⟨hnone, ⟨⟩⟩ := Option.ite_none_right_eq_some.1 h
      exact .advance i (Option.isNone_iff_eq_none.1 hnone)
  | read i key =>
      obtain ⟨a, ha, h⟩ := Option.bind_eq_some_iff.1 h
      obtain ⟨⟨hkey, hnew⟩, ⟨⟩⟩ := Option.ite_none_right_eq_some.1 h
      exact .read i key a ha hkey hnew
  | finish i =>
      obtain ⟨a, -, h⟩ := Option.bind_eq_some_iff.1 h
      obtain ⟨-, ⟨⟩⟩ := Option.ite_none_right_eq_some.1 h
      exact .leave _ i _ fun _ heq => nomatch heq
  | reset i =>
      obtain ⟨-, ⟨⟩⟩ := Option.ite_none_right_eq_some.1 h
      exact .leave _ i _ fun _ heq => nomatch heq

/-! ## Where a key comes from -/

/-- What every interleaving keeps of an `advance_state` under way. -/
structure AdvanceInv (s : Global) (k : Instance) (a : Advance) : Prop where
  loadedAt_le : a.loadedAt ≤ s.completed
  /-- The buffer is the active one until a poll completes. -/
  source_eq : a.loadedAt = s.completed → a.source = s.current
  stamp_le : ∀ key, a.copied key = true → a.stamp key ≤ s.begun
  newBuf_eq : ∀ key, a.copied key = true → k.newBuf key = s.polled (a.stamp key) key
  oldBuf_eq : k.oldBuf = a.before.newBuf

/-- What every interleaving keeps. -/
structure Inv (totalKeys : Nat) (s : Global) : Prop where
  begun_eq : s.begun = s.completed + if s.copied.isSome then 1 else 0
  stamp_le : ∀ b key, s.stamp b key ≤ s.begun
  buffers_eq : ∀ b key, s.buffers b key = s.polled (s.stamp b key) key
  /-- The active buffer is the work of the last complete poll. -/
  current_eq : ∀ key < totalKeys, s.stamp s.current key = s.completed
  copied_eq : ∀ copied, s.copied = some copied → ∀ key, copied key = true →
    s.stamp (!s.current) key = s.begun
  advance : ∀ i a, (s.instances i).advance = some a → AdvanceInv s (s.instances i) a

theorem inv_start : Inv totalKeys start where
  begun_eq := rfl
  stamp_le := fun _ _ => le_rfl
  buffers_eq := fun _ _ => rfl
  current_eq := fun _ _ => rfl
  copied_eq := fun _ h => nomatch h
  advance := fun _ _ h => nomatch h

/-- The keyboard of a system, or of another one. -/
theorem advance_setInstance {i j : Nat} {k : Instance} {a : Advance}
    (h : ((setInstance i k s).instances j).advance = some a) :
    (setInstance i k s).instances j = k ∧ k.advance = some a ∨
      (setInstance i k s).instances j = s.instances j ∧ (s.instances j).advance = some a := by
  rcases eq_or_ne j i with rfl | hne
  · have heq : (setInstance j k s).instances j = k := Function.update_self ..
    exact .inl ⟨heq, heq ▸ h⟩
  · have heq : (setInstance i k s).instances j = s.instances j := Function.update_of_ne hne ..
    exact .inr ⟨heq, heq ▸ h⟩

/-- A step of a worker touches its own keyboard alone. -/
theorem Inv.setInstance (h : Inv totalKeys s) (i : Nat) {k : Instance}
    (hk : ∀ a, k.advance = some a → AdvanceInv s k a) :
    Inv totalKeys (setInstance i k s) where
  begun_eq := h.begun_eq
  stamp_le := h.stamp_le
  buffers_eq := h.buffers_eq
  current_eq := h.current_eq
  copied_eq := h.copied_eq
  advance := fun j a ha => by
    have hkept {k : Instance} : AdvanceInv s k a →
        AdvanceInv (BasicKeyboard.setInstance i k s) k a :=
      fun ⟨h₁, h₂, h₃, h₄, h₅⟩ => ⟨h₁, h₂, h₃, h₄, h₅⟩
    rcases advance_setInstance ha with ⟨heq, ha⟩ | ⟨heq, ha⟩ <;> rw [heq]
    · obtain ⟨h₁, h₂, h₃, h₄, h₅⟩ := hk a ha
      exact ⟨h₁, h₂, h₃, h₄, h₅⟩
    · obtain ⟨h₁, h₂, h₃, h₄, h₅⟩ := h.advance j a ha
      exact ⟨h₁, h₂, h₃, h₄, h₅⟩

theorem Inv.beginPoll (h : Inv totalKeys s) (hnone : s.copied = none) (keyboard : Scancode → Bool) :
    Inv totalKeys (beginPoll keyboard s) := by
  have hbegun : s.begun = s.completed := by simpa [hnone] using h.begun_eq
  -- the polls before this one are as they were
  have hpolled {n : Nat} (hn : n ≤ s.begun) :
      (BasicKeyboard.beginPoll keyboard s).polled n = s.polled n :=
    Function.update_of_ne (Nat.ne_of_lt (Nat.lt_succ_of_le hn)) ..
  exact
    { begun_eq := congrArg (· + 1) hbegun
      stamp_le := fun b key => Nat.le_succ_of_le (h.stamp_le b key)
      buffers_eq := fun b key =>
        (h.buffers_eq b key).trans (congrFun (hpolled (h.stamp_le b key)).symm key)
      current_eq := h.current_eq
      copied_eq := fun copied hcopied key hkey => by
        cases hcopied
        exact nomatch hkey
      advance := fun i a ha => by
        obtain ⟨h₁, h₂, h₃, h₄, h₅⟩ := h.advance i a ha
        exact ⟨h₁, h₂, fun key hkey => Nat.le_succ_of_le (h₃ key hkey),
          fun key hkey => (h₄ key hkey).trans (congrFun (hpolled (h₃ key hkey)).symm key), h₅⟩ }

theorem stamp_writeKey (key key' : Scancode) (b : Bool) (copied : Scancode → Bool) (s : Global) :
    (writeKey key copied s).stamp b key' =
      if b = !s.current ∧ key' = key then s.begun else s.stamp b key' := by
  unfold writeKey
  dsimp only
  by_cases hb : b = !s.current
  · rw [hb, Function.update_self, Function.update_apply]
    simp
  · rw [Function.update_of_ne hb, if_neg fun h => hb h.1]

theorem buffers_writeKey (key key' : Scancode) (b : Bool) (copied : Scancode → Bool) (s : Global) :
    (writeKey key copied s).buffers b key' =
      if b = !s.current ∧ key' = key then s.polled s.begun key else s.buffers b key' := by
  unfold writeKey
  dsimp only
  by_cases hb : b = !s.current
  · rw [hb, Function.update_self, Function.update_apply]
    simp
  · rw [Function.update_of_ne hb, if_neg fun h => hb h.1]

theorem Inv.writeKey (h : Inv totalKeys s) {copied : Scancode → Bool}
    (hcopied : s.copied = some copied) (key : Scancode) :
    Inv totalKeys (writeKey key copied s) where
  begun_eq := by
    have hbegun := h.begun_eq
    rw [hcopied] at hbegun
    exact hbegun
  stamp_le := fun b key' => by
    rw [stamp_writeKey]
    split
    · exact le_rfl
    · exact h.stamp_le b key'
  buffers_eq := fun b key' => by
    rw [stamp_writeKey, buffers_writeKey]
    split
    next heq => rw [heq.2]; rfl
    next => exact h.buffers_eq b key'
  current_eq := fun key' hkey => by
    have hne : ¬(s.current = !s.current ∧ key' = key) := fun heq => (Bool.eq_not_self _).1 heq.1
    exact (stamp_writeKey ..).trans ((if_neg hne).trans (h.current_eq key' hkey))
  copied_eq := fun copied' heq key' hkey => by
    cases heq
    rw [stamp_writeKey]
    split
    · rfl
    next hne =>
      have hne : key' ≠ key := fun heq => hne ⟨rfl, heq⟩
      rw [Function.update_of_ne hne] at hkey
      exact h.copied_eq copied hcopied key' hkey
  advance := fun i a ha => by
    obtain ⟨h₁, h₂, h₃, h₄, h₅⟩ := h.advance i a ha
    exact ⟨h₁, h₂, h₃, h₄, h₅⟩

theorem Inv.swapActiveBuffer (h : Inv totalKeys s) {copied : Scancode → Bool}
    (hcopied : s.copied = some copied) (hall : ∀ key < totalKeys, copied key = true) :
    Inv totalKeys (swapActiveBuffer s) := by
  have hbegun : s.begun = s.completed + 1 := by simpa [hcopied] using h.begun_eq
  exact
    { begun_eq := rfl
      stamp_le := h.stamp_le
      buffers_eq := h.buffers_eq
      current_eq := fun key hkey => h.copied_eq copied hcopied key (hall key hkey)
      copied_eq := fun _ heq => nomatch heq
      advance := fun i a ha => by
        obtain ⟨h₁, h₂, h₃, h₄, h₅⟩ := h.advance i a ha
        have hlt : a.loadedAt < s.begun := hbegun ▸ Nat.lt_succ_of_le h₁
        exact ⟨hlt.le, fun heq => absurd heq hlt.ne, h₃, h₄, h₅⟩ }

/-- **One step.** -/
theorem Inv.step (h : Inv totalKeys s) (hstep : step totalKeys s action = some s') :
    Inv totalKeys s' := by
  cases stepOf_of_step hstep with
  | poll keyboard hnone => exact h.beginPoll hnone keyboard
  | write key copied hcopied => exact h.writeKey hcopied key
  | swap copied hcopied hall => exact h.swapActiveBuffer hcopied hall
  | advance i =>
      refine h.setInstance i fun a ha => ?_
      cases ha
      exact ⟨le_rfl, fun _ => rfl, fun _ hkey => (nomatch hkey), fun _ hkey => (nomatch hkey), rfl⟩
  | read i key a ha =>
      refine h.setInstance i fun a' ha' => ?_
      cases ha'
      obtain ⟨h₁, h₂, h₃, h₄, h₅⟩ := h.advance i a ha
      refine ⟨h₁, h₂, fun key' hkey => ?_, fun key' hkey => ?_, h₅⟩
      · rcases eq_or_ne key' key with rfl | hne
        · simp only [Function.update_self]
          exact h.stamp_le a.source key'
        · simp only [Function.update_of_ne hne] at hkey ⊢
          exact h₃ key' hkey
      · rcases eq_or_ne key' key with rfl | hne
        · simp only [readKey, Function.update_self]
          exact h.buffers_eq a.source key'
        · simp only [readKey, Function.update_of_ne hne] at hkey ⊢
          exact h₄ key' hkey
  | leave action i k => exact h.setInstance i fun a ha => nomatch ha

/-! ## Snapshots -/

/-- Every `advance_state` under way has copied, and has left to copy, the keys of the poll that
was the last one when it loaded the active buffer. -/
def Snapshots (totalKeys : Nat) (s : Global) : Prop :=
  ∀ i a, (s.instances i).advance = some a → ∀ key < totalKeys,
    (if a.copied key then a.stamp key else s.stamp a.source key) = a.loadedAt

/-- The step writes no key that a worker has still to copy from the same buffer. -/
def Undisturbed (s : Global) (action : Action) : Prop :=
  ∀ key, action = .write key → ∀ i a, (s.instances i).advance = some a →
    a.source = (!s.current) → a.copied key = true

/-- A keyboard with the keys of a poll. -/
def AgreesBelow (totalKeys : Nat) (k k' : BasicKeyboard) : Prop :=
  ∀ key < totalKeys, k.newBuf key = k'.newBuf key ∧ k.oldBuf key = k'.oldBuf key

/-- A step of a worker disturbs nobody. -/
theorem Snapshots.setInstance (h : Snapshots totalKeys s) (i : Nat) {k : Instance}
    (hk : ∀ a, k.advance = some a → ∀ key < totalKeys,
      (if a.copied key then a.stamp key else s.stamp a.source key) = a.loadedAt) :
    Snapshots totalKeys (setInstance i k s) := by
  intro j a ha
  rcases advance_setInstance ha with ⟨-, ha⟩ | ⟨-, ha⟩
  · exact hk a ha
  · exact h j a ha

/-- A write leaves the snapshots precisely if it reaches no key left to copy. -/
theorem Snapshots.writeKey_iff (h : Snapshots totalKeys s) (hinv : Inv totalKeys s)
    {key : Scancode} {copied : Scancode → Bool} (hcopied : s.copied = some copied)
    (hkey : key < totalKeys) :
    Snapshots totalKeys (writeKey key copied s) ↔ Undisturbed s (.write key) := by
  have hbegun : s.begun = s.completed + 1 := by
    have hbegun := hinv.begun_eq
    rwa [hcopied] at hbegun
  have hlate {i : Nat} {a : Advance} (ha : (s.instances i).advance = some a) :
      s.begun ≠ a.loadedAt := by
    have := (hinv.advance i a ha).loadedAt_le
    omega
  constructor
  · rintro h' _ ⟨⟩ i a ha hsource
    by_contra hleft
    have hstamp := h' i a ha key hkey
    rw [if_neg hleft, stamp_writeKey, if_pos ⟨hsource, rfl⟩] at hstamp
    exact hlate ha hstamp
  · intro hfree i a ha key' hkey'
    rw [stamp_writeKey]
    cases hdone : a.copied key' with
    | true =>
        have := h i a ha key' hkey'
        rwa [hdone] at this
    | false =>
        have := h i a ha key' hkey'
        rw [hdone] at this
        rw [if_neg (c := a.source = (!s.current) ∧ key' = key)]
        · exact this
        · rintro ⟨hsource, rfl⟩
          exact Bool.false_ne_true (hdone.symm.trans (hfree key' rfl i a ha hsource))

/-- **One step** keeps the snapshots precisely if it is undisturbing. -/
theorem Snapshots.step_iff (h : Snapshots totalKeys s) (hinv : Inv totalKeys s)
    (hstep : step totalKeys s action = some s') :
    Snapshots totalKeys s' ↔ Undisturbed s action := by
  have hother (hother : ∀ key, action ≠ .write key) : Undisturbed s action :=
    fun key heq => absurd heq (hother key)
  cases stepOf_of_step hstep with
  | write key copied hcopied hkey => exact h.writeKey_iff hinv hcopied hkey
  | poll keyboard hnone => exact iff_of_true h (hother fun _ heq => nomatch heq)
  | swap copied hcopied hall => exact iff_of_true h (hother fun _ heq => nomatch heq)
  | leave action i k haction =>
      exact iff_of_true (h.setInstance i fun a ha => nomatch ha) (hother haction)
  | advance i =>
      refine iff_of_true (h.setInstance i fun a ha key hkey => ?_)
        (hother fun _ heq => nomatch heq)
      cases ha
      exact hinv.current_eq key hkey
  | read i key a ha hkey hnew =>
      refine iff_of_true (h.setInstance i fun a' ha' key' hkey' => ?_)
        (hother fun _ heq => nomatch heq)
      cases ha'
      have hkept := h i a ha key' hkey'
      rcases eq_or_ne key' key with rfl | hne
      · simp only [Function.update_self, if_true]
        rwa [hnew] at hkept
      · simp only [Function.update_of_ne hne]
        exact hkept

/-- An `advance_state` that has copied all keys of a snapshot. -/
theorem Snapshots.agreesBelow (h : Snapshots totalKeys s) (hinv : Inv totalKeys s) {i : Nat}
    {a : Advance} (ha : (s.instances i).advance = some a)
    (hall : ∀ key < totalKeys, a.copied key = true) :
    AgreesBelow totalKeys (s.instances i).toBasicKeyboard
      (a.before.advanceState (s.polled a.loadedAt)) := by
  intro key hkey
  have hinst := hinv.advance i a ha
  have hstamp := h i a ha key hkey
  rw [hall key hkey, if_pos rfl] at hstamp
  refine ⟨?_, congrFun hinst.oldBuf_eq key⟩
  rw [hinst.newBuf_eq key (hall key hkey), hstamp]
  rfl

/-- **Key states are those of one poll.** In every interleaving of the main thread's polls with
`advance_state` of any number of systems: all copies are snapshots of the last complete poll in
every state precisely when no step writes a key that is still to be copied; where they are,
`advance_state` has taken exactly that poll when it returns; and a buffer is written while it is
being copied only after a poll has been completed since the copy began. -/
theorem snapshots_run (totalKeys : Nat) (actions : List Action) :
    ((∀ s ∈ Runs.visited (step totalKeys) start actions, Snapshots totalKeys s) ↔
      ∀ x ∈ Runs.taken (step totalKeys) start actions, Undisturbed x.1 x.2) ∧
    ∀ s ∈ Runs.visited (step totalKeys) start actions, ∀ i a,
      (s.instances i).advance = some a →
        (Snapshots totalKeys s → (∀ key < totalKeys, a.copied key = true) →
          AgreesBelow totalKeys (s.instances i).toBasicKeyboard
            (a.before.advanceState (s.polled a.loadedAt))) ∧
        (s.copied.isSome = true → a.source = (!s.current) → a.loadedAt < s.completed) := by
  refine ⟨Runs.forall_visited_iff (J := Inv totalKeys)
    (fun _ _ _ hs _ _ hstep => hs.step hstep)
    (fun _ _ _ hs hsnap hstep => hsnap.step_iff hs hstep) actions inv_start
    fun _ _ h => (nomatch h), fun s hs i a ha => ?_⟩
  obtain ⟨before, hrun⟩ := Runs.exists_run_of_mem_visited hs
  have hinv : Inv totalKeys s := Runs.run_invariant (fun _ _ _ h => h.step) inv_start hrun
  refine ⟨fun hsnap hall => hsnap.agreesBelow hinv ha hall, fun _ hsource => ?_⟩
  have hinst := hinv.advance i a ha
  refine lt_of_le_of_ne hinst.loadedAt_le fun heq => ?_
  exact (Bool.eq_not_self _).1 ((hinst.source_eq heq).symm.trans hsource)

end BasicKeyboard

end CubeChip
