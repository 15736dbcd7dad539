import CubeChip.Systems.Chip8.Permaregs.Phases

/-!
# Errors of the permanent registers

FN75 and FN85 of one instance when the file system answers anything at all. Neither looks at
the reason of an error: a failed look at the file counts as no file, a failed write or read is
logged and passed over. `Instance.Handled` is what is left to hold of every call then, and
`Instance.handled_iff` says that one branch misses it: `make_permaregs_file` logs its error
and takes the value of the expected object all the same, in a `noexcept` function.

The file on disk is a matter of its own. `Instance.KeepsFile` asks that what was in it before
survives a failed write of FN75, and every FN85.
-/

namespace CubeChip

/-! ## One file -/

namespace FileState

variable {f : FileState}

/-- The bytes of a newly made file. -/
def blank : List UInt8 := List.replicate 16 0

/-- No regular file is seen, and none can be made. -/
def makingFails (f : FileState) : Bool := !f.hasFile && !(f.outcomes 1).isOk

/-- FN75 writes to the file, and succeeds. -/
def stores (f : FileState) : Bool := f.hasFile && (f.outcomes 1).isOk

/-- FN85 only fails to come back where the file cannot be made. -/
theorem load_eq_none_iff : f.load = none ↔ f.makingFails = true := by
  rw [load, makingFails]
  cases f.hasFile with
  | true => simp
  | false => cases h : f.outcomes 1 <;> simp [IoOutcome.isOk]

@[simp] theorem readBack_content (f : FileState) : f.readBack.2.1.content = f.content := by
  rw [readBack]
  split <;> rfl

/-- FN85 leaves the file as it was, or makes it anew where it saw none. -/
theorem load_content {r : Bool × FileState × Option Registers16} (h : f.load = some r) :
    r.2.1.content = if f.hasFile then f.content else some blank := by
  rw [load] at h
  cases hfile : f.hasFile with
  | true =>
      rw [hfile, if_pos rfl] at h
      obtain rfl := Option.some.inj h
      exact readBack_content f.tick
  | false =>
      rw [hfile, if_neg Bool.false_ne_true] at h
      cases hmake : f.outcomes 1 with
      | fail left => rw [hmake] at h; cases h
      | ok =>
          rw [hmake] at h
          obtain rfl := Option.some.inj h
          exact readBack_content f.tick.made

/-- The write of FN75 fails and leaves something else in the file. -/
def SpoiltByStore (f : FileState) : Prop :=
  f.hasFile = true ∧ ∃ left, f.outcomes 1 = .fail left ∧ left ≠ f.content

/-- FN85 does not see the file, and what is in it is not what it makes anew. -/
def SpoiltByLoad (f : FileState) : Prop :=
  f.hasFile = false ∧ f.content.isSome ∧ f.content ≠ some blank

theorem SpoiltByStore.stores (h : f.SpoiltByStore) : f.stores = false := by
  obtain ⟨hfile, left, hleft, _⟩ := h
  simp only [FileState.stores, hleft, IoOutcome.isOk, Bool.and_false]

theorem store_content_iff {n : Nat} {v : Registers16} (h : f.stores = false) :
    (f.store n v).2.content = f.content ↔ ¬ f.SpoiltByStore := by
  rw [store, SpoiltByStore]
  cases hfile : f.hasFile with
  | false => simp
  | true =>
      cases hwrite : f.outcomes 1 with
      | ok =>
          rw [stores, hfile, hwrite] at h
          cases h
      | fail left => simp

theorem load_content_iff {r : Bool × FileState × Option Registers16} (h : f.load = some r)
    (hsome : f.content.isSome) : r.2.1.content = f.content ↔ ¬ f.SpoiltByLoad := by
  rw [load_content h, SpoiltByLoad]
  cases hfile : f.hasFile with
  | true => simp
  | false => simpa [hsome] using eq_comm

end FileState

/-! ## One instance -/

namespace Permaregs

/-- An instance and what it shares. -/
structure Instance where
  path : Option Path
  registersV : Registers16
  host : Host

/-- FN75 and FN85. -/
inductive Call where
  | store
  | load

namespace Instance

variable {s s' : Instance} {n : Nat}

/-- `set_permaregs` or `get_permaregs` of `n` registers; `none` if the process ends. -/
def call (s : Instance) (n : Nat) : Call → Option Instance
  | .store =>
      let r := setPermaregs n s.path s.registersV s.host
      some ⟨r.1, s.registersV, r.2⟩
  | .load => (getPermaregs n s.path s.registersV s.host).map fun r => ⟨r.1, r.2.1, r.2.2⟩

/-- FN85 would read the file of the instance. -/
def reads (s : Instance) : Bool := s.path.any fun p => (s.host.fs p).answers

/-- What a call may do besides its own registers: give the path up, and use the file the
path leads to. -/
structure Frame (s s' : Instance) : Prop where
  path : s'.path = s.path ∨ s'.path = none
  files : ∀ q, s.path ≠ some q → s'.host.fs q = s.host.fs q

/-- What a call of `n` registers comes to, whatever the file system answers. -/
def Handled (s : Instance) (n : Nat) (s' : Instance) : Call → Prop
  | .store =>
      s'.registersV = s.registersV ∧
        s'.host.permaregsV = copyN s.registersV n s.host.permaregsV ∧ Frame s s'
  | .load =>
      s'.registersV = copyN s'.host.permaregsV n s.registersV ∧
        (s.reads = false → s'.host.permaregsV = s.host.permaregsV) ∧ Frame s s'

/-- The file is as it was, unless FN75 has succeeded in writing to it or FN85 in making it. -/
def KeepsFile (s s' : Instance) (c : Call) : Prop :=
  ∀ p, s.path = some p →
    (match c with
      | .store => (s.host.fs p).stores = false
      | .load => (s.host.fs p).content.isSome = true) →
    (s'.host.fs p).content = (s.host.fs p).content

/-- FN85 finds no regular file and cannot make one. -/
def makingFails (s : Instance) : Call → Bool
  | .store => false
  | .load => s.path.any fun p => (s.host.fs p).makingFails

/-- The call spoils the file. -/
def Spoils (s : Instance) (c : Call) : Prop :=
  ∃ p, s.path = some p ∧
    match c with
    | .store => (s.host.fs p).SpoiltByStore
    | .load => (s.host.fs p).SpoiltByLoad

theorem frame_update {p : Path} {g : FileState} {v w : Registers16} (hp : s.path = some p)
    (kept : Bool) : Frame s ⟨keptPath p kept, v, ⟨Function.update s.host.fs p g, w⟩⟩ where
  path := by
    rw [hp]
    exact (keptPath_cases p kept).symm
  files q hq := Function.update_of_ne (fun h => hq (by rw [hp, h])) _ _

/-- FN75 comes back, as it should. -/
theorem call_store (hn : 0 < n) :
    ∃ s', s.call n .store = some s' ∧ s.Handled n s' .store := by
  obtain ⟨path, v, host⟩ := s
  refine ⟨_, rfl, rfl, ?_⟩
  cases path with
  | none => exact ⟨rfl, .inl rfl, fun _ _ => rfl⟩
  | some p =>
      rw [setPermaregs_some hn]
      exact ⟨rfl, frame_update rfl _⟩

/-- FN85 does not come back precisely where the file cannot be made. -/
theorem call_load_eq_none (hn : 0 < n) (h16 : n ≤ 16) :
    s.call n .load = none ↔ s.makingFails .load = true := by
  obtain ⟨path, v, fs, shared⟩ := s
  cases path with
  | none => simp [call, getPermaregs, loadFile, makingFails]
  | some p =>
      rw [call, getPermaregs_some hn h16, Option.map_eq_none_iff, Option.map_eq_none_iff,
        FileState.load_eq_none_iff]
      rfl

/-- Where FN85 comes back, it has done what it should. -/
theorem handled_load (hn : 0 < n) (h16 : n ≤ 16) (h : s.call n .load = some s') :
    s.Handled n s' .load := by
  obtain ⟨path, v, fs, shared⟩ := s
  cases path with
  | none =>
      obtain rfl := Option.some.inj h
      exact ⟨rfl, fun _ => rfl, .inl rfl, fun _ _ => rfl⟩
  | some p =>
      rw [call, getPermaregs_some hn h16, Option.map_map] at h
      obtain ⟨r, hr, rfl⟩ := Option.map_eq_some_iff.1 h
      refine ⟨rfl, ?_, frame_update rfl _⟩
      intro hreads
      have hnone : r.2.2.isSome = false := (FileState.load_isSome hr).trans hreads
      rw [Option.isSome_eq_false_iff, Option.isNone_iff_eq_none] at hnone
      simp [hnone, refresh]

/-- The call comes back and has done what it should, unless the file cannot be made. -/
theorem handled_call (hn : 0 < n) (h16 : n ≤ 16) (s : Instance) (c : Call) :
    (∃ s', s.call n c = some s' ∧ s.Handled n s' c) ↔ s.makingFails c = false := by
  cases c with
  | store => exact iff_of_true (call_store hn) rfl
  | load =>
      rw [← Bool.not_eq_true, ← call_load_eq_none hn h16, ← Ne, Option.ne_none_iff_exists']
      constructor
      · rintro ⟨s', hs', _⟩
        exact ⟨s', hs'⟩
      · rintro ⟨s', hs'⟩
        exact ⟨s', hs', handled_load hn h16 hs'⟩

/-- FN75 keeps the file unless its write fails and leaves something else. -/
theorem keepsFile_store (hn : 0 < n) (h : s.call n .store = some s') :
    s.KeepsFile s' .store ↔ ¬ s.Spoils .store := by
  obtain ⟨path, v, host⟩ := s
  obtain rfl := Option.some.inj h
  cases path with
  | none => exact iff_of_true (fun p hp => by cases hp) fun ⟨p, hp, _⟩ => by cases hp
  | some p =>
      have hcontent : ((setPermaregs n (some p) v host).2.fs p).content =
          ((host.fs p).store n v).2.content := by
        rw [setPermaregs_some hn]
        exact congrArg FileState.content (Function.update_self p _ host.fs)
      constructor
      · rintro hkeeps ⟨q, hq, hspoilt⟩
        obtain rfl := Option.some.inj hq
        have hkept := hkeeps p rfl hspoilt.stores
        exact (FileState.store_content_iff hspoilt.stores).1 (hcontent.symm.trans hkept) hspoilt
      · intro hspoils q hq hstores
        obtain rfl := Option.some.inj hq
        refine hcontent.trans ((FileState.store_content_iff hstores).2 fun hspoilt => ?_)
        exact hspoils ⟨p, rfl, hspoilt⟩

/-- FN85 keeps the file unless it does not see it. -/
theorem keepsFile_load (hn : 0 < n) (h16 : n ≤ 16) (h : s.call n .load = some s') :
    s.KeepsFile s' .load ↔ ¬ s.Spoils .load := by
  obtain ⟨path, v, fs, shared⟩ := s
  cases path with
  | none => exact iff_of_true (fun p hp => by cases hp) fun ⟨p, hp, _⟩ => by cases hp
  | some p =>
      rw [call, getPermaregs_some hn h16, Option.map_map] at h
      obtain ⟨r, hr, rfl⟩ := Option.map_eq_some_iff.1 h
      have hcontent : (Function.update fs p r.2.1 p).content = r.2.1.content :=
        congrArg FileState.content (Function.update_self p r.2.1 fs)
      constructor
      · rintro hkeeps ⟨q, hq, hspoilt⟩
        obtain rfl := Option.some.inj hq
        have hkept := hkeeps p rfl hspoilt.2.1
        exact (FileState.load_content_iff hr hspoilt.2.1).1 (hcontent.symm.trans hkept) hspoilt
      · intro hspoils q hq hsome
        obtain rfl := Option.some.inj hq
        refine hcontent.trans ((FileState.load_content_iff hr hsome).2 fun hspoilt => ?_)
        exact hspoils ⟨p, rfl, hspoilt⟩

theorem keepsFile_iff (hn : 0 < n) (h16 : n ≤ 16) {c : Call} (h : s.call n c = some s') :
    s.KeepsFile s' c ↔ ¬ s.Spoils c := by
  cases c with
  | store => exact keepsFile_store hn h
  | load => exact keepsFile_load hn h16 h

/-- Whatever the file system answers, FN75 and FN85 of one to sixteen registers come back
and have handled every error, unless `make_permaregs_file` meets one. The file on disk is
kept as well precisely when no failed operation spoils it. -/
theorem handled_iff (N : Fin 16) (s : Instance) (c : Call) :
    ((∃ s', s.call (N + 1) c = some s' ∧ s.Handled (N + 1) s' c) ↔ s.makingFails c = false) ∧
    ((∃ s', s.call (N + 1) c = some s' ∧ s.Handled (N + 1) s' c ∧ s.KeepsFile s' c) ↔
      s.makingFails c = false ∧ ¬ s.Spoils c) := by
  have hn : 0 < N.val + 1 := Nat.succ_pos N
  have h16 : N.val + 1 ≤ 16 := N.isLt
  have hhandled := handled_call hn h16 s c
  refine ⟨hhandled, ?_⟩
  rw [← hhandled]
  constructor
  · rintro ⟨s', hs', hdone, hkeeps⟩
    exact ⟨⟨s', hs', hdone⟩, (keepsFile_iff hn h16 hs').1 hkeeps⟩
  · rintro ⟨⟨s', hs', hdone⟩, hspoils⟩
    exact ⟨s', hs', hdone, (keepsFile_iff hn h16 hs').2 hspoils⟩

/-- An instance in a directory that takes no files. -/
def unwritable : Instance :=
  ⟨some "permaregs/rom", fun _ => 0, ⟨fun _ => ⟨none, fun _ => .fail none⟩, fun _ => 0⟩⟩

/-- FN85 of all registers ends the process there. -/
theorem handled_unwritable :
    ¬ ∃ s', unwritable.call 16 .load = some s' ∧ unwritable.Handled 16 s' .load := by
  rintro ⟨s', hs', _⟩
  have hnone : unwritable.call 16 .load = none :=
    (call_load_eq_none (by decide) (by decide)).2 rfl
  rw [hnone] at hs'
  cases hs'

end Instance

end Permaregs

end CubeChip
