import CubeChip.Lib.Runs
import CubeChip.Systems.Chip8.Permaregs.Phases

/-!
# What the permanent registers remember

One program on a file system that refuses nothing: FN75 and FN85 with any register count,
arbitrary changes of V, and restarts of the program, in the same process or in a new one.
Beside the session stands what each permanent register *should* hold, the value it was last
stored with. `Session.loadsStored_iff` says when FN85 loads these values in terms of the two
stores, and `Session.loadsStored_run` which steps keep it so.

The file is truncated to the count stored (so storing fewer registers loses the others), and
a program that stores before there is a file only ever writes the in-memory copy (so a
restart loses everything).
-/

namespace CubeChip

/-! ## A file that refuses nothing -/

namespace FileState

variable {f : FileState}

theorem Healthy.hasFile (h : f.Healthy) : f.hasFile = f.content.isSome := by
  rw [FileState.hasFile, h 0]

/-- A file that is there is read, and stays. -/
theorem Healthy.readBack (h : f.Healthy) (hc : f.content.isSome) :
    f.readBack = (true, f.tick.tick, some f.registers) := by
  rw [FileState.readBack, if_pos (h.hasFile.trans hc), h 1]

/-- FN85 reads the registers of the file, which is there from then on. -/
theorem Healthy.load (h : f.Healthy) :
    ∃ g : FileState, f.load = some (true, g, some f.registers) ∧ g.Healthy ∧
      g.content = some (f.content.getD (List.replicate 16 0)) := by
  cases hc : f.content with
  | some bytes =>
      refine ⟨f.tick.tick.tick, ?_, h.tick.tick.tick, hc⟩
      have hfile : f.hasFile = true := by rw [h.hasFile, hc]; rfl
      rw [FileState.load, if_pos hfile, h.tick.readBack (by rw [tick_content, hc]; rfl)]
      rfl
  | none =>
      have hmade : f.tick.made.Healthy := h.tick.tick
      refine ⟨f.tick.made.tick.tick, ?_, hmade.tick.tick, rfl⟩
      have hfile : ¬ f.hasFile = true := by rw [h.hasFile, hc]; exact Bool.false_ne_true
      rw [FileState.load, if_neg hfile, h 1, hmade.readBack rfl, made_registers,
        registers_none hc]

/-- FN75 cuts the file to the registers stored; without a file it stores nothing. -/
theorem Healthy.store (h : f.Healthy) (n : Nat) (v : Registers16) :
    ∃ g : FileState, f.store n v = (f.content.isSome, g) ∧ g.Healthy ∧
      g.content = if f.content.isSome then some ((List.ofFn v).take n) else none := by
  cases hc : f.content with
  | some bytes =>
      have hfile : f.hasFile = true := by rw [h.hasFile, hc]; rfl
      refine ⟨{ f.tick.tick with content := some ((List.ofFn v).take n) }, ?_, h.tick.tick, rfl⟩
      rw [FileState.store, if_pos hfile, h 1]
      rfl
  | none =>
      have hfile : ¬ f.hasFile = true := by rw [h.hasFile, hc]; exact Bool.false_ne_true
      refine ⟨f.tick, ?_, h.tick, hc⟩
      rw [FileState.store, if_neg hfile]
      rfl

end FileState

namespace Permaregs

variable {p : Path} {n : Nat} {fs : FileSystem}

/-- **FN85 with a path, nothing refused.** The registers loaded are those of the file. -/
theorem getPermaregs_healthy (hn : 0 < n) (h16 : n ≤ 16) (v shared : Registers16)
    (hp : (fs p).Healthy) :
    ∃ fs', getPermaregs n (some p) v ⟨fs, shared⟩
        = some (some p, copyN (fs p).registers n v, ⟨fs', copyN (fs p).registers n shared⟩)
      ∧ (fs' p).Healthy
      ∧ (fs' p).content = some ((fs p).content.getD (List.replicate 16 0)) := by
  obtain ⟨g, hload, hg, hcont⟩ := hp.load
  refine ⟨Function.update fs p g, ?_, by rw [Function.update_self]; exact hg,
    by rw [Function.update_self]; exact hcont⟩
  rw [getPermaregs_some hn h16, hload]
  simp only [Option.map_some, keptPath, if_true, refresh, Option.elim_some, copyN_copyN]

/-- **FN75 with a path, nothing refused.** -/
theorem setPermaregs_healthy (hn : 0 < n) (v shared : Registers16) (hp : (fs p).Healthy) :
    ∃ fs', setPermaregs n (some p) v ⟨fs, shared⟩
        = (keptPath p (fs p).content.isSome, ⟨fs', copyN v n shared⟩)
      ∧ (fs' p).Healthy
      ∧ (fs' p).content =
          if (fs p).content.isSome then some ((List.ofFn v).take n) else none := by
  obtain ⟨g, hstore, hg, hcont⟩ := hp.store n v
  refine ⟨Function.update fs p g, ?_, by rw [Function.update_self]; exact hg,
    by rw [Function.update_self]; exact hcont⟩
  rw [setPermaregs_some hn, hstore]

end Permaregs

/-! ## Sessions -/

/-- A running instance, with the value each permanent register was last stored with. -/
structure Session where
  path : Option Path
  registersV : Registers16
  host : Host
  stored : Registers16

/-- What a program and its user can do; FN75 and FN85 name the last register they cover. -/
inductive SessionStep where
  | store (X : Fin 16)
  | load (X : Fin 16)
  | setV (v : Registers16)
  | restart (newProcess : Bool)

namespace Session

/-- A first start: no file yet, and a zeroed copy. -/
def boot (p : Path) (fs : FileSystem) : Session :=
  ⟨some p, fun _ => 0, ⟨fs, fun _ => 0⟩, fun _ => 0⟩

/-- One step of the session whose file is `p`. -/
def step (p : Path) (s : Session) : SessionStep → Option Session
  | .store X =>
      let (path, host) := Permaregs.setPermaregs (X + 1) s.path s.registersV s.host
      some { s with path := path, host := host, stored := copyN s.registersV (X + 1) s.stored }
  | .load X =>
      (Permaregs.getPermaregs (X + 1) s.path s.registersV s.host).map fun (path, v, host) =>
        { s with path := path, registersV := v, host := host }
  | .setV v => some { s with registersV := v }
  | .restart newProcess =>
      some { s with
        path := some p
        registersV := fun _ => 0
        host := ⟨s.host.fs, if newProcess then fun _ => 0 else s.host.permaregsV⟩ }

/-- FN85 of any count would load the value each register was last stored with. -/
def LoadsStored (s : Session) : Prop :=
  ∀ X : Fin 16, ∃ r, Permaregs.getPermaregs (X + 1) s.path s.registersV s.host = some r ∧
    ∀ i ≤ X, r.2.1 i = s.stored i

/-- The steps that lose nothing: storing over an existing file covers every register that
holds something, and a program that has given up its file holds nothing when it restarts. -/
def Keeps (p : Path) (s : Session) : SessionStep → Prop
  | .store X => s.path = some p → (s.host.fs p).content.isSome → ∀ i > X, s.stored i = 0
  | .load _ => True
  | .setV _ => True
  | .restart _ => s.path = none → ∀ i, s.stored i = 0

instance (p : Path) (s : Session) : (a : SessionStep) → Decidable (s.Keeps p a)
  | .store X => inferInstanceAs (Decidable (_ → _ → ∀ i > X, s.stored i = 0))
  | .load _ => inferInstanceAs (Decidable True)
  | .setV _ => inferInstanceAs (Decidable True)
  | .restart _ => inferInstanceAs (Decidable (_ → ∀ i, s.stored i = 0))

/-- What a session keeps in any case: a file is given up only when there is none, and while
there is none the copy in memory holds what was stored. -/
structure Sound (p : Path) (s : Session) : Prop where
  healthy : (s.host.fs p).Healthy
  path : s.path = none ∨ s.path = some p
  givenUp : s.path = none → (s.host.fs p).content = none
  memory : (s.host.fs p).content = none → s.host.permaregsV = s.stored

variable {p : Path} {s s' : Session}

theorem sound_boot {fs : FileSystem} (h : (fs p).Healthy) : (boot p fs).Sound p where
  healthy := h
  path := .inr rfl
  givenUp := fun h => nomatch h
  memory := fun _ => rfl

/-! ## The two stores -/

/-- A program without a file loads what the copy in memory holds. -/
theorem loadsStored_none (h : s.path = none) :
    s.LoadsStored ↔ s.host.permaregsV = s.stored := by
  have hget (n : Nat) : Permaregs.getPermaregs n s.path s.registersV s.host
      = some (none, copyN s.host.permaregsV n s.registersV, s.host) := by rw [h]; rfl
  constructor
  · intro hall
    obtain ⟨r, hr, hval⟩ := hall 15
    cases (hget 16).symm.trans hr
    funext i
    exact (copyN_of_lt i.isLt).symm.trans (hval i (Fin.le_last i))
  · intro heq X
    refine ⟨_, hget _, fun i hi => ?_⟩
    exact (copyN_of_lt (Nat.lt_succ_of_le hi)).trans (congrFun heq i)

/-- A program with a file loads what the file holds. -/
theorem loadsStored_some (hp : (s.host.fs p).Healthy) (h : s.path = some p) :
    s.LoadsStored ↔ (s.host.fs p).registers = s.stored := by
  have hget (X : Fin 16) : ∃ host, Permaregs.getPermaregs (X + 1) s.path s.registersV s.host
      = some (some p, copyN (s.host.fs p).registers (X + 1) s.registersV, host) := by
    obtain ⟨fs', hget, _⟩ := Permaregs.getPermaregs_healthy (Nat.succ_pos X.val)
      (Nat.succ_le_of_lt X.isLt) s.registersV s.host.permaregsV hp
    exact ⟨_, by rw [h]; exact hget⟩
  constructor
  · intro hall
    obtain ⟨r, hr, hval⟩ := hall 15
    obtain ⟨host, hhost⟩ := hget 15
    cases hhost.symm.trans hr
    funext i
    exact (copyN_of_lt i.isLt).symm.trans (hval i (Fin.le_last i))
  · intro heq X
    obtain ⟨host, hhost⟩ := hget X
    refine ⟨_, hhost, fun i hi => ?_⟩
    exact (copyN_of_lt (Nat.lt_succ_of_le hi)).trans (congrFun heq i)

/-! ## One step -/

/-- The file a store leaves behind stands for everything stored precisely when nothing was
stored above it. -/
theorem registers_store {f : FileState} {v stored : Registers16} {X : Fin 16}
    (hf : f.content = some ((List.ofFn v).take (X + 1))) :
    f.registers = copyN v (X + 1) stored ↔ ∀ i > X, stored i = 0 := by
  constructor
  · intro heq i hi
    have hle : X.val + 1 ≤ i.val := hi
    have := congrFun heq i
    rw [FileState.registers_take hf, if_neg (Nat.not_lt.2 hle), copyN_of_le hle] at this
    exact this.symm
  · intro hzero
    funext i
    rw [FileState.registers_take hf]
    rcases Nat.lt_or_ge i.val (X + 1) with h | h
    · rw [if_pos h, copyN_of_lt h]
    · rw [if_neg (Nat.not_lt.2 h), copyN_of_le h, hzero i h]

/-- What one step gives: the session stays sound as long as it loads what was stored, and
it does precisely when the step loses nothing. -/
def StepKeeps (p : Path) (s : Session) (a : SessionStep) (s' : Session) : Prop :=
  (s'.LoadsStored → s'.Sound p) ∧ (s'.LoadsStored ↔ s.Keeps p a)

/-- FN75 after the file has been given up, or when there is none to be found: only the copy
in memory is written, and it held what was stored. -/
theorem store_memory {fs' : FileSystem} {X : Fin 16} (hs : s.Sound p)
    (hnone : (s.host.fs p).content = none) (hpath : s'.path = none)
    (hhost : s'.host = ⟨fs', copyN s.registersV (X + 1) s.host.permaregsV⟩)
    (hfs : (fs' p).Healthy ∧ (fs' p).content = none)
    (hstored : s'.stored = copyN s.registersV (X + 1) s.stored) :
    s.StepKeeps p (.store X) s' := by
  have hmem : s'.host.permaregsV = s'.stored := by rw [hhost, hstored, hs.memory hnone]
  refine ⟨fun _ => ?_, iff_of_true ((loadsStored_none hpath).2 hmem) ?_⟩
  · exact ⟨by rw [hhost]; exact hfs.1, .inl hpath, fun _ => by rw [hhost]; exact hfs.2,
      fun _ => hmem⟩
  · intro _ hsome
    rw [hnone] at hsome
    cases hsome

theorem step_store (hs : s.Sound p) (X : Fin 16) (h : s.step p (.store X) = some s') :
    s.StepKeeps p (.store X) s' := by
  rcases hs.path with hpath | hpath
  · have hset : Permaregs.setPermaregs (X + 1) s.path s.registersV s.host =
        (none, ⟨s.host.fs, copyN s.registersV (X + 1) s.host.permaregsV⟩) := by
      rw [hpath]
      rfl
    rw [step, hset] at h
    cases h
    exact store_memory hs (hs.givenUp hpath) rfl rfl ⟨hs.healthy, hs.givenUp hpath⟩ rfl
  · obtain ⟨fs', hstore, hh, hcont⟩ := Permaregs.setPermaregs_healthy
      (Nat.succ_pos X.val) s.registersV s.host.permaregsV hs.healthy
    have hset : Permaregs.setPermaregs (X + 1) s.path s.registersV s.host =
        (Permaregs.keptPath p (s.host.fs p).content.isSome,
          ⟨fs', copyN s.registersV (X + 1) s.host.permaregsV⟩) := by rw [hpath]; exact hstore
    rw [step, hset] at h
    cases h
    cases hc : (s.host.fs p).content with
    | none =>
        rw [hc] at hcont
        exact store_memory hs hc rfl rfl ⟨hh, hcont⟩ rfl
    | some bytes =>
        rw [hc] at hcont
        refine ⟨fun _ => ⟨hh, .inr rfl, (fun hn => nomatch hn), fun hn => ?_⟩, ?_⟩
        · cases hcont.symm.trans hn
        · rw [loadsStored_some (p := p) hh rfl]
          refine (registers_store hcont).trans ⟨fun hz _ _ => hz, fun hk => ?_⟩
          exact hk hpath (by rw [hc]; rfl)

theorem step_load (hs : s.Sound p) (hl : s.LoadsStored) (X : Fin 16)
    (h : s.step p (.load X) = some s') : s.StepKeeps p (.load X) s' := by
  rcases hs.path with hpath | hpath
  · have hstep : s.step p (.load X)
        = some { s with registersV := copyN s.host.permaregsV (X + 1) s.registersV } := by
      rw [step, hpath]
      rfl
    cases hstep.symm.trans h
    refine ⟨fun _ => ⟨hs.healthy, hs.path, hs.givenUp, hs.memory⟩, iff_of_true ?_ trivial⟩
    exact (loadsStored_none (s := { s with
      registersV := copyN s.host.permaregsV (X + 1) s.registersV }) hpath).2
      ((loadsStored_none hpath).1 hl)
  · obtain ⟨fs', hget, hh, hcont⟩ := Permaregs.getPermaregs_healthy
      (Nat.succ_pos X.val) (Nat.succ_le_of_lt X.isLt) s.registersV s.host.permaregsV hs.healthy
    have hstep : s.step p (.load X) = some { s with
        path := some p
        registersV := copyN (s.host.fs p).registers (X + 1) s.registersV
        host := ⟨fs', copyN (s.host.fs p).registers (X + 1) s.host.permaregsV⟩ } := by
      rw [step, hpath, hget]
      rfl
    cases hstep.symm.trans h
    refine ⟨fun _ => ⟨hh, .inr rfl, (fun hn => nomatch hn), fun hn => ?_⟩, iff_of_true ?_ trivial⟩
    · cases hcont.symm.trans hn
    · have hregs := (loadsStored_some hs.healthy hpath).1 hl
      refine (loadsStored_some (p := p) hh rfl).2 (Eq.trans ?_ hregs)
      cases hc : (s.host.fs p).content with
      | none =>
          rw [FileState.registers_none hc]
          exact (FileState.registers_congr (by rw [hcont, hc]; rfl)).trans
            (FileState.made_registers (s.host.fs p))
      | some bytes => exact FileState.registers_congr (by rw [hcont, hc]; rfl)

theorem step_restart (hs : s.Sound p) (hl : s.LoadsStored) (newProcess : Bool)
    (h : s.step p (.restart newProcess) = some s') :
    s.StepKeeps p (.restart newProcess) s' := by
  cases h
  have hloads : (LoadsStored { s with
      path := some p
      registersV := fun _ => 0
      host := ⟨s.host.fs, if newProcess then fun _ => 0 else s.host.permaregsV⟩ }) ↔
        (s.host.fs p).registers = s.stored := loadsStored_some (p := p) hs.healthy rfl
  refine ⟨fun hl' => ?_, ?_⟩
  · refine ⟨hs.healthy, .inr rfl, (fun hn => nomatch hn), fun hn => ?_⟩
    -- no file stands for zeros, and this is what was stored
    have hzero : s.stored = fun _ => 0 := by
      rw [← hloads.1 hl', FileState.registers_none hn]
    cases newProcess with
    | true => exact hzero.symm
    | false => exact hs.memory hn
  · rw [hloads]
    rcases hs.path with hpath | hpath
    · rw [FileState.registers_none (hs.givenUp hpath)]
      refine ⟨fun heq _ i => (congrFun heq i).symm, fun hk => ?_⟩
      funext i
      exact (hk hpath i).symm
    · refine iff_of_true ((loadsStored_some hs.healthy hpath).1 hl) fun hn => ?_
      cases hpath.symm.trans hn

/-- **Step lemma.** A sound session that loads what was stored stays sound, and goes on
loading what was stored precisely when the step loses nothing. -/
theorem step_keeps (hs : s.Sound p) (hl : s.LoadsStored) (a : SessionStep)
    (h : s.step p a = some s') : s.StepKeeps p a s' := by
  cases a with
  | store X => exact step_store hs X h
  | load X => exact step_load hs hl X h
  | setV v =>
      cases h
      have hloads : LoadsStored { s with registersV := v } ↔ s.LoadsStored := by
        rcases hs.path with hpath | hpath
        · rw [loadsStored_none hpath, loadsStored_none (s := { s with registersV := v }) hpath]
        · rw [loadsStored_some hs.healthy hpath,
            loadsStored_some (s := { s with registersV := v }) hs.healthy hpath]
      refine ⟨fun _ => ⟨hs.healthy, hs.path, hs.givenUp, hs.memory⟩, ?_⟩
      exact hloads.trans (iff_of_true hl trivial)
  | restart newProcess => exact step_restart hs hl newProcess h

/-! ## Runs -/

/-- **Persistence.** From a first start on a file system that refuses nothing, FN85 loads
what was stored in every state of a run precisely when no step of the run loses anything. -/
theorem loadsStored_run {fs : FileSystem} (h : (fs p).Healthy) (hnone : (fs p).content = none)
    (as : List SessionStep) :
    (∀ s ∈ Runs.visited (step p) (boot p fs) as, s.LoadsStored) ↔
      ∀ x ∈ Runs.taken (step p) (boot p fs) as, x.1.Keeps p x.2 := by
  refine Runs.forall_visited_iff (fun s a s' hs hl hl' hstep => (step_keeps hs hl a hstep).1 hl')
    (fun s a s' hs hl hstep => (step_keeps hs hl a hstep).2) as (sound_boot h) ?_
  exact (loadsStored_some (p := p) h rfl).2 (FileState.registers_none hnone)

/-- Storing all sixteen registers into the file made by a first load, starting again and
loading the first nine of them. -/
theorem loadsStored_wholeStore :
    ∃ s, Runs.run (step "permaregs") (boot "permaregs" FileSystem.empty)
        [.load 15, .setV fun i => if i = 8 then 5 else 0, .store 15, .restart true, .load 8]
          = some s ∧ s.stored 8 = 5 ∧ s.LoadsStored := by
  have hrun : (Runs.run (step "permaregs") (boot "permaregs" FileSystem.empty)
      [.load 15, .setV fun i => if i = 8 then 5 else 0, .store 15, .restart true, .load 8]).map
        (fun s => s.stored 8) = some 5 := by decide +kernel
  obtain ⟨s, hs, hstored⟩ := Option.map_eq_some_iff.1 hrun
  exact ⟨s, hs, hstored, (loadsStored_run (fun _ => rfl) rfl _).2 (by decide +kernel) s
    (Runs.mem_visited_of_run hs)⟩

/-- **Shorter stores lose registers.** After V8 has been stored with 5, a store of the first
eight registers makes FN85 load 0 into it. -/
theorem shorterStore_loses :
    ∃ s s', Runs.run (step "permaregs") (boot "permaregs" FileSystem.empty)
        [.load 15, .setV fun i => if i = 8 then 5 else 0, .store 15, .store 7] = some s ∧
      s.step "permaregs" (.load 15) = some s' ∧ s'.registersV 8 = 0 ∧ s.stored 8 = 5 ∧
      ¬ s.LoadsStored := by
  have hrun : ((Runs.run (step "permaregs") (boot "permaregs" FileSystem.empty)
      [.load 15, .setV fun i => if i = 8 then 5 else 0, .store 15, .store 7]).map fun s =>
        (s.stored 8, (Permaregs.getPermaregs 16 s.path s.registersV s.host).map (·.2.1 8)))
      = some (5, some 0) := by decide +kernel
  obtain ⟨s, hs, heq⟩ := Option.map_eq_some_iff.1 hrun
  obtain ⟨hstored, hload⟩ := Prod.mk.inj heq
  obtain ⟨r, hr, hzero⟩ := Option.map_eq_some_iff.1 hload
  have hstep : s.step "permaregs" (.load 15) =
      some { s with path := r.1, registersV := r.2.1, host := r.2.2 } := by
    have hget : Permaregs.getPermaregs ((15 : Fin 16) + 1) s.path s.registersV s.host = some r :=
      hr
    rw [step, hget]
    rfl
  refine ⟨s, _, hs, hstep, hzero, hstored, fun hl => ?_⟩
  obtain ⟨r', hr', hval⟩ := hl 15
  cases hr.symm.trans hr'
  have := (hval 8 (by decide)).symm.trans hzero
  rw [hstored] at this
  exact absurd this (by decide)

end Session

end CubeChip
