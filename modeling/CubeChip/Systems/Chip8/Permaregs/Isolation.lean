import CubeChip.Lib.Runs
import CubeChip.Systems.Chip8.Permaregs.Phases

/-!
# Permanent registers of several instances

Instances that run different programs have different files, but `s_permaregs_V` is one array
for all of them. The run of all instances is compared with the run in which one of them is
alone in using FN75 and FN85; nothing is assumed about what the file system answers.

FN85 refreshes the copy from the file before it loads from it, so as long as the file answers
no other instance is noticed. An instance whose file has been given up, or does not answer
this time, loads whatever the copy holds: `Shared.loaded_iff` says that its values are its
own precisely when the copy holds there what the instance itself last put.
-/

namespace CubeChip

/-! ## Several instances -/

/-- The instances `ι` of one process. `loaded` records what each FN85 of an instance has put
into V, and `own` what the instance itself, through FN75 or by reading its file, last put
into each register of the shared copy. -/
structure Shared (ι : Type) where
  path : ι → Option Path
  registersV : ι → Registers16
  host : Host
  loaded : ι → List (List UInt8)
  own : ι → Registers16

/-- What one instance does; FN75 and FN85 name the last register they cover. -/
inductive SharedOp where
  | store (X : Fin 16)
  | load (X : Fin 16)
  | setV (v : Registers16)

/-- FN75 or FN85. -/
def SharedOp.isPermaregs : SharedOp → Bool
  | .store _ => true
  | .load _ => true
  | .setV _ => false

namespace Shared

variable {ι : Type}

/-- Live instances with their files, when none of them has used its permanent registers. -/
def start (path : ι → Option Path) (registersV : ι → Registers16) (host : Host) : Shared ι :=
  ⟨path, registersV, host, fun _ => [], fun _ => host.permaregsV⟩

/-- FN85 of `w` would read the file of `w`. -/
def reads (s : Shared ι) (w : ι) : Bool :=
  (s.path w).any fun p => (s.host.fs p).answers

/-- One operation of one instance; `none` if the process ends. -/
def step [DecidableEq ι] (s : Shared ι) : ι × SharedOp → Option (Shared ι)
  | (w, .store X) =>
      let r := Permaregs.setPermaregs (X + 1) (s.path w) (s.registersV w) s.host
      some { s with
        path := Function.update s.path w r.1
        host := r.2
        own := Function.update s.own w (copyN (s.registersV w) (X + 1) (s.own w)) }
  | (w, .load X) =>
      (Permaregs.getPermaregs (X + 1) (s.path w) (s.registersV w) s.host).map fun r =>
        { path := Function.update s.path w r.1
          registersV := Function.update s.registersV w r.2.1
          host := r.2.2
          loaded := Function.update s.loaded w
            (s.loaded w ++ [(List.ofFn r.2.1).take (X + 1)])
          own := Function.update s.own w
            (if s.reads w then copyN r.2.2.permaregsV (X + 1) (s.own w) else s.own w) }
  | (w, .setV v) => some { s with registersV := Function.update s.registersV w v }

/-- The run in which `w` is alone in using FN75 and FN85 keeps these operations. -/
def keep [DecidableEq ι] (w : ι) (a : ι × SharedOp) : Bool := decide (a.1 = w) || !a.2.isPermaregs

/-- An FN85 of `w` either reads the file of `w`, or finds in the registers it covers what
`w` itself last put there. -/
def Undisturbed (w : ι) (s : Shared ι) (a : ι × SharedOp) : Prop :=
  match a with
  | (v, .load X) => v = w → s.reads w = true ∨ ∀ i ≤ X, s.host.permaregsV i = s.own w i
  | _ => True

instance [DecidableEq ι] (w : ι) (s : Shared ι) : (a : ι × SharedOp) →
    Decidable (Undisturbed w s a)
  | (v, .load X) => inferInstanceAs
      (Decidable (v = w → s.reads w = true ∨ ∀ i ≤ X, s.host.permaregsV i = s.own w i))
  | (_, .store _) => inferInstanceAs (Decidable True)
  | (_, .setV _) => inferInstanceAs (Decidable True)

/-! ## The same instance in two runs -/

/-- `w` in a run of several instances, and in the run in which it is alone in using the
permanent registers, where the copy in memory is its own. -/
structure Same (home : ι → Path) (w : ι) (s u : Shared ι) : Prop where
  homes : ∀ v, s.path v = none ∨ s.path v = some (home v)
  path : s.path w = u.path w
  registersV : s.registersV w = u.registersV w
  file : s.host.fs (home w) = u.host.fs (home w)
  loaded : s.loaded w = u.loaded w
  own : s.own w = u.own w
  alone : u.host.permaregsV = u.own w

variable {home : ι → Path} {w : ι} {s u s' : Shared ι}

theorem same_start {path : ι → Option Path} {registersV : ι → Registers16} {host : Host}
    (hpath : ∀ v, path v = none ∨ path v = some (home v)) :
    Same home w (start path registersV host) (start path registersV host) :=
  ⟨hpath, rfl, rfl, rfl, rfl, rfl, rfl⟩

/-- The path `w` has in the second run. -/
theorem Same.home_right (h : Same home w s u) :
    u.path w = none ∨ u.path w = some (home w) := h.path ▸ h.homes w

/-- The registers FN85 of `w` covers are the same in the two runs precisely when it reads the
file of `w`, or finds in the copy what `w` itself last put there. -/
theorem refresh_eq_iff (h : Same home w s u) (X : Fin 16)
    {r : Option Path × FileState × Option Registers16}
    (hr : Permaregs.loadPhase (home w) (s.path w) (s.host.fs (home w)) = some r) :
    (∀ i ≤ X, Permaregs.refresh r.2.2 (X + 1) s.host.permaregsV i
        = Permaregs.refresh r.2.2 (X + 1) u.host.permaregsV i) ↔
      s.reads w = true ∨ ∀ i ≤ X, s.host.permaregsV i = s.own w i := by
  have hread : s.reads w = r.2.2.isSome := by
    rw [Permaregs.loadPhase_isSome hr, reads]
    rcases h.homes w with hp | hp <;> rw [hp] <;> rfl
  rw [hread, h.alone, ← h.own]
  cases r.2.2 with
  | none => exact ⟨.inr, fun hor => hor.resolve_left Bool.false_ne_true⟩
  | some bytes =>
      refine iff_of_true (fun i hi => ?_) (.inl rfl)
      exact (copyN_of_lt (Nat.lt_succ_of_le hi)).trans
        (copyN_of_lt (Nat.lt_succ_of_le hi)).symm

variable [DecidableEq ι]

theorem homes_update {path : ι → Option Path} {v : ι} {kept : Option Path}
    (h : ∀ v, path v = none ∨ path v = some (home v))
    (hkept : kept = none ∨ kept = some (home v)) (x : ι) :
    Function.update path v kept x = none ∨ Function.update path v kept x = some (home x) := by
  by_cases hx : x = v
  · subst hx
    rw [Function.update_self]
    exact hkept
  · rw [Function.update_of_ne hx]
    exact h x

/-! ## What one operation does -/

/-- FN75, through the file of the instance. -/
theorem step_store {v : ι} (h : s.path v = none ∨ s.path v = some (home v)) (X : Fin 16) :
    s.step (v, .store X) = some { s with
      path := Function.update s.path v (Permaregs.storePhase (home v) (s.path v) (X + 1)
        (s.registersV v) (s.host.fs (home v))).1
      host := ⟨Function.update s.host.fs (home v) (Permaregs.storePhase (home v) (s.path v)
          (X + 1) (s.registersV v) (s.host.fs (home v))).2,
        copyN (s.registersV v) (X + 1) s.host.permaregsV⟩
      own := Function.update s.own v (copyN (s.registersV v) (X + 1) (s.own v)) } := by
  rw [step, Permaregs.setPermaregs_eq h (Nat.succ_pos X.val)]

/-- The state after FN85 of `v`, once its file phase has given `r`. -/
def afterLoad (home : ι → Path) (v : ι) (X : Fin 16) (s : Shared ι)
    (r : Option Path × FileState × Option Registers16) : Shared ι :=
  let shared := Permaregs.refresh r.2.2 (X + 1) s.host.permaregsV
  let registersV := copyN shared (X + 1) (s.registersV v)
  { path := Function.update s.path v r.1
    registersV := Function.update s.registersV v registersV
    host := ⟨Function.update s.host.fs (home v) r.2.1, shared⟩
    loaded := Function.update s.loaded v (s.loaded v ++ [(List.ofFn registersV).take (X + 1)])
    own := Function.update s.own v (Permaregs.refresh r.2.2 (X + 1) (s.own v)) }

/-- FN85, through the file of the instance. -/
theorem step_load {v : ι} (h : s.path v = none ∨ s.path v = some (home v)) (X : Fin 16) :
    s.step (v, .load X) =
      (Permaregs.loadPhase (home v) (s.path v) (s.host.fs (home v))).map
        (afterLoad home v X s) := by
  rw [step, Permaregs.getPermaregs_eq h (Nat.succ_pos X.val) (Nat.succ_le_of_lt X.isLt),
    Option.map_map]
  refine Option.map_congr fun r hr => ?_
  have hread : r.2.2.isSome = s.reads v := by
    rw [Permaregs.loadPhase_isSome hr, reads]
    rcases h with hp | hp <;> rw [hp] <;> rfl
  simp only [Function.comp, afterLoad, ← hread]
  congr 2
  cases r.2.2 with
  | none => rfl
  | some bytes => exact copyN_copyN _ _ _ _

/-! ## One operation in the two runs -/

/-- An operation of another instance is not seen in the file of `w`, nor in what `w` has
loaded and put itself. -/
theorem same_drop (hhome : Function.Injective home) (h : Same home w s u)
    (a : ι × SharedOp) (ha : keep w a = false) (hstep : s.step a = some s') :
    Same home w s' u := by
  obtain ⟨v, op⟩ := a
  have hne : w ≠ v := by
    rintro rfl
    simp [keep] at ha
  have hfile (f : FileState) (fs : FileSystem) :
      Function.update fs (home v) f (home w) = fs (home w) :=
    Function.update_of_ne (hhome.ne hne) _ _
  cases op with
  | setV V => simp [keep, SharedOp.isPermaregs] at ha
  | store X =>
      rw [step_store (h.homes v)] at hstep
      cases hstep
      exact {
        homes := homes_update h.homes (Permaregs.storePhase_path _ _ _ _ _)
        path := (Function.update_of_ne hne _ _).trans h.path
        registersV := h.registersV
        file := (hfile _ _).trans h.file
        loaded := h.loaded
        own := (Function.update_of_ne hne _ _).trans h.own
        alone := h.alone }
  | load X =>
      rw [step_load (h.homes v)] at hstep
      obtain ⟨r, hr, rfl⟩ := Option.map_eq_some_iff.1 hstep
      exact {
        homes := homes_update h.homes (Permaregs.loadPhase_path hr)
        path := (Function.update_of_ne hne _ _).trans h.path
        registersV := (Function.update_of_ne hne _ _).trans h.registersV
        file := (hfile _ _).trans h.file
        loaded := (Function.update_of_ne hne _ _).trans h.loaded
        own := (Function.update_of_ne hne _ _).trans h.own
        alone := h.alone }

/-- What FN85 records is the same precisely when the registers it covers are. -/
theorem take_ofFn_eq_iff {a b : Registers16} {X : Fin 16} :
    (List.ofFn a).take (X + 1) = (List.ofFn b).take (X + 1) ↔ ∀ i ≤ X, a i = b i := by
  constructor
  · intro heq i hi
    have hget := congrArg (·[i.val]?) heq
    simp only [List.getElem?_take_of_lt (Nat.lt_succ_of_le hi), List.getElem?_ofFn,
      i.isLt, dite_true, Option.some.injEq] at hget
    exact hget
  · intro heq
    refine List.ext_getElem? fun n => ?_
    rcases Nat.lt_or_ge n (X + 1) with hn | hn
    · have h16 : n < 16 := Nat.lt_of_lt_of_le hn X.isLt
      simp only [List.getElem?_take_of_lt hn, List.getElem?_ofFn, h16, dite_true,
        heq ⟨n, h16⟩ (Nat.le_of_lt_succ hn)]
    · rw [List.getElem?_take_eq_none hn, List.getElem?_take_eq_none hn]

/-- FN75 of `w` is the same in the two runs. -/
theorem same_store (h : Same home w s u) (X : Fin 16) (hstep : s.step (w, .store X) = some s') :
    ∃ u', u.step (w, .store X) = some u' ∧ Same home w s' u' := by
  rw [step_store (h.homes w)] at hstep
  cases hstep
  exact ⟨_, step_store h.home_right X, {
    homes := homes_update h.homes (Permaregs.storePhase_path _ _ _ _ _)
    path := by simp only [Function.update_self, h.path, h.registersV, h.file]
    registersV := h.registersV
    file := by simp only [Function.update_self, h.path, h.registersV, h.file]
    loaded := h.loaded
    own := by simp only [Function.update_self, h.own, h.registersV]
    alone := by simp only [Function.update_self, h.alone] }⟩

/-- **FN85 of `w` in the two runs.** Both load the same values precisely when the first is
undisturbed, and then the runs go on alike. -/
theorem same_load (h : Same home w s u) (X : Fin 16) (hstep : s.step (w, .load X) = some s') :
    ∃ u', u.step (w, .load X) = some u' ∧
      (s'.loaded w = u'.loaded w ↔ Undisturbed w s (w, .load X)) ∧
      (Undisturbed w s (w, .load X) → Same home w s' u') := by
  rw [step_load (h.homes w)] at hstep
  obtain ⟨r, hr, rfl⟩ := Option.map_eq_some_iff.1 hstep
  have hu : u.step (w, .load X) = some (afterLoad home w X u r) := by
    rw [step_load h.home_right, ← h.path, ← h.file, hr]
    rfl
  have hcovered := refresh_eq_iff h X hr
  have hundisturbed : Undisturbed w s (w, .load X) ↔
      (s.reads w = true ∨ ∀ i ≤ X, s.host.permaregsV i = s.own w i) :=
    ⟨fun hd => hd rfl, fun hor _ => hor⟩
  have hregisters : (∀ i ≤ X, Permaregs.refresh r.2.2 (X + 1) s.host.permaregsV i
        = Permaregs.refresh r.2.2 (X + 1) u.host.permaregsV i) →
      (afterLoad home w X s r).registersV w = (afterLoad home w X u r).registersV w := by
    intro heq
    simp only [afterLoad, Function.update_self, h.registersV]
    exact copyN_congr (fun i hi => heq i (Nat.le_of_lt_succ hi)) _
  have hloaded : (afterLoad home w X s r).loaded w = (afterLoad home w X u r).loaded w ↔
      Undisturbed w s (w, .load X) := by
    rw [hundisturbed, ← hcovered]
    simp only [afterLoad, Function.update_self, h.loaded, List.append_cancel_left_eq,
      List.cons.injEq, and_true, take_ofFn_eq_iff]
    refine forall₂_congr fun i hi => ?_
    rw [copyN_of_lt (Nat.lt_succ_of_le hi), copyN_of_lt (Nat.lt_succ_of_le hi)]
  refine ⟨_, hu, hloaded, fun hd => ?_⟩
  exact {
    homes := homes_update h.homes (Permaregs.loadPhase_path hr)
    path := by simp only [afterLoad, Function.update_self]
    registersV := hregisters (hcovered.2 (hundisturbed.1 hd))
    file := by simp only [afterLoad, Function.update_self]
    loaded := hloaded.2 hd
    own := by simp only [afterLoad, Function.update_self, h.own]
    alone := by simp only [afterLoad, Function.update_self, h.alone] }

/-- An operation kept goes on alike in the two runs as long as it is undisturbed. -/
theorem same_keep (h : Same home w s u) (a : ι × SharedOp) (ha : keep w a = true)
    (hstep : s.step a = some s') :
    ∃ u', u.step a = some u' ∧ (s'.loaded w = u'.loaded w ↔ Undisturbed w s a) ∧
      (Undisturbed w s a → Same home w s' u') := by
  obtain ⟨v, op⟩ := a
  cases op with
  | setV V =>
      cases hstep
      refine ⟨_, rfl, iff_of_true h.loaded trivial, fun _ => ?_⟩
      refine ⟨h.homes, h.path, ?_, h.file, h.loaded, h.own, h.alone⟩
      by_cases hv : w = v
      · subst hv
        exact (Function.update_self w V s.registersV).trans
          (Function.update_self w V u.registersV).symm
      · exact (Function.update_of_ne hv V s.registersV).trans
          (h.registersV.trans (Function.update_of_ne hv V u.registersV).symm)
  | store X =>
      obtain rfl : v = w := by simpa [keep, SharedOp.isPermaregs] using ha
      obtain ⟨u', hu, hsame⟩ := same_store h X hstep
      exact ⟨u', hu, iff_of_true hsame.loaded trivial, fun _ => hsame⟩
  | load X =>
      obtain rfl : v = w := by simpa [keep, SharedOp.isPermaregs] using ha
      exact same_load h X hstep

/-- An operation left out disturbs nothing by itself. -/
theorem undisturbed_of_drop (s : Shared ι) {a : ι × SharedOp} (ha : keep w a = false) :
    Undisturbed w s a := by
  obtain ⟨v, op⟩ := a
  cases op with
  | setV V => trivial
  | store X => trivial
  | load X =>
      rintro rfl
      simp [keep] at ha

/-! ## Runs -/

/-- **Isolation.** Whatever the file system answers, and in every interleaving, the values
FN85 loads for `w` are those of the run in which `w` alone uses FN75 and FN85, precisely when
no FN85 of `w` is disturbed. -/
theorem loaded_iff (hhome : Function.Injective home) (w : ι) {path : ι → Option Path}
    (hpath : ∀ v, path v = none ∨ path v = some (home v)) (registersV : ι → Registers16)
    (host : Host) (as : List (ι × SharedOp)) :
    (∀ bs t, bs <+: as → Runs.run step (start path registersV host) bs = some t →
      ∃ u, Runs.run step (start path registersV host) (bs.filter (keep w)) = some u ∧
        t.loaded w = u.loaded w) ↔
    ∀ x ∈ Runs.taken step (start path registersV host) as, Undisturbed w x.1 x.2 := by
  refine (Runs.forall_prefix_iff (R := Same home w) (G := Undisturbed w)
    (fun s u h => h.loaded) (fun s u a s' h ha hstep => same_drop hhome h a ha hstep)
    (fun s u a s' h ha hstep => same_keep h a ha hstep) as (same_start hpath)).trans ?_
  exact forall₂_congr fun x _ =>
    ⟨fun hk => (Bool.eq_false_or_eq_true (keep w x.2)).elim hk (undisturbed_of_drop x.1),
      fun hd _ => hd⟩

/-- The files of two instances. -/
def twoFiles (w : Bool) : Path := if w then "permaregs/first" else "permaregs/second"

theorem twoFiles_injective : Function.Injective twoFiles := by
  intro a b h
  cases a <;> cases b <;> first | rfl | exact absurd h (by decide)

/-- Two instances on a machine without files, the second with V full of sevens. -/
def twoInstances : Shared Bool :=
  start (fun w => some (twoFiles w)) (fun w _ => if w then 0 else 7)
    ⟨FileSystem.empty, fun _ => 0⟩

/-- Instances whose first operation is FN85 have made their files, and stay apart. -/
theorem loaded_apart :
    ∃ t u, Runs.run step twoInstances [(true, .load 15), (false, .load 0), (true, .store 15),
        (false, .store 15), (true, .load 15)] = some t ∧
      Runs.run step twoInstances ([(true, SharedOp.load 15), (false, .load 0),
        (true, .store 15), (false, .store 15), (true, .load 15)].filter (keep true)) = some u ∧
      t.loaded true = u.loaded true := by
  have hrun : (Runs.run step twoInstances [(true, .load 15), (false, .load 0),
      (true, .store 15), (false, .store 15), (true, .load 15)]).isSome = true := by
    decide +kernel
  obtain ⟨t, ht⟩ := Option.isSome_iff_exists.1 hrun
  obtain ⟨u, hu, hloaded⟩ := (loaded_iff twoFiles_injective true (fun _ => .inr rfl)
    (fun w _ => if w then 0 else 7) ⟨FileSystem.empty, fun _ => 0⟩ _).2 (by decide +kernel) _ t
    List.prefix_rfl ht
  exact ⟨t, u, ht, hu, hloaded⟩

/-- **The copy leaks.** FN75 before there is a file gives the file up, and FN85 then loads
what another instance stored; alone it loads what the instance stored itself. -/
theorem loaded_leak :
    ∃ t u, Runs.run step twoInstances [(true, .store 15), (false, .store 15), (true, .load 15)]
        = some t ∧
      Runs.run step twoInstances ([(true, SharedOp.store 15), (false, .store 15),
        (true, .load 15)].filter (keep true)) = some u ∧
      t.loaded true = [List.replicate 16 7] ∧ u.loaded true = [List.replicate 16 0] := by
  have hboth : (Runs.run step twoInstances [(true, .store 15), (false, .store 15),
      (true, .load 15)]).map (·.loaded true) = some [List.replicate 16 7] := by decide +kernel
  have halone : (Runs.run step twoInstances ([(true, SharedOp.store 15), (false, .store 15),
      (true, .load 15)].filter (keep true))).map (·.loaded true)
        = some [List.replicate 16 0] := by decide +kernel
  obtain ⟨t, ht, hloaded⟩ := Option.map_eq_some_iff.1 hboth
  obtain ⟨u, hu, hzeros⟩ := Option.map_eq_some_iff.1 halone
  exact ⟨t, u, ht, hu, hloaded, hzeros⟩

end Shared

end CubeChip
