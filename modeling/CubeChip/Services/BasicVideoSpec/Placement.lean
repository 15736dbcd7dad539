import CubeChip.Services.BasicVideoSpec

/-!
# Where the window is placed

What `normalizeRectToDisplay` is for: the window goes to the primary display on a first run, to the
display it overlaps most or else to the nearest one on later runs, and lies inside it with its
decorations (`PlacedWell`). `placedWell_iff` says when it does. The arithmetic must stay in range,
and on a first run the displays in front of the primary one must report their bounds: each that does
not makes the index one too large (`getElem?_displayBounds`).
-/

namespace CubeChip.BasicVideoSpec

open EzMaths Checked FirstBest

variable {DisplayID : Type*} [DecidableEq DisplayID] {d : Displays DisplayID}
  {rect deco t : Rect} {bounds : List Rect}

/-! ## What is asked for -/

omit [DecidableEq DisplayID] in
/-- The bounds a display reports. -/
def reported (d : Displays DisplayID) (display : DisplayID) : Option Rect :=
  (d.usableBounds display).map fun b => Rect.of b.x b.y b.w b.h

omit [DecidableEq DisplayID] in
/-- The bounds that are reported. -/
def displayBounds (d : Displays DisplayID) : List Rect := d.displays.filterMap (reported d)

/-- The window overlaps one of the displays. -/
def Intersects (rect : Rect) (bounds : List Rect) : Prop := ∃ b ∈ bounds, 0 < overlap rect b

instance (rect : Rect) (bounds : List Rect) : Decidable (Intersects rect bounds) :=
  inferInstanceAs (Decidable (∃ b ∈ bounds, 0 < overlap rect b))

/-- From the centre of a window to that of a display. -/
def remoteness (rect b : Rect) : Nat := squaredDistance (centre rect) (centre b)

/-- A display with the largest overlap or, if there is none, with the nearest centre. -/
structure Best (rect : Rect) (bounds : List Rect) (t : Rect) : Prop where
  mem : t ∈ bounds
  largest : Intersects rect bounds → ∀ b ∈ bounds, overlap rect b ≤ overlap rect t
  nearest : ¬ Intersects rect bounds → ∀ b ∈ bounds, remoteness rect t ≤ remoteness rect b

omit [DecidableEq DisplayID] in
/-- The display a window is due: the primary one on a first run, when it reports its bounds. -/
structure Due (d : Displays DisplayID) (rect : Rect) (firstRun : Bool) (t : Rect) : Prop where
  mem : t ∈ displayBounds d
  primary : firstRun = true → ∀ b, reported d d.primary = some b → t = b
  best : (firstRun = true → reported d d.primary = none) → Best rect (displayBounds d) t

/-- A window lies inside a display with its decorations. -/
structure Inside (deco t r : Rect) : Prop where
  width : 0 ≤ r.w
  height : 0 ≤ r.h
  left : t.x ≤ r.x - deco.y
  right : r.x + r.w + deco.h ≤ t.x + t.w
  top : t.y ≤ r.y - deco.x
  bottom : r.y + r.h + deco.w ≤ t.y + t.h

/-- The window is placed, which takes an index that exists, on the display it is due; and inside it,
if the decorations fit. -/
def PlacedWell (d : Displays DisplayID) (rect deco : Rect) (firstRun : Bool) : Prop :=
  ∃ r, normalizeRectToDisplay d rect deco firstRun = some r ∧
    (displayBounds d ≠ [] → ∃ t intersects,
      target d (validate rect) firstRun = some (t, intersects) ∧
      Due d (validate rect) firstRun t ∧
      (deco.y + deco.h ≤ t.w → deco.x + deco.w ≤ t.h → Inside deco t r))

/-! ## The displays -/

/-- A display adds its bounds, if it reports any, -/
theorem visit_snd (found : Int × List Rect) (display : DisplayID × Nat) :
    (visit d found display).2 = found.2 ++ (reported d display.1).toList := by
  unfold visit reported
  cases d.usableBounds display.1 with
  | none => simp
  | some b => simp

/-- and its index, if it is the primary one. -/
theorem visit_fst (found : Int × List Rect) (display : DisplayID × Nat) :
    (visit d found display).1 = if display.1 = d.primary then (display.2 : Int) else found.1 := by
  unfold visit
  cases d.usableBounds display.1 with
  | none => rfl
  | some b => rfl

/-- The loop collects the bounds reported. -/
theorem foldl_visit_snd (l : List DisplayID) (n : Nat) (found : Int × List Rect) :
    ((l.zipIdx n).foldl (visit d) found).2 = found.2 ++ l.filterMap (reported d) := by
  induction l generalizing n found with
  | nil => simp
  | cons display l ih =>
      rw [List.zipIdx_cons, List.foldl_cons, ih, visit_snd, List.append_assoc, List.filterMap_cons]
      cases reported d display with
      | none => rfl
      | some b => rfl

/-- It finds no index where the primary display is not. -/
theorem foldl_visit_fst {l : List DisplayID} (h : d.primary ∉ l) (n : Nat)
    (found : Int × List Rect) : ((l.zipIdx n).foldl (visit d) found).1 = found.1 := by
  induction l generalizing n found with
  | nil => rfl
  | cons display l ih =>
      obtain ⟨hne, hl⟩ := List.ne_and_not_mem_of_not_mem_cons h
      rw [List.zipIdx_cons, List.foldl_cons, ih hl, visit_fst, if_neg fun heq => hne heq.symm]

/-- The bounds are those reported, in order. -/
theorem eligible_snd (d : Displays DisplayID) : (eligible d).2 = displayBounds d :=
  foldl_visit_snd d.displays 0 (-1, [])

/-- The primary display is found at its index among all displays. -/
theorem eligible_fst {front rest : List DisplayID} (h : d.displays = front ++ d.primary :: rest)
    (hlast : d.primary ∉ rest) : (eligible d).1 = front.length := by
  rw [eligible, h, List.zipIdx_append, List.zipIdx_cons, List.foldl_append, List.foldl_cons,
    foldl_visit_fst hlast, visit_fst, if_pos rfl]
  simp

/-- A primary display that is not listed has no index. -/
theorem eligible_fst_of_not_mem (h : d.primary ∉ d.displays) : (eligible d).1 = -1 :=
  foldl_visit_fst h 0 (-1, [])

/-- What a list keeps after the index of an entry: one entry further for each it dropped before. -/
theorem getElem?_filterMap_append {α β : Type*} (f : α → Option β) (front rest : List α) :
    ((front ++ rest).filterMap f)[front.length]? =
      (rest.filterMap f)[(front.filter fun a => (f a).isNone).length]? := by
  have hlen : (front.filterMap f).length + (front.filter fun a => (f a).isNone).length =
      front.length := by
    induction front with
    | nil => rfl
    | cons a front ih => cases ha : f a <;> simp [ha] <;> omega
  rw [List.filterMap_append, List.getElem?_append_right (by omega)]
  congr 1
  omega

/-! ## The search -/

/-- The arithmetic of the search is in range. -/
def SearchFits (rect : Rect) (bounds : List Rect) : Prop :=
  (∀ b ∈ bounds, OverlapFits rect b) ∧
  (¬ Intersects rect bounds → ∀ b ∈ bounds, DistanceFits rect b)

instance (rect : Rect) (bounds : List Rect) : Decidable (SearchFits rect bounds) :=
  inferInstanceAs (Decidable (_ ∧ _))

/-- The first of the best displays. -/
def firstBest (rect : Rect) (bounds : List Rect) : Option Rect :=
  if Intersects rect bounds then bounds.argmax (overlap rect) else bounds.argmin (remoteness rect)

/-- The display chosen is a best one. -/
theorem best_of_firstBest (h : firstBest rect bounds = some t) : Best rect bounds t := by
  unfold firstBest at h
  split at h
  · next hmeets =>
    exact ⟨List.argmax_mem h, fun _ b hb => List.le_of_mem_argmax hb h,
      fun hnone => absurd hmeets hnone⟩
  · next hnone =>
    exact ⟨List.argmin_mem h, fun hmeets => absurd hmeets hnone,
      fun _ b hb => List.le_of_mem_argmin hb h⟩

/-- One comparison of overlaps, where its arithmetic fits. -/
theorem compareOverlap_eq (best : Nat × Int) (display : Rect × Nat) :
    compareOverlap rect best display =
      checked (OverlapFits rect display.1) (improve (overlap rect) best display) := by
  unfold compareOverlap
  rw [← bind_assoc, area_intersect, Option.pure_def, bind_some_checked]
  rfl

/-- One comparison of distances, where its arithmetic fits. -/
theorem compareDistance_eq (best : Nat × Int) (display : Rect × Nat) :
    compareDistance rect best display =
      checked (DistanceFits rect display.1)
        (improveLeast (remoteness rect) best display) := by
  have hsquared := distance_center rect display.1
  unfold compareDistance
  simp only [← bind_assoc] at hsquared ⊢
  rw [hsquared, Option.pure_def, bind_some_checked]
  rfl

theorem forall_mem_zipIdx {α : Type*} {P : α → Prop} {l : List α} :
    (∀ a ∈ l.zipIdx, P a.1) ↔ ∀ a ∈ l, P a := by
  rw [← List.forall_mem_map (f := Prod.fst), List.zipIdx_map_fst]

/-- All comparisons of overlaps. -/
theorem foldlM_compareOverlap (best : Nat × Int) :
    bounds.zipIdx.foldlM (compareOverlap rect) best =
      checked (∀ b ∈ bounds, OverlapFits rect b)
        (bounds.zipIdx.foldl (improve (overlap rect)) best) := by
  rw [foldlM_checked compareOverlap_eq]
  exact checked_congr forall_mem_zipIdx fun _ => rfl

/-- All comparisons of distances. -/
theorem foldlM_compareDistance (best : Nat × Int) :
    bounds.zipIdx.foldlM (compareDistance rect) best =
      checked (∀ b ∈ bounds, DistanceFits rect b)
        (bounds.zipIdx.foldl (improveLeast (remoteness rect)) best) := by
  rw [foldlM_checked compareDistance_eq]
  exact checked_congr forall_mem_zipIdx fun _ => rfl

/-- Every distance is below the one the search starts from. -/
theorem remoteness_lt {b : Rect} (h : DistanceFits rect b) : remoteness rect b < 2 ^ 64 - 1 := by
  obtain ⟨_, _, hx, hy⟩ := h
  have hdx := sq_lt_of_inS32 hx
  have hdy := sq_lt_of_inS32 hy
  unfold remoteness squaredDistance
  omega

/-- Where something overlaps, the search ends at the first largest overlap. -/
theorem search_of_intersects (h : Intersects rect bounds) (i : Int) :
    ∃ (k : Nat) (t : Rect), bounds[k]? = some t ∧ firstBest rect bounds = some t ∧
      search rect bounds i = checked (∀ b ∈ bounds, OverlapFits rect b) ((k : Int), true) := by
  obtain ⟨k, t, hfold, hk, hbest⟩ := foldl_improve_of_lt (b := 0) (i := i) h
  have hpos : overlap rect t ≠ 0 := by
    obtain ⟨b, hb, hlt⟩ := h
    exact Nat.ne_of_gt (Nat.lt_of_lt_of_le hlt (List.le_of_mem_argmax hb hbest))
  refine ⟨k, t, hk, by rw [firstBest, if_pos h, hbest], ?_⟩
  rw [search, foldlM_compareOverlap, hfold]
  by_cases hfits : ∀ b ∈ bounds, OverlapFits rect b
  · rw [checked_of hfits, checked_of hfits, Option.bind_eq_bind, Option.bind_some]
    exact if_pos hpos
  · rw [checked_of_not hfits, checked_of_not hfits]
    rfl

/-- Where nothing overlaps, the search ends at the first nearest display. -/
theorem search_of_not_intersects (hnone : ¬ Intersects rect bounds) (h : bounds ≠ []) (i : Int) :
    ∃ (k : Nat) (t : Rect), bounds[k]? = some t ∧ firstBest rect bounds = some t ∧
      search rect bounds i =
        checked ((∀ b ∈ bounds, OverlapFits rect b) ∧ ∀ b ∈ bounds, DistanceFits rect b)
          ((k : Int), false) := by
  have hzero : ∀ b ∈ bounds, overlap rect b ≤ 0 := by
    intro b hb
    exact Nat.le_of_not_lt fun hlt => hnone ⟨b, hb, hlt⟩
  have hsearch : search rect bounds i =
      (checked (∀ b ∈ bounds, OverlapFits rect b) () >>= fun _ =>
        (bounds.zipIdx.foldlM (compareDistance rect) (2 ^ 64 - 1, i) >>= fun best =>
          some (best.2, false))) := by
    rw [search, foldlM_compareOverlap, foldl_improve_of_le hzero]
    by_cases hfits : ∀ b ∈ bounds, OverlapFits rect b
    · rw [checked_of hfits, checked_of hfits]
      rfl
    · rw [checked_of_not hfits, checked_of_not hfits]
      rfl
  rw [hsearch, foldlM_compareDistance, bind_some_checked, bind_checked, firstBest, if_neg hnone]
  by_cases hfits : ∀ b ∈ bounds, DistanceFits rect b
  · obtain ⟨b, hb⟩ := List.exists_mem_of_ne_nil bounds h
    obtain ⟨k, t, hfold, hk, hbest⟩ :=
      foldl_improveLeast_of_lt (i := i) ⟨b, hb, remoteness_lt (hfits b hb)⟩
    exact ⟨k, t, hk, hbest, by rw [hfold]⟩
  · have hsome : bounds.argmin (remoteness rect) ≠ none := mt List.argmin_eq_none.1 h
    obtain ⟨t, hbest⟩ := Option.ne_none_iff_exists'.1 hsome
    obtain ⟨k, hk⟩ := List.mem_iff_getElem?.1 (List.argmin_mem hbest)
    exact ⟨k, t, hk, hbest, by
      rw [checked_of_not fun hall => hfits hall.2, checked_of_not fun hall => hfits hall.2]⟩

/-- The search ends at the first of the best displays, if its arithmetic is in range. -/
theorem search_eq (rect : Rect) (h : bounds ≠ []) (i : Int) :
    ∃ (k : Nat) (t : Rect), bounds[k]? = some t ∧ firstBest rect bounds = some t ∧
      search rect bounds i =
        checked (SearchFits rect bounds) ((k : Int), decide (Intersects rect bounds)) := by
  by_cases hmeets : Intersects rect bounds
  · obtain ⟨k, t, hk, hbest, hsearch⟩ := search_of_intersects hmeets i
    rw [hsearch, decide_eq_true hmeets]
    refine ⟨k, t, hk, hbest, checked_congr ?_ fun _ => rfl⟩
    exact ⟨fun hfits => ⟨hfits, fun hnone => absurd hmeets hnone⟩, And.left⟩
  · obtain ⟨k, t, hk, hbest, hsearch⟩ := search_of_not_intersects hmeets h i
    rw [hsearch, decide_eq_false hmeets]
    refine ⟨k, t, hk, hbest, checked_congr ?_ fun _ => rfl⟩
    exact and_congr_right fun _ => ⟨fun hfits _ => hfits, fun hfits => hfits hmeets⟩

/-! ## The placement -/

/-- What an axis leaves for the window. -/
def room (extent front behind : Int) : Int := extent - front - behind

/-- What the window leaves of that. -/
def spare (extent front behind length : Int) : Int :=
  room extent front behind - min length (room extent front behind)

/-- The sums and differences that place a window along an axis are in range. -/
def AxisFits (intersects : Bool) (start extent front behind length : Int) : Prop :=
  InS32 (extent - front) ∧ InS32 (room extent front behind) ∧
  (intersects = true → InS32 (start + front) ∧ InS32 (start + extent) ∧
    InS32 (start + extent - behind) ∧
    InS32 (start + extent - behind - min length (room extent front behind))) ∧
  (intersects = false → InS32 (spare extent front behind length) ∧
    InS32 (start + (spare extent front behind length).tdiv 2) ∧
    InS32 (start + (spare extent front behind length).tdiv 2 + front))

instance (intersects : Bool) (start extent front behind length : Int) :
    Decidable (AxisFits intersects start extent front behind length) :=
  inferInstanceAs (Decidable (_ ∧ _))

/-- A window is placed along an axis if the arithmetic is in range. The bounds of the clamp do not
cross, as the window was shrunk before, so it lies inside with its decorations. -/
theorem placeAxis_eq (intersects : Bool) (start extent front behind origin length : Int) :
    ∃ o, placeAxis intersects start extent front behind origin length =
        checked (AxisFits intersects start extent front behind length)
          (o, min length (room extent front behind)) ∧
      start + front ≤ o ∧ o + min length (room extent front behind) + behind ≤ start + extent := by
  have hshrunk : min length (room extent front behind) ≤ extent - front - behind :=
    Int.min_le_right ..
  have hroom : extent - front - behind = room extent front behind := rfl
  cases intersects with
  | true =>
      simp only [placeAxis, s32, clamp, if_true, Option.pure_def, bind_checked, bind_some_checked,
        hroom]
      refine ⟨_, checked_congr ?_ fun _ => rfl, ?_, ?_⟩
      · have hcross : start + front ≤
            start + extent - behind - min length (room extent front behind) := by omega
        simp only [AxisFits, hcross, true_implies, reduceCtorEq, false_implies, and_true]
      · split <;> omega
      · split <;> omega
  | false =>
      have hspare : room extent front behind - min length (room extent front behind) =
          spare extent front behind length := rfl
      have hhalf : (spare extent front behind length).tdiv 2 =
          spare extent front behind length / 2 := Int.tdiv_eq_ediv_of_nonneg (by omega)
      simp only [placeAxis, s32, Bool.false_eq_true, if_false, Option.pure_def, bind_checked,
        bind_some_checked, hroom, hspare]
      refine ⟨_, checked_congr ?_ fun _ => rfl, by omega, by omega⟩
      simp only [AxisFits, true_implies, reduceCtorEq, false_implies, true_and]

/-- The arithmetic of the placement is in range. -/
def PlaceFits (rect deco t : Rect) (intersects : Bool) : Prop :=
  AxisFits intersects t.x t.w deco.y deco.h rect.w ∧
  AxisFits intersects t.y t.h deco.x deco.w rect.h

instance (rect deco t : Rect) (intersects : Bool) : Decidable (PlaceFits rect deco t intersects) :=
  inferInstanceAs (Decidable (_ ∧ _))

/-- A rectangle that was validated has no negative side. -/
theorem validate_nonneg (rect : Rect) : 0 ≤ (validate rect).w ∧ 0 ≤ (validate rect).h := by
  have hw : defaults.w ≤ (validate rect).w := Int.le_max_right ..
  have hh : defaults.h ≤ (validate rect).h := Int.le_max_right ..
  exact ⟨Int.le_trans (by decide) hw, Int.le_trans (by decide) hh⟩

/-- A window is placed on a display if the arithmetic is in range, and lies inside it then, if the
decorations fit. -/
theorem place_eq (hw : 0 ≤ rect.w) (hh : 0 ≤ rect.h) (deco t : Rect) (intersects : Bool) :
    ∃ r, place rect deco t intersects = checked (PlaceFits rect deco t intersects) r ∧
      (deco.y + deco.h ≤ t.w → deco.x + deco.w ≤ t.h → Inside deco t r) := by
  obtain ⟨x, hx, hleft, hright⟩ :=
    placeAxis_eq intersects t.x t.w deco.y deco.h rect.x rect.w
  obtain ⟨y, hy, htop, hbottom⟩ :=
    placeAxis_eq intersects t.y t.h deco.x deco.w rect.y rect.h
  refine ⟨⟨⟨x, y⟩, ⟨min rect.w (room t.w deco.y deco.h), min rect.h (room t.h deco.x deco.w)⟩⟩,
    ?_, fun hfitsW hfitsH => ?_⟩
  · simp only [place, hx, hy, Option.pure_def, bind_checked, bind_some_checked]
    rfl
  · have hroomW : 0 ≤ room t.w deco.y deco.h := by unfold room; omega
    have hroomH : 0 ≤ room t.h deco.x deco.w := by unfold room; omega
    exact {
      width := Int.le_min.2 ⟨hw, hroomW⟩
      height := Int.le_min.2 ⟨hh, hroomH⟩
      left := by show t.x ≤ x - deco.y; omega
      right := hright
      top := by show t.y ≤ y - deco.x; omega
      bottom := hbottom }

/-! ## When the window is placed well -/

omit [DecidableEq DisplayID] in
/-- What the index of the primary display is the index of among the bounds, with the displays in
front of it and those after: each display in front that fails moves it one further. -/
def slipped (d : Displays DisplayID) (front rest : List DisplayID) : Option Rect :=
  ((d.primary :: rest).filterMap (reported d))[
    (front.filter fun display => (reported d display).isNone).length]?

/-- The conditions of a first run. -/
def FirstRunClear (d : Displays DisplayID) (rect deco : Rect) : Prop :=
  ∃ front rest t, d.displays = front ++ d.primary :: rest ∧ d.primary ∉ rest ∧
    slipped d front rest = some t ∧
    (∀ b, reported d d.primary = some b → t = b) ∧
    (reported d d.primary = none → Best rect (displayBounds d) t) ∧
    PlaceFits rect deco t false

/-- The conditions of a later run. -/
def LaterRunClear (rect deco : Rect) (bounds : List Rect) : Prop :=
  SearchFits rect bounds ∧
  ∃ t, firstBest rect bounds = some t ∧ PlaceFits rect deco t (decide (Intersects rect bounds))

/-- On a first run the target is what the index of the primary display slipped to. -/
theorem target_firstRun {front rest : List DisplayID} (h : d.displays = front ++ d.primary :: rest)
    (hlast : d.primary ∉ rest) :
    target d rect true = (slipped d front rest).map fun t => (t, false) := by
  have hindex : index (displayBounds d) (eligible d).1 = slipped d front rest := by
    rw [eligible_fst h hlast, index, if_pos (Int.natCast_nonneg _), Int.toNat_natCast,
      displayBounds, h]
    exact getElem?_filterMap_append (reported d) front (d.primary :: rest)
  simp only [target, if_true, Option.bind_eq_bind, Option.bind_some, eligible_snd, hindex]
  cases slipped d front rest <;> rfl

/-- In a first run there is no target where the primary display is not listed. -/
theorem target_firstRun_of_not_mem (h : d.primary ∉ d.displays) : target d rect true = none := by
  simp only [target, if_true, Option.bind_eq_bind, Option.bind_some, eligible_fst_of_not_mem h]
  rfl

/-- On a later run the target is the first of the best displays. -/
theorem target_laterRun (rect : Rect) (h : displayBounds d ≠ []) :
    ∃ t, firstBest rect (displayBounds d) = some t ∧
      target d rect false =
        checked (SearchFits rect (displayBounds d))
          (t, decide (Intersects rect (displayBounds d))) := by
  obtain ⟨k, t, hk, hbest, hsearch⟩ := search_eq rect h (eligible d).1
  have hindex : index (displayBounds d) k = some t := by
    rw [index, if_pos (Int.natCast_nonneg k), Int.toNat_natCast, hk]
  refine ⟨t, hbest, ?_⟩
  simp only [target, Bool.false_eq_true, if_false, eligible_snd, hsearch]
  by_cases hfits : SearchFits rect (displayBounds d)
  · rw [checked_of hfits, checked_of hfits, Option.bind_eq_bind, Option.bind_some, hindex]
    rfl
  · rw [checked_of_not hfits, checked_of_not hfits]
    rfl

/-- Without displays the window gets the defaults. -/
theorem normalizeRectToDisplay_of_nil (h : displayBounds d = []) (rect deco : Rect)
    (firstRun : Bool) : normalizeRectToDisplay d rect deco firstRun = some defaults := by
  rw [normalizeRectToDisplay, eligible_snd, if_pos h, ite_self]

/-- The window is placed well if there is a target, which is due, and the arithmetic is in range. -/
theorem placedWell_iff_target (h : displayBounds d ≠ []) (rect deco : Rect) (firstRun : Bool) :
    PlacedWell d rect deco firstRun ↔ ∃ t intersects,
      target d (validate rect) firstRun = some (t, intersects) ∧
      Due d (validate rect) firstRun t ∧ PlaceFits (validate rect) deco t intersects := by
  have hdisplays : d.displays ≠ [] := by
    intro hnil
    exact h (by rw [displayBounds, hnil, List.filterMap_nil])
  obtain ⟨hw, hh⟩ := validate_nonneg rect
  have hnormalize : ∀ {t intersects}, target d (validate rect) firstRun = some (t, intersects) →
      normalizeRectToDisplay d rect deco firstRun =
        place (validate rect) deco t intersects := by
    intro t intersects htarget
    rw [normalizeRectToDisplay, eligible_snd, if_neg hdisplays, if_neg h]
    show (target d (validate rect) firstRun >>= fun p => place (validate rect) deco p.1 p.2) = _
    rw [htarget]
    rfl
  constructor
  · rintro ⟨r, hr, hplaced⟩
    obtain ⟨t, intersects, htarget, hdue, _⟩ := hplaced h
    obtain ⟨r', hplace, _⟩ := place_eq hw hh deco t intersects
    rw [hnormalize htarget, hplace] at hr
    exact ⟨t, intersects, htarget, hdue, (checked_eq_some_iff.1 hr).1⟩
  · rintro ⟨t, intersects, htarget, hdue, hfits⟩
    obtain ⟨r, hplace, hinside⟩ := place_eq hw hh deco t intersects
    refine ⟨r, ?_, fun _ => ⟨t, intersects, htarget, hdue, hinside⟩⟩
    rw [hnormalize htarget, hplace, checked_of hfits]

/-- An entry of a list splits it at its last occurrence. -/
theorem exists_last_split {α : Type*} [DecidableEq α] {a : α} {l : List α} (h : a ∈ l) :
    ∃ front rest, l = front ++ a :: rest ∧ a ∉ rest := by
  obtain ⟨front, rest, hsplit, hfront⟩ := List.eq_append_cons_of_mem (List.mem_reverse.2 h)
  refine ⟨rest.reverse, front.reverse, ?_, fun hmem => hfront (List.mem_reverse.1 hmem)⟩
  rw [← List.reverse_reverse l, hsplit]
  simp

/-- **A first run.** -/
theorem placedWell_firstRun_iff (h : displayBounds d ≠ []) (rect deco : Rect) :
    PlacedWell d rect deco true ↔ FirstRunClear d (validate rect) deco := by
  rw [placedWell_iff_target h]
  constructor
  · rintro ⟨t, intersects, htarget, hdue, hfits⟩
    by_cases hmem : d.primary ∈ d.displays
    · obtain ⟨front, rest, hsplit, hlast⟩ := exists_last_split hmem
      rw [target_firstRun hsplit hlast, Option.map_eq_some_iff] at htarget
      obtain ⟨t', hslipped, heq⟩ := htarget
      cases heq
      exact ⟨front, rest, t, hsplit, hlast, hslipped, hdue.primary rfl,
        fun hnone => hdue.best fun _ => hnone, hfits⟩
    · rw [target_firstRun_of_not_mem hmem] at htarget
      cases htarget
  · rintro ⟨front, rest, t, hsplit, hlast, hslipped, hprimary, hbest, hfits⟩
    have hmem : t ∈ displayBounds d := by
      rw [displayBounds, hsplit, List.filterMap_append]
      exact List.mem_append_right _ (List.mem_of_getElem? hslipped)
    refine ⟨t, false, ?_, ⟨hmem, fun _ => hprimary, fun hnone => hbest (hnone rfl)⟩, hfits⟩
    rw [target_firstRun hsplit hlast, hslipped]
    rfl

/-- **A later run.** -/
theorem placedWell_laterRun_iff (h : displayBounds d ≠ []) (rect deco : Rect) :
    PlacedWell d rect deco false ↔ LaterRunClear (validate rect) deco (displayBounds d) := by
  rw [placedWell_iff_target h]
  obtain ⟨t, hbest, htarget⟩ := target_laterRun (validate rect) h
  constructor
  · rintro ⟨t', intersects, htarget', _, hfits⟩
    obtain ⟨hsearch, heq⟩ := checked_eq_some_iff.1 (htarget.symm.trans htarget')
    cases heq
    exact ⟨hsearch, t, hbest, hfits⟩
  · rintro ⟨hsearch, t', hbest', hfits⟩
    cases hbest.symm.trans hbest'
    have hdue := best_of_firstBest hbest
    refine ⟨t, _, htarget.trans (checked_of hsearch), ⟨hdue.mem, ?_, fun _ => hdue⟩, hfits⟩
    intro hfirst
    cases hfirst

/-- **Window placement.** The window is placed well if no display reports its bounds; on a first run
if what the index of the primary display slipped to is what is due; on a later run always; all as
far as the arithmetic stays in range. -/
theorem placedWell_iff (d : Displays DisplayID) (rect deco : Rect) (firstRun : Bool) :
    PlacedWell d rect deco firstRun ↔
      displayBounds d = [] ∨
      (firstRun = true ∧ FirstRunClear d (validate rect) deco) ∨
      (firstRun = false ∧ LaterRunClear (validate rect) deco (displayBounds d)) := by
  by_cases h : displayBounds d = []
  · refine ⟨fun _ => .inl h, fun _ => ⟨defaults, normalizeRectToDisplay_of_nil h .., ?_⟩⟩
    exact fun hne => absurd h hne
  · cases firstRun with
    | true => simp [placedWell_firstRun_iff h, h]
    | false => simp [placedWell_laterRun_iff h, h]

/-- The first of two displays fails to report its bounds, and the second is the primary one. -/
def firstFails : Displays Nat where
  displays := [1, 2]
  primary := 2
  usableBounds := fun display => if display = 2 then some ⟨0, 0, 1920, 1080⟩ else none

/-- Its index is 1, and there is one entry. -/
theorem not_placedWell_firstFails :
    (eligible firstFails).1 = 1 ∧ (eligible firstFails).2.length = 1 ∧
      ¬ PlacedWell firstFails defaults ⟨⟨0, 0⟩, ⟨0, 0⟩⟩ true := by
  refine ⟨rfl, rfl, ?_⟩
  rintro ⟨r, hr, _⟩
  cases hr

end CubeChip.BasicVideoSpec
