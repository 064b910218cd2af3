import HighRollers.ArCore
import HighRollers.PlaneRenderer
import Mathlib.Data.List.AList

/-!
# Drawing the planes of a frame

`drawPlanes` draws the visible planes of a frame, nearest first, and tells them
apart by colours: a plane gets the next free number when it is drawn for the
first time and keeps it in `planeIndexMap`.  An exception in the middle of a
frame is caught by the activity, so that the frame ends early and the renderer
is used on.
-/

namespace HighRollers
namespace Plane

open Java
open TriangleStrip

/-- What ARCore tells about a plane in a frame.  `P` is the type of the planes,
`δ` of the distances in the order of `Float.compare`. -/
structure PlaneView (P δ F : Type) where
  plane : P
  trackingState : TrackingState
  subsumed : Bool
  distance : δ
  shape : Shape F
  /-- Whether OpenGL reports an error once the plane is drawn. -/
  glError : Bool

structure PlanesFrame (P δ F : Type) where
  allPlanes : List (PlaneView P δ F)
  /-- Whether OpenGL reports an error before the first plane. -/
  glError : Bool

structure Drawing (P F : Type) where
  plane : P
  shape : Shape F
  planeIndex : ℕ
  planeColor : ℕ
  indices : List ℕ

structure Planes (P F : Type) where
  buffers : Renderer F
  planeIndexMap : AList fun _ : P => ℕ
  /-- The planes drawn so far. -/
  drawings : List (Drawing P F)

def planeColorsRgba : List ℕ :=
  [0xFFFFFFFF, 0xF44336FF, 0xE91E63FF, 0x9C27B0FF, 0x673AB7FF, 0x3F51B5FF,
    0x2196F3FF, 0x03A9F4FF, 0x00BCD4FF, 0x009688FF, 0x4CAF50FF, 0x8BC34AFF,
    0xCDDC39FF, 0xFFEB3BFF, 0xFFC107FF, 0xFF9800FF]

section Drawing

variable {P δ F : Type} [DecidableEq P] [LinearOrder δ]
variable (negative : δ → Bool)

def visible (view : PlaneView P δ F) : Bool :=
  view.trackingState = .tracking && !view.subsumed && !negative view.distance

/-- `Collections.sort` is stable. -/
def sortedPlanes (allPlanes : List (PlaneView P δ F)) :
    List (PlaneView P δ F) :=
  (allPlanes.filter (visible negative)).mergeSort fun a b =>
    a.distance ≤ b.distance

def onBuffers (method : Method (Renderer F) Unit) :
    Method (Planes P F) Unit := fun planes =>
  match method.run planes.buffers with
  | .ok _ buffers => .ok () { planes with buffers := buffers }
  | .error e buffers => .error e { planes with buffers := buffers }

def planeIndexOf (plane : P) : Method (Planes P F) ℕ := do
  match (← get).planeIndexMap.lookup plane with
  | some planeIndex => return planeIndex
  | none =>
      let planeIndex := (← get).planeIndexMap.keys.length
      modify fun planes =>
        { planes with
          planeIndexMap := planes.planeIndexMap.insert plane planeIndex }
      return planeIndex

variable [Zero F] [One F] [Mul F] (inset : F → F)

def Planes.initial : Planes P F where
  buffers := .initial
  planeIndexMap := ∅
  drawings := []

def drawPlane (view : PlaneView P δ F) : Method (Planes P F) Unit := do
  onBuffers (updatePlaneParameters inset view.shape)
  let planeIndex ← planeIndexOf view.plane
  let colorIndex := planeIndex % planeColorsRgba.length
  let planeColor ← call (arrayGet planeColorsRgba colorIndex)
  modify fun planes =>
    { planes with
      drawings := planes.drawings ++ [⟨view.plane, view.shape, planeIndex,
        planeColor, planes.buffers.drawnIndices⟩] }
  if view.glError then
    throw .external

def drawPlanes (frame : PlanesFrame P δ F) : Method (Planes P F) Unit := do
  if frame.glError then
    throw .external
  forEach (drawPlane inset) (sortedPlanes negative frame.allPlanes)

def Planes.run (planes : Planes P F) (frames : List (PlanesFrame P δ F)) :
    Planes P F :=
  frames.foldl (fun current frame =>
    (drawPlanes negative inset frame).after current) planes

end Drawing

/-! ## Order of first drawing -/

section FirstSeen

variable {P : Type} [DecidableEq P]

/-- The entries of a list in the order in which they come first. -/
def firstSeen (list : List P) : List P :=
  list.foldl (fun seen entry =>
    if entry ∈ seen then seen else seen ++ [entry]) []

theorem firstSeen_concat (list : List P) (entry : P) :
    firstSeen (list ++ [entry]) =
      if entry ∈ firstSeen list then firstSeen list
      else firstSeen list ++ [entry] := by
  rw [firstSeen, List.foldl_append]
  rfl

theorem nodup_firstSeen (list : List P) : (firstSeen list).Nodup := by
  induction list using List.reverseRecOn with
  | nil => exact List.nodup_nil
  | append_singleton list last ih =>
      rw [firstSeen_concat]
      split_ifs with hseen
      · exact ih
      · rw [List.nodup_append]
        refine ⟨ih, List.nodup_singleton last, ?_⟩
        intro entry hentry other hother heq
        rw [List.mem_singleton.mp hother] at heq
        exact hseen (heq ▸ hentry)

end FirstSeen

/-! ## One plane -/

section OnePlane

variable {P δ F : Type} [DecidableEq P]

def Planes.numberOf (planes : Planes P F) (plane : P) : ℕ :=
  (planes.planeIndexMap.lookup plane).getD planes.planeIndexMap.keys.length

def Planes.numbered (planes : Planes P F) (plane : P) :
    AList fun _ : P => ℕ :=
  if (planes.planeIndexMap.lookup plane).isSome then planes.planeIndexMap
  else planes.planeIndexMap.insert plane (planes.numberOf plane)

def colorOf (planeIndex : ℕ) : ℕ :=
  planeColorsRgba.getD (planeIndex % 16) 0

def Planes.drawing (planes : Planes P F) (buffers : Renderer F)
    (view : PlaneView P δ F) : Drawing P F where
  plane := view.plane
  shape := view.shape
  planeIndex := planes.numberOf view.plane
  planeColor := colorOf (planes.numberOf view.plane)
  indices := buffers.drawnIndices

/-- The renderer once the plane is drawn from the buffers. -/
def Planes.withDrawing (planes : Planes P F) (buffers : Renderer F)
    (view : PlaneView P δ F) : Planes P F where
  buffers := buffers
  planeIndexMap := planes.numbered view.plane
  drawings := planes.drawings ++ [planes.drawing buffers view]

theorem planeIndexOf_run (plane : P) (planes : Planes P F) :
    (planeIndexOf plane).run planes =
      .ok (planes.numberOf plane)
        { planes with planeIndexMap := planes.numbered plane } := by
  have hfields : (planeIndexOf plane).run planes =
      (match planes.planeIndexMap.lookup plane with
        | some planeIndex => .ok planeIndex planes
        | none => .ok planes.planeIndexMap.keys.length
            { planes with
              planeIndexMap := planes.planeIndexMap.insert plane
                planes.planeIndexMap.keys.length }) := by
    rw [planeIndexOf, EStateM.run_bind, run_fields]
    dsimp only
    cases planes.planeIndexMap.lookup plane <;> rfl
  rw [hfields, Planes.numbered, Planes.numberOf]
  cases planes.planeIndexMap.lookup plane <;> rfl

theorem arrayGet_colors (planeIndex : ℕ) :
    arrayGet planeColorsRgba
        ((planeIndex % planeColorsRgba.length : ℕ) : ℤ) =
      .ok (colorOf planeIndex) := by
  have hindex : planeIndex % planeColorsRgba.length <
      planeColorsRgba.length := Nat.mod_lt _ (by decide)
  have hcolor : colorOf planeIndex =
      planeColorsRgba.getD (planeIndex % planeColorsRgba.length) 0 := rfl
  rw [arrayGet_natCast_of_lt hindex, hcolor, List.getD_eq_getElem?_getD,
    List.getElem?_eq_getElem hindex, Option.getD_some]

variable [Zero F] [One F] [Mul F] (inset : F → F)

theorem drawPlane_run_of_error
    {view : PlaneView P δ F} {planes : Planes P F} {e : Throwable}
    {buffers : Renderer F}
    (hupdate : (updatePlaneParameters inset view.shape).run planes.buffers =
      .error e buffers) :
    (drawPlane inset view).run planes =
      .error e { planes with buffers := buffers } := by
  have honto : (onBuffers (updatePlaneParameters inset view.shape)).run
      planes = .error e { planes with buffers := buffers } := by
    simp only [EStateM.run, onBuffers] at hupdate ⊢
    rw [hupdate]
  rw [drawPlane, EStateM.run_bind, honto]

theorem drawPlane_run_of_ok
    {view : PlaneView P δ F} {planes : Planes P F} {buffers : Renderer F}
    (hupdate : (updatePlaneParameters inset view.shape).run planes.buffers =
      .ok () buffers) :
    (drawPlane inset view).run planes =
      if view.glError then .error .external (planes.withDrawing buffers view)
      else .ok () (planes.withDrawing buffers view) := by
  have honto : (onBuffers (updatePlaneParameters inset view.shape)).run
      planes = .ok () { planes with buffers := buffers } := by
    simp only [EStateM.run, onBuffers] at hupdate ⊢
    rw [hupdate]
  rw [drawPlane, EStateM.run_bind, honto]
  dsimp only
  rw [EStateM.run_bind, planeIndexOf_run]
  dsimp only
  rw [arrayGet_colors]
  cases view.glError <;> rfl

end OnePlane

/-! ## Numbers -/

section Numbers

variable {P δ F : Type} [DecidableEq P]

/-- The planes in the order in which they were drawn first. -/
def Planes.seen (planes : Planes P F) : List P :=
  firstSeen (planes.drawings.map Drawing.plane)

/-- The map numbers the planes in the order of their first drawing. -/
structure Planes.Numbered (planes : Planes P F) : Prop where
  sized : planes.buffers.Sized
  number : ∀ plane planeIndex,
    planes.planeIndexMap.lookup plane = some planeIndex ↔
      planes.seen[planeIndex]? = some plane
  size : planes.planeIndexMap.keys.length = planes.seen.length
  drawn : ∀ drawing ∈ planes.drawings,
    planes.planeIndexMap.lookup drawing.plane = some drawing.planeIndex
  color : ∀ drawing ∈ planes.drawings,
    drawing.planeColor = colorOf drawing.planeIndex
  strip : ∀ drawing ∈ planes.drawings, drawing.shape.corners ≤ 32768 →
    drawing.indices = drawing.shape.strip

theorem numbered_initial [Zero F] :
    (Planes.initial : Planes P F).Numbered where
  sized := sized_initial
  number plane planeIndex := by
    simp [Planes.initial, Planes.seen, firstSeen]
  size := rfl
  drawn _ hdrawing := absurd hdrawing List.not_mem_nil
  color _ hdrawing := absurd hdrawing List.not_mem_nil
  strip _ hdrawing := absurd hdrawing List.not_mem_nil

variable {planes : Planes P F}

theorem numbered_of_some
    {plane : P} {known : ℕ}
    (hlookup : planes.planeIndexMap.lookup plane = some known) :
    planes.numbered plane = planes.planeIndexMap ∧
      planes.numberOf plane = known := by
  simp [Planes.numbered, Planes.numberOf, hlookup]

theorem numbered_of_none
    {plane : P} (hlookup : planes.planeIndexMap.lookup plane = none) :
    planes.numbered plane =
        planes.planeIndexMap.insert plane (planes.numberOf plane) ∧
      planes.numberOf plane = planes.planeIndexMap.keys.length := by
  simp [Planes.numbered, Planes.numberOf, hlookup]

theorem Planes.Numbered.not_seen
    (hnumbered : planes.Numbered) {plane : P}
    (hlookup : planes.planeIndexMap.lookup plane = none) :
    plane ∉ planes.seen := by
  intro hseen
  obtain ⟨planeIndex, hplane⟩ := List.mem_iff_getElem?.mp hseen
  rw [← hnumbered.number, hlookup] at hplane
  contradiction

theorem seen_withDrawing (buffers : Renderer F) (view : PlaneView P δ F) :
    (planes.withDrawing buffers view).seen =
      if view.plane ∈ planes.seen then planes.seen
      else planes.seen ++ [view.plane] := by
  rw [Planes.seen, Planes.withDrawing, List.map_append, List.map_singleton,
    firstSeen_concat]
  rfl

/-- The number of the plane drawn is its place among the planes seen. -/
theorem Planes.Numbered.number_withDrawing
    (hnumbered : planes.Numbered) (buffers : Renderer F)
    (view : PlaneView P δ F) (plane : P) (planeIndex : ℕ) :
    (planes.withDrawing buffers view).planeIndexMap.lookup plane =
        some planeIndex ↔
      (planes.withDrawing buffers view).seen[planeIndex]? = some plane := by
  rw [seen_withDrawing]
  cases hlookup : planes.planeIndexMap.lookup view.plane with
  | some known =>
      have hseen : view.plane ∈ planes.seen :=
        List.mem_of_getElem? ((hnumbered.number _ _).mp hlookup)
      rw [if_pos hseen, Planes.withDrawing, (numbered_of_some hlookup).1]
      exact hnumbered.number plane planeIndex
  | none =>
      have hseen := hnumbered.not_seen hlookup
      obtain ⟨hmap, hnumber⟩ := numbered_of_none hlookup
      rw [if_neg hseen, Planes.withDrawing, hmap, hnumber, hnumbered.size]
      by_cases hplane : plane = view.plane
      · rw [hplane, AList.lookup_insert, Option.some.injEq]
        constructor
        · rintro rfl
          simp
        · intro hlast
          rw [List.getElem?_append] at hlast
          split_ifs at hlast with hlow
          · exact absurd (List.mem_of_getElem? hlast) hseen
          · obtain ⟨hindex, -⟩ := List.getElem?_eq_some_iff.mp hlast
            simp only [List.length_singleton] at hindex
            omega
      · rw [AList.lookup_insert_ne hplane, hnumbered.number,
          List.getElem?_append]
        split_ifs with hlow
        · rfl
        · rw [List.getElem?_eq_none (by omega)]
          constructor
          · simp
          · intro hlast
            have hmem := List.mem_of_getElem? hlast
            exact absurd (List.mem_singleton.mp hmem) hplane

theorem lookup_withDrawing
    (buffers : Renderer F) (view : PlaneView P δ F) {plane : P}
    {planeIndex : ℕ}
    (hlookup : planes.planeIndexMap.lookup plane = some planeIndex) :
    (planes.withDrawing buffers view).planeIndexMap.lookup plane =
      some planeIndex := by
  cases hview : planes.planeIndexMap.lookup view.plane with
  | some known =>
      rw [Planes.withDrawing, (numbered_of_some hview).1]
      exact hlookup
  | none =>
      have hne : plane ≠ view.plane := by
        rintro rfl
        rw [hview] at hlookup
        contradiction
      rw [Planes.withDrawing, (numbered_of_none hview).1,
        AList.lookup_insert_ne hne, hlookup]

theorem lookup_withDrawing_self
    (buffers : Renderer F) (view : PlaneView P δ F) :
    (planes.withDrawing buffers view).planeIndexMap.lookup view.plane =
      some (planes.numberOf view.plane) := by
  cases hview : planes.planeIndexMap.lookup view.plane with
  | some known =>
      obtain ⟨hmap, hnumber⟩ := numbered_of_some hview
      rw [Planes.withDrawing, hmap, hnumber]
      exact hview
  | none =>
      rw [Planes.withDrawing, (numbered_of_none hview).1, AList.lookup_insert]

theorem Planes.Numbered.size_withDrawing
    (hnumbered : planes.Numbered) (buffers : Renderer F)
    (view : PlaneView P δ F) :
    (planes.withDrawing buffers view).planeIndexMap.keys.length =
      (planes.withDrawing buffers view).seen.length := by
  rw [seen_withDrawing]
  cases hview : planes.planeIndexMap.lookup view.plane with
  | some known =>
      have hseen : view.plane ∈ planes.seen :=
        List.mem_of_getElem? ((hnumbered.number _ _).mp hview)
      rw [if_pos hseen, Planes.withDrawing, (numbered_of_some hview).1]
      exact hnumbered.size
  | none =>
      have hseen := hnumbered.not_seen hview
      have hkeys : view.plane ∉ planes.planeIndexMap.keys :=
        AList.lookup_eq_none.mp hview
      rw [if_neg hseen, Planes.withDrawing, (numbered_of_none hview).1,
        AList.keys_insert, List.erase_of_not_mem hkeys, List.length_cons,
        hnumbered.size, List.length_append, List.length_singleton]

variable [Zero F] [One F] [Mul F] (inset : F → F)

theorem Planes.Numbered.withDrawing
    (hnumbered : planes.Numbered) {buffers : Renderer F}
    {view : PlaneView P δ F}
    (hupdate : (updatePlaneParameters inset view.shape).run planes.buffers =
      .ok () buffers) :
    (planes.withDrawing buffers view).Numbered where
  sized := by
    have hsized := hnumbered.sized.update inset view.shape
    rwa [Method.after_eq_of_ok hupdate] at hsized
  number := hnumbered.number_withDrawing buffers view
  size := hnumbered.size_withDrawing buffers view
  drawn drawing hdrawing := by
    rcases List.mem_append.mp hdrawing with hearlier | hnew
    · exact lookup_withDrawing buffers view (hnumbered.drawn drawing hearlier)
    · rw [List.mem_singleton.mp hnew]
      exact lookup_withDrawing_self buffers view
  color drawing hdrawing := by
    rcases List.mem_append.mp hdrawing with hearlier | hnew
    · exact hnumbered.color drawing hearlier
    · rw [List.mem_singleton.mp hnew]
      rfl
  strip drawing hdrawing hshort := by
    rcases List.mem_append.mp hdrawing with hearlier | hnew
    · exact hnumbered.strip drawing hearlier hshort
    · rw [List.mem_singleton.mp hnew] at hshort ⊢
      exact hnumbered.sized.drawnIndices_of_ok inset hshort hupdate

theorem drawPlane_numbered (view : PlaneView P δ F) :
    (drawPlane inset view).Keeps (Preserves Planes.Numbered) := by
  intro planes hnumbered
  cases hupdate : (updatePlaneParameters inset view.shape).run
      planes.buffers with
  | error e buffers =>
      have hsized := hnumbered.sized.update inset view.shape
      have hrun := drawPlane_run_of_error inset hupdate
      simp only [Method.after, hupdate, hrun] at hsized ⊢
      exact ⟨hsized, hnumbered.number, hnumbered.size, hnumbered.drawn,
        hnumbered.color, hnumbered.strip⟩
  | ok _ buffers =>
      have hrun := drawPlane_run_of_ok inset hupdate
      have hafter : (drawPlane inset view).after planes =
          planes.withDrawing buffers view := by
        rw [Method.after, hrun]
        cases view.glError <;> rfl
      rw [hafter]
      exact hnumbered.withDrawing inset hupdate

variable [LinearOrder δ] (negative : δ → Bool)

theorem drawPlanes_numbered (frame : PlanesFrame P δ F) :
    (drawPlanes negative inset frame).Keeps (Preserves Planes.Numbered) := by
  have hloop : (forEach (drawPlane inset)
      (sortedPlanes negative frame.allPlanes)).Keeps
        (Preserves Planes.Numbered) :=
    forEach_keeps fun view _ => drawPlane_numbered inset view
  unfold drawPlanes
  cases frame.glError with
  | true => exact Std.Refl.refl
  | false => exact hloop

theorem numbered_run
    (frames : List (PlanesFrame P δ F)) :
    (Planes.initial.run negative inset frames).Numbered := by
  have hstart := numbered_initial (P := P) (F := F)
  generalize (Planes.initial : Planes P F) = planes at hstart ⊢
  induction frames generalizing planes with
  | nil => exact hstart
  | cons frame rest ih =>
      exact ih _ (drawPlanes_numbered inset negative frame planes hstart)

theorem nodup_planeColorsRgba : planeColorsRgba.Nodup := by
  decide

theorem colorOf_inj {planeIndex planeIndex' : ℕ} :
    colorOf planeIndex = colorOf planeIndex' ↔
      planeIndex % 16 = planeIndex' % 16 := by
  constructor
  · intro hcolor
    have hlow : planeIndex % 16 < planeColorsRgba.length :=
      Nat.mod_lt _ (by decide)
    have hlow' : planeIndex' % 16 < planeColorsRgba.length :=
      Nat.mod_lt _ (by decide)
    rw [colorOf, colorOf, List.getD_eq_getElem?_getD,
      List.getD_eq_getElem?_getD, List.getElem?_eq_getElem hlow,
      List.getElem?_eq_getElem hlow', Option.getD_some,
      Option.getD_some] at hcolor
    exact (List.Nodup.getElem_inj_iff nodup_planeColorsRgba).mp hcolor
  · intro hindex
    rw [colorOf, colorOf, hindex]

/-- Over a whole run the planes are numbered in the order in which they were
drawn first: a plane keeps its number, no other plane gets it, and the colours
of two planes are the same only if sixteen divides the difference of their
numbers. -/
theorem planes_keep_numbers
    (frames : List (PlanesFrame P δ F)) :
    (Planes.initial.run negative inset frames).seen.Nodup ∧
      (∀ drawing ∈ (Planes.initial.run negative inset frames).drawings,
        (Planes.initial.run negative inset frames).seen[drawing.planeIndex]? =
          some drawing.plane) ∧
      ∀ drawing ∈ (Planes.initial.run negative inset frames).drawings,
        ∀ drawing' ∈ (Planes.initial.run negative inset frames).drawings,
          (drawing.planeIndex = drawing'.planeIndex ↔
            drawing.plane = drawing'.plane) ∧
          (drawing.planeColor = drawing'.planeColor ↔
            drawing.planeIndex % 16 = drawing'.planeIndex % 16) := by
  have hnumbered := numbered_run (P := P) inset negative frames
  generalize Planes.initial.run negative inset frames = planes at hnumbered ⊢
  have hplace : ∀ drawing ∈ planes.drawings,
      planes.seen[drawing.planeIndex]? = some drawing.plane := by
    intro drawing hdrawing
    exact (hnumbered.number _ _).mp (hnumbered.drawn drawing hdrawing)
  refine ⟨nodup_firstSeen _, hplace, ?_⟩
  intro drawing hdrawing drawing' hdrawing'
  constructor
  · constructor
    · intro hindex
      have hplane := hplace drawing hdrawing
      rw [hindex, hplace drawing' hdrawing', Option.some.injEq] at hplane
      exact hplane.symm
    · intro hplane
      have hindex := hnumbered.drawn drawing hdrawing
      rw [hplane, hnumbered.drawn drawing' hdrawing',
        Option.some.injEq] at hindex
      exact hindex.symm
  · rw [hnumbered.color drawing hdrawing, hnumbered.color drawing' hdrawing']
    exact colorOf_inj

end Numbers

/-! ## Order -/

section Order

variable {P δ F : Type} [DecidableEq P] [Zero F] [One F] [Mul F]
variable (inset : F → F)

def Drawing.label (drawing : Drawing P F) : P × Shape F :=
  (drawing.plane, drawing.shape)

def PlaneView.label (view : PlaneView P δ F) : P × Shape F :=
  (view.plane, view.shape)

/-- Drawing the plane does not end the frame. -/
structure PlaneView.Drawable (view : PlaneView P δ F) : Prop where
  polygon : ∀ boundary, view.shape.boundary = some boundary →
    boundary.length % 2 = 0 ∧ 2 ≤ boundary.length / 2 ∧
      boundary.length / 2 ≤ 2 ^ 26
  glError : view.glError = false

omit [DecidableEq P] in
theorem PlaneView.Drawable.update_ok
    {view : PlaneView P δ F} (hdrawable : view.Drawable)
    {renderer : Renderer F} (hsized : renderer.Sized) :
    ∃ buffers, (updatePlaneParameters inset view.shape).run renderer =
      .ok () buffers := by
  cases hboundary : view.shape.boundary with
  | none =>
      obtain ⟨vertices, indices, hrun, -⟩ :=
        update_run_of_null inset hboundary renderer
      exact ⟨_, hrun⟩
  | some boundary =>
      obtain ⟨heven, hcorners, hfits⟩ :=
        hdrawable.polygon boundary hboundary
      obtain ⟨after, hrun, -⟩ :=
        hsized.update_run inset hboundary heven hcorners hfits
      exact ⟨after, hrun⟩

/-- The loop draws its planes in their order, all of them unless it is left by
an exception. -/
theorem forEach_drawPlane
    (views : List (PlaneView P δ F)) {planes : Planes P F}
    (hsized : planes.buffers.Sized) :
    ∃ added,
      ((forEach (drawPlane inset) views).after planes).drawings =
          planes.drawings ++ added ∧
        added.map Drawing.label <+: views.map PlaneView.label ∧
        ((∀ view ∈ views, view.Drawable) →
          added.map Drawing.label = views.map PlaneView.label) := by
  induction views generalizing planes with
  | nil => exact ⟨[], by simp [forEach, Method.after], by simp, by simp⟩
  | cons view rest ih =>
      cases hupdate : (updatePlaneParameters inset view.shape).run
          planes.buffers with
      | error e buffers =>
          have hrun := drawPlane_run_of_error inset hupdate
          have hthrows : (drawPlane inset view).Throws planes :=
            ⟨_, _, hrun⟩
          refine ⟨[], ?_, by simp, ?_⟩
          · rw [forEach, Method.after_bind_of_throws hthrows, Method.after,
              hrun, List.append_nil]
          · intro hdrawable
            have hview := hdrawable view List.mem_cons_self
            obtain ⟨after, hok⟩ := hview.update_ok inset hsized
            rw [hupdate] at hok
            contradiction
      | ok _ buffers =>
          have hrun := drawPlane_run_of_ok inset hupdate
          have hbuffers : buffers.Sized := by
            have hnext := hsized.update inset view.shape
            rwa [Method.after_eq_of_ok hupdate] at hnext
          cases hgl : view.glError with
          | true =>
              rw [hgl, if_pos rfl] at hrun
              have hthrows : (drawPlane inset view).Throws planes :=
                ⟨_, _, hrun⟩
              refine ⟨[planes.drawing buffers view], ?_, ?_, ?_⟩
              · rw [forEach, Method.after_bind_of_throws hthrows,
                  Method.after, hrun]
                rfl
              · exact ⟨rest.map PlaneView.label, rfl⟩
              · intro hdrawable
                have hview := hdrawable view List.mem_cons_self
                rw [hview.glError] at hgl
                contradiction
          | false =>
              rw [hgl, if_neg (by decide)] at hrun
              obtain ⟨added, hdrawings, hfirst, hall⟩ :=
                @ih (planes.withDrawing buffers view) hbuffers
              refine ⟨planes.drawing buffers view :: added, ?_, ?_, ?_⟩
              · rw [forEach, Method.after_bind_of_ok hrun, hdrawings,
                  Planes.withDrawing, List.append_assoc]
                rfl
              · exact (List.prefix_cons_inj _).mpr hfirst
              · intro hdrawable
                have hrest := hall fun other hother =>
                  hdrawable other (List.mem_cons_of_mem view hother)
                rw [List.map_cons, List.map_cons, hrest]
                rfl

variable [LinearOrder δ] (negative : δ → Bool)

omit [DecidableEq P] [Zero F] [One F] [Mul F] in
theorem sortedPlanes_pairwise (allPlanes : List (PlaneView P δ F)) :
    (sortedPlanes negative allPlanes).Pairwise
      fun a b => a.distance ≤ b.distance := by
  have hpairwise := @List.pairwise_mergeSort (PlaneView P δ F)
    (fun a b => decide (a.distance ≤ b.distance))
    (by simpa using fun a b c : PlaneView P δ F => le_trans)
    (by simpa using fun a b : PlaneView P δ F =>
      le_total a.distance b.distance)
    (allPlanes.filter (visible negative))
  simpa [sortedPlanes] using hpairwise

/-- Whatever was drawn before, a frame draws its visible planes with the
nearest first, each as its own polygon, and all of them if nothing fails. -/
theorem planes_nearest_first
    (frames : List (PlanesFrame P δ F)) (frame : PlanesFrame P δ F) :
    ∃ (sorted : List (PlaneView P δ F)) (added : List (Drawing P F)),
      sorted.Perm (frame.allPlanes.filter (visible negative)) ∧
        sorted.Pairwise (fun a b => a.distance ≤ b.distance) ∧
        ((drawPlanes negative inset frame).after
            (Planes.initial.run negative inset frames)).drawings =
          (Planes.initial.run negative inset frames).drawings ++ added ∧
        added.map Drawing.label <+: sorted.map PlaneView.label ∧
        (frame.glError = false → (∀ view ∈ sorted, view.Drawable) →
          added.map Drawing.label = sorted.map PlaneView.label) ∧
        ∀ drawing ∈ added, drawing.shape.corners ≤ 32768 →
          drawing.indices = drawing.shape.strip := by
  have hnumbered := numbered_run (P := P) inset negative frames
  generalize Planes.initial.run negative inset frames = planes at hnumbered ⊢
  have hafter := drawPlanes_numbered inset negative frame planes hnumbered
  have hperm : (sortedPlanes negative frame.allPlanes).Perm
      (frame.allPlanes.filter (visible negative)) := List.mergeSort_perm _ _
  have hsorted := sortedPlanes_pairwise negative frame.allPlanes
  cases hgl : frame.glError with
  | true =>
      have hnothing : (drawPlanes negative inset frame).after planes =
          planes := by
        rw [drawPlanes, hgl]
        rfl
      exact ⟨_, [], hperm, hsorted, by rw [hnothing, List.append_nil],
        List.nil_prefix, by simp, by simp⟩
  | false =>
      have hloop : drawPlanes negative inset frame =
          forEach (drawPlane inset)
            (sortedPlanes negative frame.allPlanes) := by
        rw [drawPlanes, hgl]
        rfl
      obtain ⟨added, hdrawings, hfirst, hall⟩ := forEach_drawPlane inset
        (sortedPlanes negative frame.allPlanes) hnumbered.sized
      rw [hloop] at hafter ⊢
      refine ⟨_, added, hperm, hsorted, hdrawings, hfirst, fun _ => hall, ?_⟩
      intro drawing hdrawing
      apply hafter.strip
      rw [hdrawings]
      exact List.mem_append_right planes.drawings hdrawing

end Order

end Plane
end HighRollers
