import HighRollers.JavaBuffers
import HighRollers.PlaneMesh

/-!
# The buffers of the plane renderer

`updatePlaneParameters` writes the vertices and the strip of a polygon into two
buffers which the renderer keeps from plane to plane and enlarges as needed.
What is drawn depends on the polygon alone, whatever was drawn before, and for
every polygon with at least three corners it is a mesh whose border is the
polygon.  The copies of the corners are moved by factors which come from the
extents of the plane; `inset` stands for this computation.
-/

namespace HighRollers
namespace Plane

open Java
open TriangleStrip

/-- `F` is the type of the coordinates. -/
structure Renderer (F : Type) where
  vertexBuffer : Buffer F
  indexBuffer : Buffer Int16

structure Shape (F : Type) where
  extentX : F
  extentZ : F
  /-- The coordinates x and z of the corners, or `null`. -/
  boundary : Option (List F)
  /-- `getPolygon` is a view of a `ByteBuffer` with four bytes for each
  coordinate, and its number of bytes is an int. -/
  isView : ∀ list ∈ boundary, list.length < 2 ^ 29

section Updates

variable {F : Type}

def vertexField : BufferField (Renderer F) F where
  read := Renderer.vertexBuffer
  write buffer renderer := { renderer with vertexBuffer := buffer }
  read_write _ _ := rfl
  write_read _ := rfl
  write_write _ _ _ := rfl

def indexField : BufferField (Renderer F) Int16 where
  read := Renderer.indexBuffer
  write buffer renderer := { renderer with indexBuffer := buffer }
  read_write _ _ := rfl
  write_read _ := rfl
  write_write _ _ _ := rfl

variable [Zero F]

/-- The first buffers have room for polygons with 64 corners; the one of the
indices has three times what this needs. -/
def Renderer.initial : Renderer F where
  vertexBuffer := .allocate 0 (3 * 2 * 64)
  indexBuffer := .allocate 0 (3 * 3 * 64)

/-- `indexBuffer.put((short) index)`. -/
def putIndex (index : ℤ) : Method (Renderer F) Unit :=
  indexField.put (Int16.ofInt index)

def putIndices (boundaryVertices : ℕ) : Method (Renderer F) Unit := do
  putIndex ((boundaryVertices - 1) * 2)
  forEach (fun i : ℕ => do
    putIndex (i * 2)
    putIndex (i * 2 + 1)) (List.range boundaryVertices)
  putIndex 1
  forEach (fun i : ℕ => do
    putIndex ((boundaryVertices - 1 - i) * 2 + 1)
    putIndex (i * 2 + 1)) (List.range' 1 (boundaryVertices / 2 - 1))
  if boundaryVertices % 2 ≠ 0 then
    putIndex (boundaryVertices / 2 * 2 + 1)

variable [One F] [Mul F] (inset : F → F)

/-- The loop over the boundary.  A last x without a z is an underflow. -/
def putVertices (xScale zScale : F) : List F → Method (Renderer F) Unit
  | x :: z :: rest => do
      vertexField.put x
      vertexField.put z
      vertexField.put 0
      vertexField.put (x * xScale)
      vertexField.put (z * zScale)
      vertexField.put 1
      putVertices xScale zScale rest
  | [_] => throw .external
  | [] => pure ()

/-- No int of this method exceeds `3 * 2 ^ 29` but the number of bytes to
allocate. -/
def updatePlaneParameters (shape : Shape F) : Method (Renderer F) Unit :=
  match shape.boundary with
  | none => do
      vertexField.apply (Buffer.setLimit 0)
      indexField.apply (Buffer.setLimit 0)
  | some boundary => do
      let boundaryVertices := boundary.length / 2
      let numVertices := boundaryVertices * 2
      let numIndices := boundaryVertices * 3
      vertexField.apply (Buffer.prepare 0 4 (numVertices * 3))
      indexField.apply (Buffer.prepare 0 2 numIndices)
      putVertices (inset shape.extentX) (inset shape.extentZ) boundary
      putIndices boundaryVertices

def Renderer.run (renderer : Renderer F) (shapes : List (Shape F)) :
    Renderer F :=
  shapes.foldl (fun current shape =>
    (updatePlaneParameters inset shape).after current) renderer

/-- The unsigned shorts which `glDrawElements` reads. -/
def Renderer.drawnIndices (renderer : Renderer F) : List ℕ :=
  renderer.indexBuffer.contents.map fun index => index.toUInt16.toNat

end Updates

/-! ## The strip -/

/-- The indices in the order in which they are put. -/
def indexList (n : ℕ) : List ℤ :=
  [((n : ℤ) - 1) * 2] ++
    (List.range n).flatMap (fun i : ℕ => [(i : ℤ) * 2, (i : ℤ) * 2 + 1]) ++
    [1] ++
    (List.range' 1 (n / 2 - 1)).flatMap (fun i : ℕ =>
      [((n : ℤ) - 1 - i) * 2 + 1, (i : ℤ) * 2 + 1]) ++
    if n % 2 ≠ 0 then [(n / 2 : ℤ) * 2 + 1] else []

theorem putIndices_eq {F : Type} [Zero F] (n : ℕ) :
    (putIndices n : Method (Renderer F) Unit) =
      indexField.putAll ((indexList n).map Int16.ofInt) := by
  have hpair : ∀ (list : List ℕ) (f g : ℕ → ℤ),
      forEach (fun i : ℕ => (do
        putIndex (f i)
        putIndex (g i) : Method (Renderer F) Unit)) list =
      indexField.putAll ((list.flatMap fun i => [f i, g i]).map
        Int16.ofInt) := by
    intro list f g
    rw [List.map_flatMap, ← BufferField.forEach_putAll]
    congr
    funext i
    simp [putIndex, BufferField.putAll, forEach]
  unfold putIndices indexList
  simp only [List.map_append, BufferField.putAll_append, bind_assoc,
    List.map_cons, List.map_nil, BufferField.putAll_singleton, hpair]
  split_ifs with hodd
  · simp [putIndex, BufferField.putAll_singleton]
  · simp [putIndex, BufferField.putAll, forEach]

theorem flatMap_pairs {α : Type} (f : ℕ → α) (count : ℕ) :
    (List.range count).flatMap (fun i => [f (2 * i), f (2 * i + 1)]) =
      (List.range (2 * count)).map f := by
  induction count with
  | zero => rfl
  | succ count ih =>
      rw [List.range_succ, List.flatMap_append, ih,
        show 2 * (count + 1) = 2 * count + 1 + 1 by omega, List.range_succ,
        List.range_succ]
      simp

/-- The perimeter, without its two ends. -/
theorem perimeter_eq (n : ℕ) :
    (List.range n).flatMap (fun i : ℕ => [(i : ℤ) * 2, (i : ℤ) * 2 + 1]) =
      (List.range (2 * n)).map fun k => (stripVertex n (1 + k) : ℤ) := by
  rw [← flatMap_pairs fun k : ℕ => (stripVertex n (1 + k) : ℤ)]
  refine List.flatMap_congr fun i hi => ?_
  rw [List.mem_range] at hi
  rw [stripVertex_low (by omega) (by omega),
    stripVertex_low (by omega) (by omega)]
  simp [mul_comm]

theorem interior_eq {n : ℕ} (hn : 2 ≤ n) :
    (List.range' 1 (n / 2 - 1)).flatMap (fun i : ℕ =>
        [((n : ℤ) - 1 - i) * 2 + 1, (i : ℤ) * 2 + 1]) =
      (List.range (2 * (n / 2 - 1))).map fun k =>
        (stripVertex n (2 * n + 2 + k) : ℤ) := by
  rw [← flatMap_pairs, List.range'_eq_map_range, List.flatMap_map]
  refine List.flatMap_congr fun i hi => ?_
  rw [List.mem_range] at hi
  have heven : 2 * n + 2 + 2 * i = 2 * n + 2 * (i + 1) := by omega
  have hodd : 2 * n + 2 + (2 * i + 1) = 2 * n + 2 * (i + 1) + 1 := by omega
  rw [heven, hodd, stripVertex_even (by omega), stripVertex_odd]
  have hcast : ((n - 1 - (i + 1) : ℕ) : ℤ) = (n : ℤ) - 1 - (1 + i : ℕ) := by
    omega
  simp only [Nat.cast_add, Nat.cast_mul, Nat.cast_ofNat, Nat.cast_one, hcast]
  simp [mul_comm, add_comm]

theorem indexList_eq {n : ℕ} (hn : 2 ≤ n) :
    indexList n = (List.range (3 * n)).map fun k => (stripVertex n k : ℤ) := by
  have hsplit : 3 * n = 1 + 2 * n + 1 + 2 * (n / 2 - 1) + n % 2 := by omega
  have hclose : (stripVertex n 0 : ℤ) = ((n : ℤ) - 1) * 2 := by
    rw [stripVertex, if_pos rfl]
    omega
  have hjoin : stripVertex n (1 + 2 * n) = 1 := by
    have hodd := stripVertex_odd n 0
    rwa [show 2 * n + 2 * 0 + 1 = 1 + 2 * n by omega] at hodd
  have hlast : (if n % 2 ≠ 0 then [(n / 2 : ℤ) * 2 + 1] else []) =
      (List.range (n % 2)).map fun k =>
        (stripVertex n (1 + 2 * n + 1 + 2 * (n / 2 - 1) + k) : ℤ) := by
    rcases Nat.mod_two_eq_zero_or_one n with heven | hodd
    · simp [heven]
    · have hplace : 1 + 2 * n + 1 + 2 * (n / 2 - 1) + 0 =
          2 * n + 2 * (n / 2) := by omega
      rw [hodd, List.range_one, List.map_singleton, hplace,
        stripVertex_even (by omega), if_pos (by omega),
        show n - 1 - n / 2 = n / 2 by omega]
      push_cast
      rw [mul_comm]
  rw [hsplit, List.range_add, List.range_add, List.range_add, List.range_add]
  simp only [List.map_append, List.map_map, Function.comp_def]
  rw [indexList, perimeter_eq, interior_eq hn, hlast]
  simp only [List.range_one, List.map_singleton, hclose, Nat.add_zero, hjoin,
    Nat.cast_one]
  congr 2
  simp [show ∀ k, 2 * n + 2 + k = 1 + 2 * n + 1 + k by omega]

/-- The cast to `short` is undone by reading the indices as unsigned. -/
theorem toUInt16_ofInt {index : ℕ} (hindex : index < 65536) :
    (Int16.ofInt (index : ℤ)).toUInt16.toNat = index := by
  have hbits : (Int16.ofInt (index : ℤ)).toUInt16 = UInt16.ofNat index := by
    rw [Int16.ofInt_eq_ofNat]
    rfl
  rw [hbits, UInt16.toNat_ofNat']
  exact Nat.mod_eq_of_lt hindex

theorem stripVertex_lt {n k : ℕ} (hn : 2 ≤ n) (hk : k < 3 * n) :
    stripVertex n k < 2 * n := by
  unfold stripVertex
  split_ifs <;> omega

/-! ## One call -/

section Calls

variable {F : Type} [Zero F] [One F] [Mul F]

def vertexList (xScale zScale : F) : List F → List F
  | x :: z :: rest =>
      [x, z, 0, x * xScale, z * zScale, 1] ++ vertexList xScale zScale rest
  | [_] => []
  | [] => []

theorem length_vertexList (xScale zScale : F) (boundary : List F) :
    (vertexList xScale zScale boundary).length =
      boundary.length / 2 * 2 * 3 := by
  fun_induction vertexList xScale zScale boundary with
  | case1 x z rest ih =>
      simp only [List.length_append, List.length_cons, List.length_nil, ih]
      omega
  | case2 x => simp
  | case3 => simp

theorem putVertices_eq
    (xScale zScale : F) {boundary : List F} (heven : boundary.length % 2 = 0) :
    putVertices xScale zScale boundary =
      vertexField.putAll (vertexList xScale zScale boundary) := by
  fun_induction vertexList xScale zScale boundary with
  | case1 x z rest ih =>
      have hrest : rest.length % 2 = 0 := by
        simp only [List.length_cons] at heven
        omega
      rw [putVertices, ih hrest, BufferField.putAll_append]
      simp [BufferField.putAll, forEach]
  | case2 x => simp at heven
  | case3 => rfl

theorem putVertices_throws
    (xScale zScale : F) {boundary : List F} (hodd : boundary.length % 2 = 1)
    (renderer : Renderer F) :
    (putVertices xScale zScale boundary).Throws renderer := by
  fun_induction putVertices xScale zScale boundary generalizing renderer with
  | case1 x z rest ih =>
      have hrest : rest.length % 2 = 1 := by
        simp only [List.length_cons] at hodd
        omega
      iterate 6
        refine Method.throws_bind ?_ _
        intro _ renderer
      exact ih hrest renderer
  | case2 x => exact ⟨.external, renderer, rfl⟩
  | case3 => simp at hodd

def Shape.corners (shape : Shape F) : ℕ :=
  (shape.boundary.getD []).length / 2

/-! ## Capacities -/

def Renderer.capacities (renderer : Renderer F) : ℕ × ℕ :=
  (renderer.vertexBuffer.capacity, renderer.indexBuffer.capacity)

def SameCapacities (renderer after : Renderer F) : Prop :=
  after.capacities = renderer.capacities

instance : Std.Refl (SameCapacities (F := F)) where
  refl _ := rfl

instance : IsTrans (Renderer F) SameCapacities where
  trans _ _ _ hfirst hsecond := hsecond.trans hfirst

theorem putVertices_keeps (xScale zScale : F) (boundary : List F) :
    (putVertices xScale zScale boundary).Keeps SameCapacities := by
  have hput : ∀ entry : F, (vertexField.put entry).Keeps SameCapacities :=
    vertexField.put_keeps fun _ _ hcapacity => Prod.ext hcapacity rfl
  fun_induction putVertices xScale zScale boundary with
  | case1 x z rest ih =>
      iterate 6
        refine (hput _).bind ?_
        intro _
      exact ih
  | case2 x => exact Std.Refl.refl
  | case3 => exact Std.Refl.refl

omit [One F] [Mul F] in
theorem putIndices_keeps (n : ℕ) :
    (putIndices n : Method (Renderer F) Unit).Keeps SameCapacities := by
  rw [putIndices_eq]
  have hput : ∀ index : Int16,
      (indexField.put index : Method (Renderer F) Unit).Keeps
        SameCapacities :=
    indexField.put_keeps fun _ _ hcapacity => Prod.ext rfl hcapacity
  exact forEach_keeps fun index _ => hput index

/-- The sizes of the buffers are doubled from the initial ones, up to those for
a polygon with `2 ^ 26` corners. -/
structure Renderer.Sized (renderer : Renderer F) : Prop where
  vertices : ∃ steps ≤ 20, renderer.vertexBuffer.capacity = 384 * 2 ^ steps
  indices : ∃ steps ≤ 19, renderer.indexBuffer.capacity = 576 * 2 ^ steps

variable (inset : F → F)

section Sizes

variable {renderer : Renderer F} {corners : ℕ}

omit [Zero F] [One F] [Mul F] in
theorem Renderer.Sized.positive (hsized : renderer.Sized) :
    0 < renderer.vertexBuffer.capacity ∧
      0 < renderer.indexBuffer.capacity := by
  obtain ⟨steps, -, hcapacity⟩ := hsized.vertices
  obtain ⟨steps', -, hcapacity'⟩ := hsized.indices
  rw [hcapacity, hcapacity']
  exact ⟨by positivity, by positivity⟩

omit [Zero F] [One F] [Mul F] in
theorem Renderer.Sized.grown
    (hsized : renderer.Sized) (hfits : corners ≤ 2 ^ 26) :
    (∃ steps ≤ 20, grow (6 * corners) renderer.vertexBuffer.capacity =
        384 * 2 ^ steps) ∧
      ∃ steps ≤ 19, grow (3 * corners) renderer.indexBuffer.capacity =
        576 * 2 ^ steps := by
  obtain ⟨steps, hsteps, hcapacity⟩ := hsized.vertices
  obtain ⟨steps', hsteps', hcapacity'⟩ := hsized.indices
  rw [hcapacity, hcapacity']
  exact ⟨grow_pow_le (by omega) hsteps (by omega),
    grow_pow_le (by omega) hsteps' (by omega)⟩

omit [One F] [Mul F] in
/-- The fields once both buffers have room for the polygon. -/
theorem Renderer.Sized.prepared
    (hsized : renderer.Sized) (hfits : corners ≤ 2 ^ 26) :
    ∃ vertices indices,
      (vertexField.apply (Buffer.prepare 0 4 (corners * 2 * 3))).run renderer =
          .ok () { renderer with vertexBuffer := vertices } ∧
        (indexField.apply (Buffer.prepare 0 2 (corners * 3))).run
            { renderer with vertexBuffer := vertices } =
          .ok () ⟨vertices, indices⟩ ∧
        vertices.capacity =
          grow (6 * corners) renderer.vertexBuffer.capacity ∧
        vertices.limit = 6 * corners ∧ vertices.position = 0 ∧
        indices.capacity =
          grow (3 * corners) renderer.indexBuffer.capacity ∧
        indices.limit = 3 * corners ∧ indices.position = 0 := by
  have hsix : corners * 2 * 3 = 6 * corners := by omega
  have hthree : corners * 3 = 3 * corners := by omega
  rw [hsix, hthree]
  obtain ⟨⟨steps, hsteps, hgrown⟩, steps', hsteps', hgrown'⟩ :=
    hsized.grown hfits
  have hpow : 2 ^ steps ≤ 2 ^ 20 := Nat.pow_le_pow_right (by omega) hsteps
  have hpow' : 2 ^ steps' ≤ 2 ^ 19 := Nat.pow_le_pow_right (by omega) hsteps'
  obtain ⟨vertices, hvertices, hsize, hlimit, hstart⟩ :=
    Buffer.prepare_eq_ok (0 : F) (show 0 < 4 by omega) hsized.positive.1
      (show 4 * grow (6 * corners) renderer.vertexBuffer.capacity < 2 ^ 31 by
        rw [hgrown]
        omega)
  obtain ⟨indices, hindices, hsize', hlimit', hstart'⟩ :=
    Buffer.prepare_eq_ok (0 : Int16) (show 0 < 2 by omega) hsized.positive.2
      (show 2 * grow (3 * corners) renderer.indexBuffer.capacity < 2 ^ 31 by
        rw [hgrown']
        omega)
  exact ⟨vertices, indices, vertexField.run_apply_ok hvertices,
    indexField.run_apply_ok hindices, hsize, hlimit, hstart, hsize', hlimit',
    hstart'⟩

omit [Zero F] [One F] [Mul F] in
theorem Shape.corners_lt (shape : Shape F) : shape.corners < 2 ^ 28 := by
  cases hboundary : shape.boundary with
  | none => simp [Shape.corners, hboundary]
  | some boundary =>
      have hview := shape.isView boundary hboundary
      simp only [Shape.corners, hboundary, Option.getD_some]
      omega

/-- For a larger polygon the number of bytes turns negative. -/
theorem Renderer.Sized.update_run_of_large
    (hsized : renderer.Sized) {shape : Shape F}
    (hlarge : 2 ^ 26 < shape.corners) :
    (updatePlaneParameters inset shape).run renderer =
      .error .external renderer := by
  cases hboundary : shape.boundary with
  | none => simp [Shape.corners, hboundary] at hlarge
  | some boundary =>
      have hcorners : shape.corners = boundary.length / 2 := by
        simp [Shape.corners, hboundary]
      have hbound := shape.corners_lt
      obtain ⟨steps, hsteps, hcapacity⟩ := hsized.vertices
      have hpow : 2 ^ steps ≤ 2 ^ 20 := Nat.pow_le_pow_right (by omega) hsteps
      obtain ⟨steps', hsteps', hgrown⟩ :=
        grow_pow_le (show 0 < 384 by omega) (show steps ≤ 22 by omega)
          (show boundary.length / 2 * 2 * 3 ≤ 384 * 2 ^ 22 by omega)
      have hneed := @le_grow (boundary.length / 2 * 2 * 3) _ hsized.positive.1
      rw [hcapacity, hgrown] at hneed
      have hmany : 20 < steps' := by
        by_contra hfew
        have hpow' : 2 ^ steps' ≤ 2 ^ 20 :=
          Nat.pow_le_pow_right (by omega) (by omega)
        omega
      have hwraps : 2 ^ 31 ≤ 4 * (384 * 2 ^ steps') % 2 ^ 32 := by
        interval_cases steps' <;> decide
      have herror := Buffer.prepare_eq_error (0 : F)
        (show renderer.vertexBuffer.capacity < boundary.length / 2 * 2 * 3 by
          rw [hcapacity]
          omega)
        (show 2 ^ 31 ≤ 4 * grow (boundary.length / 2 * 2 * 3)
            renderer.vertexBuffer.capacity % 2 ^ 32 by
          rw [hcapacity, hgrown]
          exact hwraps)
      rw [updatePlaneParameters, hboundary]
      dsimp only
      rw [EStateM.run_bind, vertexField.run_apply_error herror]

end Sizes

/-- Without a boundary nothing is drawn. -/
theorem update_run_of_null
    {shape : Shape F} (hnull : shape.boundary = none)
    (renderer : Renderer F) :
    ∃ vertices indices,
      (updatePlaneParameters inset shape).run renderer =
          .ok () ⟨vertices, indices⟩ ∧
        vertices.capacity = renderer.vertexBuffer.capacity ∧
        indices.capacity = renderer.indexBuffer.capacity ∧
        indices.limit = 0 := by
  obtain ⟨vertices, hvertices, hcells, -, -⟩ :=
    Buffer.setLimit_eq_ok renderer.vertexBuffer (Nat.zero_le _)
  obtain ⟨indices, hindices, hcells', hlimit, -⟩ :=
    Buffer.setLimit_eq_ok renderer.indexBuffer (Nat.zero_le _)
  have hread : Buffer.setLimit 0
      (indexField.read (vertexField.write vertices renderer)) =
        .ok indices := hindices
  refine ⟨vertices, indices, ?_, congrArg List.length hcells,
    congrArg List.length hcells', hlimit⟩
  rw [updatePlaneParameters, hnull]
  dsimp only
  rw [EStateM.run_bind, vertexField.run_apply_ok hvertices]
  exact indexField.run_apply_ok hread

/-- The corners for which room is made. -/
def Shape.roomFor (shape : Shape F) : ℕ :=
  if shape.corners ≤ 2 ^ 26 then shape.corners else 0

omit [Zero F] [One F] [Mul F] in
theorem Shape.roomFor_le (shape : Shape F) : shape.roomFor ≤ 2 ^ 26 := by
  unfold Shape.roomFor
  split_ifs <;> omega

theorem Renderer.Sized.capacities_update
    {renderer : Renderer F} (hsized : renderer.Sized) (shape : Shape F) :
    ((updatePlaneParameters inset shape).after renderer).capacities =
      (grow (6 * shape.roomFor) renderer.vertexBuffer.capacity,
        grow (3 * shape.roomFor) renderer.indexBuffer.capacity) := by
  unfold Shape.roomFor
  split_ifs with hfits
  · cases hboundary : shape.boundary with
    | none =>
        obtain ⟨vertices, indices, hrun, hsize, hsize', -⟩ :=
          update_run_of_null inset hboundary renderer
        have hcorners : shape.corners = 0 := by
          simp [Shape.corners, hboundary]
        rw [Method.after_eq_of_ok hrun, hcorners, grow_of_le (Nat.zero_le _),
          grow_of_le (Nat.zero_le _)]
        exact Prod.ext hsize hsize'
    | some boundary =>
        have hcorners : shape.corners = boundary.length / 2 := by
          simp [Shape.corners, hboundary]
        rw [hcorners] at hfits ⊢
        obtain ⟨vertices, indices, hfirst, hsecond, hsize, -, -, hsize', -⟩ :=
          hsized.prepared hfits
        rw [updatePlaneParameters, hboundary]
        dsimp only
        rw [Method.after_bind_of_ok hfirst, Method.after_bind_of_ok hsecond]
        have hkeeps := (putVertices_keeps (inset shape.extentX)
          (inset shape.extentZ) boundary).bind fun _ =>
            putIndices_keeps (boundary.length / 2)
        refine (hkeeps ⟨vertices, indices⟩).trans ?_
        exact Prod.ext hsize hsize'
  · have hrun := hsized.update_run_of_large inset (not_le.mp hfits)
    rw [Method.after, hrun, grow_of_le (Nat.zero_le _),
      grow_of_le (Nat.zero_le _)]
    rfl

theorem Renderer.Sized.update
    {renderer : Renderer F} (hsized : renderer.Sized) (shape : Shape F) :
    ((updatePlaneParameters inset shape).after renderer).Sized := by
  have hcapacities := hsized.capacities_update inset shape
  obtain ⟨hvertices, hindices⟩ := hsized.grown shape.roomFor_le
  have hfirst : ((updatePlaneParameters inset shape).after
      renderer).vertexBuffer.capacity = _ := congrArg Prod.fst hcapacities
  have hsecond : ((updatePlaneParameters inset shape).after
      renderer).indexBuffer.capacity = _ := congrArg Prod.snd hcapacities
  exact ⟨by rw [hfirst]; exact hvertices, by rw [hsecond]; exact hindices⟩

theorem Renderer.Sized.run
    {renderer : Renderer F} (hsized : renderer.Sized)
    (shapes : List (Shape F)) :
    (renderer.run inset shapes).Sized := by
  induction shapes generalizing renderer with
  | nil => exact hsized
  | cons shape rest ih => exact ih (hsized.update inset shape)

omit [One F] [Mul F] in
theorem sized_initial : (Renderer.initial : Renderer F).Sized where
  vertices := ⟨0, by omega, by
    rw [Renderer.initial, Buffer.capacity_allocate]
    omega⟩
  indices := ⟨0, by omega, by
    rw [Renderer.initial, Buffer.capacity_allocate]
    omega⟩

/-! ## What a call leaves in the buffers -/

theorem contents_eq
    {α : Type} {buffer after : Buffer α} {entries : List α}
    (hstart : buffer.position = 0) (hfull : buffer.limit = entries.length)
    (hlimit : after.limit = buffer.limit)
    (hcells : after.cells = buffer.cells.take buffer.position ++ entries ++
      buffer.cells.drop (buffer.position + entries.length)) :
    after.contents = entries := by
  rw [Buffer.contents, hlimit, hfull, hcells, hstart]
  simp

theorem Renderer.Sized.update_run
    {renderer : Renderer F} (hsized : renderer.Sized)
    {shape : Shape F} {boundary : List F}
    (hboundary : shape.boundary = some boundary)
    (heven : boundary.length % 2 = 0) (hcorners : 2 ≤ boundary.length / 2)
    (hfits : boundary.length / 2 ≤ 2 ^ 26) :
    ∃ after,
      (updatePlaneParameters inset shape).run renderer = .ok () after ∧
        after.vertexBuffer.contents =
          vertexList (inset shape.extentX) (inset shape.extentZ) boundary ∧
        after.indexBuffer.contents =
          (indexList (boundary.length / 2)).map Int16.ofInt := by
  obtain ⟨vertices, indices, hfirst, hsecond, -, hlimit, hstart, -, hlimit',
    hstart'⟩ := hsized.prepared hfits
  have hvertexLength := length_vertexList (inset shape.extentX)
    (inset shape.extentZ) boundary
  have hindexLength : ((indexList (boundary.length / 2)).map
      Int16.ofInt).length = 3 * (boundary.length / 2) := by
    simp [indexList_eq hcorners]
  obtain ⟨vertices', hthird, hkept, hcells⟩ := vertexField.run_putAll
    (show (vertexField.read ⟨vertices, indices⟩).position +
        (vertexList (inset shape.extentX) (inset shape.extentZ)
          boundary).length ≤
      (vertexField.read ⟨vertices, indices⟩).limit by
        simp only [vertexField, hlimit, hstart, hvertexLength]
        omega)
  obtain ⟨indices', hfourth, hkept', hcells'⟩ := indexField.run_putAll
    (show (indexField.read ⟨vertices', indices⟩).position +
        ((indexList (boundary.length / 2)).map Int16.ofInt).length ≤
      (indexField.read ⟨vertices', indices⟩).limit by
        simp only [indexField, hlimit', hstart', hindexLength]
        omega)
  refine ⟨⟨vertices', indices'⟩, ?_, ?_, ?_⟩
  · rw [updatePlaneParameters, hboundary]
    dsimp only
    rw [EStateM.run_bind, hfirst]
    dsimp only
    rw [EStateM.run_bind, hsecond]
    dsimp only
    rw [putVertices_eq _ _ heven, EStateM.run_bind, hthird]
    dsimp only
    rw [putIndices_eq]
    exact hfourth
  · exact contents_eq hstart (by rw [hlimit, hvertexLength]; omega) hkept hcells
  · exact contents_eq hstart' (by rw [hlimit', hindexLength]) hkept' hcells'

theorem Renderer.Sized.update_throws
    {renderer : Renderer F} (hsized : renderer.Sized)
    {shape : Shape F} {boundary : List F}
    (hboundary : shape.boundary = some boundary)
    (hbad : boundary.length % 2 = 1 ∨ boundary.length / 2 < 2 ∨
      2 ^ 26 < boundary.length / 2) :
    (updatePlaneParameters inset shape).Throws renderer := by
  have hcorners : shape.corners = boundary.length / 2 := by
    simp [Shape.corners, hboundary]
  by_cases hlarge : 2 ^ 26 < boundary.length / 2
  · rw [← hcorners] at hlarge
    exact ⟨_, _, hsized.update_run_of_large inset hlarge⟩
  obtain ⟨vertices, indices, hfirst, hsecond, -, hlimit, hstart, -, hlimit',
    hstart'⟩ := hsized.prepared (not_lt.mp hlarge)
  rw [updatePlaneParameters, hboundary]
  refine Method.Throws.of_bind hfirst ?_
  refine Method.Throws.of_bind hsecond ?_
  rcases Nat.mod_two_eq_zero_or_one boundary.length with heven | hodd
  · -- The vertices fit, but there are more indices than the limit allows.
    have hlength := length_vertexList (inset shape.extentX)
      (inset shape.extentZ) boundary
    obtain ⟨vertices', hthird, -, -⟩ := vertexField.run_putAll
      (show (vertexField.read ⟨vertices, indices⟩).position +
          (vertexList (inset shape.extentX) (inset shape.extentZ)
            boundary).length ≤
        (vertexField.read ⟨vertices, indices⟩).limit by
          simp only [vertexField, hlimit, hstart, hlength]
          omega)
    rw [putVertices_eq _ _ heven]
    refine Method.Throws.of_bind hthird ?_
    rw [putIndices_eq]
    apply indexField.putAll_throws
    have hmany : 3 * (boundary.length / 2) <
        (indexList (boundary.length / 2)).length := by
      have hfew : boundary.length / 2 = 0 ∨ boundary.length / 2 = 1 := by
        omega
      rcases hfew with hzero | hone
      · rw [hzero]
        decide
      · rw [hone]
        decide
    simpa [indexField, vertexField, hlimit', hstart'] using hmany
  · exact (putVertices_throws _ _ hodd _).bind _

end Calls

/-! ## Whole runs -/

section Runs

variable {F : Type} [Zero F] [One F] [Mul F] (inset : F → F)

/-- The most corners for which room has been made. -/
def largest (shapes : List (Shape F)) : ℕ :=
  (shapes.map Shape.roomFor).foldr max 0

theorem Renderer.Sized.capacities_run
    {renderer : Renderer F} (hsized : renderer.Sized)
    (shapes : List (Shape F)) :
    (renderer.run inset shapes).capacities =
      (grow (6 * largest shapes) renderer.vertexBuffer.capacity,
        grow (3 * largest shapes) renderer.indexBuffer.capacity) := by
  induction shapes generalizing renderer with
  | nil =>
      rw [show largest ([] : List (Shape F)) = 0 from rfl,
        grow_of_le (Nat.zero_le _), grow_of_le (Nat.zero_le _)]
      rfl
  | cons shape rest ih =>
      have hstep := hsized.capacities_update inset shape
      have hrest := ih (hsized.update inset shape)
      have hvertices : ((updatePlaneParameters inset shape).after
          renderer).vertexBuffer.capacity = _ := congrArg Prod.fst hstep
      have hindices : ((updatePlaneParameters inset shape).after
          renderer).indexBuffer.capacity = _ := congrArg Prod.snd hstep
      rw [hvertices, hindices, grow_grow hsized.positive.1,
        grow_grow hsized.positive.2] at hrest
      have hlargest : largest (shape :: rest) =
          max shape.roomFor (largest rest) := rfl
      rw [hlargest, ← Nat.mul_max_mul_left, ← Nat.mul_max_mul_left]
      exact hrest

/-- The buffers are as large as the largest polygon so far made them, and a
call fails exactly for a boundary which is no polygon or too large. -/
theorem updatePlaneParameters_run
    (shapes : List (Shape F)) (shape : Shape F) :
    ((Renderer.initial.run inset shapes).capacities =
        (grow (6 * largest shapes) 384, grow (3 * largest shapes) 576)) ∧
      ((updatePlaneParameters inset shape).Throws
          (Renderer.initial.run inset shapes) ↔
        ∃ boundary, shape.boundary = some boundary ∧
          (boundary.length % 2 = 1 ∨ boundary.length / 2 < 2 ∨
            2 ^ 26 < boundary.length / 2)) := by
  have hstart := sized_initial (F := F)
  have hsized := hstart.run inset shapes
  constructor
  · have hcapacities := hstart.capacities_run inset shapes
    rw [Renderer.initial, Buffer.capacity_allocate,
      Buffer.capacity_allocate] at hcapacities
    exact hcapacities
  · constructor
    · intro hthrows
      cases hboundary : shape.boundary with
      | none =>
          obtain ⟨vertices, indices, hrun, -⟩ := update_run_of_null inset
            hboundary (Renderer.initial.run inset shapes)
          exact absurd hthrows (Method.not_throws_of_ok hrun)
      | some boundary =>
          refine ⟨boundary, rfl, ?_⟩
          by_contra hgood
          obtain ⟨after, hrun, -, -⟩ := hsized.update_run inset hboundary
            (by omega) (by omega) (by omega)
          exact absurd hthrows (Method.not_throws_of_ok hrun)
    · rintro ⟨boundary, hboundary, hbad⟩
      exact hsized.update_throws inset hboundary hbad

omit [Zero F] [One F] [Mul F] in
theorem drawnIndices_eq
    {renderer : Renderer F} {n : ℕ} (hn : 2 ≤ n) (hshort : n ≤ 32768)
    (hcontents :
      renderer.indexBuffer.contents = (indexList n).map Int16.ofInt) :
    renderer.drawnIndices = (List.range (3 * n)).map (stripVertex n) := by
  rw [Renderer.drawnIndices, hcontents, indexList_eq hn, List.map_map,
    List.map_map]
  refine List.map_congr_left fun k hk => ?_
  have hvertex := stripVertex_lt hn (List.mem_range.mp hk)
  exact toUInt16_ofInt (by omega)

/-- The indices drawn for a plane, none if it has no boundary. -/
def Shape.strip (shape : Shape F) : List ℕ :=
  match shape.boundary with
  | some _ => (List.range (3 * shape.corners)).map (stripVertex shape.corners)
  | none => []

theorem Renderer.Sized.drawnIndices_of_ok
    {renderer after : Renderer F} (hsized : renderer.Sized)
    {shape : Shape F} (hshort : shape.corners ≤ 32768)
    (hrun : (updatePlaneParameters inset shape).run renderer =
      .ok () after) :
    after.drawnIndices = shape.strip := by
  cases hboundary : shape.boundary with
  | none =>
      obtain ⟨vertices, indices, hnull, -, -, hlimit⟩ :=
        update_run_of_null inset hboundary renderer
      have hafter : after = ⟨vertices, indices⟩ := by
        rw [hrun] at hnull
        cases hnull
        rfl
      simp [hafter, Renderer.drawnIndices, Buffer.contents, hlimit,
        Shape.strip, hboundary]
  | some boundary =>
      have hcorners : shape.corners = boundary.length / 2 := by
        simp [Shape.corners, hboundary]
      by_cases hbad : boundary.length % 2 = 1 ∨ boundary.length / 2 < 2 ∨
          2 ^ 26 < boundary.length / 2
      · have hthrows := hsized.update_throws inset hboundary hbad
        exact absurd hthrows (Method.not_throws_of_ok hrun)
      · obtain ⟨after', hrun', -, hindices⟩ := hsized.update_run inset
          hboundary (by omega) (by omega) (by omega)
        have hafter : after = after' := by
          rw [hrun] at hrun'
          cases hrun'
          rfl
        rw [← hafter] at hindices
        rw [drawnIndices_eq (by omega) (by omega) hindices]
        simp [Shape.strip, hboundary, hcorners]

theorem triangles_drawn
    {n : ℕ} (hn : 3 ≤ n) :
    triangles ((List.range (3 * n)).map (stripVertex n)) = mesh n := by
  have hlength : 3 * n = 3 * n - 2 + 2 := by omega
  rw [hlength, triangles_range]
  rfl

/-- Whatever was drawn before. -/
theorem exists_drawn
    (shapes : List (Shape F)) {shape : Shape F} {boundary : List F} {n : ℕ}
    (hboundary : shape.boundary = some boundary)
    (hlength : boundary.length = 2 * n) (hn : 3 ≤ n) (hshort : n ≤ 32768) :
    ∃ after, (updatePlaneParameters inset shape).run
        (Renderer.initial.run inset shapes) = .ok () after ∧
      after.vertexBuffer.contents =
        vertexList (inset shape.extentX) (inset shape.extentZ) boundary ∧
      after.drawnIndices = (List.range (3 * n)).map (stripVertex n) ∧
      triangles after.drawnIndices = mesh n := by
  have hsized := (sized_initial (F := F)).run inset shapes
  have hcorners : boundary.length / 2 = n := by omega
  obtain ⟨after, hrun, hvertices, hindices⟩ := hsized.update_run inset
    hboundary (by omega) (by omega) (by omega)
  rw [hcorners] at hindices
  have hstrip := drawnIndices_eq (by omega) hshort hindices
  exact ⟨after, hrun, hvertices, hstrip, by rw [hstrip, triangles_drawn hn]⟩

/-- A polygon with at least three corners is drawn as a mesh whose border is
the polygon, with the triangles the source counts with. -/
theorem plane_drawn_as_mesh
    (shapes : List (Shape F)) (shape : Shape F) (boundary : List F) (n : ℕ)
    (hboundary : shape.boundary = some boundary)
    (hlength : boundary.length = 2 * n) (hn : 3 ≤ n) (hshort : n ≤ 32768) :
    ∃ after, (updatePlaneParameters inset shape).run
        (Renderer.initial.run inset shapes) = .ok () after ∧
      after.vertexBuffer.contents =
        vertexList (inset shape.extentX) (inset shape.extentZ) boundary ∧
      after.drawnIndices = (List.range (3 * n)).map (stripVertex n) ∧
      (triangles after.drawnIndices).length = (n - 2) + 2 * n ∧
      Patch (triangles after.drawnIndices) (outline n) := by
  obtain ⟨after, hrun, hvertices, hstrip, hmesh⟩ :=
    exists_drawn inset shapes hboundary hlength hn hshort
  refine ⟨after, hrun, hvertices, hstrip, ?_, ?_⟩
  · rw [hmesh, mesh, List.length_map, List.length_range]
    omega
  · rw [hmesh]
    exact mesh_patch hn

/-- Wherever the vertices are, the areas of the triangles add up to the area of
the polygon. -/
theorem plane_drawn_area
    {R : Type} [CommRing R]
    (shapes : List (Shape F)) (shape : Shape F) (boundary : List F) (n : ℕ)
    (hboundary : shape.boundary = some boundary)
    (hlength : boundary.length = 2 * n) (hn : 3 ≤ n) (hshort : n ≤ 32768) :
    ∃ after, (updatePlaneParameters inset shape).run
        (Renderer.initial.run inset shapes) = .ok () after ∧
      ∀ position : ℕ → R × R,
        ((triangles after.drawnIndices).map (doubledArea position)).sum =
          ((List.range n).map fun i =>
            cross (position (2 * i)) (position (2 * ((i + 1) % n)))).sum := by
  obtain ⟨after, hrun, -, -, hmesh⟩ :=
    exists_drawn inset shapes hboundary hlength hn hshort
  refine ⟨after, hrun, fun position => ?_⟩
  rw [hmesh, (mesh_patch hn).sum_doubledArea position, outline, List.map_map]
  rfl

end Runs

/-! ## A table top -/

/-- The factor of the source, with exact numbers. -/
def tableInset (extent : ℚ) : ℚ :=
  max ((extent - 2 * (1 / 4)) / extent) 0

def tableTop : Shape ℚ where
  extentX := 4
  extentZ := 2
  boundary := some [0, 0, 4, 0, 4, 2, 0, 2]
  isView := by simp

/-- A plane without a boundary, and one which is not a polygon. -/
def earlierShapes : List (Shape ℚ) :=
  [⟨1, 1, none, by simp⟩, ⟨1, 1, some [5, 5], by simp⟩]

theorem plane_drawn_as_mesh_tableTop :
    tableTop.boundary = some [0, 0, 4, 0, 4, 2, 0, 2] ∧
      ∃ after, (updatePlaneParameters tableInset tableTop).run
          (Renderer.initial.run tableInset earlierShapes) = .ok () after ∧
        after.vertexBuffer.contents =
          vertexList (tableInset 4) (tableInset 2)
            [0, 0, 4, 0, 4, 2, 0, 2] ∧
        after.drawnIndices = (List.range (3 * 4)).map (stripVertex 4) ∧
        (triangles after.drawnIndices).length = (4 - 2) + 2 * 4 ∧
        Patch (triangles after.drawnIndices) (outline 4) :=
  ⟨rfl, plane_drawn_as_mesh tableInset earlierShapes tableTop _ 4 rfl rfl
    (by decide) (by decide)⟩

theorem plane_drawn_area_tableTop :
    tableTop.boundary = some [0, 0, 4, 0, 4, 2, 0, 2] ∧
      ∃ after, (updatePlaneParameters tableInset tableTop).run
          (Renderer.initial.run tableInset earlierShapes) = .ok () after ∧
        ∀ position : ℕ → ℤ × ℤ,
          ((triangles after.drawnIndices).map (doubledArea position)).sum =
            ((List.range 4).map fun i =>
              cross (position (2 * i))
                (position (2 * ((i + 1) % 4)))).sum :=
  ⟨rfl, plane_drawn_area tableInset earlierShapes tableTop _ 4 rfl rfl
    (by decide) (by decide)⟩

end Plane
end HighRollers
