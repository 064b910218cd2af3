import Mathlib.Tactic

/-!
# Triangle strips

A strip of vertices is drawn as the triangles of its consecutive triples, every
second one with its first two vertices exchanged, so that all turn the same
way.  Triangles fit together if no directed edge occurs twice; an edge whose
reverse does not occur is on the border.  Whatever is added up along the edges
and changes its sign with their direction, such as an area, is then determined
by the border.
-/

namespace TriangleStrip

variable {V : Type}

structure Triangle (V : Type) where
  first : V
  second : V
  third : V
  deriving DecidableEq, Repr

namespace Triangle

def edges (triangle : Triangle V) : List (V × V) :=
  [(triangle.first, triangle.second), (triangle.second, triangle.third),
    (triangle.third, triangle.first)]

def Proper (triangle : Triangle V) : Prop :=
  triangle.first ≠ triangle.second ∧ triangle.second ≠ triangle.third ∧
    triangle.third ≠ triangle.first

end Triangle

def trianglesFrom (exchanged : Bool) : List V → List (Triangle V)
  | a :: b :: c :: rest =>
      (if exchanged then ⟨b, a, c⟩ else ⟨a, b, c⟩) ::
        trianglesFrom (!exchanged) (b :: c :: rest)
  | _ => []

/-- The triangles of `GL_TRIANGLE_STRIP`. -/
def triangles (strip : List V) : List (Triangle V) :=
  trianglesFrom false strip

def edgesOf (patch : List (Triangle V)) : List (V × V) :=
  patch.flatMap Triangle.edges

/-! ## Strips given by a function -/

/-- The triangle with the number `k` of the strip `at 0, at 1, …`. -/
def triangleAt (vertex : ℕ → V) (k : ℕ) : Triangle V :=
  if k % 2 = 0 then ⟨vertex k, vertex (k + 1), vertex (k + 2)⟩
  else ⟨vertex (k + 1), vertex k, vertex (k + 2)⟩

theorem trianglesFrom_range
    (vertex : ℕ → V) (start length : ℕ) :
    trianglesFrom (decide (start % 2 = 1))
        ((List.range' start (length + 2)).map vertex) =
      (List.range' start length).map (triangleAt vertex) := by
  induction length generalizing start with
  | zero => simp [List.range', trianglesFrom]
  | succ length ih =>
      have hnext := ih (start + 1)
      have hturn : (!decide (start % 2 = 1)) =
          decide ((start + 1) % 2 = 1) := by
        rcases Nat.mod_two_eq_zero_or_one start with heven | hodd
        · have hsucc : (start + 1) % 2 = 1 := by omega
          simp [heven, hsucc]
        · have hsucc : (start + 1) % 2 = 0 := by omega
          simp [hodd, hsucc]
      have hunfold : List.range' start (length + 1 + 2) =
          start :: (start + 1) :: (start + 2) ::
            List.range' (start + 3) length := by
        simp [List.range']
      have hrest : List.range' (start + 1) (length + 2) =
          (start + 1) :: (start + 2) :: List.range' (start + 3) length := by
        simp [List.range']
      rw [hrest, List.map_cons, List.map_cons] at hnext
      rw [hunfold, List.map_cons, List.map_cons, List.map_cons,
        trianglesFrom, hturn, hnext, List.range'_succ, List.map_cons,
        triangleAt]
      congr 1
      rcases Nat.mod_two_eq_zero_or_one start with heven | hodd
      · simp [heven]
      · simp [hodd]

theorem triangles_range (vertex : ℕ → V) (length : ℕ) :
    triangles ((List.range (length + 2)).map vertex) =
      (List.range length).map (triangleAt vertex) := by
  have hstrip := trianglesFrom_range vertex 0 length
  rw [← List.range_eq_range', ← List.range_eq_range'] at hstrip
  exact hstrip

/-! ## Patches -/

structure Patch (patch : List (Triangle V)) (border : List (V × V)) :
    Prop where
  proper : ∀ triangle ∈ patch, triangle.Proper
  nodup : (edgesOf patch).Nodup
  border_nodup : border.Nodup
  mem_border : ∀ u v, (u, v) ∈ border ↔
    (u, v) ∈ edgesOf patch ∧ (v, u) ∉ edgesOf patch

/-- Every directed edge has one triangle, whose number is `face`. -/
theorem nodup_edgesOf_of_face
    {triangle : ℕ → Triangle V} {count : ℕ} (face : V → V → Option ℕ)
    (hproper : ∀ k < count, (triangle k).Proper)
    (hface : ∀ k < count, ∀ u v, (u, v) ∈ (triangle k).edges →
      face u v = some k) :
    (edgesOf ((List.range count).map triangle)).Nodup := by
  unfold edgesOf
  rw [List.flatMap_map, List.nodup_flatMap]
  constructor
  · intro k hk
    obtain ⟨hab, hbc, hca⟩ := hproper k (List.mem_range.mp hk)
    simp [Triangle.edges, hab, hbc, hca, hca.symm, hab.symm]
  · refine List.nodup_range.imp_of_mem ?_
    intro k k' hk hk' hne
    rw [List.mem_range] at hk hk'
    rintro ⟨u, v⟩ hedge hedge'
    have hsame := (hface k hk u v hedge).symm.trans (hface k' hk' u v hedge')
    exact hne (Option.some.inj hsame)

section Sums

variable {G : Type} [AddCommGroup G] [DecidableEq V]

/-- Inside the patch every edge is met in both directions. -/
theorem Patch.sum_eq
    {patch : List (Triangle V)} {border : List (V × V)}
    (hpatch : Patch patch border) (weight : V → V → G)
    (hweight : ∀ u v, weight v u = - weight u v) :
    ((edgesOf patch).map fun edge => weight edge.1 edge.2).sum =
      (border.map fun edge => weight edge.1 edge.2).sum := by
  have hedges := List.sum_toFinset (fun edge => weight edge.1 edge.2)
    hpatch.nodup
  have hborder := List.sum_toFinset (fun edge => weight edge.1 edge.2)
    hpatch.border_nodup
  rw [← hedges, ← hborder]
  have hsubset : border.toFinset ⊆ (edgesOf patch).toFinset := by
    intro edge hedge
    rw [List.mem_toFinset] at hedge ⊢
    exact ((hpatch.mem_border edge.1 edge.2).mp hedge).1
  rw [← Finset.sum_sdiff hsubset, add_eq_right]
  have hloop : ∀ u, (u, u) ∉ edgesOf patch := by
    intro u hedge
    obtain ⟨triangle, htriangle, hmem⟩ := List.mem_flatMap.mp hedge
    obtain ⟨hab, hbc, hca⟩ := hpatch.proper triangle htriangle
    simp only [Triangle.edges, List.mem_cons, Prod.mk.injEq,
      List.not_mem_nil, or_false] at hmem
    rcases hmem with ⟨h₁, h₂⟩ | ⟨h₁, h₂⟩ | ⟨h₁, h₂⟩
    · exact hab (h₁.symm.trans h₂)
    · exact hbc (h₁.symm.trans h₂)
    · exact hca (h₁.symm.trans h₂)
  have hmem : ∀ edge, edge ∈ (edgesOf patch).toFinset \ border.toFinset ↔
      edge ∈ edgesOf patch ∧ edge.swap ∈ edgesOf patch := by
    intro edge
    have hside := hpatch.mem_border edge.1 edge.2
    simp only [Prod.mk.eta] at hside
    simp only [Finset.mem_sdiff, List.mem_toFinset, hside, Prod.swap]
    tauto
  refine Finset.sum_involution (fun edge _ => edge.swap) ?_ ?_ ?_ ?_
  · intro edge _
    simp [hweight edge.1 edge.2]
  · intro edge hedge _ hswap
    have hself : edge.1 = edge.2 := (congrArg Prod.snd hswap)
    refine hloop edge.1 ?_
    have hhere := ((hmem edge).mp hedge).1
    rwa [← Prod.mk.eta (p := edge), ← hself] at hhere
  · intro edge hedge
    rw [hmem] at hedge ⊢
    simpa using hedge.symm
  · intro edge _
    exact Prod.swap_swap edge

end Sums

/-! ## Areas -/

section Areas

variable {R : Type} [CommRing R]

def cross (p q : R × R) : R :=
  p.1 * q.2 - q.1 * p.2

/-- Twice the area of a triangle, negative if it turns the other way. -/
def doubledArea (position : V → R × R) (triangle : Triangle V) : R :=
  ((position triangle.second).1 - (position triangle.first).1) *
      ((position triangle.third).2 - (position triangle.first).2) -
    ((position triangle.third).1 - (position triangle.first).1) *
      ((position triangle.second).2 - (position triangle.first).2)

theorem doubledArea_eq (position : V → R × R) (triangle : Triangle V) :
    doubledArea position triangle =
      (triangle.edges.map fun edge =>
        cross (position edge.1) (position edge.2)).sum := by
  simp only [doubledArea, cross, Triangle.edges, List.map_cons, List.map_nil,
    List.sum_cons, List.sum_nil]
  ring

theorem sum_doubledArea_eq
    (position : V → R × R) (patch : List (Triangle V)) :
    (patch.map (doubledArea position)).sum =
      ((edgesOf patch).map fun edge =>
        cross (position edge.1) (position edge.2)).sum := by
  unfold edgesOf
  rw [List.map_flatMap]
  induction patch with
  | nil => rfl
  | cons triangle rest ih =>
      rw [List.map_cons, List.sum_cons, List.flatMap_cons, List.sum_append,
        doubledArea_eq, ih]

theorem Patch.sum_doubledArea
    [DecidableEq V] {patch : List (Triangle V)} {border : List (V × V)}
    (hpatch : Patch patch border) (position : V → R × R) :
    (patch.map (doubledArea position)).sum =
      (border.map fun edge =>
        cross (position edge.1) (position edge.2)).sum := by
  have hcross : ∀ u v, cross (position v) (position u) =
      - cross (position u) (position v) := by
    intro u v
    unfold cross
    ring
  rw [sum_doubledArea_eq]
  exact hpatch.sum_eq (fun u v => cross (position u) (position v)) hcross

end Areas

end TriangleStrip
