import HighRollers.TriangleStrips

/-!
# The mesh of a plane

`PlaneRenderer` draws a polygon with `n` corners as one triangle strip over
`2 n` vertices: the corner `i` has the number `2 i`, and `2 i + 1` is its copy
which is moved inwards.  The strip first goes round the perimeter and then to
and fro between the copies.  The triangles fit together, and their border is
the polygon.
-/

namespace HighRollers
namespace Plane

open TriangleStrip

/-- The index at place `k` of the strip. -/
def stripVertex (n k : ℕ) : ℕ :=
  if k = 0 then 2 * (n - 1)
  else if k ≤ 2 * n then k - 1
  else if k % 2 = 0 then 2 * (n - 1 - (k - 2 * n) / 2) + 1
  else 2 * ((k - 2 * n) / 2) + 1

def meshTriangle (n k : ℕ) : Triangle ℕ :=
  triangleAt (stripVertex n) k

/-- The triangles of the strip, `2 n` for the perimeter and `n - 2` to fill
the inside. -/
def mesh (n : ℕ) : List (Triangle ℕ) :=
  (List.range (3 * n - 2)).map (meshTriangle n)

def outline (n : ℕ) : List (ℕ × ℕ) :=
  (List.range n).map fun i => (2 * i, 2 * ((i + 1) % n))

/-! ## The kinds of triangles -/

theorem stripVertex_low {n k : ℕ} (hpos : 0 < k) (hlow : k ≤ 2 * n) :
    stripVertex n k = k - 1 := by
  rw [stripVertex, if_neg (by omega), if_pos hlow]

theorem stripVertex_even {n : ℕ} (hn : 0 < n) (j : ℕ) :
    stripVertex n (2 * n + 2 * j) = 2 * (n - 1 - j) + 1 := by
  unfold stripVertex
  split_ifs <;> omega

theorem stripVertex_odd (n j : ℕ) :
    stripVertex n (2 * n + 2 * j + 1) = 2 * j + 1 := by
  have hodd : ¬ (2 * n + 2 * j + 1) % 2 = 0 := by omega
  rw [stripVertex, if_neg (by omega), if_neg (by omega), if_neg hodd]
  omega

theorem meshTriangle_even (n i : ℕ) :
    meshTriangle n (2 * i) = ⟨stripVertex n (2 * i),
      stripVertex n (2 * i + 1), stripVertex n (2 * i + 2)⟩ := by
  rw [meshTriangle, triangleAt, if_pos (by omega)]

theorem meshTriangle_odd (n i : ℕ) :
    meshTriangle n (2 * i + 1) = ⟨stripVertex n (2 * i + 2),
      stripVertex n (2 * i + 1), stripVertex n (2 * i + 3)⟩ := by
  rw [meshTriangle, triangleAt, if_neg (by omega)]

section Kinds

variable {n i j : ℕ}

theorem meshTriangle_first (hn : 3 ≤ n) :
    meshTriangle n 0 = ⟨2 * n - 2, 0, 1⟩ := by
  have hclose : stripVertex n 0 = 2 * n - 2 := by
    rw [stripVertex, if_pos rfl]
    omega
  have hone : stripVertex n 1 = 0 := stripVertex_low (by omega) (by omega)
  have htwo : stripVertex n 2 = 1 := stripVertex_low (by omega) (by omega)
  have htriangle := meshTriangle_even n 0
  simp only [Nat.mul_zero, Nat.zero_add, hclose, hone, htwo] at htriangle
  exact htriangle

theorem meshTriangle_outer (hi : i + 1 < n) :
    meshTriangle n (2 * i + 1) = ⟨2 * i + 1, 2 * i, 2 * i + 2⟩ := by
  rw [meshTriangle_odd, stripVertex_low (by omega) (by omega),
    stripVertex_low (by omega) (by omega),
    stripVertex_low (by omega) (by omega)]
  simp

theorem meshTriangle_inner (hi : i + 1 < n) :
    meshTriangle n (2 * i + 2) = ⟨2 * i + 1, 2 * i + 2, 2 * i + 3⟩ := by
  rw [show 2 * i + 2 = 2 * (i + 1) by omega, meshTriangle_even,
    stripVertex_low (by omega) (by omega),
    stripVertex_low (by omega) (by omega),
    stripVertex_low (by omega) (by omega), Triangle.mk.injEq]
  omega

theorem meshTriangle_last (hn : 3 ≤ n) :
    meshTriangle n (2 * n - 1) = ⟨2 * n - 1, 2 * n - 2, 1⟩ := by
  have hodd := stripVertex_odd n 0
  rw [show 2 * n - 1 = 2 * (n - 1) + 1 by omega, meshTriangle_odd,
    stripVertex_low (by omega) (by omega),
    stripVertex_low (by omega) (by omega),
    show 2 * (n - 1) + 3 = 2 * n + 2 * 0 + 1 by omega, hodd,
    Triangle.mk.injEq]
  omega

theorem meshTriangle_fill (hj : 2 * j + 3 ≤ n) :
    meshTriangle n (2 * n + 2 * j) =
      ⟨2 * (n - 1 - j) + 1, 2 * j + 1, 2 * (n - 2 - j) + 1⟩ := by
  have hnext := stripVertex_even (n := n) (by omega) (j + 1)
  rw [show 2 * n + 2 * j = 2 * (n + j) by omega, meshTriangle_even,
    show 2 * (n + j) = 2 * n + 2 * j by omega, stripVertex_even (by omega),
    stripVertex_odd, show 2 * n + 2 * j + 2 = 2 * n + 2 * (j + 1) by omega,
    hnext, Triangle.mk.injEq]
  omega

theorem meshTriangle_fillBack (hj : 2 * j + 4 ≤ n) :
    meshTriangle n (2 * n + 2 * j + 1) =
      ⟨2 * (n - 2 - j) + 1, 2 * j + 1, 2 * j + 3⟩ := by
  have hnext := stripVertex_even (n := n) (by omega) (j + 1)
  have hafter := stripVertex_odd n (j + 1)
  rw [show 2 * n + 2 * j + 1 = 2 * (n + j) + 1 by omega, meshTriangle_odd,
    show 2 * (n + j) + 2 = 2 * n + 2 * (j + 1) by omega, hnext,
    show 2 * (n + j) + 1 = 2 * n + 2 * j + 1 by omega, stripVertex_odd,
    show 2 * (n + j) + 3 = 2 * n + 2 * (j + 1) + 1 by omega, hafter,
    Triangle.mk.injEq]
  omega

end Kinds

/-- The triangles of the mesh with their numbers. -/
inductive IsMeshTriangle (n : ℕ) : ℕ → Triangle ℕ → Prop
  | first : IsMeshTriangle n 0 ⟨2 * n - 2, 0, 1⟩
  | outer (i : ℕ) (hi : i + 1 < n) :
      IsMeshTriangle n (2 * i + 1) ⟨2 * i + 1, 2 * i, 2 * i + 2⟩
  | inner (i : ℕ) (hi : i + 1 < n) :
      IsMeshTriangle n (2 * i + 2) ⟨2 * i + 1, 2 * i + 2, 2 * i + 3⟩
  | last : IsMeshTriangle n (2 * n - 1) ⟨2 * n - 1, 2 * n - 2, 1⟩
  | fill (j : ℕ) (hj : 2 * j + 3 ≤ n) :
      IsMeshTriangle n (2 * n + 2 * j)
        ⟨2 * (n - 1 - j) + 1, 2 * j + 1, 2 * (n - 2 - j) + 1⟩
  | fillBack (j : ℕ) (hj : 2 * j + 4 ≤ n) :
      IsMeshTriangle n (2 * n + 2 * j + 1)
        ⟨2 * (n - 2 - j) + 1, 2 * j + 1, 2 * j + 3⟩

theorem isMeshTriangle
    {n k : ℕ} (hn : 3 ≤ n) (hk : k < 3 * n - 2) :
    IsMeshTriangle n k (meshTriangle n k) := by
  by_cases heven : k % 2 = 0
  · by_cases hzero : k = 0
    · rw [hzero, meshTriangle_first hn]
      exact .first
    · by_cases hlow : k < 2 * n
      · obtain ⟨i, rfl⟩ : ∃ i, k = 2 * i + 2 := ⟨k / 2 - 1, by omega⟩
        rw [meshTriangle_inner (by omega)]
        exact .inner i (by omega)
      · obtain ⟨j, rfl⟩ : ∃ j, k = 2 * n + 2 * j :=
          ⟨k / 2 - n, by omega⟩
        rw [meshTriangle_fill (by omega)]
        exact .fill j (by omega)
  · by_cases hlast : k = 2 * n - 1
    · rw [hlast, meshTriangle_last hn]
      exact .last
    · by_cases hlow : k < 2 * n
      · obtain ⟨i, rfl⟩ : ∃ i, k = 2 * i + 1 := ⟨k / 2, by omega⟩
        rw [meshTriangle_outer (by omega)]
        exact .outer i (by omega)
      · obtain ⟨j, rfl⟩ : ∃ j, k = 2 * n + 2 * j + 1 :=
          ⟨k / 2 - n, by omega⟩
        rw [meshTriangle_fillBack (by omega)]
        exact .fillBack j (by omega)

theorem IsMeshTriangle.eq_meshTriangle
    {n k : ℕ} {triangle : Triangle ℕ} (hn : 3 ≤ n)
    (htriangle : IsMeshTriangle n k triangle) :
    k < 3 * n - 2 ∧ triangle = meshTriangle n k := by
  cases htriangle with
  | first => exact ⟨by omega, (meshTriangle_first hn).symm⟩
  | outer i hi => exact ⟨by omega, (meshTriangle_outer hi).symm⟩
  | inner i hi => exact ⟨by omega, (meshTriangle_inner hi).symm⟩
  | last => exact ⟨by omega, (meshTriangle_last hn).symm⟩
  | fill j hj => exact ⟨by omega, (meshTriangle_fill hj).symm⟩
  | fillBack j hj => exact ⟨by omega, (meshTriangle_fillBack hj).symm⟩

theorem mem_edges_iff {u v a b c : ℕ} :
    (u, v) ∈ Triangle.edges ⟨a, b, c⟩ ↔
      (u = a ∧ v = b) ∨ (u = b ∧ v = c) ∨ (u = c ∧ v = a) := by
  simp [Triangle.edges]

theorem mem_edgesOf_mesh {n u v : ℕ} (hn : 3 ≤ n) :
    (u, v) ∈ edgesOf (mesh n) ↔
      ∃ k triangle, IsMeshTriangle n k triangle ∧
        (u, v) ∈ triangle.edges := by
  simp only [edgesOf, mesh, List.mem_flatMap, List.mem_map, List.mem_range]
  constructor
  · rintro ⟨triangle, ⟨k, hk, rfl⟩, hedge⟩
    exact ⟨k, _, isMeshTriangle hn hk, hedge⟩
  · rintro ⟨k, triangle, htriangle, hedge⟩
    obtain ⟨hk, rfl⟩ := htriangle.eq_meshTriangle hn
    exact ⟨_, ⟨k, hk, rfl⟩, hedge⟩

/-! ## Directed edges -/

/-- The number of the triangle to which a directed edge belongs. -/
def face (n u v : ℕ) : Option ℕ :=
  if u % 2 = 0 then
    if v = u + 2 ∧ v < 2 * n then some (u + 1)
    else if v = 0 ∧ u + 2 = 2 * n then some 0
    else if v = u + 1 ∧ v < 2 * n then some u
    else if u = v + 1 ∧ u < 2 * n then some v
    else if v = 1 ∧ u + 2 = 2 * n then some (2 * n - 1)
    else none
  else if v % 2 = 0 then
    if v = u + 1 ∧ v < 2 * n then some v
    else if u = v + 1 ∧ u < 2 * n then some u
    else if u = 1 ∧ v + 2 = 2 * n then some 0
    else none
  else if u = v + 2 ∧ u < 2 * n then some (u - 1)
  else if u + v = 2 * n then
    if v < u then some (2 * n + v - 1) else some (2 * n + u - 2)
  else if u + v + 2 = 2 * n then
    if u < v then some (2 * n + u - 1) else some (2 * n + v)
  else if v = u + 2 ∧ v < 2 * n then
    if u < n then some (2 * n + u) else some (4 * n - u - 3)
  else none

theorem IsMeshTriangle.face_eq
    {n k u v : ℕ} {triangle : Triangle ℕ} (hn : 3 ≤ n)
    (htriangle : IsMeshTriangle n k triangle)
    (hedge : (u, v) ∈ triangle.edges) :
    face n u v = some k := by
  cases htriangle with
  | first =>
      rcases mem_edges_iff.mp hedge with ⟨rfl, rfl⟩ | ⟨rfl, rfl⟩ | ⟨rfl, rfl⟩
      · rw [face, if_pos (by omega), if_neg (by omega), if_pos (by omega)]
      · rw [face, if_pos (by omega), if_neg (by omega), if_neg (by omega),
          if_pos (by omega)]
      · rw [face, if_neg (by omega), if_pos (by omega), if_neg (by omega),
          if_neg (by omega), if_pos (by omega)]
  | outer i hi =>
      rcases mem_edges_iff.mp hedge with ⟨rfl, rfl⟩ | ⟨rfl, rfl⟩ | ⟨rfl, rfl⟩
      · rw [face, if_neg (by omega), if_pos (by omega), if_neg (by omega),
          if_pos (by omega)]
      · rw [face, if_pos (by omega), if_pos (by omega)]
      · rw [face, if_pos (by omega), if_neg (by omega), if_neg (by omega),
          if_neg (by omega), if_pos (by omega)]
  | inner i hi =>
      rcases mem_edges_iff.mp hedge with ⟨rfl, rfl⟩ | ⟨rfl, rfl⟩ | ⟨rfl, rfl⟩
      · rw [face, if_neg (by omega), if_pos (by omega), if_pos (by omega)]
      · rw [face, if_pos (by omega), if_neg (by omega), if_neg (by omega),
          if_pos (by omega)]
      · rw [face, if_neg (by omega), if_neg (by omega), if_pos (by omega),
          Option.some.injEq]
        omega
  | last =>
      rcases mem_edges_iff.mp hedge with ⟨rfl, rfl⟩ | ⟨rfl, rfl⟩ | ⟨rfl, rfl⟩
      · rw [face, if_neg (by omega), if_pos (by omega), if_neg (by omega),
          if_pos (by omega)]
      · rw [face, if_pos (by omega), if_neg (by omega), if_neg (by omega),
          if_neg (by omega), if_neg (by omega), if_pos (by omega)]
      · rw [face, if_neg (by omega), if_neg (by omega), if_neg (by omega),
          if_pos (by omega), if_neg (by omega), Option.some.injEq]
        omega
  | fill j hj =>
      rcases mem_edges_iff.mp hedge with ⟨rfl, rfl⟩ | ⟨rfl, rfl⟩ | ⟨rfl, rfl⟩
      · rw [face, if_neg (by omega), if_neg (by omega), if_neg (by omega),
          if_pos (by omega), if_pos (by omega), Option.some.injEq]
        omega
      · rw [face, if_neg (by omega), if_neg (by omega), if_neg (by omega),
          if_neg (by omega), if_pos (by omega), if_pos (by omega),
          Option.some.injEq]
        omega
      · rw [face, if_neg (by omega), if_neg (by omega), if_neg (by omega),
          if_neg (by omega), if_neg (by omega), if_pos (by omega),
          if_neg (by omega), Option.some.injEq]
        omega
  | fillBack j hj =>
      rcases mem_edges_iff.mp hedge with ⟨rfl, rfl⟩ | ⟨rfl, rfl⟩ | ⟨rfl, rfl⟩
      · rw [face, if_neg (by omega), if_neg (by omega), if_neg (by omega),
          if_neg (by omega), if_pos (by omega), if_neg (by omega),
          Option.some.injEq]
        omega
      · rw [face, if_neg (by omega), if_neg (by omega), if_neg (by omega),
          if_neg (by omega), if_neg (by omega), if_pos (by omega),
          if_pos (by omega), Option.some.injEq]
        omega
      · rw [face, if_neg (by omega), if_neg (by omega), if_neg (by omega),
          if_pos (by omega), if_neg (by omega), Option.some.injEq]
        omega

theorem IsMeshTriangle.proper
    {n k : ℕ} {triangle : Triangle ℕ} (hn : 3 ≤ n)
    (htriangle : IsMeshTriangle n k triangle) :
    triangle.Proper := by
  cases htriangle with
  | first => exact ⟨by simp; omega, by simp, by simp; omega⟩
  | outer i hi => exact ⟨by simp, by simp, by simp⟩
  | inner i hi => exact ⟨by simp, by simp, by simp⟩
  | last => exact ⟨by simp; omega, by simp; omega, by simp; omega⟩
  | fill j hj => exact ⟨by simp; omega, by simp; omega, by simp; omega⟩
  | fillBack j hj => exact ⟨by simp; omega, by simp, by simp; omega⟩

/-! ## The border -/

section Edges

variable {n u v : ℕ}

/-- An edge of a triangle of some kind is an edge of the mesh. -/
theorem IsMeshTriangle.mem_edgesOf
    {k a b c : ℕ} (hn : 3 ≤ n) (htriangle : IsMeshTriangle n k ⟨a, b, c⟩)
    (hedge : (u = a ∧ v = b) ∨ (u = b ∧ v = c) ∨ (u = c ∧ v = a)) :
    (u, v) ∈ edgesOf (mesh n) :=
  (mem_edgesOf_mesh hn).mpr ⟨k, _, htriangle, mem_edges_iff.mpr hedge⟩

def OnOutline (n u v : ℕ) : Prop :=
  (u % 2 = 0 ∧ v = u + 2 ∧ v < 2 * n) ∨ (u + 2 = 2 * n ∧ v = 0)

theorem mem_outline_iff (hn : 3 ≤ n) :
    (u, v) ∈ outline n ↔ OnOutline n u v := by
  simp only [outline, List.mem_map, List.mem_range, Prod.mk.injEq, OnOutline]
  constructor
  · rintro ⟨i, hi, rfl, rfl⟩
    by_cases hlast : i + 1 = n
    · rw [hlast, Nat.mod_self]
      omega
    · have hnext : (i + 1) % n = i + 1 := Nat.mod_eq_of_lt (by omega)
      rw [hnext]
      omega
  · rintro (⟨heven, hnext, hlow⟩ | ⟨hlast, hzero⟩)
    · refine ⟨u / 2, by omega, by omega, ?_⟩
      rw [Nat.mod_eq_of_lt (by omega)]
      omega
    · refine ⟨n - 1, by omega, by omega, ?_⟩
      rw [show n - 1 + 1 = n by omega, Nat.mod_self]
      omega

/-- The triangle on the other side of an edge. -/
theorem IsMeshTriangle.mem_reverse
    {k : ℕ} {triangle : Triangle ℕ} (hn : 3 ≤ n)
    (htriangle : IsMeshTriangle n k triangle)
    (hedge : (u, v) ∈ triangle.edges) (hinside : ¬ OnOutline n u v) :
    (v, u) ∈ edgesOf (mesh n) := by
  unfold OnOutline at hinside
  cases htriangle with
  | first =>
      rcases mem_edges_iff.mp hedge with ⟨rfl, rfl⟩ | ⟨rfl, rfl⟩ | ⟨rfl, rfl⟩
      · omega
      · exact (IsMeshTriangle.outer 0 (by omega)).mem_edgesOf hn (by omega)
      · exact IsMeshTriangle.last.mem_edgesOf hn (by omega)
  | outer i hi =>
      rcases mem_edges_iff.mp hedge with ⟨rfl, rfl⟩ | ⟨rfl, rfl⟩ | ⟨rfl, rfl⟩
      · by_cases hzero : i = 0
        · exact IsMeshTriangle.first.mem_edgesOf hn (by omega)
        · obtain ⟨i', rfl⟩ : ∃ i', i = i' + 1 := ⟨i - 1, by omega⟩
          exact (IsMeshTriangle.inner i' (by omega)).mem_edgesOf hn (by omega)
      · omega
      · exact (IsMeshTriangle.inner i hi).mem_edgesOf hn (by omega)
  | inner i hi =>
      rcases mem_edges_iff.mp hedge with ⟨rfl, rfl⟩ | ⟨rfl, rfl⟩ | ⟨rfl, rfl⟩
      · exact (IsMeshTriangle.outer i hi).mem_edgesOf hn (by omega)
      · by_cases hlast : i + 2 = n
        · exact IsMeshTriangle.last.mem_edgesOf hn (by omega)
        · exact (IsMeshTriangle.outer (i + 1) (by omega)).mem_edgesOf hn
            (by omega)
      · -- The zigzag meets the copy `i + 1` on its way down or up.
        by_cases hdown : 2 * i + 4 ≤ n
        · exact (IsMeshTriangle.fillBack i hdown).mem_edgesOf hn (by omega)
        · by_cases hup : n ≤ 2 * i + 1
          · exact (IsMeshTriangle.fill (n - 2 - i) (by omega)).mem_edgesOf hn
              (by omega)
          · by_cases hodd : n = 2 * i + 3
            · exact (IsMeshTriangle.fill i (by omega)).mem_edgesOf hn
                (by omega)
            · exact (IsMeshTriangle.fillBack (i - 1) (by omega)).mem_edgesOf
                hn (by omega)
  | last =>
      rcases mem_edges_iff.mp hedge with ⟨rfl, rfl⟩ | ⟨rfl, rfl⟩ | ⟨rfl, rfl⟩
      · exact (IsMeshTriangle.inner (n - 2) (by omega)).mem_edgesOf hn
          (by omega)
      · exact IsMeshTriangle.first.mem_edgesOf hn (by omega)
      · exact (IsMeshTriangle.fill 0 (by omega)).mem_edgesOf hn (by omega)
  | fill j hj =>
      rcases mem_edges_iff.mp hedge with ⟨rfl, rfl⟩ | ⟨rfl, rfl⟩ | ⟨rfl, rfl⟩
      · by_cases hzero : j = 0
        · exact IsMeshTriangle.last.mem_edgesOf hn (by omega)
        · exact (IsMeshTriangle.fillBack (j - 1) (by omega)).mem_edgesOf hn
            (by omega)
      · by_cases hodd : n = 2 * j + 3
        · exact (IsMeshTriangle.inner j (by omega)).mem_edgesOf hn (by omega)
        · exact (IsMeshTriangle.fillBack j (by omega)).mem_edgesOf hn
            (by omega)
      · exact (IsMeshTriangle.inner (n - 2 - j) (by omega)).mem_edgesOf hn
          (by omega)
  | fillBack j hj =>
      rcases mem_edges_iff.mp hedge with ⟨rfl, rfl⟩ | ⟨rfl, rfl⟩ | ⟨rfl, rfl⟩
      · exact (IsMeshTriangle.fill j (by omega)).mem_edgesOf hn (by omega)
      · exact (IsMeshTriangle.inner j (by omega)).mem_edgesOf hn (by omega)
      · by_cases heven : n = 2 * j + 4
        · exact (IsMeshTriangle.inner (j + 1) (by omega)).mem_edgesOf hn
            (by omega)
        · exact (IsMeshTriangle.fill (j + 1) (by omega)).mem_edgesOf hn
            (by omega)

theorem not_mem_reverse_outline (hn : 3 ≤ n) (hedge : OnOutline n u v) :
    (v, u) ∉ edgesOf (mesh n) := by
  intro hreverse
  obtain ⟨k, triangle, htriangle, hmem⟩ := (mem_edgesOf_mesh hn).mp hreverse
  have hface := htriangle.face_eq hn hmem
  have hnone : face n v u = none := by
    unfold OnOutline at hedge
    rw [face, if_pos (by omega), if_neg (by omega), if_neg (by omega),
      if_neg (by omega), if_neg (by omega), if_neg (by omega)]
  rw [hnone] at hface
  contradiction

theorem mem_of_onOutline (hn : 3 ≤ n) (hedge : OnOutline n u v) :
    (u, v) ∈ edgesOf (mesh n) := by
  rcases hedge with ⟨heven, hnext, hlow⟩ | ⟨hlast, hzero⟩
  · exact (IsMeshTriangle.outer (u / 2) (by omega)).mem_edgesOf hn (by omega)
  · exact IsMeshTriangle.first.mem_edgesOf hn (by omega)

end Edges

theorem mesh_patch {n : ℕ} (hn : 3 ≤ n) : Patch (mesh n) (outline n) where
  proper triangle htriangle := by
    obtain ⟨k, hk, rfl⟩ := List.mem_map.mp htriangle
    exact (isMeshTriangle hn (List.mem_range.mp hk)).proper hn
  nodup := by
    apply nodup_edgesOf_of_face (face n)
    · exact fun k hk => (isMeshTriangle hn hk).proper hn
    · exact fun k hk u v hedge => (isMeshTriangle hn hk).face_eq hn hedge
  border_nodup := by
    apply List.Nodup.map _ List.nodup_range
    intro i i' heq
    have hfirst := congrArg Prod.fst heq
    simp only at hfirst
    omega
  mem_border u v := by
    rw [mem_outline_iff hn]
    constructor
    · exact fun hedge =>
        ⟨mem_of_onOutline hn hedge, not_mem_reverse_outline hn hedge⟩
    · rintro ⟨hmem, hreverse⟩
      obtain ⟨k, triangle, htriangle, hedge⟩ := (mem_edgesOf_mesh hn).mp hmem
      by_contra hinside
      exact hreverse (htriangle.mem_reverse hn hedge hinside)

end Plane
end HighRollers
