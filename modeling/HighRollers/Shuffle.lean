import HighRollers.ArrayStores

/-!
# Shuffled arrays of indices

The Durstenfeld version of the Fisher-Yates shuffle swaps each slot but the
last with one drawn from the slots not passed yet.  Whatever is drawn, the
array is permuted.  The second half is about an array which is only accessed
through a permutation of its indices: the code then works on the entries in
the order of the permutation, and no slot is met twice.
-/

namespace Java

section Shuffling

variable {α : Type}

def swapSlots (array : List α) (i j : ℕ) : Run (List α) := do
  let temporary ← arrayGet array i
  let entry ← arrayGet array j
  let swapped ← arrayPut array i entry
  arrayPut swapped j temporary

theorem swapSlots_of_lt
    {array : List α} {i j : ℕ} (hi : i < array.length)
    (hj : j < array.length) :
    swapSlots array i j = .ok ((array.set i array[j]).set j array[i]) := by
  have hset : j < (array.set i array[j]).length := by simpa using hj
  simp only [swapSlots, arrayGet_natCast_of_lt hi, arrayGet_natCast_of_lt hj,
    ok_bind, arrayPut_natCast_of_lt hi, arrayPut_natCast_of_lt hset]

/-- The slot `draw i` is the one drawn by `nextInt(i, array.length)`. -/
def durstenfeld (array : List α) (draw : ℕ → ℕ) : Run (List α) :=
  afterLoop
    (forRange 0 (array.length - 1) array fun i current =>
      assign (swapSlots current i (draw i)))
    fun shuffled => .ok shuffled

def DrawsWithin (length : ℕ) (draw : ℕ → ℕ) : Prop :=
  ∀ i, i < length - 1 → i ≤ draw i ∧ draw i < length

/-- After the first iteration slot 0 is final. -/
structure ShuffledUpTo (array : List α) (draw : ℕ → ℕ) (index : ℕ)
    (current : List α) : Prop where
  perm : current.Perm array
  start : index = 0 → current = array
  first : 0 < index → current[0]? = array[draw 0]?

theorem ShuffledUpTo.step
    {array current : List α} {draw : ℕ → ℕ} {index : ℕ}
    (hcurrent : ShuffledUpTo array draw index current)
    (hdraw : index ≤ draw index) (hlt : draw index < array.length) :
    Returns (swapSlots current index (draw index))
      (ShuffledUpTo array draw (index + 1)) := by
  have hj : draw index < current.length := by
    rwa [hcurrent.perm.length_eq]
  have hi : index < current.length := by omega
  refine ⟨_, swapSlots_of_lt hi hj, ?_, by simp, ?_⟩
  · exact (List.set_set_perm hi hj).trans hcurrent.perm
  · intro _
    -- Slot 0 is written in the first step only.
    by_cases hzero : index = 0
    · subst index
      have hstart := hcurrent.start rfl
      subst current
      by_cases hself : draw 0 = 0
      · simp [hself]
      · simp [hself, hi, hj]
    · rw [List.getElem?_set_ne (by omega), List.getElem?_set_ne (by omega)]
      exact hcurrent.first (by omega)

theorem durstenfeld_spec
    {array : List α} {draw : ℕ → ℕ} (hdraw : DrawsWithin array.length draw) :
    Returns (durstenfeld array draw) fun shuffled =>
      shuffled.Perm array ∧
        (1 < array.length → shuffled[0]? = array[draw 0]?) := by
  have hstart : ShuffledUpTo array draw 0 array :=
    ⟨.refl array, fun _ => rfl, by simp⟩
  obtain ⟨shuffled, hrun, hinv⟩ := forRange_assign_rule
    (ShuffledUpTo array draw) (Nat.zero_le (array.length - 1)) hstart
    fun index current _ hindex hcurrent =>
      hcurrent.step (hdraw index hindex).1 (hdraw index hindex).2
  refine ⟨shuffled, hrun, hinv.perm, ?_⟩
  intro hlong
  exact hinv.first (by omega)

end Shuffling

/-! ## Access through a permutation -/

section Arranged

variable {α : Type}

/-- `index` lists the positions of `array`, each once, and `view` the entries
at these positions. -/
structure Arranged (index : List ℕ) (array view : List α) : Prop where
  perm : index.Perm (List.range array.length)
  reads : index.map (fun i => array[i]?) = view.map some

variable {index : List ℕ} {array view : List α} {c i : ℕ}

theorem map_getElem?_range (array : List α) :
    (List.range array.length).map (fun i => array[i]?) = array.map some := by
  apply List.ext_getElem?
  intro i
  by_cases hi : i < array.length
  · simp [hi]
  · simp [hi]

theorem exists_arranged (hperm : index.Perm (List.range array.length)) :
    ∃ view, Arranged index array view := by
  refine ⟨index.filterMap fun i => array[i]?, hperm, ?_⟩
  have hin : ∀ i ∈ index, i < array.length := by
    intro i hi
    exact List.mem_range.mp (hperm.subset hi)
  clear hperm
  induction index with
  | nil => rfl
  | cons i rest ih =>
      have hi : i < array.length := hin i (by simp)
      have hrest := ih fun other hother =>
        hin other (List.mem_cons_of_mem i hother)
      simp only [List.map_cons, List.filterMap_cons,
        List.getElem?_eq_getElem hi, hrest]

theorem Arranged.nodup (harranged : Arranged index array view) :
    index.Nodup :=
  harranged.perm.nodup_iff.mpr List.nodup_range

theorem Arranged.length_eq (harranged : Arranged index array view) :
    index.length = view.length := by
  have hlength := congrArg List.length harranged.reads
  simpa using hlength

theorem Arranged.view_perm (harranged : Arranged index array view) :
    view.Perm array := by
  have hmap := harranged.perm.map fun i => array[i]?
  rw [harranged.reads, map_getElem?_range] at hmap
  exact (List.map_perm_map_iff (Option.some_injective α)).mp hmap

theorem Arranged.getElem?_of_index
    (harranged : Arranged index array view) (hc : index[c]? = some i) :
    array[i]? = view[c]? := by
  have hentry := congrArg (fun entries => entries[c]?) harranged.reads
  simp only [List.getElem?_map, hc, Option.map_some] at hentry
  cases hview : view[c]? with
  | none => simp [hview] at hentry
  | some entry => simpa [hview] using hentry

theorem Arranged.exists_position
    (harranged : Arranged index array view) {entry : α}
    (hentry : view[c]? = some entry) :
    ∃ i, index[c]? = some i ∧ array[i]? = some entry := by
  have hc : c < index.length := by
    rw [harranged.length_eq]
    exact (List.getElem?_eq_some_iff.mp hentry).1
  have hposition := List.getElem?_eq_getElem hc
  exact ⟨index[c], hposition, by
    rw [harranged.getElem?_of_index hposition, hentry]⟩

/-- Distinct places of the view are distinct places of the array. -/
theorem Arranged.modify
    (harranged : Arranged index array view) (hc : index[c]? = some i)
    (f : α → α) :
    Arranged index (array.modify i f) (view.modify c f) := by
  refine ⟨by simpa using harranged.perm, ?_⟩
  apply List.ext_getElem?
  intro d
  simp only [List.getElem?_map, List.getElem?_modify]
  cases hd : index[d]? with
  | none =>
      have hview : view[d]? = none := by
        rw [List.getElem?_eq_none_iff] at hd ⊢
        rwa [← harranged.length_eq]
      simp [hview]
  | some j =>
      have hread := harranged.getElem?_of_index hd
      -- No position occurs twice in the index.
      have hplace : i = j ↔ c = d := by
        constructor
        · intro heq
          subst j
          have hlt := (List.getElem?_eq_some_iff.mp hc).1
          exact (List.getElem?_inj hlt harranged.nodup).mp (hc.trans hd.symm)
        · intro heq
          subst d
          exact Option.some.inj (hc.symm.trans hd)
      have hview : d < view.length := by
        rw [← harranged.length_eq]
        exact (List.getElem?_eq_some_iff.mp hd).1
      by_cases heq : c = d
      · simp [hread, hplace.mpr heq, heq, hview]
      · have hne : i ≠ j := fun hij => heq (hplace.mp hij)
        simp [hread, hne, heq, hview]

end Arranged

end Java
