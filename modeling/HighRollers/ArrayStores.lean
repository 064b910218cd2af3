import HighRollers.JavaMethod

/-!
# Arrays filled by many stores

A loop which stores into an array is described by the list of its stores, each
an index with a value.  Where no index occurs twice, the array ends up with
the value stored at each index, in whatever order the stores were made.  Loops
which set or update one slot after the other come next, and the last section
numbers the cells of a table row by row.
-/

namespace Java

section Stores

variable {α : Type}

/-- A store `array[index] = entry` with a Java int as index. -/
def arrayPut (array : List α) : ℤ → α → Run (List α)
  | .ofNat index, entry => arraySet array index entry
  | .negSucc _, _ => .error .arrayIndexOutOfBounds

theorem arrayPut_natCast_of_lt
    {array : List α} {index : ℕ} (hindex : index < array.length) (entry : α) :
    arrayPut array (index : ℤ) entry = .ok (array.set index entry) := by
  change arraySet array index entry = _
  simp [arraySet, hindex]

def storeAll (array : List α) (stores : List (ℕ × α)) : List α :=
  stores.foldl (fun current store => current.set store.1 store.2) array

@[simp] theorem length_storeAll (array : List α) (stores : List (ℕ × α)) :
    (storeAll array stores).length = array.length := by
  unfold storeAll
  induction stores generalizing array with
  | nil => rfl
  | cons store rest ih => rw [List.foldl_cons, ih, List.length_set]

theorem storeAll_append
    (array : List α) (stores stores' : List (ℕ × α)) :
    storeAll array (stores ++ stores') =
      storeAll (storeAll array stores) stores' :=
  List.foldl_append

theorem storeAll_getElem?_of_not_mem
    {stores : List (ℕ × α)} {index : ℕ}
    (hindex : index ∉ stores.map Prod.fst) (array : List α) :
    (storeAll array stores)[index]? = array[index]? := by
  unfold storeAll
  induction stores generalizing array with
  | nil => rfl
  | cons store rest ih =>
      simp only [List.map_cons, List.mem_cons, not_or] at hindex
      rw [List.foldl_cons, ih hindex.2, List.getElem?_set_ne]
      exact fun heq => hindex.1 heq.symm

/-- Where no index is stored to twice, every store can be read back. -/
theorem storeAll_getElem?
    {stores : List (ℕ × α)} (hnodup : (stores.map Prod.fst).Nodup)
    {index : ℕ} {entry : α} (hstore : (index, entry) ∈ stores)
    {array : List α} (hindex : index < array.length) :
    (storeAll array stores)[index]? = some entry := by
  induction stores generalizing array with
  | nil => simp at hstore
  | cons store rest ih =>
      rw [List.map_cons, List.nodup_cons] at hnodup
      change (storeAll (array.set store.1 store.2) rest)[index]? = _
      rcases List.mem_cons.mp hstore with hfirst | hrest
      · subst store
        rw [storeAll_getElem?_of_not_mem hnodup.1]
        simp [hindex]
      · exact ih hnodup.2 hrest (by simpa using hindex)

end Stores

/-! ## Slots in turn -/

section Turns

variable {α : Type}

/-- `for (int c = 0; c < array.length; c++) array[c] = entry(c);` -/
def populate (array : List α) (entry : ℕ → α) : Run (List α) :=
  afterLoop
    (forRange 0 array.length array fun c current =>
      assign (arrayPut current c (entry c)))
    fun populated => .ok populated

theorem populate_eq_ok (array : List α) (entry : ℕ → α) :
    populate array entry = .ok ((List.range array.length).map entry) := by
  unfold populate
  apply forRange_assign_eq fun index =>
    (List.range index).map entry ++ array.drop index
  · simp
  · simp
  · simp
  · intro index _ hindex
    have hslot : index <
        ((List.range index).map entry ++ array.drop index).length := by
      simp
      omega
    rw [arrayPut_natCast_of_lt hslot, List.set_append_right _ _ (by simp),
      List.drop_eq_getElem_cons hindex, List.range_succ, List.map_append]
    simp only [List.length_map, List.length_range, Nat.sub_self,
      List.set_cons_zero, List.map_cons, List.map_nil, List.append_assoc,
      List.cons_append, List.nil_append]

/-- The array after the first `count` slots have been updated. -/
def updatedUpTo (update : ℕ → α → α) (count : ℕ) (array : List α) : List α :=
  array.mapIdx fun i entry => if i < count then update i entry else entry

section Updates

variable (update : ℕ → α → α) (count : ℕ) (array : List α)

@[simp] theorem length_updatedUpTo :
    (updatedUpTo update count array).length = array.length := by
  simp [updatedUpTo]

theorem updatedUpTo_getElem? (i : ℕ) :
    (updatedUpTo update count array)[i]? =
      array[i]?.map fun entry =>
        if i < count then update i entry else entry := by
  simp [updatedUpTo]

theorem updatedUpTo_length :
    updatedUpTo update array.length array = array.mapIdx update := by
  apply List.ext_getElem?
  intro i
  by_cases hi : i < array.length
  · simp [updatedUpTo, hi]
  · simp [updatedUpTo, hi]

theorem updatedUpTo_succ :
    updatedUpTo update (count + 1) array =
      (updatedUpTo update count array).modify count (update count) := by
  apply List.ext_getElem?
  intro i
  simp only [updatedUpTo, List.getElem?_modify, List.getElem?_mapIdx]
  by_cases heq : count = i
  · subst i
    simp
  · have hlt : i < count + 1 ↔ i < count := by omega
    simp [heq, hlt]

variable {update} in
theorem updatedUpTo_one
    {first : α} (hfirst : update 0 first = first) (rest : List α) :
    updatedUpTo update 1 (first :: rest) = first :: rest := by
  apply List.ext_getElem?
  intro i
  cases i with
  | zero => simp [updatedUpTo, hfirst]
  | succ i => simp [updatedUpTo]

end Updates

theorem set_map_some_getElem
    {array : List α} {i : ℕ} (hi : i < array.length) (f : α → α) :
    (array.map some).set i (some (f array[i])) =
      (array.modify i f).map some := by
  apply List.ext_getElem?
  intro j
  by_cases heq : i = j
  · subst j
    simp [hi]
  · simp [heq]

end Turns

/-! ## Tables stored row by row -/

section Cells

variable {width height row column : ℕ}

theorem cell_lt (hrow : row < height) (hcolumn : column < width) :
    row * width + column < width * height := by
  calc
    row * width + column < row * width + width := by omega
    _ = (row + 1) * width := by ring
    _ ≤ height * width := Nat.mul_le_mul_right width hrow
    _ = width * height := Nat.mul_comm height width

theorem exists_cell {index : ℕ} (hindex : index < width * height) :
    ∃ row column, row < height ∧ column < width ∧
      index = row * width + column := by
  have hwidth : 0 < width := by
    apply Nat.pos_of_ne_zero
    intro hzero
    simp [hzero] at hindex
  refine ⟨index / width, index % width, ?_, Nat.mod_lt index hwidth, ?_⟩
  · exact Nat.div_lt_of_lt_mul hindex
  · exact (Nat.div_add_mod' index width).symm

theorem cell_inj
    {row' column' : ℕ} (hcolumn : column < width) (hcolumn' : column' < width)
    (heq : row * width + column = row' * width + column') :
    row = row' ∧ column = column' := by
  have hwidth : 0 < width := by omega
  have hdiv : ∀ r c, c < width → (r * width + c) / width = r := by
    intro r c hc
    rw [Nat.mul_comm, Nat.mul_add_div hwidth, Nat.div_eq_of_lt hc,
      Nat.add_zero]
  have hrow : row = row' := by
    rw [← hdiv row column hcolumn, heq, hdiv row' column' hcolumn']
  subst row'
  exact ⟨rfl, by omega⟩

end Cells

end Java
