import HighRollers.Shuffle

/-!
# The draws of a shuffle

A shuffle without bias needs each order of the entries to come from equally
many sequences of draws.  For the Durstenfeld shuffle this number is one: slot
`i` gets its final entry in step `i`, so the first slots of the result
determine the first draws, and any different entries can be brought to the
front.
-/

namespace Java

section Draws

variable {α : Type}

def swapped (array : List α) (i j : ℕ) : List α :=
  match array[i]?, array[j]? with
  | some first, some second => (array.set i second).set j first
  | _, _ => array

/-- The array after the first steps of the shuffle. -/
def shuffledTo (array : List α) (draw : ℕ → ℕ) : ℕ → List α
  | 0 => array
  | i + 1 => swapped (shuffledTo array draw i) i (draw i)

section Swaps

variable {array : List α} {i j k : ℕ}

theorem swapped_of_lt (hi : i < array.length) (hj : j < array.length) :
    swapped array i j = (array.set i array[j]).set j array[i] := by
  simp [swapped, hi, hj]

theorem swapped_perm (hi : i < array.length) (hj : j < array.length) :
    (swapped array i j).Perm array := by
  rw [swapped_of_lt hi hj]
  exact List.set_set_perm hi hj

theorem swapped_getElem?_self (hi : i < array.length) (hj : j < array.length) :
    (swapped array i j)[i]? = array[j]? := by
  rw [swapped_of_lt hi hj]
  by_cases heq : i = j
  · subst j
    simp [hi]
  · rw [List.getElem?_set_ne fun h => heq h.symm]
    simp [hi, hj]

theorem swapped_getElem?_of_lt (hki : k < i) (hkj : k < j) :
    (swapped array i j)[k]? = array[k]? := by
  unfold swapped
  split
  · rw [List.getElem?_set_ne (by omega), List.getElem?_set_ne (by omega)]
  · rfl

end Swaps

theorem shuffledTo_congr
    {array : List α} {draw draw' : ℕ → ℕ} {count : ℕ}
    (hdraws : ∀ i, i < count → draw i = draw' i) :
    shuffledTo array draw count = shuffledTo array draw' count := by
  induction count with
  | zero => rfl
  | succ count ih =>
      rw [shuffledTo, shuffledTo, hdraws count (by omega),
        ih fun i hi => hdraws i (by omega)]

section Within

variable {array : List α} {draw draw' : ℕ → ℕ}
  (hdraw : DrawsWithin array.length draw)

include hdraw

theorem shuffledTo_perm {count : ℕ} (hcount : count ≤ array.length - 1) :
    (shuffledTo array draw count).Perm array := by
  induction count with
  | zero => rfl
  | succ count ih =>
      have hperm := ih (by omega)
      have hslot := hdraw count (by omega)
      have hlength := hperm.length_eq
      exact (swapped_perm (by omega) (by omega)).trans hperm

theorem durstenfeld_eq_ok :
    durstenfeld array draw =
      .ok (shuffledTo array draw (array.length - 1)) := by
  apply forRange_assign_eq (shuffledTo array draw) (Nat.zero_le _) rfl rfl
  intro i _ hi
  have hslot := hdraw i hi
  have hlength := (shuffledTo_perm hdraw (Nat.le_of_lt hi)).length_eq
  have hleft : i < (shuffledTo array draw i).length := by omega
  have hright : draw i < (shuffledTo array draw i).length := by omega
  rw [swapSlots_of_lt hleft hright, shuffledTo, swapped_of_lt hleft hright]

theorem shuffledTo_succ_getElem? {i : ℕ} (hi : i < array.length - 1) :
    (shuffledTo array draw (i + 1))[i]? =
      (shuffledTo array draw i)[draw i]? := by
  have hslot := hdraw i hi
  have hlength := (shuffledTo_perm hdraw (Nat.le_of_lt hi)).length_eq
  exact swapped_getElem?_self (by omega) (by omega)

/-- A slot which has been passed is final. -/
theorem shuffledTo_getElem?_final
    {k i j : ℕ} (hk : k < i) (hij : i ≤ j) (hj : j ≤ array.length - 1) :
    (shuffledTo array draw j)[k]? = (shuffledTo array draw i)[k]? := by
  induction j, hij using Nat.le_induction with
  | base => rfl
  | succ j hij ih =>
      have hslot := hdraw j (by omega)
      rw [← ih (by omega)]
      exact swapped_getElem?_of_lt (by omega) (by omega)

/-- Slot `i` ends up with the entry which is drawn in step `i`. -/
theorem shuffledTo_getElem?_drawn {i : ℕ} (hi : i < array.length - 1) :
    (shuffledTo array draw (array.length - 1))[i]? =
      (shuffledTo array draw i)[draw i]? := by
  rw [shuffledTo_getElem?_final hdraw (Nat.lt_succ_self i) hi (Nat.le_refl _),
    shuffledTo_succ_getElem? hdraw hi]

/-- The first slots of the result determine the first draws. -/
theorem draws_eq_of_prefix
    (hdraw' : DrawsWithin array.length draw') (hnodup : array.Nodup)
    {count : ℕ} (hcount : count ≤ array.length - 1)
    (hslots : ∀ i, i < count →
      (shuffledTo array draw (array.length - 1))[i]? =
        (shuffledTo array draw' (array.length - 1))[i]?) :
    ∀ i, i < count → draw i = draw' i := by
  intro i
  induction i using Nat.strong_induction_on with
  | h i ih =>
      intro hi
      have hlt : i < array.length - 1 := by omega
      have hbefore : shuffledTo array draw' i = shuffledTo array draw i :=
        shuffledTo_congr fun k hk => (ih k hk (by omega)).symm
      have hentry := hslots i hi
      rw [shuffledTo_getElem?_drawn hdraw hlt,
        shuffledTo_getElem?_drawn hdraw' hlt, hbefore] at hentry
      have hperm := shuffledTo_perm hdraw (Nat.le_of_lt hlt)
      have hslot := hdraw i hlt
      apply (List.getElem?_inj ?_ (hperm.nodup_iff.mpr hnodup)).mp hentry
      rw [hperm.length_eq]
      exact hslot.2

end Within

/-! ## Every order is reached -/

/-- Lists of the same entries are equal when they agree up to the last one. -/
theorem eq_of_perm_of_slots
    {list list' : List α} (hperm : list.Perm list') {count : ℕ}
    (hcount : list'.length ≤ count + 1)
    (hslots : ∀ k, k < count → list[k]? = list'[k]?) :
    list = list' := by
  have htake : list.take count = list'.take count := by
    apply List.ext_getElem?
    intro k
    rw [List.getElem?_take, List.getElem?_take]
    split_ifs with hk
    · exact hslots k hk
    · rfl
  have hdrop : (list.drop count).Perm (list'.drop count) := by
    rw [← List.take_append_drop count list,
      ← List.take_append_drop count list', htake] at hperm
    exact (List.perm_append_left_iff _).mp hperm
  have hlast : list.drop count = list'.drop count := by
    have hone : (list'.drop count).length ≤ 1 := by
      rw [List.length_drop]
      omega
    cases hrest : list'.drop count with
    | nil =>
        rw [hrest] at hdrop
        exact hdrop.eq_nil
    | cons entry others =>
        rw [hrest] at hdrop hone
        have hnone : others = [] := by simpa using hone
        subst others
        exact List.perm_singleton.mp hdrop
  rw [← List.take_append_drop count list, htake, hlast,
    List.take_append_drop]

section Reached

variable {array wanted : List α} (hnodup : wanted.Nodup)
  (hsubset : wanted ⊆ array)

include hnodup hsubset

theorem exists_draws_to
    {count : ℕ} (hcount : count ≤ wanted.length)
    (hle : count ≤ array.length - 1) :
    ∃ draw, DrawsWithin array.length draw ∧
      ∀ k, k < count → (shuffledTo array draw count)[k]? = wanted[k]? := by
  induction count with
  | zero =>
      refine ⟨fun i => i, ?_, by omega⟩
      intro i hi
      change i ≤ i ∧ i < array.length
      omega
  | succ count ih =>
      obtain ⟨draw, hdraw, hslots⟩ := ih (by omega) (by omega)
      have hlt : count < wanted.length := by omega
      have hperm : (shuffledTo array draw count).Perm array :=
        shuffledTo_perm hdraw (by omega)
      have hmem : wanted[count] ∈ shuffledTo array draw count :=
        hperm.mem_iff.mpr (hsubset (List.getElem_mem hlt))
      obtain ⟨p, hp⟩ := List.mem_iff_getElem?.mp hmem
      have hplt : p < array.length := by
        rw [← hperm.length_eq]
        exact (List.getElem?_eq_some_iff.mp hp).1
      -- The wanted entry is not among those which are in place already.
      have hpge : count ≤ p := by
        by_contra hbefore
        have hslot := hslots p (by omega)
        rw [hp, ← List.getElem?_eq_getElem hlt] at hslot
        have heq := (List.getElem?_inj hlt hnodup).mp hslot
        omega
      have hkept : shuffledTo array (Function.update draw count p) count =
          shuffledTo array draw count := by
        apply shuffledTo_congr
        intro i hi
        exact Function.update_of_ne (by omega) _ _
      have hwithin : DrawsWithin array.length
          (Function.update draw count p) := by
        intro i hi
        by_cases heq : i = count
        · subst i
          rw [Function.update_self]
          exact ⟨hpge, hplt⟩
        · rw [Function.update_of_ne heq]
          exact hdraw i hi
      refine ⟨Function.update draw count p, hwithin, ?_⟩
      intro k hk
      by_cases heq : k = count
      · subst k
        rw [shuffledTo_succ_getElem? hwithin (by omega), hkept,
          Function.update_self, hp, List.getElem?_eq_getElem hlt]
      · rw [shuffledTo_getElem?_final hwithin (by omega)
          (Nat.le_succ count) (by omega), hkept]
        exact hslots k (by omega)

/-- Any different entries can be brought to the front. -/
theorem exists_draws_take (hlength : wanted.length ≤ array.length) :
    ∃ draw, DrawsWithin array.length draw ∧
      (shuffledTo array draw (array.length - 1)).take wanted.length =
        wanted := by
  by_cases hall : wanted.length = array.length
  · obtain ⟨draw, hdraw, hslots⟩ := exists_draws_to hnodup hsubset
      (show array.length - 1 ≤ wanted.length by omega) (Nat.le_refl _)
    have hperm := shuffledTo_perm hdraw (Nat.le_refl _)
    have hwanted : wanted.Perm array :=
      (hnodup.subperm hsubset).perm_of_length_le (by omega)
    refine ⟨draw, hdraw, ?_⟩
    rw [List.take_of_length_le (by rw [hperm.length_eq, hall])]
    exact eq_of_perm_of_slots (hperm.trans hwanted.symm) (by omega) hslots
  · obtain ⟨draw, hdraw, hslots⟩ := exists_draws_to hnodup hsubset
      (Nat.le_refl wanted.length) (by omega)
    refine ⟨draw, hdraw, ?_⟩
    apply List.ext_getElem?
    intro k
    by_cases hk : k < wanted.length
    · rw [List.getElem?_take_of_lt hk, ← hslots k hk]
      exact shuffledTo_getElem?_final hdraw hk (by omega) (Nat.le_refl _)
    · have hshort : ((shuffledTo array draw (array.length - 1)).take
          wanted.length).length ≤ k := by
        rw [List.length_take]
        omega
      rw [List.getElem?_eq_none hshort, List.getElem?_eq_none (by omega)]

end Reached

end Draws

end Java
