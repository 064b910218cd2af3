import Mathlib.Algebra.BigOperators.Group.List.Lemmas
import Mathlib.Data.Finset.Card
import Mathlib.Data.List.DropRight
import Mathlib.Data.List.Sort
import Mathlib.Order.Interval.Finset.Nat
import Mathlib.Data.Int.Interval
import Mathlib.Tactic

/-!
# Repeated and consecutive entries of a list

Index loops see a repeated entry as equal entries at increasing positions; a
specification sees it as a multiplicity.  This file relates the two views,
computes the decreasing list of multiplicities, cuts a list down to its last
entries or to every entry at a multiple of a period, and characterizes the
lists of integers which fill an interval without repetition.
-/

namespace ListPattern

section Occurrences

variable {α : Type} [DecidableEq α]

/-- How often the entry at `index` occurs again after it. -/
def later (xs : List α) (index : ℕ) : ℕ :=
  match xs[index]? with
  | some v => (xs.drop (index + 1)).count v
  | none => 0

private theorem succ_le_count_iff
    (xs : List α) (v : α) (m : ℕ) :
    m + 1 ≤ xs.count v ↔
      ∃ j, xs[j]? = some v ∧ m ≤ (xs.drop (j + 1)).count v := by
  induction xs with
  | nil => simp
  | cons x xs ih =>
      constructor
      · intro hcount
        by_cases heq : x = v
        · subst x
          exact ⟨0, rfl, by simpa using hcount⟩
        · have htail : m + 1 ≤ xs.count v := by
            rwa [List.count_cons_of_ne heq] at hcount
          obtain ⟨j, hj, hrest⟩ := ih.mp htail
          exact ⟨j + 1, by simpa using hj, by simpa using hrest⟩
      · intro hindex
        rcases hindex with ⟨j, hj, hrest⟩
        cases j with
        | zero =>
            obtain rfl : x = v := by simpa using hj
            simpa using hrest
        | succ j =>
            have htail : m + 1 ≤ xs.count v :=
              ih.mpr ⟨j, by simpa using hj, by simpa using hrest⟩
            exact htail.trans List.count_le_count_cons

theorem succ_le_later_iff
    (xs : List α) (i m : ℕ) :
    m + 1 ≤ later xs i ↔
      ∃ j, i + 1 ≤ j ∧ j < xs.length ∧ xs[i]? = xs[j]? ∧
        m ≤ later xs j := by
  cases hi : xs[i]? with
  | none =>
      have hlen : xs.length ≤ i := by simpa using hi
      simp only [later, hi]
      constructor
      · omega
      · intro hindex
        rcases hindex with ⟨j, hj, hlt, _⟩
        omega
  | some v =>
      have hlater : later xs i = (xs.drop (i + 1)).count v := by
        simp [later, hi]
      rw [hlater, succ_le_count_iff]
      constructor
      · intro hindex
        rcases hindex with ⟨j, hj, hrest⟩
        rw [List.getElem?_drop] at hj
        rw [List.drop_drop] at hrest
        obtain ⟨hlt, _⟩ := List.getElem?_eq_some_iff.mp hj
        refine ⟨i + 1 + j, by omega, hlt, hj.symm, ?_⟩
        have hlater' : later xs (i + 1 + j) =
            (xs.drop (i + 1 + j + 1)).count v := by
          simp [later, hj]
        rw [hlater', Nat.add_assoc (i + 1)]
        exact hrest
      · intro hindex
        rcases hindex with ⟨j, hle, hlt, hj, hrest⟩
        have hsplit : i + 1 + (j - (i + 1)) = j := by omega
        refine ⟨j - (i + 1), ?_, ?_⟩
        · rw [List.getElem?_drop, hsplit, ← hj]
        · rw [List.drop_drop, ← Nat.add_assoc, hsplit]
          simpa [later, ← hj] using hrest

theorem exists_succ_le_count_iff
    (xs : List α) (m : ℕ) :
    (∃ v, m + 1 ≤ xs.count v) ↔
      ∃ i, 0 ≤ i ∧ i < xs.length ∧ m ≤ later xs i := by
  constructor
  · intro hvalue
    rcases hvalue with ⟨v, hcount⟩
    obtain ⟨i, hi, hrest⟩ := (succ_le_count_iff xs v m).mp hcount
    obtain ⟨hlt, _⟩ := List.getElem?_eq_some_iff.mp hi
    exact ⟨i, Nat.zero_le i, hlt, by simpa [later, hi] using hrest⟩
  · intro hindex
    rcases hindex with ⟨i, _, hlt, hrest⟩
    refine ⟨xs[i], (succ_le_count_iff xs xs[i] m).mpr ⟨i, by simp [hlt], ?_⟩⟩
    simpa [later, hlt] using hrest

theorem succ_le_count_getElem
    {xs : List α} {i m : ℕ} (hi : i < xs.length) (hlater : m ≤ later xs i) :
    m + 1 ≤ xs.count xs[i] := by
  rw [succ_le_count_iff]
  have hentry : xs[i]? = some xs[i] := List.getElem?_eq_getElem hi
  have hrest : later xs i = (xs.drop (i + 1)).count xs[i] := by
    simp [later, hentry]
  exact ⟨i, hentry, by rwa [hrest] at hlater⟩

theorem card_le_count
    {xs : List α} {v : α} (positions : Finset ℕ)
    (hpositions : ∀ i ∈ positions, xs[i]? = some v) :
    positions.card ≤ xs.count v := by
  induction xs generalizing positions with
  | nil =>
      have hempty : positions = ∅ := by
        apply Finset.eq_empty_of_forall_notMem
        intro i hi
        simpa using hpositions i hi
      simp [hempty]
  | cons x xs ih =>
      let shifted := (positions.erase 0).image Nat.pred
      have hshifted : ∀ i ∈ shifted, xs[i]? = some v := by
        intro i hi
        obtain ⟨j, hj, rfl⟩ := Finset.mem_image.mp hi
        obtain ⟨hne, hmem⟩ := Finset.mem_erase.mp hj
        obtain ⟨k, rfl⟩ := Nat.exists_eq_succ_of_ne_zero hne
        simpa using hpositions _ hmem
      have hcard : shifted.card = (positions.erase 0).card := by
        apply Finset.card_image_of_injOn
        intro a ha b hb hab
        have hane : a ≠ 0 := (Finset.mem_erase.mp ha).1
        have hbne : b ≠ 0 := (Finset.mem_erase.mp hb).1
        simp only [Nat.pred_eq_sub_one] at hab
        omega
      have htail := ih shifted hshifted
      rw [hcard] at htail
      by_cases hzero : 0 ∈ positions
      · obtain rfl : x = v := by simpa using hpositions 0 hzero
        have herase := Finset.card_erase_add_one hzero
        rw [List.count_cons_self]
        omega
      · rw [Finset.erase_eq_of_notMem hzero] at htail
        exact htail.trans List.count_le_count_cons

end Occurrences

/-! ## Two disjoint pairs -/

section Pairs

variable {α : Type}

def IsPair (xs : List α) (a b : ℕ) : Prop :=
  a ≠ b ∧ a < xs.length ∧ b < xs.length ∧ xs[a]? = xs[b]?

/-- Four different positions which form two pairs. -/
def TwoPairs (xs : List α) : Prop :=
  ∃ a b c d, IsPair xs a b ∧ IsPair xs c d ∧
    a ≠ c ∧ a ≠ d ∧ b ≠ c ∧ b ≠ d

/-- If every pair meets the pair `p, q`, then no two pairs are disjoint:
disjoint pairs through `p` and through `q` would have the same entry and leave
a pair of partners avoiding both. -/
theorem not_twoPairs_of_meets
    {xs : List α} {p q : ℕ} (hpq : IsPair xs p q)
    (hmeets : ∀ a b, IsPair xs a b → a = p ∨ a = q ∨ b = p ∨ b = q) :
    ¬ TwoPairs xs := by
  intro hpairs
  rcases hpairs with ⟨a, b, c, d, hab, hcd, hac, had, hbc, hbd⟩
  rcases hpq with ⟨_, hp, hq, hpqeq⟩
  rcases hab with ⟨habne, ha, hb, habeq⟩
  rcases hcd with ⟨hcdne, hc, hd, hcdeq⟩
  have hcross : ∀ x y, x < xs.length → y < xs.length →
      xs[x]? = xs[p]? → xs[y]? = xs[p]? → x ≠ y →
        x = p ∨ x = q ∨ y = p ∨ y = q := by
    intro x y hx hy hxp hyp hxy
    exact hmeets x y ⟨hxy, hx, hy, hxp.trans hyp.symm⟩
  have h1 := hmeets a b ⟨habne, ha, hb, habeq⟩
  have h2 := hmeets c d ⟨hcdne, hc, hd, hcdeq⟩
  have h3 := hcross a c ha hc
  have h4 := hcross a d ha hd
  have h5 := hcross b c hb hc
  have h6 := hcross b d hb hd
  grind

end Pairs

section PairsCount

variable {α : Type} [DecidableEq α]

theorem exists_pair_of_two_le_count
    {xs : List α} {v : α} (hcount : 2 ≤ xs.count v) :
    ∃ a b, a + 1 ≤ b ∧ b < xs.length ∧
      xs[a]? = some v ∧ xs[b]? = some v := by
  obtain ⟨a, ha, hrest⟩ := (succ_le_count_iff xs v 1).mp hcount
  obtain ⟨b, hb, _⟩ := (succ_le_count_iff _ v 0).mp hrest
  rw [List.getElem?_drop] at hb
  obtain ⟨hblt, _⟩ := List.getElem?_eq_some_iff.mp hb
  exact ⟨a, a + 1 + b, by omega, hblt, ha, hb⟩

theorem two_le_count
    {xs : List α} {v : α} {a b : ℕ} (hne : a ≠ b)
    (ha : xs[a]? = some v) (hb : xs[b]? = some v) :
    2 ≤ xs.count v := by
  have hcard : ({a, b} : Finset ℕ).card = 2 := by simp [hne]
  rw [← hcard]
  apply card_le_count
  intro i hi
  simp only [Finset.mem_insert, Finset.mem_singleton] at hi
  rcases hi with rfl | rfl
  · exact ha
  · exact hb

/-- Two disjoint pairs have different entries or one entry occurring four
times. -/
theorem twoPairs_iff_count (xs : List α) :
    TwoPairs xs ↔
      (∃ v w, v ≠ w ∧ 2 ≤ xs.count v ∧ 2 ≤ xs.count w) ∨
        ∃ v, 4 ≤ xs.count v := by
  constructor
  · rintro ⟨a, b, c, d, ⟨hab, ha, hb, habeq⟩, ⟨hcd, hc, hd, hcdeq⟩,
      hac, had, hbc, hbd⟩
    have hxa : xs[a]? = some xs[a] := List.getElem?_eq_getElem ha
    have hxc : xs[c]? = some xs[c] := List.getElem?_eq_getElem hc
    by_cases heq : xs[a] = xs[c]
    · refine .inr ⟨xs[a], ?_⟩
      have hcard : ({a, b, c, d} : Finset ℕ).card = 4 := by
        simp [*]
      rw [← hcard]
      apply card_le_count
      intro i hi
      simp only [Finset.mem_insert, Finset.mem_singleton] at hi
      rcases hi with rfl | rfl | rfl | rfl
      · exact hxa
      · exact habeq.symm.trans hxa
      · rw [hxc, heq]
      · rw [← hcdeq, hxc, heq]
    · refine .inl ⟨xs[a], xs[c], heq, ?_, ?_⟩
      · exact two_le_count hab hxa (habeq.symm.trans hxa)
      · exact two_le_count hcd hxc (hcdeq.symm.trans hxc)
  · intro hcases
    rcases hcases with (⟨v, w, hne, hv, hw⟩ | ⟨v, hv⟩)
    · obtain ⟨a, b, hab, hb, hva, hvb⟩ := exists_pair_of_two_le_count hv
      obtain ⟨c, d, hcd, hd, hwc, hwd⟩ := exists_pair_of_two_le_count hw
      refine ⟨a, b, c, d, ⟨by omega, by omega, hb, hva.trans hvb.symm⟩,
        ⟨by omega, by omega, hd, hwc.trans hwd.symm⟩, ?_, ?_, ?_, ?_⟩ <;>
        intro heq <;> subst heq <;> simp_all
    · obtain ⟨a, _, ha, hrest⟩ := (exists_succ_le_count_iff xs 3).mp ⟨v, hv⟩
      obtain ⟨b, hab, hb, habeq, hrest⟩ := (succ_le_later_iff xs a 2).mp hrest
      obtain ⟨c, hbc, hc, _, hrest⟩ := (succ_le_later_iff xs b 1).mp hrest
      obtain ⟨d, hcd, hd, hcdeq, _⟩ := (succ_le_later_iff xs c 0).mp hrest
      exact ⟨a, b, c, d, ⟨by omega, ha, hb, habeq⟩,
        ⟨by omega, hc, hd, hcdeq⟩, by omega, by omega, by omega, by omega⟩

end PairsCount

/-! ## Multiplicities -/

section Multiplicities

variable {α : Type} [DecidableEq α]

/-- The multiplicities of the different entries, in decreasing order. -/
def multiplicities (xs : List α) : List ℕ :=
  (xs.dedup.map fun v => xs.count v).insertionSort (· ≥ ·)

theorem multiplicities_perm_counts (xs : List α) :
    (multiplicities xs).Perm (xs.dedup.map fun v => xs.count v) :=
  List.perm_insertionSort _ _

theorem multiplicities_pairwise (xs : List α) :
    (multiplicities xs).Pairwise (· ≥ ·) :=
  List.pairwise_insertionSort _ _

theorem multiplicities_sum (xs : List α) :
    (multiplicities xs).sum = xs.length := by
  rw [(multiplicities_perm_counts xs).sum_eq,
    List.sum_map_count_dedup_eq_length]

theorem multiplicities_pos (xs : List α) :
    ∀ m ∈ multiplicities xs, 0 < m := by
  intro m hm
  obtain ⟨v, hv, rfl⟩ := List.mem_map.mp
    ((multiplicities_perm_counts xs).mem_iff.mp hm)
  exact List.count_pos_iff.mpr (List.mem_dedup.mp hv)

theorem multiplicities_eq_of_perm
    {xs ys : List α} (hperm : xs.Perm ys) :
    multiplicities xs = multiplicities ys := by
  apply List.Perm.eq_of_pairwise' (multiplicities_pairwise xs)
    (multiplicities_pairwise ys)
  refine (multiplicities_perm_counts xs).trans
    (List.Perm.trans ?_ (multiplicities_perm_counts ys).symm)
  have hcount : (fun v => xs.count v) = fun v => ys.count v := by
    funext v
    exact hperm.count_eq v
  rw [hcount]
  exact hperm.dedup.map _

theorem multiplicities_map
    {β : Type} [DecidableEq β] {f : α → β} (hinjective : Function.Injective f)
    (xs : List α) :
    multiplicities (xs.map f) = multiplicities xs := by
  have hcounts : ((xs.map f).dedup.map fun v => (xs.map f).count v) =
      xs.dedup.map fun v => xs.count v := by
    rw [List.dedup_map_of_injective hinjective, List.map_map]
    apply List.map_congr_left
    intro v _
    exact List.count_map_of_injective xs f hinjective v
  unfold multiplicities
  rw [hcounts]

private def byCount (xs : List α) : List α :=
  xs.dedup.insertionSort fun v w => xs.count v ≥ xs.count w

private theorem byCount_perm (xs : List α) :
    (byCount xs).Perm xs.dedup :=
  List.perm_insertionSort _ _

private theorem map_count_byCount (xs : List α) :
    (byCount xs).map (fun v => xs.count v) = multiplicities xs := by
  apply List.Perm.eq_of_pairwise' (r := (· ≥ ·))
  · rw [List.pairwise_map]
    have htotal : Std.Total fun v w : α => xs.count v ≥ xs.count w :=
      ⟨fun v w => le_total (xs.count w) (xs.count v)⟩
    have htrans : IsTrans α fun v w : α => xs.count v ≥ xs.count w :=
      ⟨fun _ _ _ huv hvw => hvw.trans huv⟩
    exact List.pairwise_insertionSort
      (fun v w => xs.count v ≥ xs.count w) xs.dedup
  · exact multiplicities_pairwise xs
  · exact ((byCount_perm xs).map _).trans (multiplicities_perm_counts xs).symm

private theorem getD_multiplicities
    {xs : List α} {p : ℕ} (hp : p < (byCount xs).length) :
    (multiplicities xs).getD p 0 = xs.count (byCount xs)[p] := by
  rw [← map_count_byCount]
  simp [hp]

private theorem getD_multiplicities_antitone
    (xs : List α) {p q : ℕ} (hpq : p ≤ q) :
    (multiplicities xs).getD q 0 ≤ (multiplicities xs).getD p 0 := by
  rcases lt_or_ge q (multiplicities xs).length with hq | hq
  · have hp : p < (multiplicities xs).length := by omega
    rcases Nat.eq_or_lt_of_le hpq with rfl | hlt
    · exact le_rfl
    · have hrel := List.pairwise_iff_getElem.mp
        (multiplicities_pairwise xs) p q hp hq hlt
      simpa [hp, hq] using hrel
  · rw [List.getD_eq_getElem?_getD, List.getElem?_eq_none hq]
    exact Nat.zero_le _

private theorem mem_byCount_of_count_pos
    {xs : List α} {v : α} (hcount : 0 < xs.count v) :
    ∃ p, ∃ hp : p < (byCount xs).length, (byCount xs)[p] = v := by
  apply List.getElem_of_mem
  rw [(byCount_perm xs).mem_iff, List.mem_dedup]
  exact List.count_pos_iff.mp hcount

private theorem lt_byCount_length
    {xs : List α} {p : ℕ} (hpos : 0 < (multiplicities xs).getD p 0) :
    p < (byCount xs).length := by
  by_contra hge
  have hlength : (multiplicities xs).length = (byCount xs).length := by
    rw [← map_count_byCount, List.length_map]
  rw [List.getD_eq_getElem?_getD, List.getElem?_eq_none (by omega)] at hpos
  simp at hpos

/-- The largest multiplicity bounds every multiplicity and is attained. -/
theorem exists_le_count_iff
    (xs : List α) {k : ℕ} (hk : 0 < k) :
    (∃ v, k ≤ xs.count v) ↔ k ≤ (multiplicities xs).getD 0 0 := by
  constructor
  · intro hcount
    rcases hcount with ⟨v, hv⟩
    obtain ⟨p, hp, rfl⟩ := mem_byCount_of_count_pos (hk.trans_le hv)
    rw [← getD_multiplicities hp] at hv
    exact hv.trans (getD_multiplicities_antitone xs (Nat.zero_le p))
  · intro hle
    have hzero := lt_byCount_length (hk.trans_le hle)
    exact ⟨(byCount xs)[0], by rwa [← getD_multiplicities hzero]⟩

/-- Two different entries with large multiplicities are found among the two
largest multiplicities. -/
theorem exists_two_le_count_iff
    (xs : List α) {k l : ℕ} (hl : 0 < l) (hlk : l ≤ k) :
    (∃ v w, v ≠ w ∧ k ≤ xs.count v ∧ l ≤ xs.count w) ↔
      k ≤ (multiplicities xs).getD 0 0 ∧ l ≤ (multiplicities xs).getD 1 0 := by
  constructor
  · intro hvalues
    rcases hvalues with ⟨v, w, hne, hv, hw⟩
    obtain ⟨p, hp, rfl⟩ := mem_byCount_of_count_pos (hl.trans_le (hlk.trans hv))
    obtain ⟨q, hq, rfl⟩ := mem_byCount_of_count_pos (hl.trans_le hw)
    rw [← getD_multiplicities hp] at hv
    rw [← getD_multiplicities hq] at hw
    have hpq : p ≠ q := by
      rintro rfl
      exact hne rfl
    refine ⟨hv.trans (getD_multiplicities_antitone xs (Nat.zero_le p)), ?_⟩
    rcases Nat.eq_zero_or_pos q with rfl | hqpos
    · have hppos : 1 ≤ p := by omega
      exact (hlk.trans hv).trans (getD_multiplicities_antitone xs hppos)
    · exact hw.trans (getD_multiplicities_antitone xs hqpos)
  · intro hboth
    rcases hboth with ⟨hk, hl'⟩
    have hone := lt_byCount_length (hl.trans_le hl')
    have hzero : 0 < (byCount xs).length := by omega
    have hnodup : (byCount xs).Nodup :=
      (byCount_perm xs).nodup_iff.mpr (List.nodup_dedup xs)
    refine ⟨(byCount xs)[0], (byCount xs)[1], ?_, ?_, ?_⟩
    · intro heq
      have := hnodup.getElem_inj_iff.mp heq
      omega
    · rwa [← getD_multiplicities hzero]
    · rwa [← getD_multiplicities hone]

end Multiplicities

/-! ## The last entries -/

section Windows

variable {α : Type}

theorem rtake_of_length_le
    {list : List α} {count : ℕ} (hle : list.length ≤ count) :
    list.rtake count = list := by
  have hzero : list.length - count = 0 := by omega
  simp [List.rtake, hzero]

theorem rtake_length (list : List α) (count : ℕ) :
    (list.rtake count).length = min count list.length := by
  simp only [List.rtake, List.length_drop]
  omega

theorem rtake_eq_tail
    {list : List α} {count : ℕ} (hlt : count < list.length) :
    list.rtake count = (list.rtake (count + 1)).tail := by
  have hdrop : list.length - count = list.length - (count + 1) + 1 := by omega
  simp [List.rtake, List.tail_drop, hdrop]

end Windows

/-! ## Every entry at a multiple -/

section Multiples

variable {α : Type}

/-- Every entry whose position, counted from one, is a multiple of `period`. -/
def everyNth (period : ℕ) (entries : List α) : List α :=
  (entries.zipIdx.filter fun entry => (entry.2 + 1) % period = 0).map Prod.fst

theorem everyNth_concat (period : ℕ) (entries : List α) (entry : α) :
    everyNth period (entries ++ [entry]) =
      everyNth period entries ++
        if (entries.length + 1) % period = 0 then [entry] else [] := by
  rw [everyNth, List.zipIdx_append, List.filter_append, List.map_append]
  congr 1
  by_cases hposition : (entries.length + 1) % period = 0
  · simp [hposition]
  · simp [hposition]

theorem mem_everyNth
    {period position : ℕ} {entries : List α} {entry : α}
    (hentry : entries[position]? = some entry)
    (hposition : (position + 1) % period = 0) :
    entry ∈ everyNth period entries := by
  have hmem : (entry, position) ∈ entries.zipIdx :=
    List.mk_mem_zipIdx_iff_getElem?.mpr hentry
  exact List.mem_map.mpr
    ⟨(entry, position), List.mem_filter.mpr ⟨hmem, by simpa using hposition⟩,
      rfl⟩

theorem length_everyNth (period : ℕ) (entries : List α) :
    (everyNth period entries).length = entries.length / period := by
  induction entries using List.reverseRecOn with
  | nil => simp [everyNth]
  | append_singleton entries entry ih =>
      rw [everyNth_concat, List.length_append, ih, List.length_append,
        List.length_singleton, Nat.succ_div]
      simp only [Nat.dvd_iff_mod_eq_zero]
      split_ifs <;> rfl

end Multiples

/-! ## Consecutive integers -/

def spread (zs : List ℤ) : ℤ :=
  zs.max?.getD 0 - zs.min?.getD 0

theorem spread_eq_of_bounds
    {zs : List ℤ} {lo hi : ℤ}
    (hlo : lo ∈ zs) (hhi : hi ∈ zs) (hbound : ∀ z ∈ zs, lo ≤ z ∧ z ≤ hi) :
    spread zs = hi - lo := by
  have hmin : zs.min? = some lo :=
    List.min?_eq_some_iff.mpr ⟨hlo, fun z hz => (hbound z hz).1⟩
  have hmax : zs.max? = some hi :=
    List.max?_eq_some_iff.mpr ⟨hhi, fun z hz => (hbound z hz).2⟩
  simp [spread, hmin, hmax]

theorem spread_eq_of_perm
    {zs ws : List ℤ} (hperm : zs.Perm ws) : spread zs = spread ws := by
  rcases zs with _ | ⟨z, zs⟩
  · rw [hperm.nil_eq]
  · obtain ⟨lo, hlo⟩ : ∃ lo, (z :: zs).min? = some lo := by simp
    obtain ⟨hi, hhi⟩ : ∃ hi, (z :: zs).max? = some hi := by simp
    obtain ⟨hlomem, hlole⟩ := List.min?_eq_some_iff.mp hlo
    obtain ⟨hhimem, hhile⟩ := List.max?_eq_some_iff.mp hhi
    rw [spread_eq_of_bounds hlomem hhimem
        fun w hw => ⟨hlole w hw, hhile w hw⟩,
      spread_eq_of_bounds (hperm.mem_iff.mp hlomem) (hperm.mem_iff.mp hhimem)
        fun w hw => ⟨hlole w (hperm.mem_iff.mpr hw),
          hhile w (hperm.mem_iff.mpr hw)⟩]

/-- A list contains the `length` consecutive integers from its minimum on
exactly when it has no repetition and its spread is `length - 1`. -/
theorem consecutive_iff
    {zs : List ℤ} {lo : ℤ} (hlo : lo ∈ zs) (hmin : ∀ z ∈ zs, lo ≤ z) :
    (∀ c : ℕ, c < zs.length → lo + c ∈ zs) ↔
      zs.Nodup ∧ spread zs = zs.length - 1 := by
  have hpos : 0 < zs.length := List.length_pos_of_mem hlo
  have hIcc : (Finset.Icc lo (lo + zs.length - 1)).card = zs.length := by
    rw [Int.card_Icc]
    omega
  constructor
  · intro hall
    have hsub : Finset.Icc lo (lo + zs.length - 1) ⊆ zs.toFinset := by
      intro z hz
      rw [Finset.mem_Icc] at hz
      have hmem := hall (z - lo).toNat (by omega)
      rw [Int.toNat_of_nonneg (by omega)] at hmem
      simpa using hmem
    have hcard : zs.toFinset.card = zs.length := by
      apply le_antisymm (List.toFinset_card_le zs)
      rw [← hIcc]
      exact Finset.card_le_card hsub
    have heq : Finset.Icc lo (lo + zs.length - 1) = zs.toFinset :=
      Finset.eq_of_subset_of_card_le hsub (by rw [hcard, hIcc])
    refine ⟨Multiset.toFinset_card_eq_card_iff_nodup.mp hcard, ?_⟩
    have htop : lo + zs.length - 1 ∈ zs := by
      rw [← List.mem_toFinset, ← heq, Finset.mem_Icc]
      omega
    rw [spread_eq_of_bounds hlo htop]
    · omega
    · intro z hz
      rw [← List.mem_toFinset, ← heq, Finset.mem_Icc] at hz
      exact hz
  · rintro ⟨hnodup, hspread⟩ c hc
    obtain ⟨hi, hhi⟩ : ∃ hi, zs.max? = some hi := by
      rcases zs with _ | ⟨z, zs⟩
      · simp at hpos
      · simp
    obtain ⟨hhimem, hhile⟩ := List.max?_eq_some_iff.mp hhi
    rw [spread_eq_of_bounds hlo hhimem
      fun z hz => ⟨hmin z hz, hhile z hz⟩] at hspread
    have hsub : zs.toFinset ⊆ Finset.Icc lo (lo + zs.length - 1) := by
      intro z hz
      rw [List.mem_toFinset] at hz
      have := hmin z hz
      have := hhile z hz
      rw [Finset.mem_Icc]
      omega
    have heq : zs.toFinset = Finset.Icc lo (lo + zs.length - 1) :=
      Finset.eq_of_subset_of_card_le hsub (by
        rw [hIcc, List.toFinset_card_of_nodup hnodup])
    rw [← List.mem_toFinset, heq, Finset.mem_Icc]
    omega

end ListPattern
