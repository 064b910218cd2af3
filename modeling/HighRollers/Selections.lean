import HighRollers.JavaRun
import HighRollers.ListPatterns
import Mathlib.Data.List.Sublists
import Mathlib.Data.Multiset.Powerset
import Mathlib.Data.Nat.Choose.Basic
import Mathlib.Algebra.BigOperators.Group.Finset.Basic
import Mathlib.Algebra.BigOperators.Ring.Finset

/-!
# Counting the selections from a list

Nested loops with increasing indices run through the selections of a fixed
number of entries.  This file counts the selections with a given property:
those from a sublist, those with given multiplicities from a list which has
every value equally often, and those which are a given list up to order.
-/

namespace ListPattern

open Finset (range)

section Selections

variable {α : Type}

/-- The number of selections of `k` entries of `list` which satisfy `p`. -/
def selected (p : List α → Bool) (k : ℕ) (list : List α) : ℕ :=
  (list.sublistsLen k).countP p

theorem selected_zero (p : List α → Bool) (list : List α) :
    selected p 0 list = if p [] then 1 else 0 := by
  simp [selected, List.countP_cons]

theorem selected_succ_nil (p : List α → Bool) (k : ℕ) :
    selected p (k + 1) [] = 0 := by
  simp [selected]

theorem selected_succ_cons
    (p : List α → Bool) (k : ℕ) (entry : α) (list : List α) :
    selected p (k + 1) (entry :: list) =
      selected p (k + 1) list +
        selected (fun rest => p (entry :: rest)) k list := by
  rw [selected, List.sublistsLen_succ_cons, List.countP_append,
    List.countP_map]
  rfl

theorem selected_congr
    {p q : List α → Bool} {k : ℕ} {list : List α}
    (heq : ∀ selection, selection.Sublist list → selection.length = k →
      p selection = q selection) :
    selected p k list = selected q k list := by
  apply List.countP_congr
  intro selection hselection
  obtain ⟨hsublist, hlength⟩ := List.mem_sublistsLen.mp hselection
  rw [heq selection hsublist hlength]

/-- Tests which give the same answers count the same selections. -/
theorem map_selected_congr
    (tests tests' : List (List α → Bool)) {k : ℕ} {list : List α}
    (heq : ∀ selection, selection.Sublist list → selection.length = k →
      tests.map (fun test => test selection) =
        tests'.map fun test => test selection)
    (hlength : tests.length = tests'.length) :
    (tests.map fun test => selected test k list) =
      tests'.map fun test => selected test k list := by
  induction tests generalizing tests' with
  | nil =>
      have hnil : tests' = [] := List.length_eq_zero_iff.mp hlength.symm
      rw [hnil]
  | cons test rest ih =>
      cases tests' with
      | nil => simp at hlength
      | cons test' rest' =>
          simp only [List.map_cons, List.cons.injEq] at heq ⊢
          constructor
          · apply selected_congr
            intro selection hsublist hcount
            exact (heq selection hsublist hcount).1
          · apply ih rest'
            · intro selection hsublist hcount
              exact (heq selection hsublist hcount).2
            · simpa using hlength

theorem selected_eq_zero
    {p : List α → Bool} {k : ℕ} {list : List α}
    (hnone : ∀ selection, selection.Sublist list → selection.length = k →
      p selection = false) :
    selected p k list = 0 := by
  rw [selected_congr hnone]
  simp [selected]

theorem selected_true (k : ℕ) (list : List α) :
    selected (fun _ => true) k list = list.length.choose k := by
  simp [selected, List.length_sublistsLen]

def both (p q : List α → Bool) (selection : List α) : Bool :=
  p selection && q selection

def without (p q : List α → Bool) (selection : List α) : Bool :=
  p selection && !q selection

theorem selected_split (p q : List α → Bool) (k : ℕ) (list : List α) :
    selected p k list =
      selected (both p q) k list + selected (without p q) k list := by
  unfold selected both without
  induction list.sublistsLen k with
  | nil => rfl
  | cons selection others ih =>
      rw [List.countP_cons, List.countP_cons, List.countP_cons, ih]
      cases p selection <;> cases q selection <;> simp <;> omega

/-- Classes without common selections are counted one by one. -/
theorem selected_any
    {κ : Type} {p : κ → List α → Bool} {k : ℕ} {list : List α}
    {classes : List κ} (hnodup : classes.Nodup)
    (hunique : ∀ selection, selection.Sublist list → selection.length = k →
      ∀ c ∈ classes, ∀ d ∈ classes,
        p c selection = true → p d selection = true → c = d) :
    selected (fun selection => classes.any fun c => p c selection) k list =
      (classes.map fun c => selected (p c) k list).sum := by
  induction classes with
  | nil => simp [selected]
  | cons c rest ih =>
      rw [List.nodup_cons] at hnodup
      have hrest := ih hnodup.2 fun selection hsublist hlength c hc d hd =>
        hunique selection hsublist hlength c (List.mem_cons_of_mem _ hc) d
          (List.mem_cons_of_mem _ hd)
      rw [selected_split _ (p c), List.map_cons, List.sum_cons, ← hrest]
      congr 1
      · apply selected_congr
        intro selection _ _
        cases hc : p c selection <;> simp [both, hc]
      · apply selected_congr
        intro selection hsublist hlength
        cases hc : p c selection with
        | false => simp [without, hc]
        | true =>
            -- No other class has this selection.
            have hnone : (rest.any fun d => p d selection) = false := by
              rw [List.any_eq_false]
              intro d hd hdp
              have heq := hunique selection hsublist hlength c (by simp) d
                (List.mem_cons_of_mem _ hd) hc hdp
              exact hnodup.1 (heq ▸ hd)
            simp [without, hc, hnone]

/-- A property of the selected entries does not depend on their order in the
list. -/
theorem selected_eq_of_perm
    {p : List α → Bool} {list list' : List α}
    (hp : ∀ selection selection', selection.Perm selection' →
      p selection = p selection')
    (hperm : list.Perm list') (k : ℕ) :
    selected p k list = selected p k list' := by
  let lifted : Multiset α → Bool := Quot.lift p hp
  have hlifted : ∀ list : List α, selected p k list =
      ((list.sublistsLen k).map Multiset.ofList).countP lifted := by
    intro list
    rw [List.countP_map]
    rfl
  have hsets : ((list.sublistsLen k).map Multiset.ofList).Perm
      ((list'.sublistsLen k).map Multiset.ofList) := by
    apply Multiset.coe_eq_coe.mp
    rw [← Multiset.powersetCard_coe, ← Multiset.powersetCard_coe,
      Multiset.coe_eq_coe.mpr hperm]
  rw [hlifted list, hlifted list', hsets.countP_eq]

theorem selected_map
    {β : Type} (f : α → β) (p : List β → Bool) (k : ℕ) (list : List α) :
    selected p k (list.map f) =
      selected (fun selection => p (selection.map f)) k list := by
  induction list generalizing k p with
  | nil =>
      cases k with
      | zero => simp [selected_zero]
      | succ k => simp [selected_succ_nil]
  | cons entry rest ih =>
      cases k with
      | zero => simp [selected_zero]
      | succ k =>
          rw [List.map_cons, selected_succ_cons, selected_succ_cons, ih, ih]
          rfl

/-- The selections of entries satisfying `q` are those from the sublist. -/
theorem selected_all
    (p : List α → Bool) (q : α → Bool) (k : ℕ) (list : List α) :
    selected (fun selection => selection.all q && p selection) k list =
      selected p k (list.filter q) := by
  induction list generalizing k p with
  | nil =>
      cases k with
      | zero => simp [selected_zero]
      | succ k => simp [selected_succ_nil]
  | cons entry rest ih =>
      cases k with
      | zero => simp [selected_zero]
      | succ k =>
          rw [selected_succ_cons, ih]
          by_cases hentry : q entry = true
          · have hrest := ih (fun rest => p (entry :: rest)) k
            rw [List.filter_cons_of_pos hentry, selected_succ_cons, ← hrest]
            simp [hentry]
          · rw [List.filter_cons_of_neg hentry]
            have hnone : selected (fun selection =>
                (entry :: selection).all q && p (entry :: selection)) k rest =
                  0 := by
              apply selected_eq_zero
              intro selection _ _
              simp [hentry]
            rw [hnone, Nat.add_zero]

def occurrences (q : α → Bool) (k : ℕ) (list : List α) : ℕ :=
  ((list.sublistsLen k).map fun selection => selection.countP q).sum

theorem occurrences_succ_cons
    (q : α → Bool) (k : ℕ) (entry : α) (list : List α) :
    occurrences q (k + 1) (entry :: list) =
      occurrences q (k + 1) list + occurrences q k list +
        (if q entry then 1 else 0) * list.length.choose k := by
  rw [occurrences, List.sublistsLen_succ_cons, List.map_append,
    List.sum_append, List.map_map, Nat.add_assoc]
  congr 1
  rw [← List.length_sublistsLen, occurrences]
  induction list.sublistsLen k with
  | nil => simp
  | cons selection others ih =>
      simp only [List.map_cons, List.sum_cons, Function.comp_apply,
        List.countP_cons, List.length_cons] at ih ⊢
      rw [ih]
      ring

/-- Over all selections every entry is met equally often. -/
theorem occurrences_eq (q : α → Bool) (k : ℕ) (list : List α) :
    occurrences q (k + 1) list =
      list.countP q * (list.length - 1).choose k := by
  induction list generalizing k with
  | nil => simp [occurrences]
  | cons entry rest ih =>
      have hrest : occurrences q (k + 1) rest + occurrences q k rest =
          rest.countP q * rest.length.choose k := by
        cases k with
        | zero =>
            have hnone : occurrences q 0 rest = 0 := by simp [occurrences]
            rw [ih, hnone]
            simp
        | succ k =>
            rw [ih, ih, ← Nat.mul_add]
            cases rest with
            | nil => simp
            | cons other others =>
                simp only [List.length_cons, Nat.add_sub_cancel,
                  Nat.choose_succ_succ]
                rw [Nat.add_comm]
      rw [occurrences_succ_cons, hrest, List.countP_cons, ← Nat.add_mul]
      simp

end Selections

/-! ## Lists with every value equally often -/

section Blocks

variable {α : Type} {p : List α → Bool}

theorem selected_replicate_append
    (p : List α → Bool) (m k : ℕ) (v : α) (list : List α) :
    selected p k (List.replicate m v ++ list) =
      ∑ j ∈ range (k + 1), m.choose j *
        selected (fun rest => p (List.replicate j v ++ rest)) (k - j)
          list := by
  induction m generalizing k p with
  | zero =>
      rw [Finset.sum_range_succ']
      simp
  | succ m ih =>
      cases k with
      | zero => simp [selected_zero]
      | succ k =>
          rw [List.replicate_succ, List.cons_append, selected_succ_cons, ih,
            ih, Finset.sum_range_succ', Finset.sum_range_succ' _ (k + 1)]
          simp only [Nat.choose_succ_succ', Nat.add_mul,
            Finset.sum_add_distrib, Nat.choose_zero_right,
            Nat.add_sub_add_right, List.replicate_succ, List.cons_append]
          omega

/-- A list with `m` copies of every value. -/
def blocks (m : ℕ) (values : List α) : List α :=
  values.flatMap (List.replicate m)

theorem selected_blocks_cons
    (p : List α → Bool) (m k : ℕ) (v : α) (values : List α) :
    selected p k (blocks m (v :: values)) =
      ∑ j ∈ range (k + 1), m.choose j *
        selected (fun rest => p (List.replicate j v ++ rest)) (k - j)
          (blocks m values) := by
  rw [blocks, List.flatMap_cons]
  exact selected_replicate_append p m k v _

theorem not_mem_of_sublist_blocks
    {m : ℕ} {v : α} {values selection : List α} (hv : v ∉ values)
    (hsublist : selection.Sublist (blocks m values)) :
    v ∉ selection := by
  intro hmem
  obtain ⟨w, hw, hv'⟩ := List.mem_flatMap.mp (hsublist.subset hmem)
  rw [List.eq_of_mem_replicate hv'] at hv
  exact hv hw

variable [DecidableEq α]

/-- The number of ways to take a list with the multiplicities `pattern` from
`m` copies of each of `n` values. -/
def arrangements (m : ℕ) : ℕ → List ℕ → ℕ
  | 0, pattern => if pattern = [] then 1 else 0
  | n + 1, pattern =>
      arrangements m n pattern +
        ∑ j ∈ range pattern.sum,
          if j + 1 ∈ pattern then
            m.choose (j + 1) * arrangements m n (pattern.erase (j + 1))
          else 0

theorem multiplicities_of_nodup {xs : List α} (hnodup : xs.Nodup) :
    multiplicities xs = List.replicate xs.length 1 := by
  have hperm := multiplicities_perm_counts xs
  rw [hnodup.dedup] at hperm
  rw [List.eq_replicate_iff]
  refine ⟨by simpa using hperm.length_eq, ?_⟩
  intro m hm
  obtain ⟨v, hv, rfl⟩ := List.mem_map.mp (hperm.mem_iff.mp hm)
  exact List.count_eq_one_of_mem hnodup hv

theorem multiplicities_replicate_append
    {v : α} {rest : List α} (hv : v ∉ rest) (j : ℕ) :
    (multiplicities (List.replicate (j + 1) v ++ rest)).Perm
      ((j + 1) :: multiplicities rest) := by
  have hdedup : (List.replicate (j + 1) v ++ rest).dedup.Perm
      (v :: rest.dedup) := by
    apply (List.perm_ext_iff_of_nodup (List.nodup_dedup _) ?_).mpr
    · intro w
      simp
    · exact List.nodup_cons.mpr ⟨by simpa using hv, List.nodup_dedup rest⟩
  have hself : (List.replicate (j + 1) v ++ rest).count v = j + 1 := by
    rw [List.count_append, List.count_replicate_self,
      List.count_eq_zero_of_not_mem hv]
  have hothers : (rest.dedup.map fun w =>
      (List.replicate (j + 1) v ++ rest).count w) =
        rest.dedup.map fun w => rest.count w := by
    apply List.map_congr_left
    intro w hw
    have hne : v ≠ w := by
      intro heq
      subst w
      exact hv (List.mem_dedup.mp hw)
    rw [List.count_append, List.count_replicate]
    simp [hne]
  have hcounts := hdedup.map fun w =>
    (List.replicate (j + 1) v ++ rest).count w
  rw [List.map_cons, hself, hothers] at hcounts
  exact (multiplicities_perm_counts _).trans
    (hcounts.trans ((multiplicities_perm_counts rest).symm.cons (j + 1)))

theorem multiplicities_replicate_append_eq_iff
    {v : α} {rest : List α} (hv : v ∉ rest) (j : ℕ) {pattern : List ℕ}
    (hpattern : pattern.Pairwise (· ≥ ·)) :
    multiplicities (List.replicate (j + 1) v ++ rest) = pattern ↔
      j + 1 ∈ pattern ∧ multiplicities rest = pattern.erase (j + 1) := by
  have hperm := multiplicities_replicate_append hv j
  have herase : (pattern.erase (j + 1)).Pairwise (· ≥ ·) :=
    hpattern.sublist List.erase_sublist
  constructor
  · intro heq
    rw [heq] at hperm
    obtain ⟨hmem, hrest⟩ := List.cons_perm_iff_perm_erase.mp hperm.symm
    exact ⟨hmem, hrest.eq_of_pairwise' (multiplicities_pairwise rest) herase⟩
  · rintro ⟨hmem, hrest⟩
    rw [hrest] at hperm
    exact (hperm.trans (List.perm_cons_erase hmem).symm).eq_of_pairwise'
      (multiplicities_pairwise _) hpattern

theorem selected_multiplicities
    (m : ℕ) {values : List α} (hnodup : values.Nodup) {pattern : List ℕ}
    (hpattern : pattern.Pairwise (· ≥ ·)) (hpos : ∀ k ∈ pattern, 0 < k) :
    selected (fun selection => multiplicities selection = pattern)
        pattern.sum (blocks m values) =
      arrangements m values.length pattern := by
  induction values generalizing pattern with
  | nil =>
      cases pattern with
      | nil => simp [selected_zero, arrangements, multiplicities]
      | cons k rest =>
          have hk : 0 < k := hpos k (by simp)
          obtain ⟨sum, hsum⟩ : ∃ sum, (k :: rest).sum = sum + 1 :=
            ⟨(k :: rest).sum - 1, by simp; omega⟩
          rw [hsum]
          simp [blocks, selected_succ_nil, arrangements]
  | cons v values ih =>
      rw [List.nodup_cons] at hnodup
      rw [selected_blocks_cons, Finset.sum_range_succ', List.length_cons,
        arrangements, Nat.add_comm]
      congr 1
      · simpa using ih hnodup.2 hpattern hpos
      · apply Finset.sum_congr rfl
        intro j _
        -- Taking `j + 1` copies of `v` uses up one entry of the pattern.
        have hiff : ∀ selection : List α,
            selection.Sublist (blocks m values) →
              (multiplicities (List.replicate (j + 1) v ++ selection) =
                  pattern ↔
                j + 1 ∈ pattern ∧
                  multiplicities selection = pattern.erase (j + 1)) := by
          intro selection hsublist
          exact multiplicities_replicate_append_eq_iff
            (not_mem_of_sublist_blocks hnodup.1 hsublist) j hpattern
        split_ifs with hmem
        · have hsum := (List.perm_cons_erase hmem).sum_eq
          rw [List.sum_cons] at hsum
          have hrest : pattern.sum - (j + 1) =
              (pattern.erase (j + 1)).sum := by omega
          rw [hrest, ← ih hnodup.2 (hpattern.sublist List.erase_sublist)
            fun k hk => hpos k (List.mem_of_mem_erase hk)]
          congr 1
          apply selected_congr
          intro selection hsublist _
          simp [hiff selection hsublist, hmem]
        · rw [selected_eq_zero, Nat.mul_zero]
          intro selection hsublist _
          simp [hiff selection hsublist, hmem]

theorem perm_replicate_append_iff
    {v : α} {rest : List α} (hv : v ∉ rest) (j : ℕ) (wanted : List α) :
    (List.replicate j v ++ rest).Perm wanted ↔
      j = wanted.count v ∧ rest.Perm (wanted.filter fun w => w ≠ v) := by
  have hzero : rest.count v = 0 := List.count_eq_zero_of_not_mem hv
  constructor
  · intro hperm
    have hcount := hperm.count_eq v
    have hothers := hperm.filter fun w => decide (w ≠ v)
    have hself : rest.filter (fun w => decide (w ≠ v)) = rest := by
      rw [List.filter_eq_self]
      intro w hw
      have hne : w ≠ v := fun heq => hv (heq ▸ hw)
      simpa using hne
    rw [List.filter_append, hself] at hothers
    simp [hzero] at hcount hothers
    exact ⟨hcount, by simpa using hothers⟩
  · rintro ⟨rfl, hrest⟩
    rw [List.perm_iff_count] at hrest ⊢
    intro w
    by_cases hw : w = v
    · subst w
      simp [hzero]
    · have hne : ¬ v = w := fun heq => hw heq.symm
      rw [List.count_append, hrest w, List.count_filter (by simpa using hw)]
      simp [List.count_replicate, hne]

/-- The selections which are a given list up to order. -/
theorem selected_perm
    (m : ℕ) {values wanted : List α} (hnodup : values.Nodup)
    (hwanted : wanted ⊆ values) :
    selected (fun selection => decide (selection.Perm wanted)) wanted.length
        (blocks m values) =
      (values.map fun v => m.choose (wanted.count v)).prod := by
  induction values generalizing wanted with
  | nil =>
      have hnil : wanted = [] := List.subset_nil.mp hwanted
      subst wanted
      simp [selected_zero]
  | cons v values ih =>
      rw [List.nodup_cons] at hnodup
      have hiff : ∀ (j : ℕ) (selection : List α),
          selection.Sublist (blocks m values) →
            ((List.replicate j v ++ selection).Perm wanted ↔
              j = wanted.count v ∧
                selection.Perm (wanted.filter fun w => w ≠ v)) := by
        intro j selection hsublist
        exact perm_replicate_append_iff
          (not_mem_of_sublist_blocks hnodup.1 hsublist) j wanted
      have hsubset : (wanted.filter fun w => w ≠ v) ⊆ values := by
        intro w hw
        rw [List.mem_filter] at hw
        have hne : w ≠ v := by simpa using hw.2
        exact (List.mem_cons.mp (hwanted hw.1)).resolve_left hne
      have hlength : wanted.length - wanted.count v =
          (wanted.filter fun w => w ≠ v).length := by
        rw [List.length_eq_countP_add_countP (fun w => w == v),
          ← List.countP_eq_length_filter, List.count]
        simp
      have hcounts : (values.map fun w => m.choose (wanted.count w)) =
          values.map fun w =>
            m.choose ((wanted.filter fun w => w ≠ v).count w) := by
        apply List.map_congr_left
        intro w hw
        have hne : w ≠ v := fun heq => hnodup.1 (heq ▸ hw)
        rw [List.count_filter (by simpa using hne)]
      rw [selected_blocks_cons, Finset.sum_eq_single (wanted.count v),
        hlength, List.map_cons, List.prod_cons, hcounts,
        ← ih hnodup.2 hsubset]
      · congr 1
        apply selected_congr
        intro selection hsublist _
        simp [hiff _ selection hsublist]
      · intro j _ hne
        rw [selected_eq_zero, Nat.mul_zero]
        intro selection hsublist _
        simp [hiff j selection hsublist, hne]
      · intro hout
        have hle := List.count_le_length (a := v) (l := wanted)
        simp at hout
        omega

end Blocks

-- The selections are never to be enumerated.
attribute [irreducible] selected

end ListPattern

/-! ## Loops over the selections -/

namespace Java

section IncreasingLoops

variable {ρ σ α : Type}

/-- `k` nested loops, each starting after the index of the one around it; the
innermost body gets all the indices. -/
def increasingLoops (n : ℕ) (body : List ℕ → σ → Run σ) :
    ℕ → ℕ → List ℕ → σ → Run (Completion ρ σ)
  | 0, _, chosen, state => assign (body chosen state)
  | k + 1, lo, chosen, state =>
      forRange lo n state fun i current =>
        increasingLoops n body k (i + 1) (chosen ++ [i]) current

variable {array : List α} {body : List ℕ → σ → Run σ}
  {returned : ρ → Prop}

/-- The selections are met one after the other, each once. -/
theorem increasingLoops_completes
    (total : List (List α) → σ) (size : ℕ)
    (hbody : ∀ indices selection done,
      indices.map (fun i => array[i]?) = selection.map some →
      selection.length = size →
      body indices (total done) = .ok (total (done ++ [selection])))
    (k lo : ℕ) (chosen : List ℕ) (entries : List α)
    (done : List (List α))
    (hchosen : chosen.map (fun i => array[i]?) = entries.map some)
    (hsize : entries.length + k = size) (hlo : lo ≤ array.length) :
    Completes
      (increasingLoops array.length body k lo chosen (total done))
      (fun final => final = total (done ++
        ((array.drop lo).sublistsLen k).reverse.map (entries ++ ·)))
      returned := by
  induction k generalizing lo chosen entries done with
  | zero =>
      have hstep := hbody chosen entries done hchosen (by omega)
      simp only [increasingLoops, hstep, assign, Except.map]
      exact .next (by simp)
  | succ k ih =>
      -- What is left are the selections from the entries not passed yet.
      apply Completes.mono (forRange_rule
        (fun i current => ∃ passed, current = total (done ++ passed) ∧
          passed ++ ((array.drop i).sublistsLen (k + 1)).reverse.map
              (entries ++ ·) =
            ((array.drop lo).sublistsLen (k + 1)).reverse.map (entries ++ ·))
        hlo ?start ?step)
      case start => exact ⟨[], by simp, by simp⟩
      · rintro final ⟨passed, rfl, hpassed⟩
        rw [← hpassed]
        simp
      case step =>
        rintro i current hi hlt ⟨passed, rfl, hpassed⟩
        have hnext := ih (i + 1) (chosen ++ [i]) (entries ++ [array[i]])
          (done ++ passed) (by simp [hchosen, hlt]) (by simp; omega) hlt
        apply hnext.mono
        rintro final rfl
        refine ⟨passed ++ ((array.drop (i + 1)).sublistsLen k).reverse.map
          ((entries ++ [array[i]]) ++ ·), by simp, ?_⟩
        rw [← hpassed, List.drop_eq_getElem_cons hlt,
          List.sublistsLen_succ_cons]
        simp [List.map_reverse]

end IncreasingLoops

end Java
