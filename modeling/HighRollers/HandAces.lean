import HighRollers.HandRank

/-!
# Aces low and aces high

A hand with aces can be written with the byte `ACE` or with `ACE_HIGH`.  The
choice matters only for straights: every other predicate sees the equality
pattern of the values and the suits.  Of the two ranks the better one is the
standard category, in which an ace may stand at either end of a straight.
-/

namespace HighRollers

open Java
open ListPattern

def Card.withAceHigh (card : Card) : Card :=
  if card.value = Card.ace then ⟨Card.aceHigh, card.suit⟩ else card

namespace Hand

def acesHigh (hand : List Card) : List Card :=
  hand.map Card.withAceHigh

def predicatesBesidesStraights : List (CardArray → Run Bool) :=
  [isFiveOfAKind, isFourOfAKind, isFullHouse, isFlush, isThreeOfAKind,
    isTwoPair, isOnePair]

/-! ## The categories with a flexible ace -/

def rankOf (m : List ℕ) (run oneSuit : Prop) [Decidable run]
    [Decidable oneSuit] : Rank :=
  if m = [5] then .fiveOfAKind
  else if run ∧ oneSuit then .straightFlush
  else if m = [4, 1] then .fourOfAKind
  else if m = [3, 2] then .fullHouse
  else if oneSuit then .flush
  else if run then .straight
  else if m = [3, 1, 1] then .threeOfAKind
  else if m = [2, 2, 1] then .twoPair
  else if m = [2, 1, 1, 1] then .onePair
  else .highCard

/-- Five consecutive values from one of 1 to 10 on, where an ace also counts
as 14. -/
def IsFlexibleRun (hand : List Card) : Prop :=
  ∃ low ∈ List.range' 1 10, ∀ c ∈ List.range 5, ∃ card ∈ hand,
    card.value.toInt = low + c ∨ card.value = Card.ace ∧ low + c = 14

instance (hand : List Card) : Decidable (IsFlexibleRun hand) :=
  inferInstanceAs (Decidable (∃ low ∈ List.range' 1 10,
    ∀ c ∈ List.range 5, ∃ card ∈ hand,
      card.value.toInt = low + c ∨ card.value = Card.ace ∧ low + c = 14))

def flexibleCategory (hand : List Card) : Rank :=
  rankOf (multiplicities (values hand)) (IsFlexibleRun hand) (OneSuit hand)

/-- Lower ranks trump higher ranks. -/
def better (rank rank' : Rank) : Rank :=
  if rank.toByte ≤ rank'.toByte then rank else rank'

theorem category_eq_rankOf (hand : List Card) :
    category hand =
      rankOf (multiplicities (values hand)) (IsRun hand) (OneSuit hand) := rfl

theorem better_eq_left
    {rank rank' : Rank} (hle : rank.toByte ≤ rank'.toByte) :
    better rank rank' = rank :=
  if_pos hle

theorem better_eq_right
    {rank rank' : Rank} (hle : rank'.toByte ≤ rank.toByte) :
    better rank rank' = rank' := by
  unfold better
  split_ifs with hle'
  · exact Rank.toByte_injective (Int8.le_antisymm hle' hle)
  · rfl

theorem rankOf_run_le
    (m : List ℕ) (oneSuit : Prop) [Decidable oneSuit] :
    (rankOf m True oneSuit).toByte ≤ (rankOf m False oneSuit).toByte := by
  unfold rankOf
  by_cases hsuit : oneSuit
  · simp only [hsuit, and_self, and_true, if_true, if_false]
    split_ifs <;> decide
  · simp only [hsuit, and_false, if_true, if_false]
    split_ifs <;> decide

theorem better_rankOf
    (m : List ℕ) (run run' oneSuit : Prop) [Decidable run] [Decidable run']
    [Decidable oneSuit] :
    better (rankOf m run oneSuit) (rankOf m run' oneSuit) =
      rankOf m (run ∨ run') oneSuit := by
  have hle := rankOf_run_le m oneSuit
  by_cases hrun : run
  · by_cases hrun' : run'
    · simp only [hrun, hrun', or_self]
      exact better_eq_left (Int8.le_refl _)
    · simp only [hrun, hrun', or_false]
      exact better_eq_left hle
  · by_cases hrun' : run'
    · simp only [hrun, hrun', or_true]
      exact better_eq_right hle
    · simp only [hrun, hrun', or_self]
      exact better_eq_left (Int8.le_refl _)

/-! ## The relabelling -/

section Relabelling

variable {hand : List Card}
  (hrange : ∀ card ∈ hand, 1 ≤ card.value.toInt ∧ card.value.toInt ≤ 13)

include hrange

/-- On the values 1 to 13 the relabelling is the exchange of 1 and 14. -/
theorem values_acesHigh :
    values (acesHigh hand) =
      (values hand).map (Equiv.swap Card.ace Card.aceHigh) := by
  unfold values acesHigh
  rw [List.map_map, List.map_map]
  apply List.map_congr_left
  intro card hcard
  have hne : card.value ≠ Card.aceHigh := by
    intro heq
    have hle := (hrange card hcard).2
    rw [heq] at hle
    exact absurd hle (by decide)
  by_cases hace : card.value = Card.ace
  · simp [Card.withAceHigh, hace]
  · simp [Card.withAceHigh, hace, Equiv.swap_apply_of_ne_of_ne hace hne]

theorem multiplicities_acesHigh :
    multiplicities (values (acesHigh hand)) = multiplicities (values hand) := by
  rw [values_acesHigh hrange]
  exact multiplicities_map (Equiv.injective _) _

omit hrange in
theorem oneSuit_acesHigh (hand : List Card) :
    OneSuit (acesHigh hand) ↔ OneSuit hand := by
  have hsuit : ∀ card : Card, card.withAceHigh.suit = card.suit := by
    intro card
    unfold Card.withAceHigh
    split_ifs <;> rfl
  simp [OneSuit, acesHigh, hsuit]

theorem predicate_acesHigh :
    ∀ predicate ∈ predicatesBesidesStraights,
      predicate ((acesHigh hand).map some) = predicate (hand.map some) := by
  have hmult := multiplicities_acesHigh hrange
  have hsuit := oneSuit_acesHigh hand
  have hkind : ∀ {k : ℕ} {method method' : Run Bool}, 0 < k →
      Decides method (∃ v, k ≤ (values (acesHigh hand)).count v) →
      Decides method' (∃ v, k ≤ (values hand).count v) →
      method = method' := by
    intro k method method' hk hdecides hdecides'
    rw [kind_eq_ok hk hdecides, kind_eq_ok hk hdecides', hmult]
  simp only [predicatesBesidesStraights, List.forall_mem_cons]
  refine ⟨?_, ?_, ?_, ?_, ?_, ?_, ?_, by simp⟩
  · exact hkind (by omega) (isFiveOfAKind_decides _) (isFiveOfAKind_decides _)
  · exact hkind (by omega) (isFourOfAKind_decides _) (isFourOfAKind_decides _)
  · rw [isFullHouse_eq_ok, isFullHouse_eq_ok, hmult]
  · rw [isFlush_eq_ok, isFlush_eq_ok]
    simp only [hsuit]
  · exact hkind (by omega) (isThreeOfAKind_decides _)
      (isThreeOfAKind_decides _)
  · rw [isTwoPair_eq_ok, isTwoPair_eq_ok, hmult]
  · exact hkind (by omega) (isOnePair_decides _) (isOnePair_decides _)

theorem intValues_acesHigh :
    (intValues (acesHigh hand)).toFinset =
      (intValues hand).toFinset.image (Equiv.swap 1 14) := by
  have hmap : intValues (acesHigh hand) =
      (intValues hand).map (Equiv.swap 1 14) := by
    unfold intValues acesHigh
    rw [List.map_map, List.map_map]
    apply List.map_congr_left
    intro card hcard
    have hbounds := hrange card hcard
    by_cases hace : card.value = Card.ace
    · have hone : card.value.toInt = 1 := by rw [hace]; rfl
      simp [Card.withAceHigh, hace, Card.ace, Card.aceHigh]
    · have hone : card.value.toInt ≠ 1 := by
        intro heq
        exact hace (Int8.toInt_inj.mp heq)
      simp [Card.withAceHigh, hace,
        Equiv.swap_apply_of_ne_of_ne hone (show card.value.toInt ≠ 14 by omega)]
  ext z
  simp [hmap]

end Relabelling

/-! ## Straights -/

theorem isRun_iff_toFinset
    {hand : List Card} (hlength : hand.length = 5) :
    IsRun hand ↔
      ∃ low, (intValues hand).toFinset = Finset.Icc low (low + 4) := by
  have hfive : (intValues hand).length = 5 := by
    rw [intValues_length, hlength]
  have hcard : ∀ low : ℤ, (Finset.Icc low (low + 4)).card = 5 := by
    intro low
    rw [Int.card_Icc]
    omega
  constructor
  · intro hrun
    obtain ⟨low, hlow⟩ : ∃ low, (intValues hand).min? = some low := by
      cases hvalues : intValues hand with
      | nil => simp [hvalues] at hfive
      | cons value rest => simp
    obtain ⟨hmem, hle⟩ := List.min?_eq_some_iff.mp hlow
    have hconsecutive := (consecutive_iff hmem hle).mpr
      ⟨hrun.1, by rw [hrun.2, hfive]; rfl⟩
    refine ⟨low, (Finset.eq_of_subset_of_card_le ?_ ?_).symm⟩
    · intro z hz
      rw [Finset.mem_Icc] at hz
      have hz' := hconsecutive (z - low).toNat (by omega)
      rw [Int.toNat_of_nonneg (by omega)] at hz'
      simpa using hz'
    · rw [hcard, ← hfive]
      exact List.toFinset_card_le _
  · intro hexists
    rcases hexists with ⟨low, hset⟩
    have hmem : ∀ z, z ∈ intValues hand ↔ low ≤ z ∧ z ≤ low + 4 := by
      intro z
      rw [← List.mem_toFinset, hset, Finset.mem_Icc]
    have hconsecutive := (consecutive_iff ((hmem low).mpr (by omega))
      fun z hz => ((hmem z).mp hz).1).mp (by
        intro c hc
        exact (hmem _).mpr (by omega))
    rw [hfive] at hconsecutive
    exact hconsecutive

theorem toFinset_eq_of_subset
    {hand : List Card} (hlength : hand.length = 5) {wanted : Finset ℤ}
    (hcard : wanted.card = 5) (hsubset : wanted ⊆ (intValues hand).toFinset) :
    (intValues hand).toFinset = wanted := by
  refine (Finset.eq_of_subset_of_card_le hsubset ?_).symm
  rw [hcard, ← hlength, ← intValues_length hand]
  exact List.toFinset_card_le _

def wheelValues : Finset ℤ :=
  {1, 2, 3, 4, 5}

def broadwayValues : Finset ℤ :=
  {1, 10, 11, 12, 13}

section Straights

variable {hand : List Card} (hlength : hand.length = 5)
  (hrange : ∀ card ∈ hand, 1 ≤ card.value.toInt ∧ card.value.toInt ≤ 13)

include hrange

theorem mem_intValues_range :
    ∀ z ∈ (intValues hand).toFinset, 1 ≤ z ∧ z ≤ 13 := by
  intro z hz
  obtain ⟨card, hcard, rfl⟩ := List.mem_map.mp (List.mem_toFinset.mp hz)
  exact hrange card hcard

omit hrange in
theorem acesHigh_eq_self (hace : (1 : ℤ) ∉ (intValues hand).toFinset) :
    acesHigh hand = hand := by
  unfold acesHigh
  conv_rhs => rw [← List.map_id hand]
  apply List.map_congr_left
  intro card hcard
  have hne : card.value ≠ Card.ace := by
    intro heq
    apply hace
    rw [List.mem_toFinset]
    exact List.mem_map.mpr ⟨card, hcard, by rw [heq]; rfl⟩
  simp [Card.withAceHigh, hne]

include hlength

/-- With an ace at the low end the only straight starts at the ace. -/
theorem isRun_iff_wheel (hace : (1 : ℤ) ∈ (intValues hand).toFinset) :
    IsRun hand ↔ (intValues hand).toFinset = wheelValues := by
  rw [isRun_iff_toFinset hlength]
  constructor
  · intro hexists
    rcases hexists with ⟨low, hset⟩
    have hlow : low ∈ (intValues hand).toFinset := by
      rw [hset, Finset.mem_Icc]
      omega
    have hpos := (mem_intValues_range hrange low hlow).1
    rw [hset, Finset.mem_Icc] at hace
    have hone : low = 1 := by omega
    rw [hset, hone]
    rfl
  · intro hset
    exact ⟨1, hset⟩

/-- With an ace at the high end the only straight ends with the ace. -/
theorem isRun_acesHigh_iff_broadway
    (hace : (1 : ℤ) ∈ (intValues hand).toFinset) :
    IsRun (acesHigh hand) ↔
      (intValues hand).toFinset = broadwayValues := by
  have hlength' : (acesHigh hand).length = 5 := by
    rw [acesHigh, List.length_map, hlength]
  rw [isRun_iff_toFinset hlength', intValues_acesHigh hrange]
  constructor
  · intro hexists
    rcases hexists with ⟨low, hset⟩
    have htop : (14 : ℤ) ∈ Finset.Icc low (low + 4) := by
      rw [← hset, Finset.mem_image]
      exact ⟨1, hace, Equiv.swap_apply_left 1 14⟩
    have hlast : low + 4 ∈ (intValues hand).toFinset.image
        (Equiv.swap 1 14) := by
      rw [hset, Finset.mem_Icc]
      omega
    obtain ⟨z, hz, hswap⟩ := Finset.mem_image.mp hlast
    have hbounds := mem_intValues_range hrange z hz
    have hle : low + 4 ≤ 14 := by
      rw [← hswap]
      by_cases hone : z = 1
      · rw [hone, Equiv.swap_apply_left]
      · rw [Equiv.swap_apply_of_ne_of_ne hone (by omega)]
        omega
    rw [Finset.mem_Icc] at htop
    have hten : low = 10 := by omega
    have himage := congrArg (Finset.image (Equiv.swap (1 : ℤ) 14)) hset
    rw [Finset.image_image, hten] at himage
    have hid : (Equiv.swap (1 : ℤ) 14) ∘ (Equiv.swap (1 : ℤ) 14) = id := by
      funext z
      simp
    rw [hid, Finset.image_id] at himage
    rw [himage]
    decide
  · intro hset
    refine ⟨10, ?_⟩
    rw [hset]
    decide

omit hrange in
/-- A flexible run without an ace at the top is a straight as it stands. -/
theorem isRun_of_consecutive
    {low : ℕ} (hlow : low < 10)
    (hall : ∀ c ∈ List.range 5, ∃ card ∈ hand,
      card.value.toInt = low + c ∨ card.value = Card.ace ∧ low + c = 14) :
    IsRun hand := by
  rw [isRun_iff_toFinset hlength]
  refine ⟨low, toFinset_eq_of_subset hlength (by rw [Int.card_Icc]; omega) ?_⟩
  intro z hz
  rw [Finset.mem_Icc] at hz
  obtain ⟨card, hcard, hvalue⟩ := hall (z - low).toNat (by
    rw [List.mem_range]
    omega)
  rw [List.mem_toFinset]
  refine List.mem_map.mpr ⟨card, hcard, ?_⟩
  rcases hvalue with heq | ⟨_, hfourteen⟩
  · omega
  · omega

theorem broadway_of_consecutive
    (hall : ∀ c ∈ List.range 5, ∃ card ∈ hand,
      card.value.toInt = 10 + c ∨ card.value = Card.ace ∧ 10 + c = 14) :
    (intValues hand).toFinset = broadwayValues := by
  apply toFinset_eq_of_subset hlength (by decide)
  intro z hz
  have hcases : z = 1 ∨ 10 ≤ z ∧ z ≤ 13 := by
    simp only [broadwayValues, Finset.mem_insert, Finset.mem_singleton] at hz
    omega
  rw [List.mem_toFinset]
  rcases hcases with hone | hbounds
  · obtain ⟨card, hcard, hvalue⟩ := hall 4 (by simp)
    refine List.mem_map.mpr ⟨card, hcard, ?_⟩
    rcases hvalue with heq | ⟨hace, _⟩
    · have hle := (hrange card hcard).2
      omega
    · rw [hace, hone]
      rfl
  · obtain ⟨card, hcard, hvalue⟩ := hall (z - 10).toNat (by
      rw [List.mem_range]
      omega)
    refine List.mem_map.mpr ⟨card, hcard, ?_⟩
    rcases hvalue with heq | ⟨_, hfourteen⟩
    · omega
    · omega

omit hlength in
theorem isFlexibleRun_of_toFinset
    {low : ℤ} (hset : (intValues hand).toFinset = Finset.Icc low (low + 4)) :
    IsFlexibleRun hand := by
  have hmem : ∀ z, low ≤ z → z ≤ low + 4 →
      z ∈ (intValues hand).toFinset := by
    intro z hle hle'
    rw [hset, Finset.mem_Icc]
    exact ⟨hle, hle'⟩
  have hfirst := mem_intValues_range hrange low (hmem low (by omega) (by omega))
  have hlast := mem_intValues_range hrange (low + 4)
    (hmem (low + 4) (by omega) (by omega))
  refine ⟨low.toNat, by rw [List.mem_range'_1]; omega, ?_⟩
  intro c hc
  rw [List.mem_range] at hc
  have hvalue := hmem (low + c) (by omega) (by omega)
  obtain ⟨card, hcard, heq⟩ := List.mem_map.mp (List.mem_toFinset.mp hvalue)
  exact ⟨card, hcard, .inl (by omega)⟩

omit hlength hrange in
theorem isFlexibleRun_of_broadway
    (hset : (intValues hand).toFinset = broadwayValues) :
    IsFlexibleRun hand := by
  refine ⟨10, by decide, ?_⟩
  intro c hc
  rw [List.mem_range] at hc
  have hmem : ∀ z ∈ broadwayValues, ∃ card ∈ hand, card.value.toInt = z := by
    intro z hz
    rw [← hset, List.mem_toFinset] at hz
    exact List.mem_map.mp hz
  by_cases htop : c = 4
  · obtain ⟨card, hcard, heq⟩ := hmem 1 (by decide)
    exact ⟨card, hcard, .inr ⟨Int8.toInt_inj.mp heq, by omega⟩⟩
  · obtain ⟨card, hcard, heq⟩ := hmem (10 + c) (by
      simp only [broadwayValues, Finset.mem_insert, Finset.mem_singleton]
      omega)
    exact ⟨card, hcard, .inl heq⟩

theorem isFlexibleRun_iff :
    IsFlexibleRun hand ↔ IsRun hand ∨ IsRun (acesHigh hand) := by
  constructor
  · intro hflexible
    rcases hflexible with ⟨low, hlow, hall⟩
    rw [List.mem_range'_1] at hlow
    by_cases hten : low = 10
    · subst low
      have hset := broadway_of_consecutive hlength hrange hall
      have hace : (1 : ℤ) ∈ (intValues hand).toFinset := by
        rw [hset]
        decide
      exact .inr ((isRun_acesHigh_iff_broadway hlength hrange hace).mpr hset)
    · exact .inl (isRun_of_consecutive hlength (by omega) hall)
  · intro hruns
    by_cases hace : (1 : ℤ) ∈ (intValues hand).toFinset
    · rcases hruns with hrun | hrun
      · obtain ⟨low, hset⟩ := (isRun_iff_toFinset hlength).mp hrun
        exact isFlexibleRun_of_toFinset hrange hset
      · exact isFlexibleRun_of_broadway
          ((isRun_acesHigh_iff_broadway hlength hrange hace).mp hrun)
    · rw [acesHigh_eq_self hace, or_self] at hruns
      obtain ⟨low, hset⟩ := (isRun_iff_toFinset hlength).mp hruns
      exact isFlexibleRun_of_toFinset hrange hset

omit hrange in
theorem multiplicities_of_isRun (hrun : IsRun hand) :
    multiplicities (values hand) = [1, 1, 1, 1, 1] := by
  have hnodup : (values hand).Nodup := by
    have hints : intValues hand = (values hand).map Int8.toInt := by
      simp [intValues, values]
    have hmap := hrun.1
    rw [hints] at hmap
    exact hmap.of_map
  have hsingle : ¬ 2 ≤ (multiplicities (values hand)).getD 0 0 := by
    rw [← exists_le_count_iff _ (by omega)]
    intro hexists
    rcases hexists with ⟨v, hcount⟩
    have hle := List.nodup_iff_count_le_one.mp hnodup v
    omega
  rcases multiplicities_cases hlength with
    hm | hm | hm | hm | hm | hm | hm <;> simp_all

end Straights

/-! ## Ranks with either convention -/

theorem rankOf_single_eq_iff
    (run run' oneSuit : Prop) [Decidable run] [Decidable run']
    [Decidable oneSuit] :
    rankOf [1, 1, 1, 1, 1] run oneSuit = rankOf [1, 1, 1, 1, 1] run' oneSuit ↔
      (run ↔ run') := by
  by_cases hrun : run <;> by_cases hrun' : run' <;>
    by_cases hsuit : oneSuit <;> simp [rankOf, hrun, hrun', hsuit]

section Ranks

variable {hand : List Card} (hlength : hand.length = 5)
  (hrange : ∀ card ∈ hand, 1 ≤ card.value.toInt ∧ card.value.toInt ≤ 13)

include hlength hrange

theorem ranks_eq_ok :
    determineRank (hand.map some) = .ok (rankOf
        (multiplicities (values hand)) (IsRun hand) (OneSuit hand)) ∧
      determineRank ((acesHigh hand).map some) = .ok (rankOf
        (multiplicities (values hand)) (IsRun (acesHigh hand))
        (OneSuit hand)) ∧
      isStraight (hand.map some) = .ok (decide (IsRun hand)) ∧
      isStraight ((acesHigh hand).map some) =
        .ok (decide (IsRun (acesHigh hand))) := by
  have hlow : ∀ card ∈ hand,
      1 ≤ card.value.toInt ∧ card.value.toInt ≤ 14 := by
    intro card hcard
    have hbounds := hrange card hcard
    omega
  have hlength' : (acesHigh hand).length = 5 := by
    rw [acesHigh, List.length_map, hlength]
  have hhigh : ∀ card ∈ acesHigh hand,
      1 ≤ card.value.toInt ∧ card.value.toInt ≤ 14 := by
    intro card hcard
    obtain ⟨original, horiginal, rfl⟩ := List.mem_map.mp hcard
    unfold Card.withAceHigh
    split_ifs
    · change 1 ≤ Card.aceHigh.toInt ∧ Card.aceHigh.toInt ≤ 14
      decide
    · exact hlow original horiginal
  rw [determineRank_eq_category hlength hlow,
    determineRank_eq_category hlength' hhigh, category_eq_rankOf,
    category_eq_rankOf, multiplicities_acesHigh hrange]
  simp only [oneSuit_acesHigh]
  exact ⟨trivial, trivial, isStraight_eq_ok hlength hlow,
    isStraight_eq_ok hlength' hhigh⟩

theorem straights_agree_iff :
    (IsRun hand ↔ IsRun (acesHigh hand)) ↔
      (intValues hand).toFinset ≠ wheelValues ∧
        (intValues hand).toFinset ≠ broadwayValues := by
  by_cases hace : (1 : ℤ) ∈ (intValues hand).toFinset
  · rw [isRun_iff_wheel hlength hrange hace,
      isRun_acesHigh_iff_broadway hlength hrange hace]
    have hne : wheelValues ≠ broadwayValues := by decide
    grind
  · rw [acesHigh_eq_self hace]
    simp only [iff_self, true_iff]
    constructor
    · intro hset
      exact hace (by rw [hset]; decide)
    · intro hset
      exact hace (by rw [hset]; decide)

theorem determineRank_eq_iff :
    determineRank (hand.map some) = determineRank ((acesHigh hand).map some) ↔
      (intValues hand).toFinset ≠ wheelValues ∧
        (intValues hand).toFinset ≠ broadwayValues := by
  have hranks := ranks_eq_ok hlength hrange
  rw [hranks.1, hranks.2.1, ← straights_agree_iff hlength hrange]
  constructor
  · intro hequal
    by_cases hruns : IsRun hand ∨ IsRun (acesHigh hand)
    · have hsingle : multiplicities (values hand) = [1, 1, 1, 1, 1] := by
        rcases hruns with hrun | hrun
        · exact multiplicities_of_isRun hlength hrun
        · rw [← multiplicities_acesHigh hrange]
          exact multiplicities_of_isRun
            (by rw [acesHigh, List.length_map, hlength]) hrun
      rw [hsingle] at hequal
      exact (rankOf_single_eq_iff _ _ _).mp (Except.ok.inj hequal)
    · rw [not_or] at hruns
      exact iff_of_false hruns.1 hruns.2
  · intro hruns
    simp only [hruns]

end Ranks

/-- Writing the aces high changes no predicate besides the straights, and it
changes the rank of five cards only where an ace ends a straight; the better
of the two ranks is the standard category. -/
theorem aces_low_and_high
    (hand : List Card)
    (hrange : ∀ card ∈ hand, 1 ≤ card.value.toInt ∧ card.value.toInt ≤ 13) :
    (∀ predicate ∈ predicatesBesidesStraights,
        predicate ((acesHigh hand).map some) = predicate (hand.map some)) ∧
      (hand.length = 5 →
        (determineRank (hand.map some) =
            determineRank ((acesHigh hand).map some) ↔
          (intValues hand).toFinset ≠ wheelValues ∧
            (intValues hand).toFinset ≠ broadwayValues) ∧
        ((intValues hand).toFinset = wheelValues →
          isStraight (hand.map some) = .ok true ∧
            isStraight ((acesHigh hand).map some) = .ok false) ∧
        ((intValues hand).toFinset = broadwayValues →
          isStraight (hand.map some) = .ok false ∧
            isStraight ((acesHigh hand).map some) = .ok true) ∧
        ∃ rank rank', determineRank (hand.map some) = .ok rank ∧
          determineRank ((acesHigh hand).map some) = .ok rank' ∧
          better rank rank' = flexibleCategory hand) := by
  refine ⟨predicate_acesHigh hrange, ?_⟩
  intro hlength
  have hranks := ranks_eq_ok hlength hrange
  have hne : wheelValues ≠ broadwayValues := by decide
  refine ⟨determineRank_eq_iff hlength hrange, ?_, ?_, ?_⟩
  · intro hset
    have hace : (1 : ℤ) ∈ (intValues hand).toFinset := by
      rw [hset]
      decide
    rw [hranks.2.2.1, hranks.2.2.2]
    simp [isRun_iff_wheel hlength hrange hace,
      isRun_acesHigh_iff_broadway hlength hrange hace, hset, hne]
  · intro hset
    have hace : (1 : ℤ) ∈ (intValues hand).toFinset := by
      rw [hset]
      decide
    rw [hranks.2.2.1, hranks.2.2.2]
    simp [isRun_iff_wheel hlength hrange hace,
      isRun_acesHigh_iff_broadway hlength hrange hace, hset, hne.symm]
  · refine ⟨_, _, hranks.1, hranks.2.1, ?_⟩
    rw [better_rankOf]
    unfold flexibleCategory
    simp only [isFlexibleRun_iff hlength hrange]

def wheel : List Card :=
  [⟨3, 1⟩, ⟨1, 0⟩, ⟨5, 2⟩, ⟨2, 0⟩, ⟨4, 3⟩]

theorem aces_low_and_high_wheel :
    isStraight (wheel.map some) = .ok true ∧
      isStraight ((acesHigh wheel).map some) = .ok false :=
  ((aces_low_and_high wheel (by decide)).2 rfl).2.1 (by decide)

end Hand
end HighRollers
