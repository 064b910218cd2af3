import HighRollers.HandPredicates

/-!
# The rank of a poker hand

`Hand.determineRank` tries the inclusive predicates from the best category to
the worst and takes the first which holds.  On five cards the result is the
standard category, which is defined below from the multiplicities of the
values, the spread of the values and the suits alone.
-/

namespace HighRollers

open Java
open ListPattern

/-- The hand types, best first; the Java constants are the bytes 0 to 9. -/
inductive Rank
  | fiveOfAKind
  | straightFlush
  | fourOfAKind
  | fullHouse
  | flush
  | straight
  | threeOfAKind
  | twoPair
  | onePair
  | highCard
  deriving DecidableEq, Repr

def Rank.toByte : Rank → Int8
  | .fiveOfAKind => 0
  | .straightFlush => 1
  | .fourOfAKind => 2
  | .fullHouse => 3
  | .flush => 4
  | .straight => 5
  | .threeOfAKind => 6
  | .twoPair => 7
  | .onePair => 8
  | .highCard => 9

/-- The rank is the Java byte under another name. -/
theorem Rank.toByte_injective : Function.Injective Rank.toByte := by
  intro rank rank' hbyte
  cases rank <;> cases rank' <;> first | rfl | contradiction

namespace Hand

def determineRank (hand : CardArray) : Run Rank := do
  if ← isFiveOfAKind hand then
    return .fiveOfAKind
  else if ← isStraightFlush hand then
    return .straightFlush
  else if ← isFourOfAKind hand then
    return .fourOfAKind
  else if ← isFullHouse hand then
    return .fullHouse
  else if ← isFlush hand then
    return .flush
  else if ← isStraight hand then
    return .straight
  else if ← isThreeOfAKind hand then
    return .threeOfAKind
  else if ← isTwoPair hand then
    return .twoPair
  else if ← isOnePair hand then
    return .onePair
  else
    return .highCard

end Hand

/-- A `Hand` object: its cards and the rank stored at construction. -/
structure Hand where
  cards : CardArray
  rank : Rank
  deriving DecidableEq, Repr

namespace Hand

def create (cards : CardArray) : Run Hand := do
  return ⟨cards, ← determineRank cards⟩

def rankToString (hand : Hand) : String :=
  match hand.rank with
  | .fiveOfAKind => "Five of a Kind"
  | .straightFlush => "Straight Flush"
  | .fourOfAKind => "Four of a Kind"
  | .fullHouse => "Full House"
  | .flush => "Flush"
  | .straight => "Straight"
  | .threeOfAKind => "Three of a Kind"
  | .twoPair => "Two Pair"
  | .onePair => "Pair"
  | .highCard => "High Card"

/-! ## The standard categories -/

/-- The values are pairwise different and span exactly five steps. -/
def IsRun (hand : List Card) : Prop :=
  (intValues hand).Nodup ∧ spread (intValues hand) = 4

def OneSuit (hand : List Card) : Prop :=
  ∀ first ∈ hand, ∀ second ∈ hand, first.suit = second.suit

instance (hand : List Card) : Decidable (IsRun hand) :=
  inferInstanceAs (Decidable (_ ∧ _))

instance (hand : List Card) : Decidable (OneSuit hand) :=
  inferInstanceAs (Decidable (∀ first ∈ hand, ∀ second ∈ hand,
    first.suit = second.suit))

def category (hand : List Card) : Rank :=
  let m := multiplicities (values hand)
  if m = [5] then .fiveOfAKind
  else if IsRun hand ∧ OneSuit hand then .straightFlush
  else if m = [4, 1] then .fourOfAKind
  else if m = [3, 2] then .fullHouse
  else if OneSuit hand then .flush
  else if IsRun hand then .straight
  else if m = [3, 1, 1] then .threeOfAKind
  else if m = [2, 2, 1] then .twoPair
  else if m = [2, 1, 1, 1] then .onePair
  else .highCard

theorem category_eq_of_perm
    {hand hand' : List Card} (hperm : hand.Perm hand') :
    category hand = category hand' := by
  have hmult : multiplicities (values hand) = multiplicities (values hand') :=
    multiplicities_eq_of_perm (hperm.map _)
  have hints : (intValues hand).Perm (intValues hand') := hperm.map _
  have hrun : IsRun hand ↔ IsRun hand' := by
    unfold IsRun
    rw [hints.nodup_iff, spread_eq_of_perm hints]
  have hsuit : OneSuit hand ↔ OneSuit hand' := by
    unfold OneSuit
    simp only [hperm.mem_iff]
  simp only [category, hmult, hrun, hsuit]

private theorem partition_five
    {m : List ℕ} (hsorted : m.Pairwise (· ≥ ·)) (hpos : ∀ k ∈ m, 0 < k)
    (hsum : m.sum = 5) :
    m = [5] ∨ m = [4, 1] ∨ m = [3, 2] ∨ m = [3, 1, 1] ∨ m = [2, 2, 1] ∨
      m = [2, 1, 1, 1] ∨ m = [1, 1, 1, 1, 1] := by
  rcases m with _ | ⟨a, _ | ⟨b, _ | ⟨c, _ | ⟨d, _ | ⟨e, _ | ⟨f, rest⟩⟩⟩⟩⟩⟩
  all_goals simp at hsorted hpos hsum ⊢
  all_goals omega

theorem multiplicities_cases
    {hand : List Card} (hlength : hand.length = 5) :
    multiplicities (values hand) = [5] ∨
      multiplicities (values hand) = [4, 1] ∨
      multiplicities (values hand) = [3, 2] ∨
      multiplicities (values hand) = [3, 1, 1] ∨
      multiplicities (values hand) = [2, 2, 1] ∨
      multiplicities (values hand) = [2, 1, 1, 1] ∨
      multiplicities (values hand) = [1, 1, 1, 1, 1] := by
  apply partition_five (multiplicities_pairwise _) (multiplicities_pos _)
  rw [multiplicities_sum, values_length, hlength]

theorem kind_eq_ok
    {method : Run Bool} {hand : List Card} {k : ℕ} (hk : 0 < k)
    (hdecides : Decides method (∃ v, k ≤ (values hand).count v)) :
    method = .ok (decide (k ≤ (multiplicities (values hand)).getD 0 0)) :=
  (hdecides.congr (exists_le_count_iff _ hk)).eq_ok

theorem isFullHouse_eq_ok (hand : List Card) :
    isFullHouse (hand.map some) =
      .ok (decide (3 ≤ (multiplicities (values hand)).getD 0 0 ∧
        2 ≤ (multiplicities (values hand)).getD 1 0)) :=
  ((isFullHouse_decides hand).congr
    (exists_two_le_count_iff _ (by omega) (by omega))).eq_ok

theorem isTwoPair_eq_ok (hand : List Card) :
    isTwoPair (hand.map some) =
      .ok (decide ((2 ≤ (multiplicities (values hand)).getD 0 0 ∧
          2 ≤ (multiplicities (values hand)).getD 1 0) ∨
        4 ≤ (multiplicities (values hand)).getD 0 0)) := by
  apply Decides.eq_ok
  apply (isTwoPair_decides hand).congr
  rw [twoPairs_iff_count,
    exists_two_le_count_iff (values hand) (by omega) (le_refl 2),
    exists_le_count_iff (values hand) (by omega)]

private theorem isRun_iff {hand : List Card} (hlength : hand.length = 5) :
    ((intValues hand).Nodup ∧ spread (intValues hand) = hand.length - 1) ↔
      IsRun hand := by
  have hfour : ((hand.length : ℤ) - 1) = 4 := by omega
  rw [hfour]
  rfl

theorem isStraight_eq_ok
    {hand : List Card} (hlength : hand.length = 5)
    (hrange : ∀ card ∈ hand, 1 ≤ card.value.toInt ∧ card.value.toInt ≤ 14) :
    isStraight (hand.map some) = .ok (decide (IsRun hand)) := by
  have hnonempty : hand ≠ [] := List.ne_nil_of_length_pos (by omega)
  exact ((isStraight_decides hnonempty hrange).congr
    (isRun_iff hlength)).eq_ok

theorem isFlush_eq_ok (hand : List Card) :
    isFlush (hand.map some) = .ok (decide (OneSuit hand)) :=
  (isFlush_decides hand).eq_ok

private theorem isStraightFlush_eq_ok
    {hand : List Card} (hlength : hand.length = 5)
    (hrange : ∀ card ∈ hand, 1 ≤ card.value.toInt ∧ card.value.toInt ≤ 14) :
    isStraightFlush (hand.map some) =
      .ok (decide (IsRun hand ∧ OneSuit hand)) := by
  have hnonempty : hand ≠ [] := List.ne_nil_of_length_pos (by omega)
  apply Decides.eq_ok
  apply (isStraightFlush_decides hnonempty hrange).congr
  exact and_congr (isRun_iff hlength) Iff.rfl

theorem determineRank_eq_category
    {hand : List Card} (hlength : hand.length = 5)
    (hrange : ∀ card ∈ hand, 1 ≤ card.value.toInt ∧ card.value.toInt ≤ 14) :
    determineRank (hand.map some) = .ok (category hand) := by
  have hfive := kind_eq_ok (by omega) (isFiveOfAKind_decides hand)
  have hfour := kind_eq_ok (by omega) (isFourOfAKind_decides hand)
  have hthree := kind_eq_ok (by omega) (isThreeOfAKind_decides hand)
  have hpair := kind_eq_ok (by omega) (isOnePair_decides hand)
  unfold determineRank
  rw [hfive, isStraightFlush_eq_ok hlength hrange, hfour,
    isFullHouse_eq_ok, isFlush_eq_ok, isStraight_eq_ok hlength hrange,
    hthree, isTwoPair_eq_ok, hpair]
  simp only [ok_bind, pure_eq_ok, decide_eq_true_eq]
  by_cases hrun : IsRun hand <;> by_cases hsuit : OneSuit hand <;>
    rcases multiplicities_cases hlength with
      hm | hm | hm | hm | hm | hm | hm <;>
    simp [category, hm, hrun, hsuit]

/-- `determineRank` computes the standard category, so it depends on the five
cards but not on their order. -/
theorem determineRank_standard
    (hand : List Card) (hlength : hand.length = 5)
    (hrange : ∀ card ∈ hand, 1 ≤ card.value.toInt ∧ card.value.toInt ≤ 14) :
    determineRank (hand.map some) = .ok (category hand) ∧
      ∀ hand' : List Card, hand'.Perm hand →
        determineRank (hand'.map some) = determineRank (hand.map some) := by
  have hcategory := determineRank_eq_category hlength hrange
  constructor
  · exact hcategory
  · intro hand' hperm
    have hlength' : hand'.length = 5 := by rw [hperm.length_eq, hlength]
    have hrange' : ∀ card ∈ hand',
        1 ≤ card.value.toInt ∧ card.value.toInt ≤ 14 := by
      intro card hcard
      exact hrange card (hperm.mem_iff.mp hcard)
    rw [determineRank_eq_category hlength' hrange', hcategory,
      category_eq_of_perm hperm]

theorem determineRank_standard_broadway :
    category broadway = .straight ∧
      determineRank (broadway.map some) = .ok (category broadway) :=
  ⟨by decide, (determineRank_standard broadway (by decide) (by decide)).1⟩

end Hand
end HighRollers
