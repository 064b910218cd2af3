import HighRollers.RandomHands

/-!
# Random hands and the predicates

The hands made by `Hand_test.java` are accepted by the predicates they were
made for, whatever the random numbers are, where the tests take a thousand
samples.  They are hands of legal cards but for the straights, whose start may
be too high even after it has been reduced.
-/

namespace HighRollers
namespace HandTest

open Java
open Hand
open ListPattern

/-! ## No false negatives -/

/-- The range of the random cards. -/
structure Drawn (card : Card) : Prop where
  value : 1 ≤ card.value.toInt ∧ card.value.toInt ≤ 13
  suit : 0 ≤ card.suit.toInt ∧ card.suit.toInt ≤ 3

theorem toInt_randomValue (draws : Draws) (c : ℕ) :
    (randomCard draws c).value.toInt = draws.value c := by
  have hvalue := draws.value_within c
  exact Int8.toInt_ofInt_of_le (by omega) (by omega)

theorem toInt_randomSuit (draws : Draws) (c : ℕ) :
    (randomCard draws c).suit.toInt = draws.suit c := by
  have hsuit := draws.suit_within c
  exact Int8.toInt_ofInt_of_le (by omega) (by omega)

theorem randomCard_drawn (draws : Draws) (c : ℕ) :
    Drawn (randomCard draws c) := by
  have hvalue := draws.value_within c
  have hsuit := draws.suit_within c
  constructor
  · rw [toInt_randomValue]
    omega
  · rw [toInt_randomSuit]
    omega

theorem Start.drawn
    {draws : Draws} {index : List ℕ} {a b c d e : Card}
    (hstart : Start draws index a b c d e) :
    ∀ card ∈ [a, b, c, d, e], Drawn card := by
  intro card hcard
  have hmem := hstart.arranged.view_perm.subset hcard
  obtain ⟨i, -, rfl⟩ := List.mem_map.mp hmem
  exact randomCard_drawn draws i

section Arithmetic

variable {value : Int8}

theorem toInt_add_ofNat
    {count : ℕ} (hvalue : -128 ≤ value.toInt + count)
    (hcount : value.toInt + count < 128) (hsmall : count < 128) :
    (value + Int8.ofNat count).toInt = value.toInt + count := by
  rw [Int8.toInt_add, Int8.toInt_ofNat_of_lt (by omega)]
  exact Int.bmod_eq_of_le (by norm_num; omega) (by norm_num; omega)

theorem toInt_sub_ofInt
    {reduction : ℤ} (hlo : -128 ≤ reduction) (hhi : reduction < 128)
    (hvalue : -128 ≤ value.toInt - reduction)
    (hvalue' : value.toInt - reduction < 128) :
    (value - Int8.ofInt reduction).toInt = value.toInt - reduction := by
  rw [Int8.toInt_sub, Int8.toInt_ofInt_of_le (by omega) (by omega)]
  exact Int.bmod_eq_of_le (by norm_num; omega) (by norm_num; omega)

end Arithmetic

theorem toInt_startValue
    {first : Card} (hfirst : Drawn first) {reduction : ℤ}
    (hreduction : 1 ≤ reduction ∧ reduction < 11) :
    (startValue reduction first).toInt =
      if 10 < first.value.toInt then first.value.toInt - reduction
      else first.value.toInt := by
  have hvalue := hfirst.value
  have hgreat : first.value > 10 ↔ 10 < first.value.toInt :=
    Int8.lt_iff_toInt_lt
  unfold startValue
  by_cases hten : first.value > 10
  · rw [if_pos hten, if_pos (hgreat.mp hten)]
    exact toInt_sub_ofInt (by omega) (by omega) (by omega) (by omega)
  · rw [if_neg hten, if_neg fun h => hten (hgreat.mpr h)]

theorem startValue_range
    {first : Card} (hfirst : Drawn first) {reduction : ℤ}
    (hreduction : 1 ≤ reduction ∧ reduction < 11) :
    1 ≤ (startValue reduction first).toInt ∧
      (startValue reduction first).toInt ≤ 12 := by
  have hvalue := hfirst.value
  rw [toInt_startValue hfirst hreduction]
  by_cases hten : 10 < first.value.toInt
  · rw [if_pos hten]
    omega
  · rw [if_neg hten]
    omega

theorem toInt_otherValue
    {first third : Card} (hthird : Drawn third) :
    (otherValue first third).toInt =
      if third.value = first.value then third.value.toInt + 1
      else third.value.toInt := by
  have hvalue := hthird.value
  unfold otherValue
  by_cases hsame : third.value = first.value
  · rw [if_pos hsame, if_pos hsame]
    have hone : (third.value + Int8.ofNat 1).toInt =
        third.value.toInt + (1 : ℕ) := by
      apply toInt_add_ofNat <;> push_cast <;> omega
    simpa using hone
  · rw [if_neg hsame, if_neg hsame]

theorem otherValue_ne
    {first third : Card} (hthird : Drawn third) :
    otherValue first third ≠ first.value := by
  intro heq
  by_cases hsame : third.value = first.value
  · have htoInt : (otherValue first third).toInt = _ :=
      toInt_otherValue hthird
    rw [if_pos hsame, heq, hsame] at htoInt
    omega
  · rw [otherValue, if_neg hsame] at heq
    exact hsame heq

theorem isStraight_of_perm
    {hand : List Card} {start : ℤ} (hstart : start < 15)
    (hperm : (intValues hand).Perm
      ((List.range 5).map fun i : ℕ => start + i)) :
    isStraight (hand.map some) = .ok true := by
  obtain ⟨lowest, hle, hlowest, hdecides⟩ := isStraight_decides_from hand
  have hmem : ∀ v : ℤ, v ∈ intValues hand ↔
      ∃ i : ℕ, i < 5 ∧ start + i = v := by
    intro v
    rw [hperm.mem_iff]
    simp
  have hlength : hand.length = 5 := by simpa using hperm.length_eq
  have hleStart : lowest ≤ start :=
    hle start ((hmem start).mpr ⟨0, by omega, by simp⟩)
  -- The start is below 15, so the scan has left its sentinel.
  have heq : lowest = start := by
    rcases hlowest with hsentinel | hvalue
    · omega
    · obtain ⟨i, -, hi⟩ := (hmem lowest).mp hvalue
      omega
  apply hdecides.eq_ok_true
  intro c hc
  rw [heq, hmem]
  exact ⟨c, by omega, rfl⟩

theorem intValues_counted
    {start : Int8} {cards : List Card} (hstart : 0 ≤ start.toInt)
    (hlength : start.toInt + cards.length < 128) :
    intValues (cards.mapIdx (countedValue start)) =
      (List.range cards.length).map fun i : ℕ => start.toInt + i := by
  apply List.ext_getElem?
  intro i
  by_cases hi : i < cards.length
  · have htoInt : (start + Int8.ofNat i).toInt = start.toInt + i :=
      toInt_add_ofNat (by omega) (by omega) (by omega)
    simp [intValues, hi, countedValue, Card.withValue, htoInt]
  · simp [intValues, hi]

section Accepts

variable {suit : Int8} {reduction : ℤ} {a b c d e : Card}
  {hand view : List Card}

theorem count_values_of_perm (hperm : hand.Perm view) (value : Int8) :
    (values hand).count value = (values view).count value :=
  (hperm.map Card.value).count_eq value

theorem ok_true_of_count
    {method : Run Bool} {k : ℕ}
    (hdecides : Decides method (∃ v, k ≤ (values hand).count v))
    (hperm : hand.Perm view) {v : Int8} (hview : k ≤ (values view).count v) :
    method = .ok true := by
  rw [← count_values_of_perm hperm] at hview
  exact hdecides.eq_ok_true ⟨v, hview⟩

theorem intValues_perm (hperm : hand.Perm view) :
    (intValues hand).Perm (intValues view) :=
  hperm.map _

theorem intValues_withSuit (suit : Int8) (hand : List Card) :
    intValues (hand.map (·.withSuit suit)) = intValues hand := by
  simp [intValues, Card.withSuit]

theorem isStraight_of_counted
    {start : Int8} (hstart : 1 ≤ start.toInt ∧ start.toInt ≤ 12)
    (hperm : (intValues hand).Perm
      (intValues ([a, b, c, d, e].mapIdx (countedValue start)))) :
    isStraight (hand.map some) = .ok true := by
  have hlength : start.toInt + [a, b, c, d, e].length < 128 := by
    simp
    omega
  rw [intValues_counted (by omega) hlength] at hperm
  exact isStraight_of_perm (by omega) hperm

theorem isFlush_of_perm (hperm : hand.Perm (view.map (·.withSuit suit))) :
    isFlush (hand.map some) = .ok true := by
  have hsuit : ∀ card ∈ hand, card.suit = suit := by
    intro card hcard
    obtain ⟨_, -, rfl⟩ := List.mem_map.mp (hperm.subset hcard)
    rfl
  apply (isFlush_decides hand).eq_ok_true
  intro first hfirst second hsecond
  rw [hsuit first hfirst, hsuit second hsecond]

/-- A hand of the pattern is accepted, wherever its cards are. -/
theorem Kind.accepts
    (kind : Kind) (hdrawn : ∀ card ∈ [a, b, c, d, e], Drawn card)
    (hreduction : 1 ≤ reduction ∧ reduction < 11)
    (hperm : hand.Perm (kind.pattern suit reduction a b c d e)) :
    kind.predicate (hand.map some) = .ok true := by
  have hcount := count_values_of_perm hperm
  have hstart := startValue_range (hdrawn a (by simp)) hreduction
  have hother : otherValue a c ≠ a.value := otherValue_ne (hdrawn c (by simp))
  cases kind with
  | fiveOfAKind =>
      apply ok_true_of_count (isFiveOfAKind_decides hand) hperm (v := a.value)
      simp [Kind.pattern, values, Card.withValue]
  | straightFlush =>
      have hstraight : isStraight (hand.map some) = .ok true := by
        apply isStraight_of_counted hstart
        have hvalues := intValues_perm hperm
        rwa [Kind.pattern, intValues_withSuit] at hvalues
      have hflush : isFlush (hand.map some) = .ok true :=
        isFlush_of_perm hperm
      simp only [Kind.predicate, isStraightFlush, hstraight, hflush]
      rfl
  | fourOfAKind =>
      apply ok_true_of_count (isFourOfAKind_decides hand) hperm (v := a.value)
      simp [Kind.pattern, values, Card.withValue]
  | fullHouse =>
      apply (isFullHouse_decides hand).eq_ok_true
      refine ⟨otherValue a c, a.value, hother, ?_, ?_⟩
      · rw [hcount]
        simp [Kind.pattern, values, Card.withValue,
          List.count_cons_of_ne hother.symm]
      · rw [hcount]
        simp [Kind.pattern, values, Card.withValue]
  | flush => exact isFlush_of_perm hperm
  | straight => exact isStraight_of_counted hstart (intValues_perm hperm)
  | threeOfAKind =>
      apply ok_true_of_count (isThreeOfAKind_decides hand) hperm (v := a.value)
      simp [Kind.pattern, values, Card.withValue]
  | twoPair =>
      apply (isTwoPair_decides hand).eq_ok_true
      rw [twoPairs_iff_count]
      refine .inl ⟨otherValue a c, a.value, hother, ?_, ?_⟩
      · rw [hcount]
        simp [Kind.pattern, values, Card.withValue,
          List.count_cons_of_ne hother.symm]
      · rw [hcount]
        simp [Kind.pattern, values, Card.withValue]
  | onePair =>
      apply ok_true_of_count (isOnePair_decides hand) hperm (v := a.value)
      simp [Kind.pattern, values, Card.withValue]

end Accepts

/-- Every hand which is generated is accepted, and the index is a permutation
of the positions. -/
theorem generated_hand_accepted (kind : Kind) (draws : Draws) :
    (∃ index, shuffledIndex draws = .ok index ∧
        index.Perm (List.range 5)) ∧
      ∃ testHand, kind.generate draws = .ok testHand ∧
        kind.predicate testHand = .ok true := by
  obtain ⟨index, a, b, c, d, e, hstart⟩ := exists_start draws
  obtain ⟨suit, -, hand, hrun, hperm⟩ := hstart.generate_perm kind
  have hpositions : index.Perm (List.range 5) := by
    simpa [drawnCards] using hstart.arranged.perm
  exact ⟨⟨index, hstart.run, hpositions⟩, hand.map some, hrun,
    kind.accepts hstart.drawn draws.reduction_within hperm⟩

/-! ## Legal cards -/

/-- The value is between `ACE` and `ACE_HIGH`, and the suit exists. -/
def Legal (card : Card) : Prop :=
  (Card.ace ≤ card.value ∧ card.value ≤ Card.aceHigh) ∧
    0 ≤ card.suit ∧ card.suit ≤ 3

instance (card : Card) : Decidable (Legal card) :=
  inferInstanceAs (Decidable (_ ∧ _))

theorem legal_iff (card : Card) :
    Legal card ↔ (1 ≤ card.value.toInt ∧ card.value.toInt ≤ 14) ∧
      0 ≤ card.suit.toInt ∧ card.suit.toInt ≤ 3 := by
  unfold Legal
  simp only [Int8.le_iff_toInt_le]
  rfl

/-- The hand is made, and all its cards are legal. -/
def Kind.MakesLegal (kind : Kind) (draws : Draws) : Prop :=
  ∃ hand : List Card, kind.generate draws = .ok (hand.map some) ∧
    ∀ card ∈ hand, Legal card

theorem makesLegal_iff_of_run
    {kind : Kind} {draws : Draws} {hand : List Card}
    (hrun : kind.generate draws = .ok (hand.map some)) :
    kind.MakesLegal draws ↔ ∀ card ∈ hand, Legal card := by
  constructor
  · intro hmakes
    rcases hmakes with ⟨hand', hrun', hlegal⟩
    rw [hrun] at hrun'
    injection hrun' with heq
    rwa [List.map_injective_iff.mpr (Option.some_injective Card) heq]
  · intro hlegal
    exact ⟨hand, hrun, hlegal⟩

section LegalPatterns

variable {suit : Int8} {reduction : ℤ} {a b c d e : Card}

theorem Drawn.legal {card : Card} (hcard : Drawn card) : Legal card := by
  have hvalue := hcard.value
  exact (legal_iff card).mpr ⟨by omega, hcard.suit⟩

theorem Drawn.legal_withValue
    {card : Card} (hcard : Drawn card) {value : Int8}
    (hvalue : 1 ≤ value.toInt ∧ value.toInt ≤ 14) :
    Legal (card.withValue value) :=
  (legal_iff _).mpr ⟨hvalue, hcard.suit⟩

theorem Drawn.legal_withValue_of_drawn
    {card other : Card} (hcard : Drawn card) (hother : Drawn other) :
    Legal (card.withValue other.value) := by
  have hvalue := hother.value
  exact hcard.legal_withValue (by omega)

theorem Drawn.legal_withSuit
    {card other : Card} (hcard : Drawn card) (hother : Drawn other) :
    Legal (card.withSuit other.suit) := by
  have hvalue := hcard.value
  exact (legal_iff _).mpr ⟨⟨hvalue.1, le_trans hvalue.2 (by norm_num)⟩,
    hother.suit⟩

/-- The second set is at most as high as an ace. -/
theorem otherValue_range
    {first third : Card} (hthird : Drawn third) :
    1 ≤ (otherValue first third).toInt ∧
      (otherValue first third).toInt ≤ 14 := by
  have hvalue := hthird.value
  rw [toInt_otherValue hthird]
  by_cases hsame : third.value = first.value
  · rw [if_pos hsame]
    omega
  · rw [if_neg hsame]
    omega

theorem Kind.pattern_legal
    {kind : Kind} (hstraight : kind ≠ .straight)
    (hstraightFlush : kind ≠ .straightFlush)
    (hdrawn : ∀ card ∈ [a, b, c, d, e], Drawn card)
    (hsuit : suit ∈ [a, b, c, d, e].map Card.suit) :
    ∀ card ∈ kind.pattern suit reduction a b c d e, Legal card := by
  have hlegal : ∀ card ∈ [a, b, c, d, e], Legal card :=
    fun card hcard => (hdrawn card hcard).legal
  have hcopies : ∀ card ∈ [a, b, c, d, e],
      Legal (card.withValue a.value) := by
    intro card hcard
    exact (hdrawn card hcard).legal_withValue_of_drawn (hdrawn a (by simp))
  have hothers : ∀ card ∈ [a, b, c, d, e],
      Legal (card.withValue (otherValue a c)) := by
    intro card hcard
    exact (hdrawn card hcard).legal_withValue
      (otherValue_range (hdrawn c (by simp)))
  have hsuits : ∀ card ∈ [a, b, c, d, e], Legal (card.withSuit suit) := by
    obtain ⟨other, hother, rfl⟩ := List.mem_map.mp hsuit
    intro card hcard
    exact (hdrawn card hcard).legal_withSuit (hdrawn other hother)
  -- Every card of a pattern is one of these, place by place.
  simp only [List.forall_mem_cons] at hlegal hcopies hothers hsuits
  cases kind with
  | fiveOfAKind => simp [Kind.pattern, hlegal, hcopies]
  | straightFlush => exact absurd rfl hstraightFlush
  | fourOfAKind => simp [Kind.pattern, hlegal, hcopies]
  | fullHouse => simp [Kind.pattern, hlegal, hcopies, hothers]
  | flush => simp [Kind.pattern, hsuits]
  | straight => exact absurd rfl hstraight
  | threeOfAKind => simp [Kind.pattern, hlegal, hcopies]
  | twoPair => simp [Kind.pattern, hlegal, hcopies, hothers]
  | onePair => simp [Kind.pattern, hlegal, hcopies]

theorem legal_iff_intValues
    {view : List Card}
    (hsuits : ∀ card ∈ view, 0 ≤ card.suit.toInt ∧ card.suit.toInt ≤ 3) :
    (∀ card ∈ view, Legal card) ↔
      ∀ value ∈ intValues view, 1 ≤ value ∧ value ≤ 14 := by
  constructor
  · intro hlegal value hvalue
    obtain ⟨card, hcard, rfl⟩ := List.mem_map.mp hvalue
    exact ((legal_iff card).mp (hlegal card hcard)).1
  · intro hvalues card hcard
    exact (legal_iff card).mpr
      ⟨hvalues _ (List.mem_map_of_mem hcard), hsuits card hcard⟩

/-- The last card of a straight is four above its start. -/
theorem counted_within_iff
    {start : Int8} (hstart : 1 ≤ start.toInt ∧ start.toInt ≤ 12) :
    (∀ value ∈ intValues ([a, b, c, d, e].mapIdx (countedValue start)),
        1 ≤ value ∧ value ≤ 14) ↔ start.toInt ≤ 10 := by
  have hlength : start.toInt + [a, b, c, d, e].length < 128 := by
    simp
    omega
  rw [intValues_counted (by omega) hlength]
  constructor
  · intro hwithin
    have hlast := hwithin (start.toInt + (4 : ℕ))
      (List.mem_map.mpr ⟨4, by simp, rfl⟩)
    push_cast at hlast
    omega
  · intro hle value hvalue
    obtain ⟨i, hi, rfl⟩ := List.mem_map.mp hvalue
    have hfive : i < 5 := List.mem_range.mp hi
    omega

theorem Kind.pattern_legal_iff
    (kind : Kind) (hdrawn : ∀ card ∈ [a, b, c, d, e], Drawn card)
    (hreduction : 1 ≤ reduction ∧ reduction < 11)
    (hsuit : suit ∈ [a, b, c, d, e].map Card.suit) :
    (∀ card ∈ kind.pattern suit reduction a b c d e, Legal card) ↔
      (kind = .straight ∨ kind = .straightFlush →
        (startValue reduction a).toInt ≤ 10) := by
  have hstart := startValue_range (hdrawn a (by simp)) hreduction
  have hcounted : ∀ card ∈ [a, b, c, d, e].mapIdx
      (countedValue (startValue reduction a)),
        0 ≤ card.suit.toInt ∧ card.suit.toInt ≤ 3 := by
    intro card hcard
    obtain ⟨i, hi, rfl⟩ := List.mem_mapIdx.mp hcard
    exact (hdrawn _ (List.getElem_mem hi)).suit
  by_cases hstraight : kind = .straight
  · subst kind
    simp only [Kind.pattern, true_or, forall_const]
    rw [legal_iff_intValues hcounted, counted_within_iff hstart]
  · by_cases hstraightFlush : kind = .straightFlush
    · subst kind
      have hmatched : ∀ card ∈ ([a, b, c, d, e].mapIdx
          (countedValue (startValue reduction a))).map (·.withSuit suit),
            0 ≤ card.suit.toInt ∧ card.suit.toInt ≤ 3 := by
        obtain ⟨other, hother, rfl⟩ := List.mem_map.mp hsuit
        intro card hcard
        obtain ⟨_, -, rfl⟩ := List.mem_map.mp hcard
        exact (hdrawn other hother).suit
      simp only [Kind.pattern, or_true, forall_const]
      rw [legal_iff_intValues hmatched, intValues_withSuit,
        counted_within_iff hstart]
    · simp only [hstraight, hstraightFlush, or_self, false_implies, iff_true]
      exact Kind.pattern_legal hstraight hstraightFlush hdrawn hsuit

end LegalPatterns

/-- A start above 10 is reduced, but by 1 or 2 it may stay above 10. -/
theorem Start.startValue_le_iff
    {draws : Draws} {index : List ℕ} {a b c d e : Card}
    (hstart : Start draws index a b c d e) :
    (startValue draws.reduction a).toInt ≤ 10 ↔
      draws.value (draws.slot 0) ≤ 10 ∨
        draws.value (draws.slot 0) - draws.reduction ≤ 10 := by
  have hfirst := toInt_randomValue draws (draws.slot 0)
  have hreduction := draws.reduction_within
  rw [toInt_startValue (hstart.drawn a (by simp)) hreduction, hstart.first,
    hfirst]
  by_cases hten : 10 < draws.value (draws.slot 0)
  · rw [if_pos hten]
    omega
  · rw [if_neg hten]
    omega

/-- All hands are legal but for the straights, which are legal exactly if they
start at 10 or below. -/
theorem makesLegal_iff (kind : Kind) (draws : Draws) :
    kind.MakesLegal draws ↔
      (kind = .straight ∨ kind = .straightFlush →
        draws.value (draws.slot 0) ≤ 10 ∨
          draws.value (draws.slot 0) - draws.reduction ≤ 10) := by
  obtain ⟨index, a, b, c, d, e, hstart⟩ := exists_start draws
  obtain ⟨suit, hsuit, hand, hrun, hperm⟩ := hstart.generate_perm kind
  have hpattern : (∀ card ∈ hand, Legal card) ↔
      ∀ card ∈ kind.pattern suit draws.reduction a b c d e, Legal card := by
    simp only [hperm.mem_iff]
  rw [makesLegal_iff_of_run hrun, hpattern,
    kind.pattern_legal_iff hstart.drawn draws.reduction_within hsuit,
    hstart.startValue_le_iff]

/-- Five kings, not shuffled, and a reduction by one. -/
def fiveKings : Draws where
  value := fun _ => 13
  suit := fun _ => 0
  slot := fun i => i
  reduction := 1
  value_within := by simp
  suit_within := by simp
  slot_within := by
    intro i hi
    exact ⟨le_rfl, Nat.lt_of_lt_of_le hi (by decide)⟩
  reduction_within := by decide

def highStraight : List Card :=
  [⟨12, 0⟩, ⟨13, 0⟩, ⟨14, 0⟩, ⟨15, 0⟩, ⟨16, 0⟩]

/-- The straight goes from 12 up to 16, two above the high ace. -/
theorem fiveKings_straight_not_legal :
    Kind.straight.generate fiveKings = .ok (highStraight.map some) ∧
      ¬ Kind.straight.MakesLegal fiveKings := by
  have hrun : Kind.straight.generate fiveKings =
      .ok (highStraight.map some) := by
    decide +kernel
  refine ⟨hrun, ?_⟩
  rw [makesLegal_iff_of_run hrun]
  decide

end HandTest
end HighRollers
