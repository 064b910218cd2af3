import HighRollers.HandAces
import HighRollers.PixelConversion
import HighRollers.Selections
import HighRollers.TestDeck

/-!
# The census of the poker hands

The test for false positives in `Hand_test.java` makes all hands of the deck,
classifies each of them and counts the ranks and the suits.  Every hand is
counted once, in whatever order the deck lies, so the counts are those of
elementary combinatorics.  An ace is low only, which takes one tenth of the
straights from the table the test prints to compare with.
-/

namespace HighRollers
namespace HandTest

open Java
open Hand
open ListPattern

/-! ## The test -/

structure Census where
  testNum : ℤ
  numSuit : List ℤ
  numRank : List ℤ
  deriving DecidableEq, Repr

/-- `array[index]++`. -/
def increment (array : List ℤ) (index : ℤ) : Run (List ℤ) := do
  let count ← arrayGet array index
  arrayPut array index (int32 (count + 1))

def countSuits (cards : CardArray) (numSuit : List ℤ) : Run (List ℤ) :=
  afterLoop
    (forRange 0 cards.length numSuit fun i current =>
      assign do
        let card ← element cards i
        increment current card.suit.toInt)
    fun final => .ok final

/-- The hand of the cards at the iterating indices. -/
def countHand (testDeck : CardArray) (indices : List ℕ) (census : Census) :
    Run Census := do
  let handArray ← indices.mapM fun i : ℕ => arrayGet testDeck i
  let testHand ← Hand.create handArray
  let numSuit ← countSuits testHand.cards census.numSuit
  let numRank ← increment census.numRank testHand.rank.toByte.toInt
  return ⟨int32 (census.testNum + 1), numSuit, numRank⟩

def countAllHands (testDeck : CardArray) : Run Census :=
  let length := testDeck.length
  let start : Census := ⟨0, List.replicate 4 0, List.replicate 10 0⟩
  afterLoop
    (forRange 0 length start fun first census =>
      forRange (first + 1) length census fun second census =>
        forRange (second + 1) length census fun third census =>
          forRange (third + 1) length census fun fourth census =>
            forRange (fourth + 1) length census fun fifth census =>
              assign (countHand testDeck
                [first, second, third, fourth, fifth] census))
    fun census => .ok census

def falsePositivesTest (draw : ℕ → ℕ) : Run Census := do
  let testDeck ← newDeck
  let shuffled ← shuffleDeck testDeck draw
  countAllHands shuffled

/-- The column `Expected` of the table which is printed, best rank first. -/
def expectedRank : List ℤ :=
  [0, 40, 624, 3744, 5108, 10200, 54912, 123552, 1098240, 1302540]

/-! ## One hand -/

def ofSuit (suit : ℕ) (card : Card) : Bool :=
  card.suit.toInt = (suit : ℤ)

def ofRank (rank : ℕ) (hand : List Card) : Bool :=
  (category hand).toByte.toInt = (rank : ℤ)

/-- The counts after the hands in `hands`. -/
def Census.of (hands : List (List Card)) : Census where
  testNum := int32 (hands.length : ℤ)
  numSuit := (List.range 4).map fun suit =>
    int32 ((hands.map fun hand => hand.countP (ofSuit suit)).sum : ℕ)
  numRank := (List.range 10).map fun rank =>
    int32 (hands.countP (ofRank rank) : ℕ)

theorem int32_int32_add (first second : ℤ) :
    int32 (int32 first + second) = int32 (first + second) :=
  Int.bmod_add_bmod

theorem increment_map_range
    {n index : ℕ} (hindex : index < n) (f : ℕ → ℕ) :
    increment ((List.range n).map fun i => int32 (f i : ℤ)) index =
      .ok ((List.range n).map fun i =>
        int32 ((f i + if index = i then 1 else 0 : ℕ) : ℤ)) := by
  have hslot : index <
      ((List.range n).map fun i => int32 (f i : ℤ)).length := by
    simpa using hindex
  rw [increment, arrayGet_natCast_of_lt hslot, ok_bind,
    arrayPut_natCast_of_lt hslot]
  congr 1
  apply List.ext_getElem?
  intro i
  rw [List.getElem?_set]
  by_cases heq : index = i
  · subst i
    simp [hindex, int32_int32_add]
  · by_cases hi : i < n
    · simp [heq, hi]
    · simp [heq, hi]

theorem countSuits_eq_ok
    {hand : List Card} (hsuits : ∀ card ∈ hand,
      0 ≤ card.suit.toInt ∧ card.suit.toInt ≤ 3) (f : ℕ → ℕ) :
    countSuits (hand.map some)
        ((List.range 4).map fun suit => int32 (f suit : ℤ)) =
      .ok ((List.range 4).map fun suit =>
        int32 ((f suit + hand.countP (ofSuit suit) : ℕ) : ℤ)) := by
  apply forRange_assign_eq fun i => (List.range 4).map fun suit =>
    int32 ((f suit + (hand.take i).countP (ofSuit suit) : ℕ) : ℤ)
  · exact Nat.zero_le _
  · simp
  · simp
  · intro i _ hi
    rw [List.length_map] at hi
    have hsuit := hsuits hand[i] (List.getElem_mem hi)
    obtain ⟨suit, hcast⟩ := Int.eq_ofNat_of_zero_le hsuit.1
    rw [element_map_some hi, ok_bind, hcast,
      increment_map_range (by omega)]
    apply congrArg Except.ok
    apply List.map_congr_left
    intro other _
    have hother : (hand.take (i + 1)).countP (ofSuit other) =
        (hand.take i).countP (ofSuit other) +
          if suit = other then 1 else 0 := by
      rw [List.take_add_one, List.countP_append, List.getElem?_eq_getElem hi,
        Option.toList_some, List.countP_singleton, ofSuit, hcast]
      simp
    rw [hother, Nat.add_assoc]

theorem mapM_arrayGet
    {deck hand : List Card} {indices : List ℕ}
    (hindices : indices.map (fun i => deck[i]?) = hand.map some) :
    (indices.mapM fun i : ℕ => arrayGet (deck.map some) i) =
      .ok (hand.map some) := by
  induction indices generalizing hand with
  | nil =>
      have hnil : hand = [] := by simpa using hindices.symm
      subst hand
      rfl
  | cons i rest ih =>
      cases hand with
      | nil => simp at hindices
      | cons card others =>
          simp only [List.map_cons, List.cons.injEq] at hindices
          have hread : arrayGet (deck.map some) i = .ok (some card) := by
            simp [arrayGet, hindices.1]
          rw [List.mapM_cons, hread, ih hindices.2]
          rfl

section Decks

variable {deck : List Card}
  (hvalues : ∀ card ∈ deck, 1 ≤ card.value.toInt ∧ card.value.toInt ≤ 14)
  (hsuits : ∀ card ∈ deck, 0 ≤ card.suit.toInt ∧ card.suit.toInt ≤ 3)

include hvalues hsuits

theorem countHand_eq_ok
    {hand : List Card} {indices : List ℕ} (done : List (List Card))
    (hindices : indices.map (fun i => deck[i]?) = hand.map some)
    (hlength : hand.length = 5) :
    countHand (deck.map some) indices (Census.of done) =
      .ok (Census.of (done ++ [hand])) := by
  have hhand : ∀ card ∈ hand, card ∈ deck := by
    intro card hcard
    have hsome : some card ∈ indices.map fun i => deck[i]? := by
      rw [hindices]
      exact List.mem_map_of_mem hcard
    obtain ⟨i, -, hi⟩ := List.mem_map.mp hsome
    exact List.mem_of_getElem? hi
  have hcategory := determineRank_eq_category hlength fun card hcard =>
    hvalues card (hhand card hcard)
  have hbyte : ∃ rank : ℕ,
      (category hand).toByte.toInt = rank ∧ rank < 10 := by
    cases category hand
    all_goals exact ⟨_, rfl, by decide⟩
  rcases hbyte with ⟨rank, hrank, hlt⟩
  rw [countHand, mapM_arrayGet hindices, ok_bind, Hand.create, hcategory,
    ok_bind]
  simp only [pure_eq_ok, ok_bind, Census.of]
  rw [countSuits_eq_ok fun card hcard => hsuits card (hhand card hcard),
    ok_bind, hrank, increment_map_range hlt]
  simp [ofRank, hrank, List.countP_append, List.countP_singleton,
    int32_int32_add]

/-! ## All hands -/

theorem countAllHands_eq_of :
    countAllHands (deck.map some) =
      .ok (Census.of (deck.sublistsLen 5).reverse) := by
  have hloops : Completes
      (increasingLoops deck.length (countHand (deck.map some)) 5 0 []
        (Census.of []))
      (fun final => final = Census.of ([] ++
        ((deck.drop 0).sublistsLen 5).reverse.map ([] ++ ·)))
      (fun _ : Census => False) := by
    apply increasingLoops_completes Census.of 5
    · intro indices selection done hindices hlength
      exact countHand_eq_ok hvalues hsuits done hindices hlength
    · rfl
    · rfl
    · exact Nat.zero_le _
  rcases hloops with ⟨final, hrun, hfinal⟩ | ⟨value, -, hfalse⟩
  · have hfive : (increasingLoops deck.length (countHand (deck.map some)) 5 0
        [] (Census.of []) : Run (Completion Census Census)) =
          .ok (.next (Census.of (deck.sublistsLen 5).reverse)) := by
      rw [hrun, hfinal]
      simp
    have hsame : countAllHands (deck.map some) = afterLoop
        (increasingLoops deck.length (countHand (deck.map some)) 5 0 []
          (Census.of [])) fun census => .ok census := by
      rw [countAllHands, List.length_map]
      rfl
    rw [hsame, hfive]
    rfl
  · exact hfalse.elim

theorem countAllHands_eq_ok :
    countAllHands (deck.map some) = .ok
      { testNum := int32 (deck.length.choose 5 : ℕ)
        numSuit := (List.range 4).map fun suit => int32
          (deck.countP (ofSuit suit) * (deck.length - 1).choose 4 : ℕ)
        numRank := (List.range 10).map fun rank =>
          int32 (selected (ofRank rank) 5 deck : ℕ) } := by
  have hnum : (deck.sublistsLen 5).reverse.length = deck.length.choose 5 := by
    rw [List.length_reverse, List.length_sublistsLen]
  have hsuit : ∀ suit, ((deck.sublistsLen 5).reverse.map fun hand =>
      hand.countP (ofSuit suit)).sum =
        deck.countP (ofSuit suit) * (deck.length - 1).choose 4 := by
    intro suit
    rw [← occurrences_eq, occurrences, List.map_reverse, List.sum_reverse]
  have hrank : ∀ rank, (deck.sublistsLen 5).reverse.countP (ofRank rank) =
      selected (ofRank rank) 5 deck := by
    intro rank
    rw [List.countP_reverse, selected]
  rw [countAllHands_eq_of hvalues hsuits, Census.of]
  simp only [hnum, hsuit, hrank]

theorem countAllHands_eq_of_perm
    {deck' : List Card} (hperm : deck'.Perm deck) :
    countAllHands (deck'.map some) = countAllHands (deck.map some) := by
  have hranks : ∀ rank, selected (ofRank rank) 5 deck' =
      selected (ofRank rank) 5 deck := by
    intro rank
    apply selected_eq_of_perm _ hperm
    intro hand hand' hsame
    rw [ofRank, ofRank, category_eq_of_perm hsame]
  rw [countAllHands_eq_ok
      (fun card hcard => hvalues card (hperm.mem_iff.mp hcard))
      fun card hcard => hsuits card (hperm.mem_iff.mp hcard),
    countAllHands_eq_ok hvalues hsuits]
  simp only [hperm.length_eq, hperm.countP_eq, hranks]

/-- Every five cards of the deck are counted once, whatever their order in
the deck is. -/
theorem countAllHands_exhaustive :
    countAllHands (deck.map some) = .ok
        { testNum := int32 (deck.length.choose 5 : ℕ)
          numSuit := (List.range 4).map fun suit => int32
            (deck.countP (ofSuit suit) * (deck.length - 1).choose 4 : ℕ)
          numRank := (List.range 10).map fun rank =>
            int32 (selected (ofRank rank) 5 deck : ℕ) } ∧
      ∀ deck' : List Card, deck'.Perm deck →
        countAllHands (deck'.map some) = countAllHands (deck.map some) := by
  exact ⟨countAllHands_eq_ok hvalues hsuits, fun _ hperm =>
    countAllHands_eq_of_perm hvalues hsuits hperm⟩

end Decks

theorem countAllHands_exhaustive_broadway :
    countAllHands ((⟨9, 2⟩ :: broadway).map some) =
      .ok ⟨6, [10, 5, 10, 5], [0, 0, 0, 0, 0, 2, 0, 0, 0, 4]⟩ :=
  (countAllHands_exhaustive (by decide) (by decide)).1.trans
    (by decide +kernel)

/-! ## The numbers for the whole deck -/

def deckValues : List Int8 :=
  (List.range 13).map fun value => Int8.ofNat (value + 1)

theorem deckValues_nodup : deckValues.Nodup := by
  decide +kernel

theorem values_standardDeck_perm :
    (values standardDeck).Perm (blocks 4 deckValues) := by
  decide +kernel

theorem values_filter_standardDeck :
    ∀ suit ∈ List.range 4,
      values (standardDeck.filter (ofSuit suit)) = blocks 1 deckValues := by
  decide +kernel

theorem selected_values
    {p : List Int8 → Bool}
    (hp : ∀ selection selection', selection.Perm selection' →
      p selection = p selection') :
    selected (fun hand => p (values hand)) 5 standardDeck =
      selected p 5 (blocks 4 deckValues) := by
  rw [← selected_eq_of_perm hp values_standardDeck_perm]
  exact (selected_map _ p 5 standardDeck).symm

theorem selected_pattern
    {pattern : List ℕ} (hpattern : pattern.Pairwise (· ≥ ·))
    (hpos : ∀ k ∈ pattern, 0 < k) (hsum : pattern.sum = 5) :
    selected (fun hand => decide (multiplicities (values hand) = pattern)) 5
        standardDeck = arrangements 4 13 pattern := by
  have hcount := selected_multiplicities 4 deckValues_nodup hpattern hpos
  rw [hsum] at hcount
  rw [selected_values (p := fun selection =>
    decide (multiplicities selection = pattern)), hcount]
  · rfl
  · intro selection selection' hperm
    rw [multiplicities_eq_of_perm hperm]

/-! ### Straights -/

def runValues (low : ℕ) : List Int8 :=
  (List.range 5).map fun c => Int8.ofNat (low + 1 + c)

/-- The values of a straight from one of 1 to 9 on. -/
def isRunValues (selection : List Int8) : Bool :=
  (List.range 9).any fun low => decide (selection.Perm (runValues low))

theorem selected_isRunValues (m : ℕ) :
    selected isRunValues 5 (blocks m deckValues) =
      ((List.range 9).map fun low =>
        (deckValues.map fun v =>
          m.choose ((runValues low).count v)).prod).sum := by
  have hunique : ∀ low ∈ List.range 9, ∀ low' ∈ List.range 9,
      (runValues low).Perm (runValues low') → low = low' := by
    decide +kernel
  have hwithin : ∀ low ∈ List.range 9, runValues low ⊆ deckValues := by
    decide +kernel
  unfold isRunValues
  rw [selected_any List.nodup_range]
  · exact congrArg List.sum (List.map_congr_left fun low hlow =>
      selected_perm m deckValues_nodup (hwithin low hlow))
  · intro selection _ _ low hlow low' hlow' hperm hperm'
    rw [decide_eq_true_eq] at hperm hperm'
    exact hunique low hlow low' hlow' (hperm.symm.trans hperm')

theorem mem_runValues {low : ℕ} (hlow : low < 9) (v : Int8) :
    v ∈ runValues low ↔
      (low : ℤ) + 1 ≤ v.toInt ∧ v.toInt ≤ (low : ℤ) + 5 := by
  unfold runValues
  rw [List.mem_map]
  constructor
  · rintro ⟨c, hc, rfl⟩
    rw [List.mem_range] at hc
    have hvalue : (Int8.ofNat (low + 1 + c)).toInt = ((low + 1 + c : ℕ) : ℤ) :=
      Int8.toInt_ofNat_of_lt (by omega)
    omega
  · intro hv
    refine ⟨v.toInt.toNat - (low + 1), List.mem_range.mpr (by omega), ?_⟩
    exact ofNat_eq_of_toInt (by omega) (by omega)

theorem isRun_iff_isRunValues
    {hand : List Card} (hlength : hand.length = 5)
    (hhand : ∀ card ∈ hand, Drawn card) :
    IsRun hand ↔ isRunValues (values hand) = true := by
  have hints : intValues hand = (values hand).map Int8.toInt := by
    simp [intValues, values]
  rw [isRunValues, List.any_eq_true]
  constructor
  · intro hrun
    obtain ⟨low, hset⟩ := (isRun_iff_toFinset hlength).mp hrun
    have hmem : ∀ z, z ∈ intValues hand ↔ low ≤ z ∧ z ≤ low + 4 := by
      intro z
      rw [← List.mem_toFinset, hset, Finset.mem_Icc]
    have hrange : ∀ z ∈ intValues hand, 1 ≤ z ∧ z ≤ 13 := by
      intro z hz
      obtain ⟨card, hcard, rfl⟩ := List.mem_map.mp hz
      exact (hhand card hcard).value
    have hfirst := hrange low ((hmem low).mpr (by omega))
    have hlast := hrange (low + 4) ((hmem (low + 4)).mpr (by omega))
    have hlow : low.toNat - 1 < 9 := by omega
    have hnodup : (values hand).Nodup := by
      have hmap := hrun.1
      rw [hints] at hmap
      exact hmap.of_map
    have hnodup' : ∀ low ∈ List.range 9, (runValues low).Nodup := by
      decide +kernel
    refine ⟨low.toNat - 1, List.mem_range.mpr hlow, ?_⟩
    rw [decide_eq_true_eq, List.perm_ext_iff_of_nodup hnodup
      (hnodup' _ (List.mem_range.mpr hlow))]
    intro v
    have hv : v ∈ values hand ↔ v.toInt ∈ intValues hand := by
      rw [hints, List.mem_map_of_injective fun _ _ => Int8.toInt.inj]
    rw [hv, hmem, mem_runValues hlow]
    omega
  · rintro ⟨low, hlow, hperm⟩
    have hclosed : ∀ low ∈ List.range 9,
        ((runValues low).map Int8.toInt).Nodup ∧
          spread ((runValues low).map Int8.toInt) = 4 := by
      decide +kernel
    rw [decide_eq_true_eq] at hperm
    have hmap := hperm.map Int8.toInt
    rw [IsRun, hints, hmap.nodup_iff, spread_eq_of_perm hmap]
    exact hclosed low hlow

/-! ### One suit -/

/-- A hand which can be taken from the deck. -/
structure FromDeck (hand : List Card) : Prop where
  sublist : hand.Sublist standardDeck
  length : hand.length = 5

section FromDeck

variable {hand : List Card} (hhand : FromDeck hand)

include hhand

theorem FromDeck.drawn : ∀ card ∈ hand, Drawn card := by
  intro card hcard
  exact standardDeck_drawn card (hhand.sublist.subset hcard)

theorem FromDeck.oneSuit_iff :
    OneSuit hand ↔
      ((List.range 4).any fun suit => hand.all (ofSuit suit)) = true := by
  simp only [List.any_eq_true, List.all_eq_true, ofSuit, decide_eq_true_eq]
  constructor
  · intro hsuit
    obtain ⟨first, hfirst⟩ := List.exists_mem_of_length_pos
      (show 0 < hand.length by rw [hhand.length]; omega)
    have hrange := (hhand.drawn first hfirst).suit
    refine ⟨first.suit.toInt.toNat, List.mem_range.mpr (by omega), ?_⟩
    intro card hcard
    rw [hsuit card hcard first hfirst]
    omega
  · rintro ⟨suit, -, hall⟩ first hfirst second hsecond
    rw [← Int8.toInt_inj, hall first hfirst, hall second hsecond]

/-- The deck has no two cards of one suit and value. -/
theorem FromDeck.values_nodup (hsuit : OneSuit hand) :
    (values hand).Nodup := by
  have hnodup := standardDeck_nodup.sublist hhand.sublist
  apply hnodup.map_on
  intro first hfirst second hsecond hvalue
  have hsame := hsuit first hfirst second hsecond
  cases first
  cases second
  simp_all

theorem FromDeck.multiplicities_of_nodup (hnodup : (values hand).Nodup) :
    multiplicities (values hand) = [1, 1, 1, 1, 1] := by
  rw [ListPattern.multiplicities_of_nodup hnodup, values_length, hhand.length]
  rfl

end FromDeck

theorem selected_oneSuit (p : List Int8 → Bool) :
    selected (fun hand => decide (OneSuit hand) && p (values hand)) 5
        standardDeck =
      4 * selected p 5 (blocks 1 deckValues) := by
  have hclasses : selected
      (fun hand => decide (OneSuit hand) && p (values hand)) 5 standardDeck =
        selected (fun hand => (List.range 4).any fun suit =>
          hand.all (ofSuit suit) && p (values hand)) 5 standardDeck := by
    apply selected_congr
    intro hand hsublist hlength
    have hsuit := (FromDeck.mk hsublist hlength).oneSuit_iff
    rw [Bool.eq_iff_iff]
    simp only [Bool.and_eq_true, decide_eq_true_eq, hsuit, List.any_eq_true]
    constructor
    · rintro ⟨⟨suit, hmem, hall⟩, hp⟩
      exact ⟨suit, hmem, hall, hp⟩
    · rintro ⟨suit, hmem, hall, hp⟩
      exact ⟨⟨suit, hmem, hall⟩, hp⟩
  have hunique : ∀ hand : List Card, hand.Sublist standardDeck →
      hand.length = 5 → ∀ suit ∈ List.range 4, ∀ suit' ∈ List.range 4,
        (hand.all (ofSuit suit) && p (values hand)) = true →
        (hand.all (ofSuit suit') && p (values hand)) = true →
          suit = suit' := by
    intro hand _ hlength suit _ suit' _ hall hall'
    obtain ⟨first, hfirst⟩ := List.exists_mem_of_length_pos
      (show 0 < hand.length by omega)
    simp only [Bool.and_eq_true, List.all_eq_true, ofSuit,
      decide_eq_true_eq] at hall hall'
    have heq := hall.1 first hfirst
    have heq' := hall'.1 first hfirst
    omega
  have hsuits : ∀ suit ∈ List.range 4,
      selected (fun hand => hand.all (ofSuit suit) && p (values hand)) 5
          standardDeck = selected p 5 (blocks 1 deckValues) := by
    intro suit hsuit
    rw [selected_all, ← values_filter_standardDeck suit hsuit]
    exact (selected_map _ p 5 _).symm
  rw [hclasses, selected_any List.nodup_range hunique,
    List.map_congr_left hsuits]
  simp only [List.map_const', List.length_range, List.sum_replicate,
    smul_eq_mul]

/-! ### The ranks -/

section Ranks

def shaped (pattern : List ℕ) (hand : List Card) : Bool :=
  multiplicities (values hand) = pattern

def straight (hand : List Card) : Bool :=
  IsRun hand

def suited (hand : List Card) : Bool :=
  OneSuit hand

def single : List Card → Bool :=
  shaped [1, 1, 1, 1, 1]

/-- The hands of each rank; those with five values are told apart by the two
properties which only they can have. -/
def rankTest : List (List Card → Bool) :=
  [shaped [5], both suited straight, shaped [4, 1], shaped [3, 2],
    without suited straight, without straight suited, shaped [3, 1, 1],
    shaped [2, 2, 1], shaped [2, 1, 1, 1],
    without (without single straight) suited]

theorem rankTest_exact {hand : List Card} (hhand : FromDeck hand) :
    ((List.range 10).map fun rank => ofRank rank hand) =
      rankTest.map fun test => test hand := by
  have hcategory : category hand = rankOf (multiplicities (values hand))
      (IsRun hand) (OneSuit hand) := rfl
  have hrun : IsRun hand → multiplicities (values hand) = [1, 1, 1, 1, 1] :=
    fun hrun => multiplicities_of_isRun hhand.length hrun
  have hsuit : OneSuit hand →
      multiplicities (values hand) = [1, 1, 1, 1, 1] :=
    fun hsuit => hhand.multiplicities_of_nodup (hhand.values_nodup hsuit)
  by_cases hsingle : multiplicities (values hand) = [1, 1, 1, 1, 1]
  · by_cases hstraight : IsRun hand <;> by_cases hsuited : OneSuit hand <;>
    · simp only [ofRank, hcategory, rankTest, both, without, single, shaped,
        straight, suited, rankOf, hsingle, hstraight, hsuited, List.map_cons, List.map_nil]
      decide
  · have hnorun : ¬ IsRun hand := fun h => hsingle (hrun h)
    have hnosuit : ¬ OneSuit hand := fun h => hsingle (hsuit h)
    rcases multiplicities_cases hhand.length with
      hm | hm | hm | hm | hm | hm | hm
    case inr.inr.inr.inr.inr.inr => exact absurd hm hsingle
    all_goals
      simp only [ofRank, hcategory, rankTest, both, without, single, shaped,
        straight, suited, rankOf, hm, hnorun, hnosuit, List.map_cons, List.map_nil]
      decide

theorem selected_ofRank :
    ((List.range 10).map fun rank =>
        selected (ofRank rank) 5 standardDeck) =
      rankTest.map fun test => selected test 5 standardDeck := by
  have hanswers : ∀ hand : List Card, hand.Sublist standardDeck →
      hand.length = 5 →
        ((List.range 10).map ofRank).map (fun test => test hand) =
          rankTest.map fun test => test hand := by
    intro hand hsublist hlength
    rw [List.map_map]
    exact rankTest_exact ⟨hsublist, hlength⟩
  have hcounts := map_selected_congr _ rankTest hanswers rfl
  rwa [List.map_map] at hcounts

theorem selected_straight :
    selected straight 5 standardDeck = 9216 := by
  have hcongr : selected straight 5 standardDeck =
      selected (fun hand => isRunValues (values hand)) 5 standardDeck := by
    apply selected_congr
    intro hand hsublist hlength
    have hhand := FromDeck.mk hsublist hlength
    rw [Bool.eq_iff_iff, straight, decide_eq_true_eq]
    exact isRun_iff_isRunValues hlength hhand.drawn
  rw [hcongr, selected_values, selected_isRunValues]
  · decide +kernel
  · intro selection selection' hperm
    simp only [isRunValues, hperm.congr_left]

theorem selected_suited :
    selected suited 5 standardDeck = 5148 := by
  have hcongr : selected suited 5 standardDeck =
      selected (fun hand => decide (OneSuit hand) && true) 5 standardDeck := by
    simp only [Bool.and_true]
    rfl
  rw [hcongr, selected_oneSuit fun _ => true, selected_true]
  decide +kernel

theorem selected_suited_straight :
    selected (both suited straight) 5 standardDeck = 36 := by
  have hcongr : selected (both suited straight) 5 standardDeck =
      selected (fun hand =>
        decide (OneSuit hand) && isRunValues (values hand)) 5
          standardDeck := by
    apply selected_congr
    intro hand hsublist hlength
    have hhand := FromDeck.mk hsublist hlength
    have hrun := isRun_iff_isRunValues hlength hhand.drawn
    rw [Bool.eq_iff_iff]
    simp [both, suited, straight, hrun]
  rw [hcongr, selected_oneSuit, selected_isRunValues]
  decide +kernel

theorem selected_shaped :
    ∀ pattern ∈ [[5], [4, 1], [3, 2], [3, 1, 1], [2, 2, 1], [2, 1, 1, 1],
        [1, 1, 1, 1, 1]],
      selected (shaped pattern) 5 standardDeck =
        arrangements 4 13 pattern := by
  intro pattern hpattern
  have hpartition : ∀ pattern ∈ [[5], [4, 1], [3, 2], [3, 1, 1], [2, 2, 1],
      [2, 1, 1, 1], [1, 1, 1, 1, 1]],
        pattern.Pairwise (· ≥ ·) ∧ (∀ k ∈ pattern, 0 < k) ∧
          pattern.sum = 5 := by
    decide
  obtain ⟨hsorted, hpos, hsum⟩ := hpartition pattern hpattern
  exact selected_pattern hsorted hpos hsum

theorem selected_suited_only :
    selected (without suited straight) 5 standardDeck = 5112 := by
  have hsplit := selected_split suited straight 5 standardDeck
  rw [selected_suited, selected_suited_straight] at hsplit
  omega

theorem selected_straight_only :
    selected (without straight suited) 5 standardDeck = 9180 := by
  have hsplit := selected_split straight suited 5 standardDeck
  have hboth : selected (both straight suited) 5 standardDeck = 36 := by
    rw [← selected_suited_straight]
    apply selected_congr
    intro hand _ _
    exact Bool.and_comm _ _
  rw [selected_straight, hboth] at hsplit
  omega

theorem selected_single_straight :
    selected (both single straight) 5 standardDeck = 9216 := by
  rw [← selected_straight]
  apply selected_congr
  intro hand _ hlength
  rw [Bool.eq_iff_iff]
  simp only [both, single, shaped, straight, Bool.and_eq_true,
    decide_eq_true_eq]
  exact ⟨fun h => h.2, fun hrun =>
    ⟨multiplicities_of_isRun hlength hrun, hrun⟩⟩

theorem selected_single_suited :
    selected (both (without single straight) suited) 5 standardDeck =
      5112 := by
  rw [← selected_suited_only]
  apply selected_congr
  intro hand hsublist hlength
  have hhand := FromDeck.mk hsublist hlength
  rw [Bool.eq_iff_iff]
  simp only [both, without, single, shaped, suited, Bool.and_eq_true,
    decide_eq_true_eq]
  constructor
  · rintro ⟨⟨-, hrun⟩, hsuit⟩
    exact ⟨hsuit, hrun⟩
  · rintro ⟨hsuit, hrun⟩
    exact ⟨⟨hhand.multiplicities_of_nodup (hhand.values_nodup hsuit), hrun⟩,
      hsuit⟩

/-- Five values without a straight and without a flush. -/
theorem selected_none :
    selected (without (without single straight) suited) 5 standardDeck =
      1303560 := by
  have hall : selected single 5 standardDeck = 1317888 := by
    rw [single, selected_shaped [1, 1, 1, 1, 1] (by decide)]
    decide +kernel
  have hsplit := selected_split single straight 5 standardDeck
  rw [hall, selected_single_straight,
    selected_split (without single straight) suited,
    selected_single_suited] at hsplit
  omega

theorem numRank_standardDeck :
    ((List.range 10).map fun rank => selected (ofRank rank) 5 standardDeck) =
      [0, 36, 624, 3744, 5112, 9180, 54912, 123552, 1098240, 1303560] := by
  rw [selected_ofRank, rankTest]
  simp only [List.map_cons, List.map_nil]
  rw [selected_suited_straight, selected_suited_only, selected_straight_only,
    selected_none, selected_shaped [5] (by decide),
    selected_shaped [4, 1] (by decide), selected_shaped [3, 2] (by decide),
    selected_shaped [3, 1, 1] (by decide),
    selected_shaped [2, 2, 1] (by decide),
    selected_shaped [2, 1, 1, 1] (by decide)]
  decide +kernel

end Ranks

theorem standardDeck_values :
    ∀ card ∈ standardDeck,
      1 ≤ card.value.toInt ∧ card.value.toInt ≤ 14 := by
  intro card hcard
  have hvalue := (standardDeck_drawn card hcard).value
  omega

theorem standardDeck_suits :
    ∀ card ∈ standardDeck, 0 ≤ card.suit.toInt ∧ card.suit.toInt ≤ 3 :=
  fun card hcard => (standardDeck_drawn card hcard).suit

theorem countAllHands_standardDeck :
    countAllHands (standardDeck.map some) =
      .ok ⟨2598960, [3248700, 3248700, 3248700, 3248700],
        [0, 36, 624, 3744, 5112, 9180, 54912, 123552, 1098240,
          1303560]⟩ := by
  have hranks : ((List.range 10).map fun rank =>
      int32 (selected (ofRank rank) 5 standardDeck : ℕ)) =
        [0, 36, 624, 3744, 5112, 9180, 54912, 123552, 1098240, 1303560].map
          fun count : ℕ => int32 (count : ℤ) := by
    rw [← numRank_standardDeck, List.map_map, Function.comp_def]
  rw [countAllHands_eq_ok standardDeck_values standardDeck_suits, hranks]
  decide +kernel

/-- The outcome of the test for every shuffle.  The table it prints differs
from it for the straights, the flushes and the high cards. -/
theorem falsePositivesTest_outcome
    (draw : ℕ → ℕ) (hdraw : DrawsWithin 52 draw) :
    Returns (falsePositivesTest draw) fun census =>
      census.testNum = 2598960 ∧
        census.numSuit = [3248700, 3248700, 3248700, 3248700] ∧
        census.numRank = [0, 36, 624, 3744, 5112, 9180, 54912, 123552,
          1098240, 1303560] ∧
        ∀ rank : Rank,
          census.numRank[rank.toByte.toInt.toNat]? =
              expectedRank[rank.toByte.toInt.toNat]? ↔
            rank ∉ [.straightFlush, .flush, .straight, .highCard] := by
  have hshuffle : shuffleDeck (standardDeck.map some) draw =
      .ok ((shuffledTo standardDeck draw (standardDeck.length - 1)).map
        some) :=
    shuffleDeck_eq_ok hdraw
  have hsame := countAllHands_eq_of_perm standardDeck_values
    standardDeck_suits (shuffledDeck_perm hdraw)
  have hrun : falsePositivesTest draw =
      countAllHands (standardDeck.map some) := by
    rw [falsePositivesTest, newDeck_eq_ok, ok_bind, hshuffle, ok_bind, hsame]
  refine ⟨_, hrun.trans countAllHands_standardDeck, rfl, rfl, rfl, ?_⟩
  intro rank
  cases rank <;> decide

theorem falsePositivesTest_outcome_unshuffled :
    Returns (falsePositivesTest fun i => i) fun census =>
      census.testNum = 2598960 := by
  obtain ⟨census, hrun, hnum, -⟩ :=
    falsePositivesTest_outcome (fun i => i) (drawsWithin_id 52)
  exact ⟨census, hrun, hnum⟩

end HandTest
end HighRollers
