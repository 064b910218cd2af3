import HighRollers.RandomHandKinds
import HighRollers.ShuffleDraws

/-!
# The deck of the tests

`Hand_test.java` fills an array with the 52 cards, shuffles it and takes the
first five for a random hand.  The hands it makes are those of a fair deal:
five different cards, and each sequence of five different cards comes from
exactly one choice of the first five draws.
-/

namespace HighRollers
namespace HandTest

open Java

/-! ## The methods -/

structure DeckScan where
  testDeck : CardArray
  testValue : Int8
  testSuit : Int8

def nextCard (c : ℕ) (scan : DeckScan) : Run DeckScan := do
  let raised := scan.testValue + 1
  let testValue := if raised > Card.king then 1 else raised
  let next := if raised > Card.king then scan.testSuit + 1 else scan.testSuit
  let testSuit := if next > 3 then 0 else next
  let testDeck ← arrayPut scan.testDeck c (some ⟨testValue, testSuit⟩)
  return ⟨testDeck, testValue, testSuit⟩

/-- A simulated deck with one instance of each possible card. -/
def newDeck : Run CardArray := do
  let scan ← afterLoop
    (forRange 0 52 ⟨List.replicate 52 none, 0, 0⟩ fun c scan =>
      assign (nextCard c scan))
    fun scan => .ok scan
  return scan.testDeck

/-- One step of the shuffle; it copies the cards. -/
def swapCards (testDeck : CardArray) (i j : ℕ) : Run CardArray := do
  let temporary ← element testDeck i
  let drawn ← element testDeck j
  let swapped ← arrayPut testDeck i (some ⟨drawn.value, drawn.suit⟩)
  arrayPut swapped j (some ⟨temporary.value, temporary.suit⟩)

def shuffleDeck (testDeck : CardArray) (draw : ℕ → ℕ) : Run CardArray :=
  afterLoop
    (forRange 0 (testDeck.length - 1) testDeck fun i current =>
      assign (swapCards current i (draw i)))
    fun shuffled => .ok shuffled

def drawHand (testDeck : CardArray) : Run CardArray :=
  afterLoop
    (forRange 0 5 (List.replicate 5 none) fun c testHand =>
      assign do
        let card ← arrayGet testDeck c
        arrayPut testHand c card)
    fun testHand => .ok testHand

def randomHand (draw : ℕ → ℕ) : Run CardArray := do
  let testDeck ← newDeck
  let shuffled ← shuffleDeck testDeck draw
  drawHand shuffled

/-! ## The deck -/

def standardDeck : List Card :=
  (List.range 4).flatMap fun suit =>
    (List.range 13).map fun value =>
      ⟨Int8.ofNat (value + 1), Int8.ofNat suit⟩

theorem newDeck_eq_ok : newDeck = .ok (standardDeck.map some) := by
  decide +kernel

theorem standardDeck_nodup : standardDeck.Nodup := by
  decide +kernel

theorem standardDeck_drawn : ∀ card ∈ standardDeck, Drawn card := by
  have hrange : ∀ card ∈ standardDeck,
      (1 ≤ card.value.toInt ∧ card.value.toInt ≤ 13) ∧
        0 ≤ card.suit.toInt ∧ card.suit.toInt ≤ 3 := by
    decide +kernel
  intro card hcard
  exact ⟨(hrange card hcard).1, (hrange card hcard).2⟩

/-! ## The shuffle of the deck -/

theorem element_map_some_eq (cards : List Card) (i : ℕ) :
    element (cards.map some) i = arrayGet cards i := by
  by_cases hi : i < cards.length
  · rw [element_map_some hi, arrayGet_natCast_of_lt hi]
  · simp [element, arrayGet, hi, Except.bind]

theorem arrayPut_map_some (cards : List Card) (i : ℕ) (card : Card) :
    arrayPut (cards.map some) i (some card) =
      (arrayPut cards i card).map (List.map some) := by
  change arraySet _ i _ = (arraySet cards i card).map _
  unfold arraySet
  rw [List.length_map]
  split_ifs
  · rw [← List.map_set]
    rfl
  · rfl

theorem swapCards_map_some (cards : List Card) (i j : ℕ) :
    swapCards (cards.map some) i j =
      (swapSlots cards i j).map (List.map some) := by
  simp only [swapCards, swapSlots, element_map_some_eq]
  cases arrayGet cards (i : ℤ) with
  | error e => rfl
  | ok temporary =>
      cases arrayGet cards (j : ℤ) with
      | error e => rfl
      | ok drawn =>
          simp only [ok_bind, arrayPut_map_some]
          cases arrayPut cards (i : ℤ) drawn with
          | error e => rfl
          | ok swapped => exact arrayPut_map_some swapped j temporary

theorem shuffleDeck_eq_ok
    {cards : List Card} {draw : ℕ → ℕ}
    (hdraw : DrawsWithin cards.length draw) :
    shuffleDeck (cards.map some) draw =
      .ok ((shuffledTo cards draw (cards.length - 1)).map some) := by
  have hmap : shuffleDeck (cards.map some) draw =
      (durstenfeld cards draw).map (List.map some) := by
    rw [shuffleDeck, List.length_map]
    apply afterLoop_forRange_map
    intro i current
    exact swapCards_map_some current i (draw i)
  rw [hmap, durstenfeld_eq_ok hdraw]
  rfl

theorem drawHand_eq_ok {cards : List Card} (hlength : 5 ≤ cards.length) :
    drawHand (cards.map some) = .ok ((cards.take 5).map some) := by
  apply forRange_assign_eq fun c =>
    (cards.take c).map some ++ List.replicate (5 - c) none
  · omega
  · rfl
  · simp
  · intro c _ hc
    have hcard : c < (cards.map some).length := by
      rw [List.length_map]
      omega
    have hslot : c < ((cards.take c).map some ++
        List.replicate (5 - c) (none : Option Card)).length := by
      simp
      omega
    have hnext : List.replicate (5 - c) (none : Option Card) =
        none :: List.replicate (5 - (c + 1)) none := by
      rw [← List.replicate_succ]
      congr 1
      omega
    have htaken : ((cards.take c).map some).length = c := by
      rw [List.length_map, List.length_take]
      omega
    have hrest : (cards.take (c + 1)).map some =
        (cards.take c).map some ++ [(cards.map some)[c]] := by
      rw [List.take_add_one, List.map_append, List.getElem_map,
        List.getElem?_eq_getElem (by simpa using hcard)]
      rfl
    rw [arrayGet_natCast_of_lt hcard, ok_bind, arrayPut_natCast_of_lt hslot,
      List.set_append_right _ _ (by omega), htaken, hnext, Nat.sub_self,
      List.set_cons_zero, hrest, List.append_assoc]
    rfl

/-- The five cards dealt for a sequence of draws. -/
def dealt (draw : ℕ → ℕ) : List Card :=
  (shuffledTo standardDeck draw (standardDeck.length - 1)).take 5

section Dealt

variable {draw draw' : ℕ → ℕ} (hdraw : DrawsWithin 52 draw)

include hdraw

theorem shuffledDeck_perm :
    (shuffledTo standardDeck draw (standardDeck.length - 1)).Perm
      standardDeck := by
  have hwithin : DrawsWithin standardDeck.length draw := hdraw
  exact shuffledTo_perm hwithin (Nat.le_refl _)

theorem randomHand_eq_ok :
    randomHand draw = .ok ((dealt draw).map some) := by
  have hshuffle : shuffleDeck (standardDeck.map some) draw =
      .ok ((shuffledTo standardDeck draw (standardDeck.length - 1)).map
        some) :=
    shuffleDeck_eq_ok hdraw
  rw [randomHand, newDeck_eq_ok, ok_bind, hshuffle, ok_bind]
  apply drawHand_eq_ok
  rw [(shuffledDeck_perm hdraw).length_eq]
  decide

theorem dealt_length : (dealt draw).length = 5 := by
  rw [dealt, List.length_take, (shuffledDeck_perm hdraw).length_eq]
  rfl

theorem dealt_nodup : (dealt draw).Nodup :=
  ((shuffledDeck_perm hdraw).nodup_iff.mpr standardDeck_nodup).sublist
    (List.take_sublist _ _)

theorem dealt_drawn : ∀ card ∈ dealt draw, Drawn card := by
  intro card hcard
  exact standardDeck_drawn card
    ((shuffledDeck_perm hdraw).mem_iff.mp (List.mem_of_mem_take hcard))

/-- Only the first five draws count. -/
theorem dealt_eq_iff (hdraw' : DrawsWithin 52 draw') :
    dealt draw = dealt draw' ↔ ∀ i, i < 5 → draw i = draw' i := by
  have hwithin : DrawsWithin standardDeck.length draw := hdraw
  have hwithin' : DrawsWithin standardDeck.length draw' := hdraw'
  have hslot : ∀ draw : ℕ → ℕ, ∀ i, i < 5 →
      (dealt draw)[i]? =
        (shuffledTo standardDeck draw (standardDeck.length - 1))[i]? := by
    intro draw i hi
    exact List.getElem?_take_of_lt hi
  constructor
  · intro heq
    apply draws_eq_of_prefix hwithin hwithin' standardDeck_nodup
    · decide
    · intro i hi
      rw [← hslot draw i hi, ← hslot draw' i hi, heq]
  · intro hfirst
    have hfive : shuffledTo standardDeck draw 5 =
        shuffledTo standardDeck draw' 5 := shuffledTo_congr hfirst
    apply List.ext_getElem?
    intro i
    by_cases hi : i < 5
    · rw [hslot draw i hi, hslot draw' i hi,
        shuffledTo_getElem?_final hwithin hi (by decide) (Nat.le_refl _),
        shuffledTo_getElem?_final hwithin' hi (by decide) (Nat.le_refl _),
        hfive]
    · rw [List.getElem?_eq_none (by rw [dealt_length hdraw]; omega),
        List.getElem?_eq_none (by rw [dealt_length hdraw']; omega)]

end Dealt

theorem ofNat_eq_of_toInt
    {byte : Int8} {n : ℕ} (hn : n < 128) (hbyte : byte.toInt = n) :
    Int8.ofNat n = byte := by
  rw [← Int8.toInt_inj, hbyte]
  exact Int8.toInt_ofNat_of_lt hn

theorem mem_standardDeck {card : Card} (hcard : Drawn card) :
    card ∈ standardDeck := by
  have hvalue := hcard.value
  have hsuit := hcard.suit
  apply List.mem_flatMap.mpr
  refine ⟨card.suit.toInt.toNat, List.mem_range.mpr (by omega), ?_⟩
  apply List.mem_map.mpr
  refine ⟨card.value.toInt.toNat - 1, List.mem_range.mpr (by omega), ?_⟩
  have heqvalue : Int8.ofNat (card.value.toInt.toNat - 1 + 1) = card.value :=
    ofNat_eq_of_toInt (by omega) (by omega)
  have heqsuit : Int8.ofNat card.suit.toInt.toNat = card.suit :=
    ofNat_eq_of_toInt (by omega) (by omega)
  rw [heqvalue, heqsuit]

/-- Every random hand consists of five different cards, every such sequence
comes up, and it fixes the first five draws. -/
theorem randomHand_fair :
    (∀ draw, DrawsWithin 52 draw →
      Returns (randomHand draw) fun testHand =>
        ∃ cards : List Card, testHand = cards.map some ∧
          cards.length = 5 ∧ cards.Nodup ∧ ∀ card ∈ cards, Drawn card) ∧
      (∀ cards : List Card, cards.length = 5 → cards.Nodup →
        (∀ card ∈ cards, Drawn card) →
        ∃ draw, DrawsWithin 52 draw ∧
          randomHand draw = .ok (cards.map some)) ∧
      ∀ draw draw', DrawsWithin 52 draw → DrawsWithin 52 draw' →
        (randomHand draw = randomHand draw' ↔
          ∀ i, i < 5 → draw i = draw' i) := by
  refine ⟨?_, ?_, ?_⟩
  · intro draw hdraw
    exact ⟨_, randomHand_eq_ok hdraw, dealt draw, rfl, dealt_length hdraw,
      dealt_nodup hdraw, dealt_drawn hdraw⟩
  · intro cards hlength hnodup hcards
    have hsubset : cards ⊆ standardDeck := fun card hcard =>
      mem_standardDeck (hcards card hcard)
    have hshort : cards.length ≤ standardDeck.length := by
      rw [hlength]
      decide
    obtain ⟨draw, hdraw, htake⟩ := exists_draws_take hnodup hsubset hshort
    refine ⟨draw, hdraw, ?_⟩
    rw [randomHand_eq_ok hdraw]
    rw [hlength] at htake
    exact congrArg (fun cards => Except.ok (List.map some cards)) htake
  · intro draw draw' hdraw hdraw'
    rw [randomHand_eq_ok hdraw, randomHand_eq_ok hdraw',
      ← dealt_eq_iff hdraw hdraw']
    constructor
    · intro heq
      exact List.map_injective_iff.mpr (Option.some_injective Card)
        (Except.ok.inj heq)
    · intro heq
      rw [heq]

theorem drawsWithin_id (length : ℕ) : DrawsWithin length fun i => i := by
  intro i hi
  change i ≤ i ∧ i < length
  omega

theorem randomHand_fair_unshuffled :
    randomHand (fun i => i) = .ok ((standardDeck.take 5).map some) ∧
      Returns (randomHand fun i => i) fun testHand =>
        ∃ cards : List Card, testHand = cards.map some ∧
          cards.length = 5 ∧ cards.Nodup ∧ ∀ card ∈ cards, Drawn card :=
  ⟨by decide +kernel, randomHand_fair.1 _ (drawsWithin_id 52)⟩

end HandTest
end HighRollers
