import HighRollers.HandRank
import HighRollers.JavaMethod

/-!
# Hands as objects

A `Hand` keeps a reference to the array it was given, next to the rank of the
cards in it.  The array and the cards stay reachable from outside, through
`getCards` and through the caller's own variables, and can be written to; the
rank is computed by the constructor and by `setCards` only.
-/

namespace HighRollers
namespace Hand

open Java

/-- The objects a program holds: cards, arrays of cards whose slots may be
`null`, and the fields of one `Hand`.  Objects which the program creates later
are there from the start. -/
structure Heap where
  cards : ℕ → Card
  arrays : ℕ → List (Option ℕ)
  /-- The field `Cards`. -/
  handCards : Option ℕ
  /-- The field `Rank`. -/
  rank : Rank

namespace Heap

def contents (heap : Heap) (array : ℕ) : CardArray :=
  (heap.arrays array).map fun slot => slot.map heap.cards

/-- The cards in the array which `getCards` returns; `none` for `null`. -/
def view (heap : Heap) : Option CardArray :=
  heap.handCards.map heap.contents

def withCard (heap : Heap) (card : ℕ) (new : Card) : Heap :=
  { heap with cards := Function.update heap.cards card new }

def withArray (heap : Heap) (array : ℕ) (slots : List (Option ℕ)) : Heap :=
  { heap with arrays := Function.update heap.arrays array slots }

end Heap

def setCards (array : Option ℕ) : Method Heap Unit := do
  modify fun heap => { heap with handCards := array }
  let cards ← call (deref (← get).view)
  let rank ← call (determineRank cards)
  modify fun heap => { heap with rank := rank }

/-- The constructor, which has the same body. -/
def newHand (array : Option ℕ) : Method Heap Unit :=
  setCards array

def changeCard (card : ℕ) (change : Card → Card) : Method Heap Unit :=
  modify fun heap => heap.withCard card (change (heap.cards card))

/-- `Card.setValue`. -/
def setValue (card : ℕ) (value : Int8) : Method Heap Unit :=
  changeCard card fun old => { old with value := value }

/-- `Card.setSuit`. -/
def setSuit (card : ℕ) (suit : Int8) : Method Heap Unit :=
  changeCard card fun old => { old with suit := suit }

/-- The assignment `array[index] = card`. -/
def setElement (array index : ℕ) (card : Option ℕ) : Method Heap Unit := do
  let slots ← call (arraySet ((← get).arrays array) index card)
  modify fun heap => heap.withArray array slots

inductive Operation
  | setCards (array : Option ℕ)
  | setValue (card : ℕ) (value : Int8)
  | setSuit (card : ℕ) (suit : Int8)
  | setElement (array index : ℕ) (card : Option ℕ)
  deriving DecidableEq, Repr

def Operation.perform : Operation → Method Heap Unit
  | .setCards array => Hand.setCards array
  | .setValue card value => Hand.setValue card value
  | .setSuit card suit => Hand.setSuit card suit
  | .setElement array index card => Hand.setElement array index card

def Heap.run (heap : Heap) (operations : List Operation) : Heap :=
  operations.foldl (fun current operation => operation.perform.after current)
    heap

/-- The stored rank is that of the cards which `getCards` returns now. -/
def RankCurrent (heap : Heap) : Prop :=
  ∃ cards, heap.view = some cards ∧ determineRank cards = .ok heap.rank

/-! ## Assessing -/

theorem tried_returns
    {test : Run Bool} {claim : Prop} (htest : Decides test claim)
    {value : Rank} {rest : Run Rank} (hrest : ∃ rank, rest = .ok rank) :
    ∃ rank, (test >>= fun answer =>
      if answer = true then pure value else rest) = .ok rank := by
  obtain ⟨answer, hanswer, -⟩ := htest
  rw [hanswer, ok_bind]
  cases answer with
  | true => exact ⟨value, rfl⟩
  | false => exact hrest

/-- Every array of cards is assessed normally, whatever its length. -/
theorem determineRank_returns (hand : List Card) :
    ∃ rank, determineRank (hand.map some) = .ok rank := by
  obtain ⟨lowest, -, -, hstraight⟩ := isStraight_decides_from hand
  have hflush := isFlush_decides hand
  unfold determineRank
  apply tried_returns (isFiveOfAKind_decides hand)
  apply tried_returns (hstraight.andAlso fun _ => hflush)
  apply tried_returns (isFourOfAKind_decides hand)
  apply tried_returns (isFullHouse_decides hand)
  apply tried_returns hflush
  apply tried_returns hstraight
  apply tried_returns (isThreeOfAKind_decides hand)
  apply tried_returns (isTwoPair_decides hand)
  apply tried_returns (isOnePair_decides hand)
  exact ⟨.highCard, rfl⟩

/-- No slot of the array is `null`. -/
def Heap.Filled (heap : Heap) (array : ℕ) : Prop :=
  ∀ slot ∈ heap.arrays array, slot ≠ none

theorem Heap.Filled.contents
    {heap : Heap} {array : ℕ} (hfilled : heap.Filled array) :
    ∃ hand : List Card, heap.contents array = hand.map some := by
  unfold Heap.Filled Heap.contents at *
  generalize heap.arrays array = slots at *
  induction slots with
  | nil => exact ⟨[], rfl⟩
  | cons slot rest ih =>
      have hrest := ih fun other hother =>
        hfilled other (List.mem_cons_of_mem slot hother)
      obtain ⟨hand, hhand⟩ := hrest
      obtain ⟨card, hcard⟩ := Option.ne_none_iff_exists'.mp
        (hfilled slot (by simp))
      exact ⟨heap.cards card :: hand, by simp [hcard, hhand]⟩

/-- The constructor and `setCards` leave a current rank behind. -/
theorem setCards_run
    {heap : Heap} {array : ℕ} (hfilled : heap.Filled array) :
    ∃ after, (setCards (some array)).run heap = .ok () after ∧
      RankCurrent after := by
  obtain ⟨hand, hhand⟩ := hfilled.contents
  obtain ⟨rank, hrank⟩ := determineRank_returns hand
  have hcontents : determineRank (heap.contents array) = .ok rank := by
    rw [hhand, hrank]
  have hview : ∀ rank', (⟨heap.cards, heap.arrays, some array, rank'⟩ :
      Heap).view = some (heap.contents array) := fun _ => rfl
  refine ⟨⟨heap.cards, heap.arrays, some array, rank⟩, ?_,
    heap.contents array, hview rank, hcontents⟩
  simp [setCards, hview, deref, hcontents]

/-! ## Writing -/

/-- The card is in the array of the hand. -/
def Heap.Holds (heap : Heap) (card : ℕ) : Prop :=
  ∃ array, heap.handCards = some array ∧ some card ∈ heap.arrays array

/-- The operation assesses cards, or it changes no value and no suit in the
array of the hand: it writes elsewhere, or what is there already. -/
def Operation.Harmless (heap : Heap) : Operation → Prop
  | .setCards array => ∃ filled, array = some filled ∧ heap.Filled filled
  | .setValue card value => heap.Holds card → (heap.cards card).value = value
  | .setSuit card suit => heap.Holds card → (heap.cards card).suit = suit
  | .setElement array index card => heap.handCards = some array →
      ∀ slot, (heap.arrays array)[index]? = some slot →
        card.map heap.cards = slot.map heap.cards

def AllHarmless (heap : Heap) : List Operation → Prop
  | [] => True
  | operation :: rest =>
      operation.Harmless heap ∧ AllHarmless (operation.perform.after heap) rest

theorem RankCurrent.of_view
    {heap after : Heap} (hcurrent : RankCurrent heap)
    (hview : after.view = heap.view) (hrank : after.rank = heap.rank) :
    RankCurrent after := by
  obtain ⟨cards, hcards, hassessed⟩ := hcurrent
  exact ⟨cards, by rw [hview, hcards], by rw [hrank, hassessed]⟩

theorem RankCurrent.changeCard
    {heap : Heap} (hcurrent : RankCurrent heap) {card : ℕ}
    {change : Card → Card}
    (hsame : heap.Holds card → change (heap.cards card) = heap.cards card) :
    RankCurrent ((changeCard card change).after heap) := by
  have hafter : (Hand.changeCard card change).after heap =
      heap.withCard card (change (heap.cards card)) := rfl
  rw [hafter]
  refine hcurrent.of_view ?_ rfl
  obtain ⟨cards, hcards, -⟩ := hcurrent
  obtain ⟨array, harray, -⟩ := Option.map_eq_some_iff.mp hcards
  have hcontents : (heap.withCard card (change (heap.cards card))).contents
      array = heap.contents array := by
    apply List.map_congr_left
    intro slot hslot
    cases slot with
    | none => rfl
    | some other =>
        by_cases hother : other = card
        · subst other
          simp [Heap.withCard, hsame ⟨array, harray, hslot⟩]
        · simp [Heap.withCard, hother]
  change heap.handCards.map _ = heap.handCards.map _
  rw [harray, Option.map_some, Option.map_some, hcontents]

theorem RankCurrent.setElement
    {heap : Heap} (hcurrent : RankCurrent heap) {array index : ℕ}
    {card : Option ℕ}
    (hsame : heap.handCards = some array →
      ∀ slot, (heap.arrays array)[index]? = some slot →
        card.map heap.cards = slot.map heap.cards) :
    RankCurrent ((setElement array index card).after heap) := by
  by_cases hindex : index < (heap.arrays array).length
  · have hafter : (Hand.setElement array index card).after heap =
        heap.withArray array ((heap.arrays array).set index card) := by
      simp [Hand.setElement, Method.after, arraySet, hindex]
    rw [hafter]
    refine hcurrent.of_view ?_ rfl
    obtain ⟨cards, hcards, -⟩ := hcurrent
    obtain ⟨held, hheld, -⟩ := Option.map_eq_some_iff.mp hcards
    simp only [Heap.view, Heap.withArray, hheld, Option.map_some,
      Heap.contents, Option.some.injEq]
    by_cases hother : held = array
    · subst held
      have hslot := hsame hheld _ (List.getElem?_eq_getElem hindex)
      rw [Function.update_self, List.map_set, hslot, ← List.map_set,
        List.set_getElem_self]
    · rw [Function.update_of_ne hother]
  · have hafter : (Hand.setElement array index card).after heap = heap := by
      simp [Hand.setElement, Method.after, arraySet, hindex]
    rw [hafter]
    exact hcurrent

theorem RankCurrent.step
    {heap : Heap} (hcurrent : RankCurrent heap) {operation : Operation}
    (hharmless : operation.Harmless heap) :
    RankCurrent (operation.perform.after heap) := by
  cases operation with
  | setCards array =>
      obtain ⟨filled, rfl, hfilled⟩ := hharmless
      obtain ⟨after, hrun, hafter⟩ := setCards_run hfilled
      rw [Operation.perform, Method.after_eq_of_ok hrun]
      exact hafter
  | setValue card value =>
      simp only [Operation.perform, Hand.setValue]
      apply hcurrent.changeCard
      intro hholds
      rw [← hharmless hholds]
  | setSuit card suit =>
      simp only [Operation.perform, Hand.setSuit]
      apply hcurrent.changeCard
      intro hholds
      rw [← hharmless hholds]
  | setElement array index card => exact hcurrent.setElement hharmless

theorem RankCurrent.run
    {heap : Heap} (hcurrent : RankCurrent heap) {operations : List Operation}
    (hharmless : AllHarmless heap operations) :
    RankCurrent (heap.run operations) := by
  induction operations generalizing heap with
  | nil => exact hcurrent
  | cons operation rest ih => exact ih (hcurrent.step hharmless.1) hharmless.2

/-- From the construction with any cards on, the stored rank stays that of the
current cards in every run whose operations are harmless. -/
theorem rank_current_run
    (heap : Heap) (array : ℕ) (hfilled : heap.Filled array) :
    ∃ hand, (newHand (some array)).run heap = .ok () hand ∧
      ∀ operations, AllHarmless hand operations →
        RankCurrent (hand.run operations) := by
  obtain ⟨hand, hrun, hcurrent⟩ := setCards_run hfilled
  exact ⟨hand, hrun, fun operations hharmless => hcurrent.run hharmless⟩

/-- Two aces in array 0; array 1 has the cards 5 to 9. -/
def pairHeap : Heap where
  cards
    | 0 => ⟨Card.aceHigh, Card.hearts⟩
    | 1 => ⟨Card.aceHigh, Card.spades⟩
    | n => ⟨Int8.ofNat n, Card.clubs⟩
  arrays
    | 0 => [some 0, some 1, some 2, some 5, some 9]
    | _ => [some 5, some 6, some 7, some 8, some 9]
  handCards := none
  rank := .highCard

theorem pairHeap_filled (array : ℕ) : pairHeap.Filled array := by
  unfold Heap.Filled pairHeap
  cases array with
  | zero => simp
  | succ n => simp

def pairHand : Heap :=
  { pairHeap with handCards := some 0, rank := .onePair }

theorem newHand_pairHeap :
    (newHand (some 0)).run pairHeap = .ok () pairHand := by
  have hrank : determineRank (pairHeap.contents 0) = .ok .onePair := by
    decide
  have hview : ({ pairHeap with handCards := some 0 } : Heap).view =
      some (pairHeap.contents 0) := rfl
  simp only [newHand, setCards, EStateM.run_bind, run_assign, run_fields,
    hview, deref, run_call_ok, hrank]
  rfl

theorem rank_current_after_setCards :
    RankCurrent (pairHand.run [.setCards (some 1), .setValue 0 Card.king]) := by
  obtain ⟨hand, hrun, hcurrent⟩ :=
    rank_current_run pairHeap 0 (pairHeap_filled 0)
  rw [newHand_pairHeap] at hrun
  cases hrun
  apply hcurrent
  refine ⟨⟨1, rfl, pairHeap_filled 1⟩, ?_, trivial⟩
  intro hholds
  obtain ⟨array, harray, hmem⟩ := hholds
  have hone : ((Operation.setCards (some 1)).perform.after pairHand).handCards =
      some 1 := by
    decide
  rw [hone, Option.some.injEq] at harray
  subst array
  exact absurd hmem (by decide)

/-- The rank stays a pair when one of the two aces becomes a king. -/
theorem rank_stale_after_setValue :
    (newHand (some 0)).run pairHeap = .ok () pairHand ∧
      (pairHand.run [.setValue 0 Card.king]).rank = .onePair ∧
      ¬ RankCurrent (pairHand.run [.setValue 0 Card.king]) := by
  refine ⟨newHand_pairHeap, rfl, ?_⟩
  intro hcurrent
  obtain ⟨cards, hcards, hrank⟩ := hcurrent
  have hview : (pairHand.run [.setValue 0 Card.king]).view =
      some [some ⟨Card.king, Card.hearts⟩, some ⟨Card.aceHigh, Card.spades⟩,
        some ⟨2, Card.clubs⟩, some ⟨5, Card.clubs⟩, some ⟨9, Card.clubs⟩] := by
    decide
  rw [hview, Option.some.injEq] at hcards
  subst cards
  revert hrank
  decide

end Hand
end HighRollers
