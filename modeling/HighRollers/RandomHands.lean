import HighRollers.HandPredicates
import HighRollers.Shuffle

/-!
# Random hands

`Hand_test.java` makes hands of every kind to try the predicates of `Hand` on.
Nine of its methods start with five random cards and then assign values or
suits, eight of them through a shuffled array of positions.  The shuffle only
decides where the cards end up: each method makes a fixed pattern of five
cards, in some order.
-/

namespace HighRollers

def Card.withValue (card : Card) (value : Int8) : Card :=
  { card with value := value }

def Card.withSuit (card : Card) (suit : Int8) : Card :=
  { card with suit := suit }

namespace HandTest

open Java
open Hand

/-! ## The methods -/

/-- What `ThreadLocalRandom` yields during one call: the value and the suit of
the `c`-th card, the slot drawn in the `i`-th step of the shuffle, and the
number by which the start of a straight is reduced. -/
structure Draws where
  value : ℕ → ℤ
  suit : ℕ → ℤ
  slot : ℕ → ℕ
  reduction : ℤ
  value_within : ∀ c, 1 ≤ value c ∧ value c < 14
  suit_within : ∀ c, 0 ≤ suit c ∧ suit c < 4
  slot_within : DrawsWithin 5 slot
  reduction_within : 1 ≤ reduction ∧ reduction < 11

def randomValue (draws : Draws) (c : ℕ) : Int8 :=
  Int8.ofInt (draws.value c)

def randomSuit (draws : Draws) (c : ℕ) : Int8 :=
  Int8.ofInt (draws.suit c)

def randomCard (draws : Draws) (c : ℕ) : Card :=
  ⟨randomValue draws c, randomSuit draws c⟩

/-- The array `testHand`, populated with random cards. -/
def randomCards (draws : Draws) : Run CardArray :=
  populate (List.replicate 5 none) fun c => some (randomCard draws c)

/-- The array `Index` after the shuffle. -/
def shuffledIndex (draws : Draws) : Run (List ℕ) := do
  let index ← populate (List.replicate 5 0) fun c => c
  durstenfeld index draws.slot

/-- `testHand[Index[c]].value`. -/
def valueAt (testHand : CardArray) (index : List ℕ) (c : ℕ) : Run Int8 := do
  let position ← arrayGet index c
  let card ← element testHand position
  return card.value

def setValueAt (testHand : CardArray) (index : List ℕ) (c : ℕ)
    (value : Int8) : Run CardArray := do
  let position ← arrayGet index c
  let card ← element testHand position
  arrayPut testHand position (some (card.withValue value))

/-- A chain of assignments of the value at `source`; the rightmost target, the
first of the list, comes first. -/
def copyValue (testHand : CardArray) (index : List ℕ) (source : ℕ)
    (targets : List ℕ) : Run CardArray := do
  let value ← valueAt testHand index source
  targets.foldlM (fun current target => setValueAt current index target value)
    testHand

/-- `if(testHand[Index[2]].value == testHand[Index[0]].value)
testHand[Index[2]].value++;` -/
def separateThird (testHand : CardArray) (index : List ℕ) :
    Run CardArray := do
  let third ← valueAt testHand index 2
  let first ← valueAt testHand index 0
  if third = first then setValueAt testHand index 2 (third + 1)
  else return testHand

/-- The start of a straight is reduced if it is greater than 10. -/
def reduceFirst (testHand : CardArray) (index : List ℕ) (reduction : ℤ) :
    Run CardArray := do
  let first ← valueAt testHand index 0
  if first > 10 then
    setValueAt testHand index 0 (first - Int8.ofInt reduction)
  else return testHand

/-- Each card becomes one more than the one before it in the index. -/
def countUp (testHand : CardArray) (index : List ℕ) : Run CardArray :=
  afterLoop
    (forRange 1 index.length testHand fun c current =>
      assign do
        let previous ← valueAt current index (c - 1)
        setValueAt current index c (previous + 1))
    fun testHand => .ok testHand

/-- All suits are changed to that of the first card. -/
def matchSuits (testHand : CardArray) : Run CardArray :=
  afterLoop
    (forRange 1 testHand.length testHand fun c current =>
      assign do
        let card ← element current c
        let first ← element current 0
        arrayPut current c (some (card.withSuit first.suit)))
    fun testHand => .ok testHand

section Generators

variable (draws : Draws)

def randomFiveOfAKind : Run CardArray := do
  let testHand ← randomCards draws
  let index ← shuffledIndex draws
  copyValue testHand index 0 [1, 2, 3, 4]

def randomFourOfAKind : Run CardArray := do
  let testHand ← randomCards draws
  let index ← shuffledIndex draws
  copyValue testHand index 0 [1, 2, 3]

def randomFullHouse : Run CardArray := do
  let testHand ← randomCards draws
  let index ← shuffledIndex draws
  let testHand ← copyValue testHand index 0 [1]
  let testHand ← separateThird testHand index
  copyValue testHand index 2 [3, 4]

def randomFlush : Run CardArray := do
  let testHand ← randomCards draws
  matchSuits testHand

def randomStraight : Run CardArray := do
  let testHand ← randomCards draws
  let index ← shuffledIndex draws
  let testHand ← reduceFirst testHand index draws.reduction
  countUp testHand index

def randomStraightFlush : Run CardArray := do
  let testHand ← randomStraight draws
  matchSuits testHand

def randomThreeOfAKind : Run CardArray := do
  let testHand ← randomCards draws
  let index ← shuffledIndex draws
  copyValue testHand index 0 [1, 2]

def randomTwoPair : Run CardArray := do
  let testHand ← randomCards draws
  let index ← shuffledIndex draws
  let testHand ← copyValue testHand index 0 [1]
  let testHand ← separateThird testHand index
  copyValue testHand index 2 [3]

def randomOnePair : Run CardArray := do
  let testHand ← randomCards draws
  let index ← shuffledIndex draws
  copyValue testHand index 0 [1]

end Generators

/-- The kinds of hands which `PokerTest` generates and tries. -/
inductive Kind
  | fiveOfAKind
  | straightFlush
  | fourOfAKind
  | fullHouse
  | flush
  | straight
  | threeOfAKind
  | twoPair
  | onePair
  deriving DecidableEq, Repr

def Kind.generate (draws : Draws) : Kind → Run CardArray
  | .fiveOfAKind => randomFiveOfAKind draws
  | .straightFlush => randomStraightFlush draws
  | .fourOfAKind => randomFourOfAKind draws
  | .fullHouse => randomFullHouse draws
  | .flush => randomFlush draws
  | .straight => randomStraight draws
  | .threeOfAKind => randomThreeOfAKind draws
  | .twoPair => randomTwoPair draws
  | .onePair => randomOnePair draws

def Kind.predicate : Kind → CardArray → Run Bool
  | .fiveOfAKind => isFiveOfAKind
  | .straightFlush => isStraightFlush
  | .fourOfAKind => isFourOfAKind
  | .fullHouse => isFullHouse
  | .flush => isFlush
  | .straight => isStraight
  | .threeOfAKind => isThreeOfAKind
  | .twoPair => isTwoPair
  | .onePair => isOnePair

/-! ## Cards along the index -/

section Access

variable {index : List ℕ} {cards view : List Card}

/-- The code returns an array of cards which are those of `view` in the order
of the index. -/
def Deals (code : Run CardArray) (index : List ℕ) (view : List Card) :
    Prop :=
  ∃ cards : List Card, code = .ok (cards.map some) ∧
    Arranged index cards view

theorem Deals.ret (harranged : Arranged index cards view) :
    Deals (.ok (cards.map some)) index view :=
  ⟨cards, rfl, harranged⟩

theorem Deals.bind
    {code : Run CardArray} {rest : CardArray → Run CardArray}
    {view' : List Card} (hcode : Deals code index view)
    (hrest : ∀ cards, Arranged index cards view →
      Deals (rest (cards.map some)) index view') :
    Deals (code >>= rest) index view' := by
  rcases hcode with ⟨cards, rfl, harranged⟩
  exact hrest cards harranged

theorem Deals.exists_perm
    {code : Run CardArray} (hcode : Deals code index view) :
    ∃ hand : List Card, code = .ok (hand.map some) ∧ hand.Perm view := by
  rcases hcode with ⟨cards, hrun, harranged⟩
  exact ⟨cards, hrun, harranged.view_perm.symm⟩

theorem valueAt_eq
    (harranged : Arranged index cards view) {c : ℕ} {card : Card}
    (hcard : view[c]? = some card) :
    valueAt (cards.map some) index c = .ok card.value := by
  obtain ⟨i, hi, hcards⟩ := harranged.exists_position hcard
  obtain ⟨hc, rfl⟩ := List.getElem?_eq_some_iff.mp hi
  obtain ⟨hlt, rfl⟩ := List.getElem?_eq_some_iff.mp hcards
  simp [valueAt, arrayGet_natCast_of_lt hc, element_map_some hlt]

theorem setValueAt_deals
    (harranged : Arranged index cards view) {c : ℕ} (hc : c < view.length)
    (value : Int8) :
    Deals (setValueAt (cards.map some) index c value) index
      (view.modify c (·.withValue value)) := by
  obtain ⟨i, hi, hcards⟩ :=
    harranged.exists_position (List.getElem?_eq_getElem hc)
  obtain ⟨hindex, heq⟩ := List.getElem?_eq_some_iff.mp hi
  obtain ⟨hlt, hcard⟩ := List.getElem?_eq_some_iff.mp hcards
  have hslot : i < (cards.map some).length := by simpa using hlt
  refine ⟨cards.modify i (·.withValue value), ?_, harranged.modify hi _⟩
  simp only [setValueAt, arrayGet_natCast_of_lt hindex, heq, ok_bind,
    element_map_some hlt, arrayPut_natCast_of_lt hslot,
    ← set_map_some_getElem hlt]

theorem copyValue_deals
    (harranged : Arranged index cards view) {source : ℕ} {card : Card}
    (hsource : view[source]? = some card) {targets : List ℕ}
    (htargets : ∀ target ∈ targets, target < view.length) :
    Deals (copyValue (cards.map some) index source targets) index
      (targets.foldl (fun current target =>
        current.modify target (·.withValue card.value)) view) := by
  simp only [copyValue, valueAt_eq harranged hsource, ok_bind]
  -- The value has been read; the source may change with the view from here on.
  clear hsource
  induction targets generalizing cards view with
  | nil => exact .ret harranged
  | cons target rest ih =>
      rw [List.foldlM_cons]
      apply (setValueAt_deals harranged (htargets target (by simp)) _).bind
      intro cards' harranged'
      apply ih harranged'
      intro other hother
      rw [List.length_modify]
      exact htargets other (List.mem_cons_of_mem target hother)

/-- The value of the second set, which differs from that of the first. -/
def otherValue (first third : Card) : Int8 :=
  if third.value = first.value then third.value + 1 else third.value

theorem separateThird_deals
    {first second third : Card} {rest : List Card}
    (harranged : Arranged index cards (first :: second :: third :: rest)) :
    Deals (separateThird (cards.map some) index) index
      (first :: second :: third.withValue (otherValue first third) ::
        rest) := by
  have hthird : (first :: second :: third :: rest)[2]? = some third := rfl
  have hfirst : (first :: second :: third :: rest)[0]? = some first := rfl
  simp only [separateThird, valueAt_eq harranged hthird,
    valueAt_eq harranged hfirst, ok_bind, otherValue]
  by_cases hsame : third.value = first.value
  · rw [if_pos hsame, if_pos hsame]
    exact setValueAt_deals harranged (by simp) _
  · rw [if_neg hsame, if_neg hsame]
    exact .ret harranged

/-- The value at which a straight starts. -/
def startValue (reduction : ℤ) (first : Card) : Int8 :=
  if first.value > 10 then first.value - Int8.ofInt reduction
  else first.value

theorem reduceFirst_deals
    {first : Card} {rest : List Card}
    (harranged : Arranged index cards (first :: rest)) (reduction : ℤ) :
    Deals (reduceFirst (cards.map some) index reduction) index
      (first.withValue (startValue reduction first) :: rest) := by
  have hfirst : (first :: rest)[0]? = some first := rfl
  simp only [reduceFirst, valueAt_eq harranged hfirst, ok_bind, startValue]
  by_cases hgreat : first.value > 10
  · rw [if_pos hgreat, if_pos hgreat]
    exact setValueAt_deals harranged (by simp) _
  · rw [if_neg hgreat, if_neg hgreat]
    exact .ret harranged

/-- A loop whose iterations turn one view into the next. -/
theorem forRange_deals
    {lo hi : ℕ} {body : ℕ → CardArray → Run CardArray}
    (views : ℕ → List Card) (hle : lo ≤ hi)
    (hinit : Arranged index cards (views lo))
    (hstep : ∀ c cards, lo ≤ c → c < hi → Arranged index cards (views c) →
      Deals (body c (cards.map some)) index (views (c + 1))) :
    Deals
      (afterLoop
        (forRange lo hi (cards.map some) fun c current =>
          assign (body c current))
        fun testHand => .ok testHand) index (views hi) := by
  have hbody : ∀ c testHand, lo ≤ c → c < hi →
      (∃ cards : List Card, testHand = cards.map some ∧
        Arranged index cards (views c)) →
          Returns (body c testHand) fun next => ∃ cards : List Card,
            next = cards.map some ∧ Arranged index cards (views (c + 1)) := by
    intro c testHand hlo hhi hinv
    rcases hinv with ⟨cards', rfl, harranged⟩
    obtain ⟨next, hnext, hview⟩ := hstep c cards' hlo hhi harranged
    exact ⟨next.map some, hnext, next, rfl, hview⟩
  obtain ⟨testHand, hrun, final, rfl, hfinal⟩ := forRange_assign_rule
    (fun c testHand => ∃ cards : List Card, testHand = cards.map some ∧
      Arranged index cards (views c)) hle ⟨cards, rfl, hinit⟩ hbody
  exact ⟨final, hrun, hfinal⟩

def countedValue (start : Int8) (i : ℕ) (card : Card) : Card :=
  card.withValue (start + Int8.ofNat i)

theorem countUp_step
    {start : Int8} {k : ℕ} (hk : k + 1 < view.length)
    (harranged : Arranged index cards
      (updatedUpTo (countedValue start) (k + 1) view)) :
    Deals
      (do
        let previous ← valueAt (cards.map some) index k
        setValueAt (cards.map some) index (k + 1) (previous + 1))
      index (updatedUpTo (countedValue start) (k + 1 + 1) view) := by
  have hprevious : (updatedUpTo (countedValue start) (k + 1) view)[k]? =
      some (countedValue start k view[k]) := by
    rw [updatedUpTo_getElem?, List.getElem?_eq_getElem (by omega)]
    simp
  have hvalue : start + Int8.ofNat k + 1 = start + Int8.ofNat (k + 1) := by
    rw [Int8.ofNat_add, Int8.add_assoc]
    rfl
  rw [valueAt_eq harranged hprevious, ok_bind, updatedUpTo_succ]
  simp only [countedValue, Card.withValue, hvalue]
  exact setValueAt_deals harranged (by simpa using hk) _

theorem countUp_deals
    {first : Card} {rest : List Card}
    (harranged : Arranged index cards (first :: rest)) :
    Deals (countUp (cards.map some) index) index
      ((first :: rest).mapIdx (countedValue first.value)) := by
  unfold countUp
  rw [harranged.length_eq, ← updatedUpTo_length]
  apply forRange_deals fun c =>
    updatedUpTo (countedValue first.value) c (first :: rest)
  · simp
  · have hfirst : countedValue first.value 0 first = first := by
      simp [countedValue, Card.withValue]
    rwa [updatedUpTo_one hfirst]
  · intro c cards' hone hc harranged'
    obtain ⟨k, rfl⟩ := Nat.exists_eq_add_of_le' hone
    exact countUp_step hc harranged'

end Access

def matchedSuit (suit : Int8) (_ : ℕ) (card : Card) : Card :=
  card.withSuit suit

theorem matchSuits_step
    {cards : List Card} {first : Card} (hfirst : cards[0]? = some first)
    {c : ℕ} (hc : c < cards.length) :
    (do
      let card ← element (cards.map some) c
      let first ← element (cards.map some) 0
      arrayPut (cards.map some) c (some (card.withSuit first.suit))) =
        .ok ((cards.modify c (·.withSuit first.suit)).map some) := by
  have hslot : c < (cards.map some).length := by simpa using hc
  have hlead : element (cards.map some) 0 = .ok first := by
    obtain ⟨hlt, rfl⟩ := List.getElem?_eq_some_iff.mp hfirst
    exact element_map_some hlt
  rw [element_map_some hc, hlead, ok_bind, ok_bind,
    arrayPut_natCast_of_lt hslot, ← set_map_some_getElem hc]

theorem matchSuits_eq (first : Card) (rest : List Card) :
    matchSuits ((first :: rest).map some) =
      .ok (((first :: rest).map (·.withSuit first.suit)).map some) := by
  unfold matchSuits
  rw [List.length_map]
  apply forRange_assign_eq fun c =>
    (updatedUpTo (matchedSuit first.suit) c (first :: rest)).map some
  · simp
  · rw [updatedUpTo_one rfl]
  · rw [updatedUpTo_length]
    apply List.ext_getElem?
    intro i
    simp only [List.getElem?_map, List.getElem?_mapIdx]
    rfl
  · intro c hone hc
    have hfirst : (updatedUpTo (matchedSuit first.suit) c
        (first :: rest))[0]? = some (first.withSuit first.suit) := by
      rw [updatedUpTo_getElem?]
      simp [matchedSuit, Nat.pos_of_ne_zero (by omega : c ≠ 0)]
    rw [matchSuits_step hfirst (by simpa using hc), updatedUpTo_succ]
    rfl

theorem matchSuits_perm
    {hand view : List Card} (hperm : hand.Perm view) (hnonempty : hand ≠ []) :
    ∃ suit ∈ view.map Card.suit,
      matchSuits (hand.map some) =
          .ok ((hand.map (·.withSuit suit)).map some) ∧
        (hand.map (·.withSuit suit)).Perm (view.map (·.withSuit suit)) := by
  obtain ⟨first, rest, rfl⟩ := List.exists_cons_of_ne_nil hnonempty
  have hfirst : first ∈ view := hperm.subset (by simp)
  exact ⟨first.suit, List.mem_map_of_mem hfirst, matchSuits_eq first rest,
    hperm.map _⟩

/-! ## What each method makes -/

/-- The hands which the methods are to make, from five cards in the order of
the index, up to the order of the cards. -/
def Kind.pattern (suit : Int8) (reduction : ℤ) (a b c d e : Card) :
    Kind → List Card
  | .fiveOfAKind =>
      [a, b.withValue a.value, c.withValue a.value, d.withValue a.value,
        e.withValue a.value]
  | .straightFlush =>
      (([a, b, c, d, e].mapIdx (countedValue (startValue reduction a))).map
        (·.withSuit suit))
  | .fourOfAKind =>
      [a, b.withValue a.value, c.withValue a.value, d.withValue a.value, e]
  | .fullHouse =>
      [a, b.withValue a.value, c.withValue (otherValue a c),
        d.withValue (otherValue a c), e.withValue (otherValue a c)]
  | .flush => [a, b, c, d, e].map (·.withSuit suit)
  | .straight =>
      [a, b, c, d, e].mapIdx (countedValue (startValue reduction a))
  | .threeOfAKind => [a, b.withValue a.value, c.withValue a.value, d, e]
  | .twoPair =>
      [a, b.withValue a.value, c.withValue (otherValue a c),
        d.withValue (otherValue a c), e]
  | .onePair => [a, b.withValue a.value, c, d, e]

def drawnCards (draws : Draws) : List Card :=
  (List.range 5).map (randomCard draws)

theorem randomCards_eq (draws : Draws) :
    randomCards draws = .ok ((drawnCards draws).map some) := by
  rw [randomCards, populate_eq_ok]
  simp [drawnCards]

theorem shuffledIndex_spec (draws : Draws) :
    Returns (shuffledIndex draws) fun index =>
      index.Perm (List.range 5) ∧ index[0]? = some (draws.slot 0) := by
  have hpositions : (List.range 5).map (fun c => c) = List.range 5 := by simp
  have hwithin : DrawsWithin (List.range 5).length draws.slot := by
    simpa using draws.slot_within
  obtain ⟨index, hrun, hperm, hfirst⟩ := durstenfeld_spec hwithin
  refine ⟨index, ?_, hperm, ?_⟩
  · rw [shuffledIndex, populate_eq_ok, List.length_replicate, hpositions,
      ok_bind, hrun]
  · have hslot := (draws.slot_within 0 (by omega)).2
    rw [hfirst (by simp), List.getElem?_range hslot]

/-- The cards drawn, in the order of the shuffled index. -/
structure Start (draws : Draws) (index : List ℕ) (a b c d e : Card) :
    Prop where
  run : shuffledIndex draws = .ok index
  arranged : Arranged index (drawnCards draws) [a, b, c, d, e]
  first : a = randomCard draws (draws.slot 0)

theorem exists_start (draws : Draws) :
    ∃ index a b c d e, Start draws index a b c d e := by
  obtain ⟨index, hrun, hperm, hfirst⟩ := shuffledIndex_spec draws
  have hlength : (drawnCards draws).length = 5 := by simp [drawnCards]
  have hpositions : index.Perm (List.range (drawnCards draws).length) := by
    rwa [hlength]
  obtain ⟨view, harranged⟩ := exists_arranged hpositions
  have hview : view.length = 5 := by
    rw [← hlength, harranged.view_perm.length_eq]
  have hslot := (draws.slot_within 0 (by omega)).2
  have hhead := harranged.getElem?_of_index hfirst
  simp only [drawnCards, List.getElem?_map, List.getElem?_range hslot,
    Option.map_some] at hhead
  match view, hview with
  | [a, b, c, d, e], _ =>
      exact ⟨index, a, b, c, d, e, hrun, harranged,
        (Option.some.inj hhead).symm⟩

section Makes

variable {draws : Draws} {index : List ℕ} {a b c d e : Card}

/-- The common part of the methods with an index. -/
theorem Start.deals
    (hstart : Start draws index a b c d e)
    {rest : CardArray → List ℕ → Run CardArray} {view : List Card}
    (hrest : ∀ cards, Arranged index cards [a, b, c, d, e] →
      Deals (rest (cards.map some) index) index view) :
    Deals
      (do
        let testHand ← randomCards draws
        let index ← shuffledIndex draws
        rest testHand index) index view := by
  rw [randomCards_eq, ok_bind, hstart.run, ok_bind]
  exact hrest _ hstart.arranged

theorem Start.copied
    (hstart : Start draws index a b c d e) {targets : List ℕ}
    (htargets : ∀ target ∈ targets, target < 5) :
    Deals
      (do
        let testHand ← randomCards draws
        let index ← shuffledIndex draws
        copyValue testHand index 0 targets) index
      (targets.foldl (fun current target =>
        current.modify target (·.withValue a.value)) [a, b, c, d, e]) :=
  hstart.deals fun _ harranged => copyValue_deals harranged rfl htargets

/-- The pair and the cards to be matched with the third one. -/
theorem Start.paired
    (hstart : Start draws index a b c d e) {targets : List ℕ}
    (htargets : ∀ target ∈ targets, target < 5) :
    Deals
      (do
        let testHand ← randomCards draws
        let index ← shuffledIndex draws
        let testHand ← copyValue testHand index 0 [1]
        let testHand ← separateThird testHand index
        copyValue testHand index 2 targets) index
      (targets.foldl (fun current target =>
        current.modify target (·.withValue (otherValue a c)))
        [a, b.withValue a.value, c.withValue (otherValue a c), d, e]) := by
  apply hstart.deals
  intro cards harranged
  apply (copyValue_deals harranged rfl (by simp)).bind
  intro cards harranged
  apply (separateThird_deals harranged).bind
  intro cards harranged
  have hthird : [a, b.withValue a.value, c.withValue (otherValue a c), d,
      e][2]? = some (c.withValue (otherValue a c)) := rfl
  exact copyValue_deals harranged hthird htargets

theorem Start.straight (hstart : Start draws index a b c d e) :
    Deals (randomStraight draws) index
      ([a, b, c, d, e].mapIdx
        (countedValue (startValue draws.reduction a))) := by
  unfold randomStraight
  apply hstart.deals
  intro cards harranged
  apply (reduceFirst_deals harranged draws.reduction).bind
  intro cards harranged
  have hcounted := countUp_deals harranged
  simpa [List.mapIdx_cons, countedValue, Card.withValue] using hcounted

/-- Every method makes its pattern, in some order of the cards. -/
theorem Start.generate_perm
    (hstart : Start draws index a b c d e) (kind : Kind) :
    ∃ suit ∈ [a, b, c, d, e].map Card.suit, ∃ hand : List Card,
      kind.generate draws = .ok (hand.map some) ∧
        hand.Perm (kind.pattern suit draws.reduction a b c d e) := by
  have hlead : a.suit ∈ [a, b, c, d, e].map Card.suit := by simp
  cases kind with
  | fiveOfAKind =>
      exact ⟨a.suit, hlead,
        (hstart.copied (by decide : ∀ t ∈ [1, 2, 3, 4], t < 5)).exists_perm⟩
  | straightFlush =>
      obtain ⟨cards, hrun, hperm⟩ := hstart.straight.exists_perm
      have hnonempty : cards ≠ [] := by
        intro hnil
        subst cards
        simpa using hperm.length_eq
      obtain ⟨suit, hsuit, hmatch, hpattern⟩ :=
        matchSuits_perm hperm hnonempty
      refine ⟨suit, ?_, cards.map (·.withSuit suit), ?_, hpattern⟩
      · simpa [List.mapIdx_cons, countedValue, Card.withValue] using hsuit
      · simp only [Kind.generate, randomStraightFlush, hrun, ok_bind, hmatch]
  | fourOfAKind =>
      exact ⟨a.suit, hlead,
        (hstart.copied (by decide : ∀ t ∈ [1, 2, 3], t < 5)).exists_perm⟩
  | fullHouse =>
      exact ⟨a.suit, hlead,
        (hstart.paired (by decide : ∀ t ∈ [3, 4], t < 5)).exists_perm⟩
  | flush =>
      have hnonempty : drawnCards draws ≠ [] := by simp [drawnCards]
      obtain ⟨suit, hsuit, hmatch, hpattern⟩ :=
        matchSuits_perm hstart.arranged.view_perm.symm hnonempty
      refine ⟨suit, hsuit, _, ?_, hpattern⟩
      simp only [Kind.generate, randomFlush, randomCards_eq, ok_bind, hmatch]
  | straight => exact ⟨a.suit, hlead, hstart.straight.exists_perm⟩
  | threeOfAKind =>
      exact ⟨a.suit, hlead,
        (hstart.copied (by decide : ∀ t ∈ [1, 2], t < 5)).exists_perm⟩
  | twoPair =>
      exact ⟨a.suit, hlead,
        (hstart.paired (by decide : ∀ t ∈ [3], t < 5)).exists_perm⟩
  | onePair =>
      exact ⟨a.suit, hlead,
        (hstart.copied (by decide : ∀ t ∈ [1], t < 5)).exists_perm⟩

end Makes

end HandTest
end HighRollers
