import HighRollers.Card
import HighRollers.ListPatterns

/-!
# The inclusive predicates of a hand

`Hand.java` classifies any array of cards by nested index loops.  The
predicates are inclusive: a hand may satisfy several of them.  Below, each
method is embedded loop by loop and is then shown to decide its pattern on the
list of values or suits, for arrays of every length and without any access out
of range.
-/

namespace HighRollers
namespace Hand

open Java
open ListPattern

/-! ## The methods -/

def sameValue (hand : CardArray) (a b : ℤ) : Run Bool := do
  let first ← element hand a
  let second ← element hand b
  return first.value = second.value

def sameSuit (hand : CardArray) (a b : ℤ) : Run Bool := do
  let first ← element hand a
  let second ← element hand b
  return first.suit = second.suit

def isFiveOfAKind (hand : CardArray) : Run Bool :=
  afterLoop
    (forRange 0 hand.length () fun c _ =>
      forRange (c + 1) hand.length () fun i _ =>
        forRange (i + 1) hand.length () fun j _ =>
          forRange (j + 1) hand.length () fun k _ =>
            forRange (k + 1) hand.length () fun l _ =>
              returnWhen
                (andAlso (sameValue hand c i) (andAlso (sameValue hand i j)
                  (andAlso (sameValue hand j k) (sameValue hand k l))))
                true ())
    fun _ => .ok false

def isFourOfAKind (hand : CardArray) : Run Bool :=
  afterLoop
    (forRange 0 hand.length () fun c _ =>
      forRange (c + 1) hand.length () fun i _ =>
        forRange (i + 1) hand.length () fun j _ =>
          forRange (j + 1) hand.length () fun k _ =>
            returnWhen
              (andAlso (sameValue hand c i) (andAlso (sameValue hand i j)
                (sameValue hand j k)))
              true ())
    fun _ => .ok false

/-- The locals of `isFullHouse` while it looks for three equal cards. -/
structure ThreeScan where
  threeFound : Bool
  setThree : ℤ × ℤ × ℤ
  deriving DecidableEq, Repr

/-- The first part of `isFullHouse`: three guarded loops which stop at the
first set of three. -/
def threeScan (hand : CardArray) : Run (Completion Bool ThreeScan) :=
  forWhile 0 hand.length (fun scan => !scan.threeFound)
    (ThreeScan.mk false (-1, -1, -1)) fun c scan =>
    forWhile (c + 1) hand.length (fun scan => !scan.threeFound) scan
      fun i scan =>
      forWhile (i + 1) hand.length (fun scan => !scan.threeFound) scan
        fun j scan =>
        assign do
          if ← andAlso (sameValue hand c i) (sameValue hand i j) then
            return ⟨true, (c, i, j)⟩
          else
            return scan

/-- The second part of `isFullHouse`: a pair which differs from the set. -/
def otherPair (hand : CardArray) (scan : ThreeScan) : Run Bool :=
  afterLoop
    (forRange 0 hand.length () fun c _ =>
      forRange (c + 1) hand.length () fun i _ =>
        returnWhen
          (andAlso (sameValue hand c i)
            ((sameValue hand c scan.setThree.1).map (!·)))
          scan.threeFound ())
    fun _ => .ok false

def isFullHouse (hand : CardArray) : Run Bool :=
  afterLoop (threeScan hand) fun scan =>
    if !scan.threeFound then .ok false else otherPair hand scan

def isFlush (hand : CardArray) : Run Bool :=
  afterLoop
    (forRange 1 hand.length true fun c isFlush =>
      assign (andAlso (.ok isFlush) (sameSuit hand c 0)))
    fun isFlush => .ok isFlush

/-- The loop for the lowest value, which starts at the sentinel 15. -/
def lowestScan (hand : CardArray) : Run (Completion Bool ℤ) :=
  forRange 0 hand.length 15 fun c lowest =>
    assign do
      let card ← element hand c
      return if card.value.toInt < lowest then card.value.toInt else lowest

def instanceScan (hand : CardArray) (wanted : ℤ) : Run (Completion Bool Bool) :=
  forRange 0 hand.length false fun i instanceFound =>
    assign (orElse (.ok instanceFound) do
      let card ← element hand i
      return card.value.toInt = wanted)

/-- The Java int `lowest + c` is compared with a byte, so it is taken without
wrap-around: a sum past the int range equals no byte either way. -/
def isStraight (hand : CardArray) : Run Bool :=
  afterLoop (lowestScan hand) fun lowest =>
    afterLoop
      (forRange 0 hand.length true fun c isStraight =>
        andThen (instanceScan hand (lowest + c)) fun instanceFound =>
          assign (.ok (isStraight && instanceFound)))
      fun isStraight => .ok isStraight

def isStraightFlush (hand : CardArray) : Run Bool :=
  andAlso (isStraight hand) (isFlush hand)

def isThreeOfAKind (hand : CardArray) : Run Bool :=
  afterLoop
    (forRange 0 hand.length () fun c _ =>
      forRange (c + 1) hand.length () fun i _ =>
        forRange (i + 1) hand.length () fun j _ =>
          returnWhen
            (andAlso (sameValue hand c i) (sameValue hand i j)) true ())
    fun _ => .ok false

/-- The body of the loops of `isTwoPair`.  A first pair is recorded; a later
one ends the search if it is disjoint from the first. -/
def pairStep (hand : CardArray) (c i : ℕ) (pairOne : ℤ × ℤ) :
    Run (Completion Bool (ℤ × ℤ)) := do
  if ← sameValue hand c i then
    if pairOne.1 < 0 then
      return .next (c, i)
    else if pairOne.1 ≠ c ∧ pairOne.2 ≠ c ∧ pairOne.1 ≠ i ∧ pairOne.2 ≠ i then
      return .ret true
    else
      return .next pairOne
  else
    return .next pairOne

def isTwoPair (hand : CardArray) : Run Bool :=
  afterLoop
    (forRange 0 hand.length (-1, -1) fun c pairOne =>
      forRange (c + 1) hand.length pairOne fun i pairOne =>
        pairStep hand c i pairOne)
    fun _ => .ok false

def isOnePair (hand : CardArray) : Run Bool :=
  afterLoop
    (forRange 0 hand.length () fun c _ =>
      forRange (c + 1) hand.length () fun i _ =>
        returnWhen (sameValue hand c i) true ())
    fun _ => .ok false

/-! ## Reading a hand without null slots -/

def values (hand : List Card) : List Int8 :=
  hand.map Card.value

def suits (hand : List Card) : List Int8 :=
  hand.map Card.suit

@[simp] theorem values_length (hand : List Card) :
    (values hand).length = hand.length := by
  simp [values]

theorem sameValue_decides
    {hand : List Card} {a b : ℕ}
    (ha : a < hand.length) (hb : b < hand.length) :
    Decides (sameValue (hand.map some) a b)
      ((values hand)[a]? = (values hand)[b]?) := by
  have hfirst := element_map_some ha
  have hsecond := element_map_some hb
  unfold sameValue
  rw [hfirst, hsecond]
  apply Decides.ok
  simp [values, ha, hb]

theorem sameSuit_decides
    {hand : List Card} {a b : ℕ}
    (ha : a < hand.length) (hb : b < hand.length) :
    Decides (sameSuit (hand.map some) a b)
      ((suits hand)[a]? = (suits hand)[b]?) := by
  have hfirst := element_map_some ha
  have hsecond := element_map_some hb
  unfold sameSuit
  rw [hfirst, hsecond]
  apply Decides.ok
  simp [suits, ha, hb]

/-! ## Equal values -/

private theorem decides_count
    {hand : List Card} {m : ℕ} {body : ℕ → Unit → Run (Completion Bool Unit)}
    (hbody : ∀ c, c < hand.length →
      Finds (body c ()) true () (True ∧ m ≤ later (values hand) c)) :
    Decides (afterLoop (forRange 0 hand.length () body) fun _ => .ok false)
      (∃ v, m + 1 ≤ (values hand).count v) := by
  rw [exists_succ_le_count_iff, values_length]
  apply Finds.decides
  apply forRange_finds (Nat.zero_le _)
  intro c _ hc
  simpa using hbody c hc

private theorem finds_later
    {hand : List Card} {outer : Prop} {i m : ℕ}
    {body : ℕ → Unit → Run (Completion Bool Unit)} (hi : i < hand.length)
    (hbody : ∀ j, i + 1 ≤ j → j < hand.length →
      Finds (body j ()) true ()
        ((outer ∧ (values hand)[i]? = (values hand)[j]?) ∧
          m ≤ later (values hand) j)) :
    Finds (forRange (i + 1) hand.length () body) true ()
      (outer ∧ m + 1 ≤ later (values hand) i) := by
  rw [succ_le_later_iff, values_length]
  apply forRange_finds_and hi
  intro j hij hj
  rw [← and_assoc]
  exact hbody j hij hj

theorem isOnePair_decides (hand : List Card) :
    Decides (isOnePair (hand.map some))
      (∃ v, 2 ≤ (values hand).count v) := by
  unfold isOnePair
  rw [List.length_map]
  apply decides_count
  intro c hc
  apply finds_later hc
  intro i _ hi
  have htest := sameValue_decides hc hi
  apply (htest.congr ?_).finds_returnWhen
  simp

theorem isThreeOfAKind_decides (hand : List Card) :
    Decides (isThreeOfAKind (hand.map some))
      (∃ v, 3 ≤ (values hand).count v) := by
  unfold isThreeOfAKind
  rw [List.length_map]
  apply decides_count
  intro c hc
  apply finds_later hc
  intro i _ hi
  apply finds_later hi
  intro j _ hj
  have htest := (sameValue_decides hc hi).andAlso
    fun _ => sameValue_decides hi hj
  apply (htest.congr ?_).finds_returnWhen
  simp

theorem isFourOfAKind_decides (hand : List Card) :
    Decides (isFourOfAKind (hand.map some))
      (∃ v, 4 ≤ (values hand).count v) := by
  unfold isFourOfAKind
  rw [List.length_map]
  apply decides_count
  intro c hc
  apply finds_later hc
  intro i _ hi
  apply finds_later hi
  intro j _ hj
  apply finds_later hj
  intro k _ hk
  have htest := (sameValue_decides hc hi).andAlso
    fun _ => (sameValue_decides hi hj).andAlso
      fun _ => sameValue_decides hj hk
  apply (htest.congr ?_).finds_returnWhen
  simp [and_assoc]

theorem isFiveOfAKind_decides (hand : List Card) :
    Decides (isFiveOfAKind (hand.map some))
      (∃ v, 5 ≤ (values hand).count v) := by
  unfold isFiveOfAKind
  rw [List.length_map]
  apply decides_count
  intro c hc
  apply finds_later hc
  intro i _ hi
  apply finds_later hi
  intro j _ hj
  apply finds_later hj
  intro k _ hk
  apply finds_later hk
  intro l _ hl
  have htest := (sameValue_decides hc hi).andAlso
    fun _ => (sameValue_decides hi hj).andAlso
      fun _ => (sameValue_decides hj hk).andAlso
        fun _ => sameValue_decides hk hl
  apply (htest.congr ?_).finds_returnWhen
  simp [and_assoc]

/-! ## Full house -/

private def IsTriple (hand : List Card) (c i j : ℕ) : Prop :=
  c + 1 ≤ i ∧ i + 1 ≤ j ∧ j < hand.length ∧
    (values hand)[c]? = (values hand)[i]? ∧
    (values hand)[i]? = (values hand)[j]?

private def TripleFound (hand : List Card) (scan : ThreeScan) : Prop :=
  scan.threeFound = true ∧
    ∃ c i j : ℕ, IsTriple hand c i j ∧ scan.setThree = (↑c, ↑i, ↑j)

/-- The scan as long as nothing is found among the visited positions. -/
private def NoTriple (hand : List Card) (visited : ℕ → ℕ → ℕ → Prop)
    (scan : ThreeScan) : Prop :=
  scan.threeFound = false ∧
    ∀ c i j, visited c i j → ¬ IsTriple hand c i j

private theorem NoTriple.mono
    {hand : List Card} {visited visited' : ℕ → ℕ → ℕ → Prop}
    {scan : ThreeScan} (hnone : NoTriple hand visited scan)
    (hvisited : ∀ c i j, IsTriple hand c i j → visited' c i j →
      visited c i j) :
    NoTriple hand visited' scan := by
  constructor
  · exact hnone.1
  · intro c i j hvis htriple
    exact hnone.2 c i j (hvisited c i j htriple hvis) htriple

private theorem tripleFound_stops
    {hand : List Card} (scan : ThreeScan) (hfound : TripleFound hand scan) :
    (!scan.threeFound) = false := by
  simp [hfound.1]

private theorem noTriple_runs
    {hand : List Card} {visited : ℕ → ℕ → ℕ → ℕ → Prop}
    (index : ℕ) (scan : ThreeScan)
    (hnone : NoTriple hand (visited index) scan) :
    (!scan.threeFound) = true := by
  simp [hnone.1]

private theorem threeScan_step
    {hand : List Card} {visited : ℕ → ℕ → ℕ → Prop} {scan : ThreeScan}
    {c i j : ℕ} (hci : c + 1 ≤ i) (hij : i + 1 ≤ j) (hj : j < hand.length)
    (hnone : NoTriple hand visited scan) {returned : Bool → Prop} :
    Completes
      (assign do
        if ← andAlso (sameValue (hand.map some) c i)
            (sameValue (hand.map some) i j) then
          return (⟨true, (↑c, ↑i, ↑j)⟩ : ThreeScan)
        else
          return scan)
      (fun next => TripleFound hand next ∨
        NoTriple hand
          (fun c' i' j' => visited c' i' j' ∨ c' = c ∧ i' = i ∧ j' = j) next)
      returned := by
  have hi : i < hand.length := by omega
  have hc : c < hand.length := by omega
  have htest := (sameValue_decides hc hi).andAlso
    fun _ => sameValue_decides hi hj
  rcases htest with ⟨answer, hrun, hanswer⟩
  rw [hrun]
  cases answer with
  | true =>
      have hequal := hanswer.mp rfl
      apply Completes.next
      left
      exact ⟨rfl, c, i, j, ⟨hci, hij, hj, hequal⟩, rfl⟩
  | false =>
      have hdiffer : ¬ _ := fun hequal => by simpa using hanswer.mpr hequal
      apply Completes.next
      right
      constructor
      · exact hnone.1
      · intro c' i' j' hvisited htriple
        rcases hvisited with hold | ⟨hc', hi', hj'⟩
        · exact hnone.2 c' i' j' hold htriple
        · subst c' i' j'
          exact hdiffer htriple.2.2.2

private theorem threeScan_completes
    (hand : List Card) {returned : Bool → Prop} :
    Completes (threeScan (hand.map some))
      (fun scan => TripleFound hand scan ∨
        NoTriple hand (fun c _ _ => c < hand.length) scan)
      returned := by
  unfold threeScan
  rw [List.length_map]
  apply forWhile_until (TripleFound hand)
    (fun index => NoTriple hand fun c _ _ => c < index)
    tripleFound_stops noTriple_runs (Nat.zero_le _)
  · exact ⟨rfl, fun c _ _ hc => by omega⟩
  intro c scan _ hc hnone
  refine (forWhile_until (TripleFound hand)
    (fun index => NoTriple hand fun c' i _ => c' < c ∨ c' = c ∧ i < index)
    tripleFound_stops noTriple_runs hc ?_ ?_).mono ?_
  · apply hnone.mono
    intro c' i j htriple hvisited
    have hfirst := htriple.1
    omega
  · intro i scan hci hi hnone
    refine (forWhile_until (TripleFound hand)
      (fun index => NoTriple hand fun c' i' j =>
        (c' < c ∨ c' = c ∧ i' < i) ∨ c' = c ∧ i' = i ∧ j < index)
      tripleFound_stops noTriple_runs hi ?_ ?_).mono ?_
    · apply hnone.mono
      intro c' i' j htriple hvisited
      have hsecond := htriple.2.1
      omega
    · intro j scan hij hj hnone
      apply (threeScan_step hci hij hj hnone).mono
      intro next hnext
      apply hnext.imp_right
      intro hnone'
      apply hnone'.mono
      intro c' i' j' _ hvisited
      omega
    · intro next hnext
      apply hnext.imp_right
      intro hnone'
      apply hnone'.mono
      intro c' i' j' htriple hvisited
      have hthird := htriple.2.2.1
      omega
  · intro next hnext
    apply hnext.imp_right
    intro hnone'
    apply hnone'.mono
    intro c' i' j' htriple hvisited
    have hsecond := htriple.2.1
    have hthird := htriple.2.2.1
    omega

private theorem three_le_count_of_isTriple
    {hand : List Card} {c i j : ℕ} (htriple : IsTriple hand c i j)
    (hc : c < (values hand).length) :
    3 ≤ (values hand).count (values hand)[c] := by
  rcases htriple with ⟨hci, hij, hj, hequal, hequal'⟩
  have hlater : 2 ≤ later (values hand) c := by
    rw [succ_le_later_iff]
    refine ⟨i, hci, by rw [values_length]; omega, hequal, ?_⟩
    rw [succ_le_later_iff]
    exact ⟨j, hij, by rwa [values_length], hequal', Nat.zero_le _⟩
  exact succ_le_count_getElem hc hlater

private theorem not_three_le_count_of_noTriple
    {hand : List Card} {scan : ThreeScan}
    (hnone : NoTriple hand (fun c _ _ => c < hand.length) scan) :
    ¬ ∃ v, 3 ≤ (values hand).count v := by
  rw [exists_succ_le_count_iff]
  intro hexists
  rcases hexists with ⟨c, _, hc, hlater⟩
  rw [values_length] at hc
  rw [succ_le_later_iff] at hlater
  rcases hlater with ⟨i, hci, _, hequal, hlater⟩
  rw [succ_le_later_iff] at hlater
  rcases hlater with ⟨j, hij, hj, hequal', _⟩
  rw [values_length] at hj
  exact hnone.2 c i j hc ⟨hci, hij, hj, hequal, hequal'⟩

private theorem otherValue_decides
    {hand : List Card} {a b : ℕ}
    (ha : a < hand.length) (hb : b < hand.length) :
    Decides ((sameValue (hand.map some) a b).map (!·))
      (¬ (values hand)[a]? = (values hand)[b]?) := by
  obtain ⟨answer, hrun, hanswer⟩ := sameValue_decides ha hb
  rw [hrun]
  apply Decides.ok
  rw [← hanswer]
  simp

private theorem exists_other_pair_iff
    {hand : List Card} {t : ℕ} (ht : t < (values hand).length) :
    (∃ c, 0 ≤ c ∧ c < hand.length ∧ ∃ i, c + 1 ≤ i ∧ i < hand.length ∧
        (values hand)[c]? = (values hand)[i]? ∧
          ¬ (values hand)[c]? = (values hand)[t]?) ↔
      ∃ w, w ≠ (values hand)[t] ∧ 2 ≤ (values hand).count w := by
  rw [List.getElem?_eq_getElem ht]
  constructor
  · intro hexists
    rcases hexists with ⟨c, _, hc, i, hci, hi, hequal, hother⟩
    rw [← values_length hand] at hc hi
    have hlater : 1 ≤ later (values hand) c := by
      rw [succ_le_later_iff]
      exact ⟨i, hci, hi, hequal, Nat.zero_le _⟩
    have hne : (values hand)[c] ≠ (values hand)[t] := by
      rw [List.getElem?_eq_getElem hc] at hother
      simpa using hother
    exact ⟨(values hand)[c], hne, succ_le_count_getElem hc hlater⟩
  · intro hexists
    rcases hexists with ⟨w, hne, hcount⟩
    obtain ⟨c, i, hci, hi, hcw, hiw⟩ := exists_pair_of_two_le_count hcount
    rw [values_length] at hi
    refine ⟨c, Nat.zero_le c, by omega, i, hci, hi, ?_, ?_⟩
    · rw [hcw, hiw]
    · rw [hcw]
      simpa using hne

theorem isFullHouse_decides (hand : List Card) :
    Decides (isFullHouse (hand.map some))
      (∃ v w, v ≠ w ∧ 3 ≤ (values hand).count v ∧
        2 ≤ (values hand).count w) := by
  unfold isFullHouse
  apply (threeScan_completes hand).afterLoop
  intro scan hscan
  rcases hscan with ⟨hfound, c, i, j, htriple, hset⟩ | hnone
  · have hc : c < hand.length := by
      have hci := htriple.1
      have hij := htriple.2.1
      have hj := htriple.2.2.1
      omega
    have hcv : c < (values hand).length := by rwa [values_length]
    have hthree := three_le_count_of_isTriple htriple hcv
    have hiff : (∃ v w, v ≠ w ∧ 3 ≤ (values hand).count v ∧
          2 ≤ (values hand).count w) ↔
        ∃ w, w ≠ (values hand)[c] ∧ 2 ≤ (values hand).count w := by
      constructor
      · intro hexists
        rcases hexists with ⟨v, w, hne, hv, hw⟩
        by_cases heq : w = (values hand)[c]
        · exact ⟨v, by rwa [← heq], by omega⟩
        · exact ⟨w, heq, hw⟩
      · intro hexists
        rcases hexists with ⟨w, hother, hw⟩
        exact ⟨(values hand)[c], w, hother.symm, hthree, hw⟩
    simp only [hfound, Bool.not_true, Bool.false_eq_true, if_false]
    unfold otherPair
    rw [hfound, hset, List.length_map, hiff, ← exists_other_pair_iff hcv]
    apply Finds.decides
    apply forRange_finds (Nat.zero_le _)
    intro c' _ hc'
    apply forRange_finds hc'
    intro i' _ hi'
    have htest := (sameValue_decides hc' hi').andAlso
      fun _ => otherValue_decides hc' hc
    exact htest.finds_returnWhen true ()
  · have hfalse := hnone.1
    simp only [hfalse, Bool.not_false, if_true]
    apply Decides.ok
    simp only [Bool.false_eq_true, false_iff]
    intro hexists
    rcases hexists with ⟨v, _, _, hv, _⟩
    exact not_three_le_count_of_noTriple hnone ⟨v, hv⟩

/-! ## Two pair -/

/-- What is known of `pairOne` once the positions in `visited` have been
compared: no pair was seen, or all pairs seen meet the first one. -/
private def PairScan (hand : List Card) (visited : ℕ → ℕ → Prop)
    (pairOne : ℤ × ℤ) : Prop :=
  (pairOne = (-1, -1) ∧
      ∀ a b, visited a b → a < b → ¬ IsPair (values hand) a b) ∨
    ∃ p q : ℕ, pairOne = (↑p, ↑q) ∧ IsPair (values hand) p q ∧
      ∀ a b, visited a b → a < b → IsPair (values hand) a b →
        a = p ∨ a = q ∨ b = p ∨ b = q

/-- Only the positions which form a pair matter. -/
private theorem PairScan.of_pairs
    {hand : List Card} {visited visited' : ℕ → ℕ → Prop} {pairOne : ℤ × ℤ}
    (hscan : PairScan hand visited pairOne)
    (hvisited : ∀ a b, a < b → IsPair (values hand) a b → visited' a b →
      visited a b) :
    PairScan hand visited' pairOne := by
  rcases hscan with ⟨hstart, hnone⟩ | ⟨p, q, hset, hpq, hmeets⟩
  · left
    refine ⟨hstart, ?_⟩
    intro a b hvis hab hpair
    exact hnone a b (hvisited a b hab hpair hvis) hab hpair
  · right
    refine ⟨p, q, hset, hpq, ?_⟩
    intro a b hvis hab hpair
    exact hmeets a b (hvisited a b hab hpair hvis) hab hpair

private theorem PairScan.mono
    {hand : List Card} {visited visited' : ℕ → ℕ → Prop} {pairOne : ℤ × ℤ}
    (hscan : PairScan hand visited pairOne)
    (hvisited : ∀ a b, a < b → b < hand.length → visited' a b →
      visited a b) :
    PairScan hand visited' pairOne := by
  apply hscan.of_pairs
  intro a b hab hpair hvis
  have hb := hpair.2.2.1
  rw [values_length] at hb
  exact hvisited a b hab hb hvis

private theorem pairStep_completes
    {hand : List Card} {visited : ℕ → ℕ → Prop} {pairOne : ℤ × ℤ}
    {c i : ℕ} (hci : c < i) (hi : i < hand.length)
    (hscan : PairScan hand visited pairOne) :
    Completes (pairStep (hand.map some) c i pairOne)
      (PairScan hand fun a b => visited a b ∨ a = c ∧ b = i)
      (fun answer => answer = true ↔ TwoPairs (values hand)) := by
  unfold pairStep
  have hc : c < hand.length := by omega
  obtain ⟨answer, hrun, hanswer⟩ := sameValue_decides hc hi
  rw [hrun]
  cases answer with
  | false =>
      have hdiffer : ¬ IsPair (values hand) c i := by
        intro hpair
        simpa using hanswer.mpr hpair.2.2.2
      apply Completes.next
      apply hscan.of_pairs
      intro a b _ hpair hvis
      rcases hvis with hold | ⟨ha, hb⟩
      · exact hold
      · subst a b
        exact (hdiffer hpair).elim
  | true =>
      have hpairci : IsPair (values hand) c i := by
        refine ⟨by omega, ?_, ?_, hanswer.mp rfl⟩ <;>
          rwa [values_length]
      rcases hscan with ⟨hstart, hnone⟩ | ⟨p, q, hset, hpq, hmeets⟩
      · subst pairOne
        apply Completes.next
        right
        refine ⟨c, i, rfl, hpairci, ?_⟩
        intro a b hvis hab hpair
        rcases hvis with hold | ⟨ha, _⟩
        · exact (hnone a b hold hab hpair).elim
        · exact .inl ha
      · subst pairOne
        have hnonneg : ¬ ((p : ℤ) < 0) := by omega
        simp only [Bind.bind, Except.bind, if_true, if_neg hnonneg]
        by_cases hdisjoint : (p : ℤ) ≠ c ∧ (q : ℤ) ≠ c ∧
            (p : ℤ) ≠ i ∧ (q : ℤ) ≠ i
        · have htwo : TwoPairs (values hand) := by
            refine ⟨p, q, c, i, hpq, hpairci, ?_⟩
            omega
          rw [if_pos hdisjoint]
          exact .ret (by simpa using htwo)
        · rw [if_neg hdisjoint]
          apply Completes.next
          right
          refine ⟨p, q, rfl, hpq, ?_⟩
          intro a b hvis hab hpair
          rcases hvis with hold | ⟨ha, hb⟩
          · exact hmeets a b hold hab hpair
          · omega

private theorem not_twoPairs_of_pairScan
    {hand : List Card} {pairOne : ℤ × ℤ}
    (hscan : PairScan hand (fun a _ => a < hand.length) pairOne) :
    ¬ TwoPairs (values hand) := by
  have hswap : ∀ {a b}, IsPair (values hand) a b →
      IsPair (values hand) b a := by
    intro a b hpair
    exact ⟨hpair.1.symm, hpair.2.2.1, hpair.2.1, hpair.2.2.2.symm⟩
  have hbound : ∀ {a b}, IsPair (values hand) a b → a < hand.length := by
    intro a b hpair
    simpa using hpair.2.1
  rcases hscan with ⟨_, hnone⟩ | ⟨p, q, _, hpq, hmeets⟩
  · intro htwo
    rcases htwo with ⟨a, b, _, _, hpair, _⟩
    rcases Nat.lt_or_gt_of_ne hpair.1 with hlt | hgt
    · exact hnone a b (hbound hpair) hlt hpair
    · exact hnone b a (hbound (hswap hpair)) hgt (hswap hpair)
  · apply not_twoPairs_of_meets hpq
    intro a b hpair
    rcases Nat.lt_or_gt_of_ne hpair.1 with hlt | hgt
    · exact hmeets a b (hbound hpair) hlt hpair
    · have := hmeets b a (hbound (hswap hpair)) hgt (hswap hpair)
      omega

theorem isTwoPair_decides (hand : List Card) :
    Decides (isTwoPair (hand.map some)) (TwoPairs (values hand)) := by
  unfold isTwoPair
  rw [List.length_map]
  apply (forRange_rule (fun index => PairScan hand fun a _ => a < index)
    (Nat.zero_le _) ?_ ?_).afterLoop
  · intro pairOne hscan
    apply Decides.ok
    simpa using not_twoPairs_of_pairScan hscan
  · exact .inl ⟨rfl, fun a b ha => by omega⟩
  · intro c pairOne _ hc hscan
    apply (forRange_rule
      (fun index => PairScan hand fun a b => a < c ∨ a = c ∧ b < index)
      hc ?_ ?_).mono
    · intro next hnext
      apply hnext.mono
      intro a b hab hb hvisited
      omega
    · apply hscan.mono
      intro a b hab _ hvisited
      omega
    · intro i pairOne hci hi hscan
      apply (pairStep_completes hci hi hscan).mono
      intro next hnext
      apply hnext.mono
      intro a b _ _ hvisited
      omega

/-! ## Flush -/

private theorem suits_getElem?
    {hand : List Card} {i : ℕ} (hi : i < hand.length) :
    (suits hand)[i]? = some hand[i].suit := by
  simp [suits, hi]

theorem isFlush_decides (hand : List Card) :
    Decides (isFlush (hand.map some))
      (∀ first ∈ hand, ∀ second ∈ hand, first.suit = second.suit) := by
  unfold isFlush
  rw [List.length_map]
  rcases hand with _ | ⟨lead, rest⟩
  · rw [forRange_of_ge (by simp)]
    exact Decides.ok (by simp)
  have hlead : 0 < (lead :: rest).length := by simp
  apply (forRange_rule
    (fun index flag => flag = true ↔
      ∀ i, i < index → (suits (lead :: rest))[i]? =
        (suits (lead :: rest))[0]?) hlead ?_ ?_).afterLoop
  · intro flag hflag
    apply Decides.ok
    rw [hflag]
    constructor
    · intro hall
      have hsuit : ∀ card ∈ lead :: rest, card.suit = lead.suit := by
        intro card hcard
        obtain ⟨i, hi, heq⟩ := List.getElem_of_mem hcard
        have hsuit := hall i hi
        rw [suits_getElem? hi, suits_getElem? hlead, heq] at hsuit
        simpa using hsuit
      intro first hfirst second hsecond
      rw [hsuit first hfirst, hsuit second hsecond]
    · intro hall i hi
      have hsuit := hall _ (List.getElem_mem hi) lead (by simp)
      rw [suits_getElem? hi, suits_getElem? hlead, hsuit]
      rfl
  · simp
  · intro c flag _ hc hflag
    apply Returns.completes_assign
    have htest := (Decides.ok hflag).andAlso fun _ => sameSuit_decides hc hlead
    apply htest.congr
    constructor
    · intro hboth i hi
      by_cases heq : i = c
      · rw [heq]
        exact hboth.2
      · exact hboth.1 i (by omega)
    · intro hall
      exact ⟨fun i hi => hall i (by omega), hall c (by omega)⟩

/-! ## Straight -/

def intValues (hand : List Card) : List ℤ :=
  hand.map fun card => card.value.toInt

@[simp] theorem intValues_length (hand : List Card) :
    (intValues hand).length = hand.length := by
  simp [intValues]

private theorem intValues_getElem?
    {hand : List Card} {i : ℕ} (hi : i < hand.length) :
    (intValues hand)[i]? = some hand[i].value.toInt := by
  simp [intValues, hi]

private theorem lowestScan_completes
    (hand : List Card) {returned : Bool → Prop} :
    Completes (lowestScan (hand.map some))
      (fun lowest => (∀ v ∈ intValues hand, lowest ≤ v) ∧
        (lowest = 15 ∨ lowest ∈ intValues hand)) returned := by
  unfold lowestScan
  rw [List.length_map]
  apply (forRange_rule
    (fun index lowest =>
      (∀ i, i < index → ∀ v, (intValues hand)[i]? = some v → lowest ≤ v) ∧
        (lowest = 15 ∨ lowest ∈ intValues hand)) (Nat.zero_le _) ?_ ?_).mono
  · intro lowest hlowest
    refine ⟨?_, hlowest.2⟩
    intro v hv
    obtain ⟨i, hi⟩ := List.getElem?_of_mem hv
    have hbound : i < (intValues hand).length := by
      by_contra hge
      rw [List.getElem?_eq_none (by omega)] at hi
      contradiction
    rw [intValues_length] at hbound
    exact hlowest.1 i hbound v hi
  · exact ⟨fun i hi => by omega, .inl rfl⟩
  · intro c lowest _ hc hinv
    have hmem : hand[c].value.toInt ∈ intValues hand :=
      List.mem_of_getElem? (intValues_getElem? hc)
    apply Returns.completes_assign
    rw [element_map_some hc]
    refine ⟨_, rfl, ?_, ?_⟩
    · intro i hi v hv
      by_cases heq : i = c
      · subst i
        rw [intValues_getElem? hc] at hv
        have hv' : hand[c].value.toInt = v := by simpa using hv
        split <;> omega
      · have hold := hinv.1 i (by omega) v hv
        split <;> omega
    · split
      · exact .inr hmem
      · exact hinv.2

private theorem instanceScan_completes
    (hand : List Card) (wanted : ℤ) {returned : Bool → Prop} :
    Completes (instanceScan (hand.map some) wanted)
      (fun found => found = true ↔ wanted ∈ intValues hand) returned := by
  unfold instanceScan
  rw [List.length_map]
  apply (forRange_rule
    (fun index found => found = true ↔
      ∃ i, i < index ∧ (intValues hand)[i]? = some wanted)
    (Nat.zero_le _) ?_ ?_).mono
  · intro found hfound
    rw [hfound]
    constructor
    · intro hexists
      rcases hexists with ⟨i, _, hi⟩
      exact List.mem_of_getElem? hi
    · intro hmem
      obtain ⟨i, hi, heq⟩ := List.getElem_of_mem hmem
      rw [intValues_length] at hi
      refine ⟨i, hi, ?_⟩
      rw [← heq]
      simp
  · simp
  · intro i found _ hi hfound
    apply Returns.completes_assign
    have hhere : Decides
        (do
          let card ← element (hand.map some) i
          return card.value.toInt = wanted)
        ((intValues hand)[i]? = some wanted) := by
      rw [element_map_some hi, intValues_getElem? hi]
      exact Decides.ok (by simp)
    apply ((Decides.ok hfound).orElse fun _ => hhere).congr
    constructor
    · intro heither
      rcases heither with ⟨j, hj, hwanted⟩ | hwanted
      · exact ⟨j, by omega, hwanted⟩
      · exact ⟨i, by omega, hwanted⟩
    · intro hexists
      rcases hexists with ⟨j, hj, hwanted⟩
      by_cases heq : j = i
      · subst j
        exact .inr hwanted
      · exact .inl ⟨j, by omega, hwanted⟩

/-- On every array the method tests for consecutive values from a starting
value which is the minimum or the sentinel. -/
theorem isStraight_decides_from (hand : List Card) :
    ∃ lowest : ℤ, (∀ v ∈ intValues hand, lowest ≤ v) ∧
      (lowest = 15 ∨ lowest ∈ intValues hand) ∧
      Decides (isStraight (hand.map some))
        (∀ c : ℕ, c < hand.length → lowest + c ∈ intValues hand) := by
  have hscan : Completes (lowestScan (hand.map some)) _ (fun _ => False) :=
    lowestScan_completes hand
  rcases hscan with ⟨lowest, hrun, hle, hstart⟩ | ⟨_, _, hfalse⟩
  · refine ⟨lowest, hle, hstart, ?_⟩
    unfold isStraight
    rw [hrun, afterLoop_next, List.length_map]
    apply (forRange_rule
      (fun index flag => flag = true ↔
        ∀ c : ℕ, c < index → lowest + c ∈ intValues hand)
      (Nat.zero_le _) ?_ ?_).afterLoop
    · intro flag hflag
      exact Decides.ok hflag
    · simp
    · intro c flag _ _ hflag
      apply (instanceScan_completes hand (lowest + c)).andThen
      intro found hfound
      apply Completes.next
      rw [Bool.and_eq_true, hflag, hfound]
      constructor
      · intro hboth c' hc'
        by_cases heq : c' = c
        · subst c'
          exact hboth.2
        · exact hboth.1 c' (by omega)
      · intro hall
        exact ⟨fun c' hc' => hall c' (by omega), hall c (by omega)⟩
  · exact hfalse.elim

theorem isStraight_decides
    {hand : List Card} (hnonempty : hand ≠ [])
    (hrange : ∀ card ∈ hand, 1 ≤ card.value.toInt ∧ card.value.toInt ≤ 14) :
    Decides (isStraight (hand.map some))
      ((intValues hand).Nodup ∧
        spread (intValues hand) = hand.length - 1) := by
  obtain ⟨lowest, hle, hstart, hdecides⟩ := isStraight_decides_from hand
  obtain ⟨card, hcard⟩ := List.exists_mem_of_ne_nil hand hnonempty
  have hlow := hle card.value.toInt (List.mem_map.mpr ⟨card, hcard, rfl⟩)
  have hcardRange := hrange card hcard
  have hmem : lowest ∈ intValues hand := by
    rcases hstart with hsentinel | hmem
    · omega
    · exact hmem
  apply hdecides.congr
  rw [← intValues_length hand]
  exact consecutive_iff hmem hle

theorem isStraightFlush_decides
    {hand : List Card} (hnonempty : hand ≠ [])
    (hrange : ∀ card ∈ hand, 1 ≤ card.value.toInt ∧ card.value.toInt ≤ 14) :
    Decides (isStraightFlush (hand.map some))
      (((intValues hand).Nodup ∧
          spread (intValues hand) = hand.length - 1) ∧
        ∀ first ∈ hand, ∀ second ∈ hand, first.suit = second.suit) :=
  (isStraight_decides hnonempty hrange).andAlso fun _ => isFlush_decides hand

/-- All inclusive predicates are exact, on arrays of every length.  Returning
normally includes that no array access is out of range. -/
theorem inclusive_predicates_exact (hand : List Card) :
    Decides (isFiveOfAKind (hand.map some))
        (∃ v, 5 ≤ (values hand).count v) ∧
      Decides (isFourOfAKind (hand.map some))
        (∃ v, 4 ≤ (values hand).count v) ∧
      Decides (isThreeOfAKind (hand.map some))
        (∃ v, 3 ≤ (values hand).count v) ∧
      Decides (isOnePair (hand.map some))
        (∃ v, 2 ≤ (values hand).count v) ∧
      Decides (isTwoPair (hand.map some)) (TwoPairs (values hand)) ∧
      Decides (isFullHouse (hand.map some))
        (∃ v w, v ≠ w ∧ 3 ≤ (values hand).count v ∧
          2 ≤ (values hand).count w) ∧
      Decides (isFlush (hand.map some))
        (∀ first ∈ hand, ∀ second ∈ hand, first.suit = second.suit) ∧
      Returns (isStraight (hand.map some)) (fun _ => True) ∧
      Returns (isStraightFlush (hand.map some)) (fun _ => True) ∧
      (hand ≠ [] →
        (∀ card ∈ hand, 1 ≤ card.value.toInt ∧ card.value.toInt ≤ 14) →
        Decides (isStraight (hand.map some))
            ((intValues hand).Nodup ∧
              spread (intValues hand) = hand.length - 1) ∧
          Decides (isStraightFlush (hand.map some))
            (((intValues hand).Nodup ∧
                spread (intValues hand) = hand.length - 1) ∧
              ∀ first ∈ hand, ∀ second ∈ hand,
                first.suit = second.suit)) := by
  obtain ⟨_, _, _, hstraight⟩ := isStraight_decides_from hand
  have hstraightFlush :=
    hstraight.andAlso fun _ => isFlush_decides hand
  refine ⟨isFiveOfAKind_decides hand, isFourOfAKind_decides hand,
    isThreeOfAKind_decides hand, isOnePair_decides hand,
    isTwoPair_decides hand, isFullHouse_decides hand, isFlush_decides hand,
    ?_, ?_, fun hnonempty hrange =>
      ⟨isStraight_decides hnonempty hrange,
        isStraightFlush_decides hnonempty hrange⟩⟩
  · rcases hstraight with ⟨answer, hrun, _⟩
    exact ⟨answer, hrun, trivial⟩
  · rcases hstraightFlush with ⟨answer, hrun, _⟩
    exact ⟨answer, hrun, trivial⟩

def broadway : List Card :=
  [⟨12, 0⟩, ⟨10, 3⟩, ⟨14, 1⟩, ⟨11, 0⟩, ⟨13, 2⟩]

theorem inclusive_predicates_exact_broadway :
    isStraight (broadway.map some) = .ok true ∧
      Decides (isStraight (broadway.map some))
        ((intValues broadway).Nodup ∧
          spread (intValues broadway) = broadway.length - 1) ∧
      Decides (isStraightFlush (broadway.map some))
        (((intValues broadway).Nodup ∧
            spread (intValues broadway) = broadway.length - 1) ∧
          ∀ first ∈ broadway, ∀ second ∈ broadway,
            first.suit = second.suit) := by
  constructor
  · decide
  · obtain ⟨_, _, _, _, _, _, _, _, _, hstraight⟩ :=
      inclusive_predicates_exact broadway
    exact hstraight (by decide) (by decide)

end Hand
end HighRollers
