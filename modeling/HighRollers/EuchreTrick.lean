import HighRollers.Card
import HighRollers.FirstMaximum
import Mathlib.Data.Prod.Lex

/-!
# The winner of a Euchre trick

`Euchre.trickWinner` makes up to five passes over a trick: for the right
bower, for the left bower, for any trump, for the highest trump and for the
highest card of the led suit.  The specification is one order on cards; the
winner is the first card which is maximal in it.
-/

namespace HighRollers
namespace Euchre

open Java
open FirstMaximum

/-! ## The methods -/

def partnerSuit (inputSuit : Int8) : Int8 :=
  if inputSuit = Card.spades then Card.clubs
  else if inputSuit = Card.clubs then Card.spades
  else if inputSuit = Card.hearts then Card.diamonds
  else if inputSuit = Card.diamonds then Card.hearts
  else -1

/-- A pass which returns the index of the first jack of `suit`. -/
def bowerScan (trick : CardArray) (suit : Int8) : Run (Completion ℤ Unit) :=
  forRange 0 trick.length () fun c _ =>
    returnWhen
      (do
        let card ← element trick c
        return card.suit = suit ∧ card.value = Card.jack)
      (c : ℤ) ()

def areTrumps (trick : CardArray) (trumpSuit : Int8) : Run (Completion ℤ Bool) :=
  forRange 0 trick.length false fun c areTrumps =>
    assign do
      let card ← element trick c
      return if card.suit = trumpSuit then true else areTrumps

def firstTrump (trick : CardArray) (trumpSuit : Int8) : Run (Completion ℤ ℤ) :=
  forWhile 0 trick.length (fun highIndex => decide (highIndex < 0)) (-1)
    fun c highIndex =>
      assign do
        let card ← element trick c
        return if card.suit = trumpSuit then (c : ℤ) else highIndex

/-- The two searches for a highest card differ in the suit, in the first index
visited and in the seed. -/
def highestOfSuit (trick : CardArray) (suit : Int8) (lo : ℕ) (seed : ℤ) :
    Run (Completion ℤ ℤ) :=
  forRange lo trick.length seed fun c highIndex =>
    assign do
      let card ← element trick c
      if card.suit = suit then
        let high ← element trick highIndex
        return if high.value < card.value then (c : ℤ) else highIndex
      else
        return highIndex

/-- The part of `trickWinner` after the two passes for the bowers. -/
def suitWinner (trick : CardArray) (trumpSuit : Int8) : Run ℤ :=
  afterLoop (areTrumps trick trumpSuit) fun areTrumps =>
    if areTrumps then
      afterLoop (firstTrump trick trumpSuit) fun highIndex =>
        afterLoop (highestOfSuit trick trumpSuit 0 highIndex)
          fun highIndex => .ok highIndex
    else do
      let lead ← element trick 0
      afterLoop (highestOfSuit trick lead.suit 1 0)
        fun winIndex => .ok winIndex

def trickWinner (trick : CardArray) (trumpSuit : Int8) : Run ℤ :=
  afterLoop (bowerScan trick trumpSuit) fun _ =>
    afterLoop (bowerScan trick (partnerSuit trumpSuit)) fun _ =>
      suitWinner trick trumpSuit

/-- `trick[Euchre.trickWinner(trick, trumpSuit)]`. -/
def winningCard (trick : CardArray) (trumpSuit : Int8) :
    Run (Option Card) := do
  arrayGet trick (← trickWinner trick trumpSuit)

/-! ## The Euchre order -/

inductive Colour
  | red
  | black
  deriving DecidableEq, Repr

def colour (suit : Int8) : Option Colour :=
  if suit = Card.hearts ∨ suit = Card.diamonds then some .red
  else if suit = Card.clubs ∨ suit = Card.spades then some .black
  else none

def IsRightBower (trump : Int8) (card : Card) : Prop :=
  card.value = Card.jack ∧ card.suit = trump

/-- The jack of the other suit of the same colour. -/
def IsLeftBower (trump : Int8) (card : Card) : Prop :=
  card.value = Card.jack ∧ card.suit ≠ trump ∧
    colour card.suit = colour trump

instance (trump : Int8) (card : Card) : Decidable (IsRightBower trump card) :=
  inferInstanceAs (Decidable (_ ∧ _))

instance (trump : Int8) (card : Card) : Decidable (IsLeftBower trump card) :=
  inferInstanceAs (Decidable (_ ∧ _ ∧ _))

def effectiveSuit (trump : Int8) (card : Card) : Int8 :=
  if IsLeftBower trump card then trump else card.suit

/-- The place of a card in the order of a trick: its class, and within the
trumps and within the led suit its value. -/
def strength (trump led : Int8) (card : Card) : ℕ ×ₗ ℤ :=
  if IsRightBower trump card then toLex (4, 0)
  else if IsLeftBower trump card then toLex (3, 0)
  else if card.suit = trump then toLex (2, card.value.toInt)
  else if card.suit = led then toLex (1, card.value.toInt)
  else toLex (0, 0)

/-- The index of the first maximal card of the trick. -/
def WinsAt (trump : Int8) (lead : Card) (rest : List Card) (winner : ℕ) :
    Prop :=
  ∃ card, (lead :: rest)[winner]? = some card ∧
    (∀ other ∈ lead :: rest,
      strength trump (effectiveSuit trump lead) other ≤
        strength trump (effectiveSuit trump lead) card) ∧
    ∀ i other, i < winner → (lead :: rest)[i]? = some other →
      strength trump (effectiveSuit trump lead) other <
        strength trump (effectiveSuit trump lead) card

def IsSuit (suit : Int8) : Prop :=
  suit = Card.hearts ∨ suit = Card.diamonds ∨
    suit = Card.clubs ∨ suit = Card.spades

theorem isLeftBower_iff
    {trump : Int8} (htrump : IsSuit trump) (card : Card) :
    IsLeftBower trump card ↔
      card.suit = partnerSuit trump ∧ card.value = Card.jack := by
  have hsuit : (card.suit ≠ trump ∧ colour card.suit = colour trump) ↔
      card.suit = partnerSuit trump := by
    rcases htrump with h | h | h | h <;> subst h <;>
      grind [colour, partnerSuit, Card.hearts, Card.diamonds, Card.clubs,
        Card.spades]
  unfold IsLeftBower
  rw [hsuit, and_comm]

theorem isRightBower_iff (trump : Int8) (card : Card) :
    IsRightBower trump card ↔
      card.suit = trump ∧ card.value = Card.jack := by
  unfold IsRightBower
  rw [and_comm]

section Strength

variable {trump led : Int8} {card : Card}

theorem strength_le_right : strength trump led card ≤ toLex (4, 0) := by
  unfold strength
  split_ifs <;> simp [Prod.Lex.toLex_le_toLex]

theorem strength_lt_right (hright : ¬ IsRightBower trump card) :
    strength trump led card < toLex (4, 0) := by
  unfold strength
  split_ifs <;> simp [Prod.Lex.toLex_lt_toLex]

theorem strength_le_left (hright : ¬ IsRightBower trump card) :
    strength trump led card ≤ toLex (3, 0) := by
  unfold strength
  split_ifs <;> simp [Prod.Lex.toLex_le_toLex]

theorem strength_lt_left
    (hright : ¬ IsRightBower trump card)
    (hleft : ¬ IsLeftBower trump card) :
    strength trump led card < toLex (3, 0) := by
  unfold strength
  split_ifs <;> simp [Prod.Lex.toLex_lt_toLex]

theorem strength_trump
    (hright : ¬ IsRightBower trump card)
    (hleft : ¬ IsLeftBower trump card) (hsuit : card.suit = trump) :
    strength trump led card = toLex (2, card.value.toInt) := by
  simp [strength, hright, hleft, hsuit]

theorem strength_lt_trump
    (hright : ¬ IsRightBower trump card)
    (hleft : ¬ IsLeftBower trump card) (hsuit : card.suit ≠ trump) (v : ℤ) :
    strength trump led card < toLex (2, v) := by
  unfold strength
  split_ifs <;> simp [Prod.Lex.toLex_lt_toLex]

theorem strength_led
    (hright : ¬ IsRightBower trump card)
    (hleft : ¬ IsLeftBower trump card) (htrump : card.suit ≠ trump)
    (hsuit : card.suit = led) :
    strength trump led card = toLex (1, card.value.toInt) := by
  rw [hsuit] at htrump
  simp [strength, hright, hleft, hsuit, htrump]

theorem strength_lt_led
    (hright : ¬ IsRightBower trump card)
    (hleft : ¬ IsLeftBower trump card) (htrump : card.suit ≠ trump)
    (hsuit : card.suit ≠ led) (v : ℤ) :
    strength trump led card < toLex (1, v) := by
  unfold strength
  split_ifs
  simp [Prod.Lex.toLex_lt_toLex]

end Strength

/-! ## The passes -/

def SuitAt (trick : List Card) (suit : Int8) (i : ℕ) : Prop :=
  ∃ card, trick[i]? = some card ∧ card.suit = suit

def valueAt (trick : List Card) (i : ℕ) : ℤ :=
  (trick[i]?).elim 0 fun card => card.value.toInt

theorem suitAt_iff
    {trick : List Card} {i : ℕ} (hi : i < trick.length) (suit : Int8) :
    SuitAt trick suit i ↔ trick[i].suit = suit := by
  simp [SuitAt, hi]

theorem SuitAt.lt
    {trick : List Card} {suit : Int8} {i : ℕ} (hat : SuitAt trick suit i) :
    i < trick.length := by
  rcases hat with ⟨card, hcard, _⟩
  exact (List.getElem?_eq_some_iff.mp hcard).1

theorem bowerScan_cases (trick : List Card) (suit : Int8) :
    (∃ (i : ℕ) (card : Card), trick[i]? = some card ∧
        (card.suit = suit ∧ card.value = Card.jack) ∧
        (∀ (j : ℕ) (other : Card), j < i → trick[j]? = some other →
          ¬ (other.suit = suit ∧ other.value = Card.jack)) ∧
        bowerScan (trick.map some) suit = .ok (.ret (i : ℤ))) ∨
      (∀ card ∈ trick, ¬ (card.suit = suit ∧ card.value = Card.jack)) ∧
        bowerScan (trick.map some) suit = .ok (.next ()) := by
  unfold bowerScan
  rw [List.length_map]
  have hfirst := @forRange_first ℤ Unit 0 trick.length ()
    (fun c _ => returnWhen
      (do
        let card ← element (trick.map some) c
        return card.suit = suit ∧ card.value = Card.jack)
      (c : ℤ) ())
    (fun c => (c : ℤ))
    (fun c => ∃ card, trick[c]? = some card ∧
      card.suit = suit ∧ card.value = Card.jack)
    (Nat.zero_le _) (by
      intro c _ hc
      apply Decides.finds_returnWhen
      rw [element_map_some hc]
      apply Decides.ok
      simp [hc])
  rcases hfirst with ⟨i, _, _, ⟨card, hcard, hbower⟩, hearlier, hrun⟩ |
    ⟨hnone, hrun⟩
  · left
    refine ⟨i, card, hcard, hbower, ?_, hrun⟩
    intro j other hj hother hbower'
    exact hearlier j (Nat.zero_le j) hj ⟨other, hother, hbower'⟩
  · right
    refine ⟨?_, hrun⟩
    intro card hcard hbower
    obtain ⟨i, hi, heq⟩ := List.getElem_of_mem hcard
    exact hnone i (Nat.zero_le i) hi ⟨card, by simp [hi, heq], hbower⟩

theorem areTrumps_completes
    (trick : List Card) (trump : Int8) {returned : ℤ → Prop} :
    Completes (areTrumps (trick.map some) trump)
      (fun found => found = true ↔ ∃ i, SuitAt trick trump i) returned := by
  unfold areTrumps
  rw [List.length_map]
  apply (forRange_rule
    (fun index found => found = true ↔ ∃ i, i < index ∧ SuitAt trick trump i)
    (Nat.zero_le _) ?_ ?_).mono
  · intro found hfound
    rw [hfound]
    constructor
    · intro hexists
      rcases hexists with ⟨i, _, hsuit⟩
      exact ⟨i, hsuit⟩
    · intro hexists
      rcases hexists with ⟨i, hsuit⟩
      exact ⟨i, hsuit.lt, hsuit⟩
  · simp
  · intro c found _ hc hfound
    apply Returns.completes_assign
    rw [element_map_some hc]
    refine ⟨_, rfl, ?_⟩
    by_cases hsuit : trick[c].suit = trump
    · rw [if_pos hsuit]
      simp only [true_iff]
      exact ⟨c, by omega, (suitAt_iff hc trump).mpr hsuit⟩
    · rw [if_neg hsuit]
      change found = true ↔ _
      rw [hfound]
      constructor
      · intro hexists
        rcases hexists with ⟨i, hi, hat⟩
        exact ⟨i, by omega, hat⟩
      · intro hexists
        rcases hexists with ⟨i, hi, hat⟩
        have hne : i ≠ c := by
          intro heq
          subst i
          exact hsuit ((suitAt_iff hc trump).mp hat)
        exact ⟨i, by omega, hat⟩

theorem firstTrump_completes
    {trick : List Card} {trump : Int8} (hexists : ∃ i, SuitAt trick trump i)
    {returned : ℤ → Prop} :
    Completes (firstTrump (trick.map some) trump)
      (fun highIndex => ∃ i : ℕ, highIndex = i ∧ SuitAt trick trump i ∧
        ∀ j, j < i → ¬ SuitAt trick trump j) returned := by
  unfold firstTrump
  rw [List.length_map]
  apply (forWhile_until
    (fun highIndex => ∃ i : ℕ, highIndex = (i : ℤ) ∧ SuitAt trick trump i ∧
      ∀ j, j < i → ¬ SuitAt trick trump j)
    (fun index highIndex => highIndex = -1 ∧
      ∀ j, j < index → ¬ SuitAt trick trump j)
    ?_ ?_ (Nat.zero_le _) ?_ ?_).mono
  · intro highIndex hfinal
    rcases hfinal with hreached | ⟨_, hnone⟩
    · exact hreached
    · rcases hexists with ⟨i, hat⟩
      exact (hnone i hat.lt hat).elim
  · intro highIndex hreached
    rcases hreached with ⟨i, hi, _⟩
    simp [hi]
  · intro index highIndex hrunning
    simp [hrunning.1]
  · exact ⟨rfl, fun j hj => by omega⟩
  · intro c highIndex _ hc hrunning
    apply Returns.completes_assign
    rw [element_map_some hc]
    refine ⟨_, rfl, ?_⟩
    by_cases hsuit : trick[c].suit = trump
    · left
      exact ⟨c, if_pos hsuit, (suitAt_iff hc trump).mpr hsuit, hrunning.2⟩
    · right
      rw [if_neg hsuit]
      refine ⟨hrunning.1, ?_⟩
      intro j hj hat
      by_cases heq : j = c
      · subst j
        exact hsuit ((suitAt_iff hc trump).mp hat)
      · exact hrunning.2 j (by omega) hat

theorem highestOfSuit_completes
    {trick : List Card} {suit : Int8} {lo seed : ℕ}
    (hle : lo ≤ trick.length) (hlo : lo ≤ seed + 1)
    (hseed : SuitAt trick suit seed)
    (hfirst : ∀ i, i < seed → ¬ SuitAt trick suit i)
    {returned : ℤ → Prop} :
    Completes (highestOfSuit (trick.map some) suit lo seed)
      (fun final => ∃ winner : ℕ, final = winner ∧
        IsFirstMax trick.length (SuitAt trick suit) (valueAt trick) winner)
      returned := by
  unfold highestOfSuit
  rw [List.length_map]
  apply forRange_firstMax (fun index : ℕ => (index : ℤ)) hle hlo hseed.lt hseed
    hfirst
  intro index best hindex hbest _
  have hvalue : valueAt trick best < valueAt trick index ↔
      trick[best].value < trick[index].value := by
    simp [valueAt, hindex, hbest, Int8.lt_iff_toInt_lt]
  simp only [element_map_some hindex, element_map_some hbest, ok_bind,
    pure_eq_ok]
  unfold KeepsBest
  rw [hvalue, suitAt_iff hindex]
  by_cases hsuit : trick[index].suit = suit
  · by_cases hbetter : trick[best].value < trick[index].value
    · exact ⟨index, by simp [hsuit, hbetter, assign, Except.map],
        .inl ⟨hsuit, hbetter, rfl⟩⟩
    · exact ⟨best, by simp [hsuit, hbetter, assign, Except.map],
        .inr ⟨by simp [hbetter], rfl⟩⟩
  · exact ⟨best, by simp [hsuit, assign, Except.map],
      .inr ⟨by simp [hsuit], rfl⟩⟩

/-! ## The winner is the first maximal card -/

private theorem valueAt_of_getElem?
    {trick : List Card} {i : ℕ} {card : Card} (hcard : trick[i]? = some card) :
    valueAt trick i = card.value.toInt := by
  simp [valueAt, hcard]

/-- A first maximum by value within one suit is a first maximum in the Euchre
order, provided every card outside that suit is weaker. -/
private theorem winsAt_of_firstMax
    {trump suit : Int8} {lead : Card} {rest : List Card} {winner level : ℕ}
    (hmax : IsFirstMax (lead :: rest).length (SuitAt (lead :: rest) suit)
      (valueAt (lead :: rest)) winner)
    (hinside : ∀ card ∈ lead :: rest, card.suit = suit →
      strength trump (effectiveSuit trump lead) card =
        toLex (level, card.value.toInt))
    (houtside : ∀ card ∈ lead :: rest, card.suit ≠ suit → ∀ v : ℤ,
      strength trump (effectiveSuit trump lead) card < toLex (level, v)) :
    WinsAt trump lead rest winner := by
  rcases hmax.mem with ⟨card, hcard, hsuit⟩
  have hstrength := hinside card (List.mem_of_getElem? hcard) hsuit
  refine ⟨card, hcard, ?_, ?_⟩
  · intro other hother
    rw [hstrength]
    by_cases hsame : other.suit = suit
    · obtain ⟨i, hi, heq⟩ := List.getElem_of_mem hother
      have hentry : (lead :: rest)[i]? = some other := by
        rw [List.getElem?_eq_getElem hi, heq]
      have hle := hmax.le i hi ⟨other, hentry, hsame⟩
      rw [valueAt_of_getElem? hentry, valueAt_of_getElem? hcard] at hle
      rw [hinside other hother hsame, Prod.Lex.toLex_le_toLex]
      exact .inr ⟨rfl, hle⟩
    · exact (houtside other hother hsame _).le
  · intro i other hi hentry
    have hother := List.mem_of_getElem? hentry
    rw [hstrength]
    by_cases hsame : other.suit = suit
    · have hlt := hmax.first i hi ⟨other, hentry, hsame⟩
      rw [valueAt_of_getElem? hentry, valueAt_of_getElem? hcard] at hlt
      rw [hinside other hother hsame, Prod.Lex.toLex_lt_toLex]
      exact .inr ⟨rfl, hlt⟩
    · exact houtside other hother hsame _

/-- Without bowers the highest trump wins, and without trumps the highest
card of the led suit. -/
private theorem suitWinner_returns
    {trump : Int8} {lead : Card} {rest : List Card}
    (hright : ∀ card ∈ lead :: rest, ¬ IsRightBower trump card)
    (hleft : ∀ card ∈ lead :: rest, ¬ IsLeftBower trump card) :
    Returns (suitWinner ((lead :: rest).map some) trump)
      (fun index => ∃ winner : ℕ, index = winner ∧
        WinsAt trump lead rest winner) := by
  unfold suitWinner
  apply (areTrumps_completes (lead :: rest) trump).afterLoop
  intro found hfound
  by_cases hexists : ∃ i, SuitAt (lead :: rest) trump i
  · rw [if_pos (hfound.mpr hexists)]
    apply (firstTrump_completes hexists).afterLoop
    intro highIndex hseed
    rcases hseed with ⟨seed, hseedEq, hseedAt, hseedFirst⟩
    subst highIndex
    apply (highestOfSuit_completes (Nat.zero_le _) (Nat.zero_le _)
      hseedAt hseedFirst).afterLoop
    intro highIndex hwinner
    rcases hwinner with ⟨winner, hwinnerEq, hmax⟩
    refine ⟨highIndex, rfl, winner, hwinnerEq, ?_⟩
    apply winsAt_of_firstMax hmax
    · intro card hcard hsuit
      exact strength_trump (hright card hcard) (hleft card hcard) hsuit
    · intro card hcard hsuit v
      exact strength_lt_trump (hright card hcard) (hleft card hcard) hsuit v
  · rw [if_neg fun hyes => hexists (hfound.mp hyes)]
    have hnoTrump : ∀ card ∈ lead :: rest, card.suit ≠ trump := by
      intro card hcard hsuit
      obtain ⟨i, hi, heq⟩ := List.getElem_of_mem hcard
      apply hexists
      exact ⟨i, (suitAt_iff hi trump).mpr (by rw [heq, hsuit])⟩
    have hled : effectiveSuit trump lead = lead.suit := by
      simp [effectiveSuit, hleft lead (by simp)]
    have hlead : SuitAt (lead :: rest) lead.suit 0 := ⟨lead, rfl, rfl⟩
    have hread : element ((lead :: rest).map some) 0 = .ok lead := rfl
    rw [hread, ok_bind]
    apply (highestOfSuit_completes hlead.lt (Nat.le_refl 1) hlead
      (fun i hi => by omega)).afterLoop
    intro winIndex hwinner
    rcases hwinner with ⟨winner, hwinnerEq, hmax⟩
    refine ⟨winIndex, rfl, winner, hwinnerEq, ?_⟩
    apply winsAt_of_firstMax hmax
    · intro card hcard hsuit
      rw [hled]
      exact strength_led (hright card hcard) (hleft card hcard)
        (hnoTrump card hcard) hsuit
    · intro card hcard hsuit v
      rw [hled]
      exact strength_lt_led (hright card hcard) (hleft card hcard)
        (hnoTrump card hcard) hsuit v

theorem trickWinner_returns
    {trump : Int8} (htrump : IsSuit trump) (lead : Card) (rest : List Card) :
    Returns (trickWinner ((lead :: rest).map some) trump)
      (fun index => ∃ winner : ℕ, index = winner ∧
        WinsAt trump lead rest winner) := by
  unfold trickWinner
  rcases bowerScan_cases (lead :: rest) trump with
    ⟨i, card, hcard, hbower, hearlier, hrun⟩ | ⟨hnoRight, hrun⟩
  · have hright := (isRightBower_iff trump card).mpr hbower
    have hstrength : strength trump (effectiveSuit trump lead) card =
        toLex (4, 0) := by
      simp [strength, hright]
    rw [hrun, afterLoop_ret]
    refine ⟨i, rfl, i, rfl, card, hcard, ?_, ?_⟩
    · intro other _
      rw [hstrength]
      exact strength_le_right
    · intro j other hj hother
      rw [hstrength]
      apply strength_lt_right
      rw [isRightBower_iff]
      exact hearlier j other hj hother
  have hnotRight : ∀ card ∈ lead :: rest, ¬ IsRightBower trump card := by
    intro card hcard
    rw [isRightBower_iff]
    exact hnoRight card hcard
  rw [hrun, afterLoop_next]
  rcases bowerScan_cases (lead :: rest) (partnerSuit trump) with
    ⟨i, card, hcard, hbower, hearlier, hrun⟩ | ⟨hnoLeft, hrun⟩
  · have hleft := (isLeftBower_iff htrump card).mpr hbower
    have hright := hnotRight card (List.mem_of_getElem? hcard)
    have hstrength : strength trump (effectiveSuit trump lead) card =
        toLex (3, 0) := by
      simp [strength, hright, hleft]
    rw [hrun, afterLoop_ret]
    refine ⟨i, rfl, i, rfl, card, hcard, ?_, ?_⟩
    · intro other hother
      rw [hstrength]
      exact strength_le_left (hnotRight other hother)
    · intro j other hj hother
      rw [hstrength]
      apply strength_lt_left (hnotRight other (List.mem_of_getElem? hother))
      rw [isLeftBower_iff htrump]
      exact hearlier j other hj hother
  have hnotLeft : ∀ card ∈ lead :: rest, ¬ IsLeftBower trump card := by
    intro card hcard
    rw [isLeftBower_iff htrump]
    exact hnoLeft card hcard
  rw [hrun, afterLoop_next]
  exact suitWinner_returns hnotRight hnotLeft

theorem trickWinner_of_null_lead (rest : CardArray) (trump : Int8) :
    trickWinner (none :: rest) trump = .error .nullPointer := by
  have hscan : bowerScan (none :: rest) trump = .error .nullPointer := by
    simp [bowerScan, forRange, forWhile, forLoop, element, arrayGet, deref,
      returnWhen, Except.bind]
  simp [trickWinner, hscan, afterLoop]

/-! ## Order of play -/

private def strengthClass (trump led : Int8) (card : Card) : ℕ :=
  (ofLex (strength trump led card)).1

private theorem eq_of_strength_eq
    {trump led : Int8} (htrump : IsSuit trump) {card other : Card}
    (hequal : strength trump led card = strength trump led other)
    (hpositive : 0 < strengthClass trump led card) :
    card = other := by
  have hfields : card.value = other.value ∧ card.suit = other.suit := by
    unfold strengthClass at hpositive
    unfold strength at hequal hpositive
    simp only [isRightBower_iff, isLeftBower_iff htrump] at hequal hpositive
    split_ifs at hequal hpositive <;>
      simp_all [Prod.ext_iff, Int8.toInt_inj]
  cases card
  cases other
  simpa using hfields

private theorem strengthClass_lead_pos (trump : Int8) (lead : Card) :
    0 < strengthClass trump (effectiveSuit trump lead) lead := by
  unfold strengthClass strength effectiveSuit
  split_ifs <;> simp_all

private theorem strengthClass_mono
    {trump led : Int8} {card other : Card}
    (hle : strength trump led card ≤ strength trump led other) :
    strengthClass trump led card ≤ strengthClass trump led other := by
  rcases Prod.Lex.le_iff.mp hle with hlt | ⟨heq, _⟩
  · exact hlt.le
  · exact heq.le

theorem winningCard_of_winsAt
    {trump : Int8} {lead : Card} {rest : List Card} {winner : ℕ} {card : Card}
    (hrun : trickWinner ((lead :: rest).map some) trump = .ok (winner : ℤ))
    (hcard : (lead :: rest)[winner]? = some card) :
    winningCard ((lead :: rest).map some) trump = .ok (some card) := by
  obtain ⟨hlt, heq⟩ := List.getElem?_eq_some_iff.mp hcard
  have hbound : winner < ((lead :: rest).map some).length := by
    simpa using hlt
  unfold winningCard
  rw [hrun, ok_bind, arrayGet_natCast_of_lt hbound, List.getElem_map, heq]

theorem winningCard_eq_of_perm
    {trump : Int8} (htrump : IsSuit trump) {lead : Card}
    {rest rest' : List Card} (hperm : rest'.Perm rest) :
    winningCard ((lead :: rest').map some) trump =
      winningCard ((lead :: rest).map some) trump := by
  obtain ⟨_, hrun, winner, rfl, card, hcard, hmax, _⟩ :=
    trickWinner_returns htrump lead rest
  obtain ⟨_, hrun', winner', rfl, card', hcard', hmax', _⟩ :=
    trickWinner_returns htrump lead rest'
  have hpermLead : (lead :: rest').Perm (lead :: rest) := hperm.cons lead
  have hmem := List.mem_of_getElem? hcard
  have hmem' := List.mem_of_getElem? hcard'
  have hle := hmax card' (hpermLead.mem_iff.mp hmem')
  have hge := hmax' card (hpermLead.mem_iff.mpr hmem)
  have hpositive :=
    (strengthClass_lead_pos trump lead).trans_le
      (strengthClass_mono (hmax lead (by simp)))
  have hsame : card = card' :=
    eq_of_strength_eq htrump (le_antisymm hge hle) hpositive
  rw [winningCard_of_winsAt hrun hcard, winningCard_of_winsAt hrun' hcard',
    hsame]

/-- `trickWinner` returns the first maximal card of the Euchre order, so the
order of the cards after the lead does not change which card wins. -/
theorem trickWinner_first_maximal
    (trump : Int8) (htrump : IsSuit trump) (lead : Card) (rest : List Card) :
    (∃ winner : ℕ,
        trickWinner ((lead :: rest).map some) trump = .ok (winner : ℤ) ∧
          WinsAt trump lead rest winner) ∧
      ∀ rest' : List Card, rest'.Perm rest →
        winningCard ((lead :: rest').map some) trump =
          winningCard ((lead :: rest).map some) trump := by
  constructor
  · obtain ⟨index, hrun, winner, hindex, hwins⟩ :=
      trickWinner_returns htrump lead rest
    exact ⟨winner, by rw [hrun, hindex], hwins⟩
  · intro rest' hperm
    exact winningCard_eq_of_perm htrump hperm

theorem trickWinner_first_maximal_led_left_bower :
    trickWinner
        (([⟨11, Card.clubs⟩, ⟨14, Card.spades⟩, ⟨14, Card.clubs⟩] :
          List Card).map some) Card.spades = .ok 0 ∧
      ∃ winner : ℕ,
        trickWinner
            (([⟨11, Card.clubs⟩, ⟨14, Card.spades⟩, ⟨14, Card.clubs⟩] :
              List Card).map some) Card.spades = .ok (winner : ℤ) ∧
          WinsAt Card.spades ⟨11, Card.clubs⟩
            [⟨14, Card.spades⟩, ⟨14, Card.clubs⟩] winner := by
  constructor
  · decide
  · exact (trickWinner_first_maximal Card.spades (.inr (.inr (.inr rfl)))
      ⟨11, Card.clubs⟩ [⟨14, Card.spades⟩, ⟨14, Card.clubs⟩]).1

end Euchre
end HighRollers
