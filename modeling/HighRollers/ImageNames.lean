import HighRollers.Card
import HighRollers.JavaText

/-!
# Names of card images

`parseCard` reads a card off the name of its image, a suit word and a value
separated by `_` or `.`.  The value goes through two chains of tests: one
recognises the face words, the other one, entered for each suit, calls
`parseInt` on the same component whether or not it is a face word.  The two
slots filled by the chains are then passed to the constructor of `Card`.
-/

namespace HighRollers
namespace Poker

open Java

/-! ## The parser -/

def isSeparator (c : Char) : Bool :=
  c = '_' || c = '.'

/-- `imageName.split("[_.]+")`. -/
def splitString (imageName : String) : List (List Char) :=
  split isSeparator imageName.toList

/-- The first chain: `values[1]` for a face card. -/
def faceCard (component : List Char) : Option Int8 :=
  if equalsIgnoreCase component "KING" then some 13
  else if equalsIgnoreCase component "QUEEN" then some 12
  else if equalsIgnoreCase component "JACK" then some 11
  else if equalsIgnoreCase component "ACE" then some 14
  else none

/-- The tests of the second chain: `values[0]` for a suit word. -/
def suitCode (component : List Char) : Option Int8 :=
  if equalsIgnoreCase component "HEART" then some 0
  else if equalsIgnoreCase component "DIAMOND" then some 1
  else if equalsIgnoreCase component "CLUB" then some 2
  else if equalsIgnoreCase component "SPADE" then some 3
  else none

/-- A name is read as `new Card(values[0], values[1])`; the slots are 0 at
first. -/
def parseCard (imageName : String) : Run Card := do
  let second ← arrayGet (splitString imageName) 1
  let first ← arrayGet (splitString imageName) 0
  match suitCode first with
  | some code =>
      let intType ← parseInt second
      return ⟨code, (faceCard second).getD (Int8.ofInt intType)⟩
  | none =>
      return ⟨0, (faceCard second).getD 0⟩

/-! ## The naming scheme -/

inductive SuitWord
  | heart
  | diamond
  | club
  | spade
  deriving DecidableEq, Repr

def SuitWord.word : SuitWord → String
  | .heart => "HEART"
  | .diamond => "DIAMOND"
  | .club => "CLUB"
  | .spade => "SPADE"

def SuitWord.constant : SuitWord → Int8
  | .heart => Card.hearts
  | .diamond => Card.diamonds
  | .club => Card.clubs
  | .spade => Card.spades

def IsSuitWord (component : List Char) : Prop :=
  ∃ suit : SuitWord, equalsIgnoreCase component suit.word = true

def faceWords : List String :=
  ["ACE", "KING", "QUEEN", "JACK"]

def numberWords : List String :=
  ["TWO", "THREE", "FOUR", "FIVE", "SIX", "SEVEN", "EIGHT", "NINE", "TEN"]

def IsFaceWord (component : List Char) : Prop :=
  ∃ word ∈ faceWords, equalsIgnoreCase component word = true

def IsNumberWord (component : List Char) : Prop :=
  ∃ word ∈ numberWords, equalsIgnoreCase component word = true

def IsDesignation (component : List Char) : Prop :=
  IsFaceWord component ∨ IsNumeral component ∨ IsNumberWord component

/-- The name consists of the two words, separators between them, and possibly
separators and further components after them. -/
def Follows (imageName : String) (first second : List Char) : Prop :=
  ∃ separators rest,
    imageName.toList = first ++ separators ++ second ++ rest ∧
      separators ≠ [] ∧ (∀ c ∈ separators, isSeparator c = true) ∧
      (∀ c ∈ first, isSeparator c = false) ∧
      (∀ c ∈ second, isSeparator c = false) ∧
      ∀ c ∈ rest.head?, isSeparator c = true

/-! ## Words -/

theorem equalsIgnoreCase_eq_false
    {text : List Char} {word word' : String}
    (hword : equalsIgnoreCase text word = true)
    (hne : word.toList.map foldCase ≠ word'.toList.map foldCase) :
    equalsIgnoreCase text word' = false := by
  cases hword' : equalsIgnoreCase text word' with
  | false => rfl
  | true => exact absurd (eq_of_equalsIgnoreCase hword hword') hne

theorem suitCode_of_word
    {component : List Char} {suit : SuitWord}
    (hsuit : equalsIgnoreCase component suit.word = true) :
    suitCode component = some suit.constant := by
  have hother : ∀ other : SuitWord, suit ≠ other →
      equalsIgnoreCase component other.word = false := by
    intro other hne
    apply equalsIgnoreCase_eq_false hsuit
    revert hne
    cases suit <;> cases other <;> decide
  have hheart := hother .heart
  have hdiamond := hother .diamond
  have hclub := hother .club
  cases suit with
  | heart => simp_all [suitCode, SuitWord.word, SuitWord.constant, Card.hearts]
  | diamond =>
      simp_all [suitCode, SuitWord.word, SuitWord.constant, Card.diamonds]
  | club => simp_all [suitCode, SuitWord.word, SuitWord.constant, Card.clubs]
  | spade =>
      simp_all [suitCode, SuitWord.word, SuitWord.constant, Card.spades]

theorem suitCode_of_not_isSuitWord
    {component : List Char} (hsuit : ¬ IsSuitWord component) :
    suitCode component = none := by
  have hnone : ∀ suit : SuitWord,
      equalsIgnoreCase component suit.word = false := by
    intro suit
    cases hword : equalsIgnoreCase component suit.word with
    | false => rfl
    | true => exact absurd ⟨suit, hword⟩ hsuit
  have hheart := hnone .heart
  have hdiamond := hnone .diamond
  have hclub := hnone .club
  have hspade := hnone .spade
  simp_all [suitCode, SuitWord.word]

theorem parseInt_of_faceWord
    {component : List Char} (hface : IsFaceWord component) :
    parseInt component = .error .numberFormat := by
  rcases hface with ⟨word, hmem, hword⟩
  have hletters : ∀ word ∈ faceWords, startsWithLetter word = true := by
    decide
  exact parseInt_of_startsWithLetter (hletters word hmem) hword

theorem parseInt_of_numberWord
    {component : List Char} (hnumber : IsNumberWord component) :
    parseInt component = .error .numberFormat := by
  rcases hnumber with ⟨word, hmem, hword⟩
  have hletters : ∀ word ∈ numberWords, startsWithLetter word = true := by
    decide
  exact parseInt_of_startsWithLetter (hletters word hmem) hword

theorem not_isFaceWord_of_isNumeral
    {component : List Char} (hnumeral : IsNumeral component)
    (hsmall : numeralValue component < 2 ^ 31) :
    ¬ IsFaceWord component := by
  intro hface
  have herror := parseInt_of_faceWord hface
  rw [parseInt_of_isNumeral hnumeral, if_pos hsmall] at herror
  contradiction

theorem faceCard_of_not_isFaceWord
    {component : List Char} (hface : ¬ IsFaceWord component) :
    faceCard component = none := by
  have hnone : ∀ word ∈ faceWords,
      equalsIgnoreCase component word = false := by
    intro word hmem
    cases hword : equalsIgnoreCase component word with
    | false => rfl
    | true => exact absurd ⟨word, hmem, hword⟩ hface
  simp_all [faceCard, faceWords]

/-! ## The cases of the parser -/

section Cases

variable {imageName : String} {first second : List Char}
  {more : List (List Char)}

theorem arrayGet_components
    (hname : splitString imageName = first :: second :: more) :
    arrayGet (splitString imageName) 0 = .ok first ∧
      arrayGet (splitString imageName) 1 = .ok second := by
  rw [hname]
  exact ⟨rfl, rfl⟩

theorem parseCard_of_suit
    {suit : SuitWord} (hname : splitString imageName = first :: second :: more)
    (hsuit : equalsIgnoreCase first suit.word = true) :
    parseCard imageName =
      (parseInt second).bind fun intType =>
        .ok ⟨suit.constant,
          (faceCard second).getD (Int8.ofInt intType)⟩ := by
  have hget := arrayGet_components hname
  simp only [parseCard, hget.1, hget.2, ok_bind, suitCode_of_word hsuit]
  rfl

theorem parseCard_of_no_suit
    (hname : splitString imageName = first :: second :: more)
    (hsuit : ¬ IsSuitWord first) :
    parseCard imageName = .ok ⟨0, (faceCard second).getD 0⟩ := by
  have hget := arrayGet_components hname
  simp only [parseCard, hget.1, hget.2, ok_bind,
    suitCode_of_not_isSuitWord hsuit]
  rfl

theorem parseCard_of_numeral
    {suit : SuitWord} (hname : splitString imageName = first :: second :: more)
    (hsuit : equalsIgnoreCase first suit.word = true)
    (hnumeral : IsNumeral second) (hsmall : numeralValue second < 2 ^ 31) :
    parseCard imageName =
      .ok ⟨suit.constant, Int8.ofInt (numeralValue second)⟩ := by
  have hface := not_isFaceWord_of_isNumeral hnumeral hsmall
  rw [parseCard_of_suit hname hsuit, parseInt_of_isNumeral hnumeral,
    if_pos hsmall, faceCard_of_not_isFaceWord hface]
  rfl

end Cases

/-! ## Numbered cards -/

/-- The constructor gets the slots in the wrong order, so a number can only
come out as its own suit code. -/
theorem swapped_slots_iff
    (suit : SuitWord) {number : ℕ} (hlower : 2 ≤ number)
    (hupper : number ≤ 10) :
    (suit.constant.toInt = number ∧
        Int8.ofInt (number : ℤ) = suit.constant) ↔
      suit = .club ∧ number = 2 ∨ suit = .spade ∧ number = 3 := by
  interval_cases number <;> cases suit <;> decide

theorem parseCard_numbered_iff
    (imageName : String) (suit : SuitWord) (first second : List Char)
    (more : List (List Char)) (card : Card)
    (hreturns : parseCard imageName = .ok card)
    (hname : splitString imageName = first :: second :: more)
    (hsuit : equalsIgnoreCase first suit.word = true)
    (hnumeral : IsNumeral second) (hlower : 2 ≤ numeralValue second)
    (hupper : numeralValue second ≤ 10) :
    (card.value.toInt = numeralValue second ∧ card.suit = suit.constant) ↔
      suit = .club ∧ numeralValue second = 2 ∨
        suit = .spade ∧ numeralValue second = 3 := by
  have hsmall : numeralValue second < 2 ^ 31 := by omega
  rw [parseCard_of_numeral hname hsuit hnumeral hsmall] at hreturns
  have hcard := Except.ok.inj hreturns
  subst card
  exact swapped_slots_iff suit hlower hupper

theorem parseCard_numbered_iff_two_of_clubs :
    ((⟨2, 2⟩ : Card).value.toInt = numeralValue ['2'] ∧
        (⟨2, 2⟩ : Card).suit = SuitWord.club.constant) ↔
      SuitWord.club = .club ∧ numeralValue ['2'] = 2 ∨
        SuitWord.club = .spade ∧ numeralValue ['2'] = 3 :=
  parseCard_numbered_iff "Club_2.png" .club "Club".toList ['2']
    ["png".toList] ⟨2, 2⟩ (by decide) (by decide) (by decide)
    ⟨by simp, by simp⟩ (by decide) (by decide)

theorem parseCard_seven_of_hearts :
    splitString "HEART_7.png" = ["HEART".toList, ['7'], "png".toList] ∧
      IsNumeral ['7'] ∧ numeralValue ['7'] = 7 ∧
      parseCard "HEART_7.png" = .ok ⟨0, 7⟩ ∧
      ¬ ((⟨0, 7⟩ : Card).value.toInt = 7 ∧
        (⟨0, 7⟩ : Card).suit = SuitWord.heart.constant) :=
  ⟨by decide, ⟨by simp, by simp⟩, by decide, by decide, by decide⟩

/-! ## Acceptance -/

/-- What the image database expects of the parser at one name: it returns a
card for a name following the scheme, and it throws only when the value is
missing or none of the known designations. -/
def AcceptsScheme (imageName : String) : Prop :=
  (∀ first second, IsSuitWord first → IsDesignation second →
      Follows imageName first second →
        ∃ card, parseCard imageName = .ok card) ∧
    ∀ e, parseCard imageName = .error e →
      (splitString imageName).length < 2 ∨
        ∃ second, (splitString imageName)[1]? = some second ∧
          ¬ IsDesignation second

def HitsParseInt (imageName : String) : Prop :=
  ∃ first second, (splitString imageName)[0]? = some first ∧
    (splitString imageName)[1]? = some second ∧ IsSuitWord first ∧
    (IsFaceWord second ∨ IsNumberWord second ∨
      IsNumeral second ∧ 2 ^ 31 ≤ numeralValue second)

theorem splitString_of_follows
    {imageName : String} {first second : List Char}
    (hfollows : Follows imageName first second) (hne : second ≠ []) :
    ∃ more, splitString imageName = first :: second :: more := by
  rcases hfollows with
    ⟨separators, rest, hname, hseparatorsNe, hseparators, hfirst, hsecond,
      hrest⟩
  unfold splitString
  rw [hname]
  exact split_two_words hfirst hseparatorsNe hseparators hsecond hne hrest

theorem exists_components
    {imageName : String} (hlength : 2 ≤ (splitString imageName).length) :
    ∃ first second more,
      splitString imageName = first :: second :: more := by
  cases hname : splitString imageName with
  | nil => simp [hname] at hlength
  | cons first rest =>
      cases rest with
      | nil => simp [hname] at hlength
      | cons second more => exact ⟨first, second, more, rfl⟩

theorem IsDesignation.ne_nil
    {component : List Char} (hdesignation : IsDesignation component) :
    component ≠ [] := by
  have hempty : ∀ word ∈ faceWords ++ numberWords,
      equalsIgnoreCase [] word = false := by
    decide
  intro hnil
  subst component
  rcases hdesignation with ⟨word, hmem, hword⟩ | hnumeral |
    ⟨word, hmem, hword⟩
  · rw [hempty word (List.mem_append_left numberWords hmem)] at hword
    contradiction
  · exact hnumeral.1 rfl
  · rw [hempty word (List.mem_append_right faceWords hmem)] at hword
    contradiction

theorem parseCard_returns_of_designation
    {imageName : String} {first second : List Char}
    {more : List (List Char)}
    (hname : splitString imageName = first :: second :: more)
    (hdesignation : IsDesignation second)
    (hhits : ¬ HitsParseInt imageName) :
    ∃ card, parseCard imageName = .ok card := by
  by_cases hsuit : IsSuitWord first
  · have hplain : ¬ (IsFaceWord second ∨ IsNumberWord second ∨
        IsNumeral second ∧ 2 ^ 31 ≤ numeralValue second) := by
      intro hrejected
      exact hhits ⟨first, second, by simp [hname], by simp [hname], hsuit,
        hrejected⟩
    rcases hdesignation with hface | hnumeral | hnumber
    · exact absurd (.inl hface) hplain
    · have hsmall : numeralValue second < 2 ^ 31 := by
        by_contra hlarge
        exact hplain (.inr (.inr ⟨hnumeral, Nat.le_of_not_lt hlarge⟩))
      rcases hsuit with ⟨suit, hword⟩
      exact ⟨_, parseCard_of_numeral hname hword hnumeral hsmall⟩
    · exact absurd (.inr (.inl hnumber)) hplain
  · exact ⟨_, parseCard_of_no_suit hname hsuit⟩

theorem parseCard_of_hitsParseInt
    {imageName : String} {first second : List Char}
    (hfirst : (splitString imageName)[0]? = some first)
    (hsecond : (splitString imageName)[1]? = some second)
    (hsuit : IsSuitWord first)
    (hrejected : IsFaceWord second ∨ IsNumberWord second ∨
      IsNumeral second ∧ 2 ^ 31 ≤ numeralValue second) :
    IsDesignation second ∧
      parseCard imageName = .error .numberFormat := by
  have hlength := (List.getElem?_eq_some_iff.mp hsecond).1
  obtain ⟨first', second', more, hname⟩ := exists_components hlength
  have hfirst' : first' = first := by simpa [hname] using hfirst
  have hsecond' : second' = second := by simpa [hname] using hsecond
  subst first' second'
  rcases hsuit with ⟨suit, hword⟩
  rw [parseCard_of_suit hname hword]
  rcases hrejected with hface | hnumber | ⟨hnumeral, hlarge⟩
  · rw [parseInt_of_faceWord hface]
    exact ⟨.inl hface, rfl⟩
  · rw [parseInt_of_numberWord hnumber]
    exact ⟨.inr (.inr hnumber), rfl⟩
  · rw [parseInt_of_isNumeral hnumeral, if_neg (Nat.not_lt.mpr hlarge)]
    exact ⟨.inr (.inl hnumeral), rfl⟩

/-- The parser accepts the naming scheme at a name exactly when the name does
not lead a face word, a number word or a numeral of 2^31 or more to
`parseInt`. -/
theorem parseCard_acceptsScheme_iff (imageName : String) :
    AcceptsScheme imageName ↔ ¬ HitsParseInt imageName := by
  constructor
  · intro haccepts hhits
    rcases hhits with
      ⟨first, second, hfirst, hsecond, hsuit, hrejected⟩
    have hlength := (List.getElem?_eq_some_iff.mp hsecond).1
    obtain ⟨hdesignation, herror⟩ :=
      parseCard_of_hitsParseInt hfirst hsecond hsuit hrejected
    rcases haccepts.2 _ herror with hshort | ⟨second', hsecond', hunknown⟩
    · omega
    · rw [hsecond] at hsecond'
      have heq := Option.some.inj hsecond'
      subst second'
      exact hunknown hdesignation
  · intro hhits
    constructor
    · intro first second _ hdesignation hfollows
      obtain ⟨more, hname⟩ :=
        splitString_of_follows hfollows hdesignation.ne_nil
      exact parseCard_returns_of_designation hname hdesignation hhits
    · intro e herror
      by_cases hshort : (splitString imageName).length < 2
      · exact .inl hshort
      · obtain ⟨first, second, more, hname⟩ :=
          exists_components (Nat.le_of_not_lt hshort)
        refine .inr ⟨second, by simp [hname], ?_⟩
        intro hdesignation
        obtain ⟨card, hcard⟩ :=
          parseCard_returns_of_designation hname hdesignation hhits
        rw [hcard] at herror
        contradiction

theorem parseCard_rejects_club_eight :
    parseCard "CLUB_EIGHT.png" = .error .numberFormat ∧
      Follows "CLUB_EIGHT.png" "CLUB".toList "EIGHT".toList ∧
      ¬ AcceptsScheme "CLUB_EIGHT.png" := by
  have hsuit : IsSuitWord "CLUB".toList := ⟨.club, by decide⟩
  have hnumber : IsNumberWord "EIGHT".toList :=
    ⟨"EIGHT", by decide, by decide⟩
  have hfollows : Follows "CLUB_EIGHT.png" "CLUB".toList "EIGHT".toList :=
    ⟨['_'], ".png".toList, by decide, by simp, by simp [isSeparator],
      by simp [isSeparator], by simp [isSeparator], by simp [isSeparator]⟩
  have herror : parseCard "CLUB_EIGHT.png" = .error .numberFormat := by
    decide
  refine ⟨herror, hfollows, ?_⟩
  intro haccepts
  obtain ⟨card, hcard⟩ := haccepts.1 _ _ hsuit (.inr (.inr hnumber)) hfollows
  rw [herror] at hcard
  contradiction

end Poker
end HighRollers
