import HighRollers.JavaRun

/-!
# Playing cards

`Card.java`: a card is a pair of bytes.  The byte constants name the suits and
the face values; numbered cards go by their number, and every other byte is a
legal field content as well.
-/

namespace HighRollers

structure Card where
  value : Int8
  suit : Int8
  deriving DecidableEq, Repr

namespace Card

def hearts : Int8 := 0
def diamonds : Int8 := 1
def clubs : Int8 := 2
def spades : Int8 := 3

def ace : Int8 := 1
def jack : Int8 := 11
def queen : Int8 := 12
def king : Int8 := 13
def aceHigh : Int8 := 14

/-- The text shown to the user, `VALUE OF SUIT`.  An unknown suit leaves the
second half empty. -/
def toString (card : Card) : String :=
  let valueText :=
    if card.value = aceHigh ∨ card.value = ace then "ACE"
    else if card.value = king then "KING"
    else if card.value = queen then "QUEEN"
    else if card.value = jack then "JACK"
    else ToString.toString card.value.toInt
  let suitText :=
    if card.suit = hearts then "HEARTS"
    else if card.suit = diamonds then "DIAMONDS"
    else if card.suit = clubs then "CLUBS"
    else if card.suit = spades then "SPADES"
    else ""
  valueText ++ " OF " ++ suitText

end Card

/-- A Java array of cards; its slots may be `null`. -/
abbrev CardArray := List (Option Card)

end HighRollers
