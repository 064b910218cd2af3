import HighRollers.ArCore
import HighRollers.EuchreTrick
import HighRollers.JavaMethod
import Mathlib.Data.List.AList

/-!
# The Euchre activity

`EuchreAugmentActivity`: a tap places a card on the table, Submit announces
the winner of the cards on the table, Clear takes them away, and three
spinners choose the next card and the trump suit.  The cards on the table are
kept three times: in the list `anchors`, in the list `trackingCards` and in
the map `cardTypes` between the two.  The parameter `demo` stands for the
constant `DEMO`, which is `true` in the released source.
-/

namespace HighRollers
namespace Euchre

open Java

/-- An anchor and its colour.  Java compares these objects by identity; no
number in `anchor` is handed out twice. -/
structure ColoredAnchor where
  anchor : ℕ
  color : List ℕ
  deriving DecidableEq, Repr

structure Activity where
  anchors : List ColoredAnchor
  trackingCards : List Card
  cardTypes : AList fun _ : ColoredAnchor => Card
  currentSuit : Int8
  currentCardValue : Int8
  trumpSuit : Int8
  demoTapCount : ℤ
  message : Option String
  showMessage : Bool
  /-- The number of anchors ARCore has made so far. -/
  created : ℕ
  /-- The anchors on which `detach` was called, latest first. -/
  detached : List ℕ

namespace Activity

def onCreate : Activity where
  anchors := []
  trackingCards := []
  cardTypes := ∅
  currentSuit := -1
  currentCardValue := -1
  trumpSuit := Card.spades
  demoTapCount := 1
  message := none
  showMessage := false
  created := 0
  detached := []

def setCardType (type : Int8) (activity : Activity) : Activity :=
  { activity with currentCardValue := type }

def setTrumpSuit (tSuit : Int8) (activity : Activity) : Activity :=
  { activity with trumpSuit := tSuit }

def setCurrentSuit (cSuit : Int8) (activity : Activity) : Activity :=
  { activity with currentSuit := cSuit }

def write (text : String) (activity : Activity) : Activity :=
  { activity with message := some text }

def raise (activity : Activity) : Activity :=
  { activity with showMessage := true }

end Activity

open Activity

/-! ## Spinners -/

def valueCases : List (String × Int8) :=
  [("Two", 2), ("Three", 3), ("Four", 4), ("Five", 5), ("Six", 6),
    ("Seven", 7), ("Eight", 8), ("Nine", 9), ("Ten", 10),
    ("Jack", Card.jack), ("Queen", Card.queen), ("King", Card.king),
    ("Ace", Card.aceHigh)]

/-- The cases of the suit spinner and of the trump spinner. -/
def suitCases : List (String × Int8) :=
  [("Hearts", Card.hearts), ("Diamonds", Card.diamonds),
    ("Clubs", Card.clubs), ("Spades", Card.spades)]

/-- `valueSpinner.onItemSelected`. -/
def selectValue (selectedItem : String) : Method Activity Unit := do
  modify (write ("Selected Value: " ++ selectedItem))
  switch selectedItem (assigning setCardType valueCases) (pure ())

/-- `suitSpinner.onItemSelected`. -/
def selectSuit (selectedItem : String) : Method Activity Unit := do
  modify (write ("Selected Suit: " ++ selectedItem))
  switch selectedItem (assigning setCurrentSuit suitCases) (pure ())

/-- `trumpSuitSpinner.onItemSelected`. -/
def selectTrumpSuit (selectedItem : String) : Method Activity Unit := do
  modify (write ("Selected Trump Suit: " ++ selectedItem))
  modify raise
  switch selectedItem (assigning setTrumpSuit suitCases) (pure ())

def parseSuit (suitString : String) : Int8 :=
  match suitString with
  | "Hearts" => Card.hearts
  | "Diamonds" => Card.diamonds
  | "Clubs" => Card.clubs
  | "Spades" => Card.spades
  | _ => -1

def parseValue (valueString : String) : Int8 :=
  match valueString with
  | "Two" => 2
  | "Three" => 3
  | "Four" => 4
  | "Five" => 5
  | "Six" => 6
  | "Seven" => 7
  | "Eight" => 8
  | "Nine" => 9
  | "Ten" => 10
  | "Jack" => Card.jack
  | "Queen" => Card.queen
  | "King" => Card.king
  | "Ace" => Card.aceHigh
  | _ => -1

/-! ## Taps -/

def qualifies : Trackable → Bool
  | .plane isPoseInPolygon distanceIsPositive =>
      isPoseInPolygon && distanceIsPositive
  | .point orientationMode => orientationMode = .estimatedSurfaceNormal
  | .other => false

def objColor : Trackable → List ℕ
  | .point _ => [255, 0, 255, 0]
  | .plane _ _ => [255, 0, 0, 255]
  | .other => [0, 0, 0, 0]

/-- The cap on the number of objects.  The key removed from `cardTypes` is read
from `anchors` after the oldest anchor has left that list. -/
def evictOldest : Method Activity Unit := do
  if 20 ≤ (← get).anchors.length then
    let oldest ← call (listGet (← get).anchors 0)
    modify fun activity =>
      { activity with detached := oldest.anchor :: activity.detached }
    let anchors ← call (listRemove (← get).anchors 0)
    modify fun activity => { activity with anchors := anchors }
    let trackingCards ← call (listRemove (← get).trackingCards 0)
    modify fun activity => { activity with trackingCards := trackingCards }
    let key ← call (listGet (← get).anchors 0)
    modify fun activity =>
      { activity with cardTypes := activity.cardTypes.erase key }

/-- `new ColoredAnchor(hit.createAnchor(), objColor)`. -/
def newColoredAnchor (hit : HitResult) : Method Activity ColoredAnchor := do
  if hit.createsAnchor then
    let activity ← get
    modify fun activity => { activity with created := activity.created + 1 }
    return ⟨activity.created, objColor hit.trackable⟩
  else
    throw .external

def scripted (suit value : Int8) : Method Activity Unit := do
  modify (setCurrentSuit suit)
  modify (setCardType value)
  modify fun activity =>
    { activity with demoTapCount := activity.demoTapCount + 1 }

def demoScript : Method Activity Unit := do
  modify (setTrumpSuit Card.spades)
  switch (← get).demoTapCount
    [(1, scripted 3 Card.jack), (2, scripted 0 Card.queen),
      (3, scripted 2 10), (4, scripted 1 8)]
    (do
      modify (setCurrentSuit 3)
      modify (setCardType Card.aceHigh)
      modify fun activity => { activity with demoTapCount := 0 })

/-- What `handleTap` does with the first qualifying hit. -/
def placeCard (demo : Bool) (hit : HitResult) : Method Activity Unit := do
  evictOldest
  let newAnchor ← newColoredAnchor hit
  if demo then
    demoScript
  let newCard : Card := ⟨(← get).currentCardValue, (← get).currentSuit⟩
  modify fun activity =>
    { activity with trackingCards := activity.trackingCards ++ [newCard] }
  modify fun activity =>
    { activity with
      cardTypes := activity.cardTypes.insert newAnchor newCard }
  modify (write ("Placed Card: " ++ newCard.toString))
  modify raise
  modify fun activity =>
    { activity with anchors := activity.anchors ++ [newAnchor] }

/-- The loop over the hits, left by its `break`. -/
def hitLoop (demo : Bool) : List HitResult → Method Activity Unit
  | [] => pure ()
  | hit :: rest =>
      if qualifies hit.trackable then placeCard demo hit
      else hitLoop demo rest

def handleTap (demo : Bool) (frame : TapFrame) : Method Activity Unit :=
  match frame.tap with
  | none => pure ()
  | some hits =>
      if frame.camera = .tracking then hitLoop demo hits else pure ()

/-! ## Buttons -/

def pleaseIndicate : String :=
  "Please indicate which cards you'd like to process!"

/-- The trick array: one slot for each tracked card, filled in the order of
the anchors. -/
def trickArray (activity : Activity) : Run CardArray :=
  fillFrom (List.replicate activity.trackingCards.length none) 0
    (activity.anchors.map fun c => activity.cardTypes.lookup c)

def announce (demo : Bool) (trick : CardArray) : Method Activity Unit := do
  if demo then
    modify (setTrumpSuit Card.spades)
  let slot ← call (winningCard trick (← get).trumpSuit)
  let card ← call (deref slot)
  modify (write (card.toString ++ " WINS!"))

/-- `submitButton.onClick`. -/
def submit (demo : Bool) : Method Activity Unit := do
  if (← get).trackingCards.length = 0 then
    modify raise
    modify (write pleaseIndicate)
  else
    modify raise
    let trick ← call (trickArray (← get))
    announce demo trick

/-- The loop of Clear: `anchors` holds the given anchors at its head. -/
def detachAll : List ColoredAnchor → Activity → Activity
  | [], activity => activity
  | c :: rest, activity =>
      detachAll rest
        { activity with
          detached := c.anchor :: activity.detached
          anchors := rest
          cardTypes := ∅ }

/-- `resetButton.onClick`. -/
def clear : Method Activity Unit := do
  modify fun activity => { activity with trackingCards := [] }
  modify fun activity => detachAll activity.anchors activity

/-! ## Runs -/

inductive Event
  | tap (frame : TapFrame)
  | submit
  | clear
  | selectValue (item : String)
  | selectSuit (item : String)
  | selectTrumpSuit (item : String)
  deriving DecidableEq, Repr

def Event.handle (demo : Bool) : Event → Method Activity Unit
  | .tap frame => handleTap demo frame
  | .submit => Euchre.submit demo
  | .clear => Euchre.clear
  | .selectValue item => Euchre.selectValue item
  | .selectSuit item => Euchre.selectSuit item
  | .selectTrumpSuit item => Euchre.selectTrumpSuit item

def Activity.run (demo : Bool) (activity : Activity) (events : List Event) :
    Activity :=
  events.foldl (fun current event => (event.handle demo).after current) activity

end Euchre
end HighRollers
