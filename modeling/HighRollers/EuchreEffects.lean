import HighRollers.EuchreListeners

/-!
# Effects of the handlers

What the handlers of the Euchre activity do to its fields, written as functions
of the fields.  Later files use these equations and never look into the
handlers again.
-/

namespace HighRollers
namespace Euchre

open Java
open Activity

/-! ## Taps and buttons -/

def selectedCard (activity : Activity) : Card :=
  ⟨activity.currentCardValue, activity.currentSuit⟩

/-- The effect of the demo script: every case runs on into the default. -/
def demoChoice (activity : Activity) : Activity :=
  { activity with
    trumpSuit := Card.spades
    currentSuit := Card.spades
    currentCardValue := Card.aceHigh
    demoTapCount := 0 }

theorem demoScript_run (activity : Activity) :
    demoScript.run activity = .ok () (demoChoice activity) := by
  simp only [demoScript, switch, runOn, scripted, EStateM.run_bind,
    run_assign, run_fields]
  split_ifs <;> simp [demoChoice, setTrumpSuit, setCurrentSuit, setCardType,
    Card.spades]

theorem evictOldest_run_of_lt
    {activity : Activity} (hroom : activity.anchors.length < 20) :
    evictOldest.run activity = .ok () activity := by
  have hcap : ¬ 20 ≤ activity.anchors.length := by omega
  simp [evictOldest, hcap]

/-- The fields after an eviction.  The oldest anchor keeps its card in the map;
the anchor which is now the first one loses it. -/
def evicted (oldest first : ColoredAnchor) (rest : List ColoredAnchor)
    (cards : List Card) (activity : Activity) : Activity :=
  { activity with
    anchors := first :: rest
    trackingCards := cards
    cardTypes := activity.cardTypes.erase first
    detached := oldest.anchor :: activity.detached }

theorem evictOldest_run_of_full
    {activity : Activity} {oldest first : ColoredAnchor}
    {rest : List ColoredAnchor} {card : Card} {cards : List Card}
    (hfull : 20 ≤ activity.anchors.length)
    (hanchors : activity.anchors = oldest :: first :: rest)
    (hcards : activity.trackingCards = card :: cards) :
    evictOldest.run activity =
      .ok () (evicted oldest first rest cards activity) := by
  simp only [evictOldest, EStateM.run_bind, run_fields, if_pos hfull]
  simp [hanchors, hcards, evicted]

theorem newColoredAnchor_run
    {hit : HitResult} (hhit : hit.createsAnchor = true)
    (activity : Activity) :
    (newColoredAnchor hit).run activity =
      .ok ⟨activity.created, objColor hit.trackable⟩
        { activity with created := activity.created + 1 } := by
  simp only [newColoredAnchor, if_pos hhit]
  rfl

def withCard (demo : Bool) (hit : HitResult) (activity : Activity) :
    Activity :=
  let chosen := if demo then demoChoice activity else activity
  let newAnchor : ColoredAnchor :=
    ⟨activity.created, objColor hit.trackable⟩
  { chosen with
    trackingCards := activity.trackingCards ++ [selectedCard chosen]
    cardTypes := activity.cardTypes.insert newAnchor (selectedCard chosen)
    anchors := activity.anchors ++ [newAnchor]
    created := activity.created + 1
    message := some ("Placed Card: " ++ (selectedCard chosen).toString)
    showMessage := true }

theorem placeCard_run
    {demo : Bool} {hit : HitResult} {activity room : Activity}
    (hhit : hit.createsAnchor = true)
    (hroom : evictOldest.run activity = .ok () room) :
    (placeCard demo hit).run activity = .ok () (withCard demo hit room) := by
  simp only [placeCard, EStateM.run_bind, hroom, newColoredAnchor_run hhit]
  cases demo with
  | false =>
      simp [withCard, selectedCard, write, raise]
  | true =>
      simp [demoScript_run, withCard, selectedCard, demoChoice, write, raise]

/-- The hit for which a call of `handleTap` places a card, if there is one. -/
def placingHit (frame : TapFrame) : Option HitResult :=
  if frame.camera = .tracking then
    (frame.tap.getD []).find? fun hit => qualifies hit.trackable
  else
    none

/-- A tap succeeds when ARCore makes the anchor it asks for. -/
def Event.Succeeds : Event → Prop
  | .tap frame => ∀ hit, placingHit frame = some hit →
      hit.createsAnchor = true
  | _ => True

theorem hitLoop_eq (demo : Bool) (hits : List HitResult) :
    hitLoop demo hits =
      match hits.find? fun hit => qualifies hit.trackable with
      | some hit => placeCard demo hit
      | none => pure () := by
  induction hits with
  | nil => rfl
  | cons hit rest ih =>
      by_cases hqualifies : qualifies hit.trackable = true
      · simp [hitLoop, hqualifies]
      · simp [hitLoop, hqualifies, ih]

theorem handleTap_eq (demo : Bool) (frame : TapFrame) :
    handleTap demo frame =
      match placingHit frame with
      | some hit => placeCard demo hit
      | none => pure () := by
  rcases frame with ⟨tap, camera⟩
  unfold handleTap placingHit
  by_cases hcamera : camera = .tracking
  · cases tap with
    | none => simp [hcamera]
    | some hits => simp [hcamera, hitLoop_eq]
  · cases tap with
    | none => simp [hcamera]
    | some hits => simp [hcamera]

theorem detachAll_eq (anchors : List ColoredAnchor) (activity : Activity) :
    detachAll anchors activity =
      if anchors = [] then activity
      else
        { activity with
          anchors := []
          cardTypes := ∅
          detached := (anchors.map ColoredAnchor.anchor).reverse ++
            activity.detached } := by
  induction anchors generalizing activity with
  | nil => simp [detachAll]
  | cons c rest ih =>
      rw [detachAll, ih]
      cases rest with
      | nil => simp
      | cons c' rest => simp

theorem clear_run (activity : Activity) :
    clear.run activity =
      .ok () (detachAll activity.anchors
        { activity with trackingCards := [] }) := by
  simp [clear]

theorem submit_run_of_empty
    {activity : Activity} (hcards : activity.trackingCards = [])
    (demo : Bool) :
    (submit demo).run activity =
      .ok () (write pleaseIndicate (raise activity)) := by
  simp [submit, hcards]

def trumpInEffect (demo : Bool) (activity : Activity) : Int8 :=
  if demo then Card.spades else activity.trumpSuit

theorem submit_run_of_winner
    {activity : Activity} {trick : CardArray} {card : Card} {demo : Bool}
    (hcards : activity.trackingCards ≠ [])
    (htrick : trickArray activity = .ok trick)
    (hwinner : winningCard trick (trumpInEffect demo activity) =
      .ok (some card)) :
    (submit demo).run activity =
      .ok () (write (card.toString ++ " WINS!")
        (setTrumpSuit (trumpInEffect demo activity) (raise activity))) := by
  have htrick' : trickArray (raise activity) = .ok trick := htrick
  cases demo with
  | false =>
      have hwinner' : winningCard trick (raise activity).trumpSuit =
          .ok (some card) := hwinner
      simp [submit, announce, hcards, htrick', hwinner', deref]
      rfl
  | true =>
      have hwinner' : winningCard trick Card.spades = .ok (some card) :=
        hwinner
      simp [submit, announce, hcards, htrick', hwinner', deref, trumpInEffect,
        setTrumpSuit]

theorem submit_throws_of_null_lead
    {activity : Activity} {rest : CardArray}
    (hcards : activity.trackingCards ≠ [])
    (htrick : trickArray activity = .ok (none :: rest)) (demo : Bool) :
    (submit demo).Throws activity := by
  have htrick' : trickArray (raise activity) = .ok (none :: rest) := htrick
  cases demo with
  | false =>
      simp [submit, announce, Method.Throws, hcards, htrick', winningCard,
        trickWinner_of_null_lead]
  | true =>
      simp [submit, announce, Method.Throws, hcards, htrick', winningCard,
        trickWinner_of_null_lead]

theorem trickArray_eq
    {activity : Activity}
    (hlength : activity.anchors.length = activity.trackingCards.length) :
    trickArray activity =
      .ok (activity.anchors.map fun c => activity.cardTypes.lookup c) := by
  unfold trickArray
  rw [fillFrom_eq_ok (by simp [hlength])]
  simp

/-- The fields after Submit has called `trickWinner`, which may throw. -/
def announced (demo : Bool) (trick : CardArray) (activity : Activity) :
    Activity :=
  let called :=
    setTrumpSuit (trumpInEffect demo activity) (raise activity)
  match (winningCard trick (trumpInEffect demo activity)).bind deref with
  | .ok card => write (card.toString ++ " WINS!") called
  | .error _ => called

theorem submit_after
    {activity : Activity} {trick : CardArray}
    (hcards : activity.trackingCards ≠ [])
    (htrick : trickArray activity = .ok trick) (demo : Bool) :
    (submit demo).after activity = announced demo trick activity := by
  have htrick' : trickArray (raise activity) = .ok trick := htrick
  have hwinner : ∀ called : Activity,
      ((do
        let slot ← call (winningCard trick called.trumpSuit)
        let card ← call (deref slot)
        modify (write (card.toString ++ " WINS!"))) :
          Method Activity Unit).after called =
        match (winningCard trick called.trumpSuit).bind deref with
        | .ok card => write (card.toString ++ " WINS!") called
        | .error _ => called := by
    intro called
    cases winningCard trick called.trumpSuit with
    | error e => simp [Method.after, Except.bind]
    | ok slot =>
        cases slot with
        | none => simp [Method.after, Except.bind, deref]
        | some card => simp [Method.after, Except.bind, deref]
  cases demo with
  | false =>
      refine Eq.trans ?_ (hwinner (raise activity))
      simp [submit, announce, Method.after, hcards, htrick']
  | true =>
      refine Eq.trans ?_ (hwinner (setTrumpSuit Card.spades (raise activity)))
      simp [submit, announce, Method.after, hcards, htrick']

section Placing

variable (demo : Bool) (hit : HitResult) (room : Activity)

def newAnchor : ColoredAnchor :=
  ⟨room.created, objColor hit.trackable⟩

@[simp] theorem withCard_anchors :
    (withCard demo hit room).anchors =
      room.anchors ++ [newAnchor hit room] := rfl

@[simp] theorem withCard_created :
    (withCard demo hit room).created = room.created + 1 := rfl

@[simp] theorem withCard_trackingCards :
    (withCard demo hit room).trackingCards =
      room.trackingCards ++ [selectedCard (withCard demo hit room)] := by
  cases demo <;> rfl

@[simp] theorem withCard_cardTypes :
    (withCard demo hit room).cardTypes =
      room.cardTypes.insert (newAnchor hit room)
        (selectedCard (withCard demo hit room)) := by
  cases demo <;> rfl

@[simp] theorem withCard_detached :
    (withCard demo hit room).detached = room.detached := by
  cases demo <;> rfl

end Placing

/-! ## Taps which may fail -/

/-- The fields once there is room for another card. -/
def withRoom (activity : Activity) : Activity :=
  match activity.anchors, activity.trackingCards with
  | oldest :: first :: rest, _ :: cards =>
      if 20 ≤ activity.anchors.length then
        evicted oldest first rest cards activity
      else activity
  | _, _ => activity

theorem withRoom_of_lt
    {activity : Activity} (hroom : activity.anchors.length < 20) :
    withRoom activity = activity := by
  unfold withRoom
  split
  · rw [if_neg (by omega)]
  · rfl

theorem withRoom_of_full
    {activity : Activity} {oldest first : ColoredAnchor}
    {rest : List ColoredAnchor} {card : Card} {cards : List Card}
    (hfull : 20 ≤ activity.anchors.length)
    (hanchors : activity.anchors = oldest :: first :: rest)
    (hcards : activity.trackingCards = card :: cards) :
    withRoom activity = evicted oldest first rest cards activity := by
  simp only [withRoom, hanchors, hcards]
  rw [hanchors] at hfull
  rw [if_pos hfull]

/-- A full table has the shape on which the eviction works. -/
theorem exists_oldest
    {activity : Activity} (hfull : 20 ≤ activity.anchors.length)
    (hlength : activity.anchors.length = activity.trackingCards.length) :
    ∃ oldest first rest card cards,
      activity.anchors = oldest :: first :: rest ∧
        activity.trackingCards = card :: cards := by
  cases hanchors : activity.anchors with
  | nil => simp [hanchors] at hfull
  | cons oldest others =>
      cases others with
      | nil => simp [hanchors] at hfull
      | cons first rest =>
          cases hcards : activity.trackingCards with
          | nil => simp [hanchors, hcards] at hlength
          | cons card cards =>
              exact ⟨oldest, first, rest, card, cards, rfl, rfl⟩

theorem evictOldest_run
    {activity : Activity}
    (hlength : activity.anchors.length = activity.trackingCards.length) :
    evictOldest.run activity = .ok () (withRoom activity) := by
  by_cases hfull : 20 ≤ activity.anchors.length
  · obtain ⟨oldest, first, rest, card, cards, hanchors, hcards⟩ :=
      exists_oldest hfull hlength
    rw [withRoom_of_full hfull hanchors hcards,
      evictOldest_run_of_full hfull hanchors hcards]
  · rw [withRoom_of_lt (by omega), evictOldest_run_of_lt (by omega)]

/-- The fields after a tap with a qualifying hit. -/
def tapped (demo : Bool) (hit : HitResult) (activity : Activity) : Activity :=
  if hit.createsAnchor then withCard demo hit (withRoom activity)
  else withRoom activity

theorem placeCard_after
    {activity : Activity}
    (hlength : activity.anchors.length = activity.trackingCards.length)
    (demo : Bool) (hit : HitResult) :
    (placeCard demo hit).after activity = tapped demo hit activity := by
  have hevict := evictOldest_run hlength
  unfold tapped
  by_cases hhit : hit.createsAnchor = true
  · rw [if_pos hhit, Method.after_eq_of_ok (placeCard_run hhit hevict)]
  · have hfails : (newColoredAnchor hit).run (withRoom activity) =
        .error .external (withRoom activity) := by
      simp only [newColoredAnchor, if_neg hhit]
      rfl
    rw [if_neg hhit]
    simp [Method.after, placeCard, hevict, hfails]

def cleared (activity : Activity) : Activity :=
  detachAll activity.anchors { activity with trackingCards := [] }

/-! ## Handlers which leave the table alone -/

structure SameTable (activity after : Activity) : Prop where
  anchors : after.anchors = activity.anchors
  trackingCards : after.trackingCards = activity.trackingCards
  cardTypes : after.cardTypes = activity.cardTypes
  created : after.created = activity.created
  detached : after.detached = activity.detached
  trump : IsSuit activity.trumpSuit → IsSuit after.trumpSuit

instance : Std.Refl SameTable where
  refl _ := ⟨rfl, rfl, rfl, rfl, rfl, id⟩

instance : IsTrans Activity SameTable where
  trans _ _ _ hfirst hsecond :=
    ⟨hsecond.anchors.trans hfirst.anchors,
      hsecond.trackingCards.trans hfirst.trackingCards,
      hsecond.cardTypes.trans hfirst.cardTypes,
      hsecond.created.trans hfirst.created,
      hsecond.detached.trans hfirst.detached,
      hsecond.trump ∘ hfirst.trump⟩

theorem announce_sameTable (demo : Bool) (trick : CardArray) :
    (announce demo trick).Keeps SameTable := by
  have htrump : Method.Keeps SameTable
      (modify (setTrumpSuit Card.spades)) :=
    Method.keeps_assign fun _ =>
      ⟨rfl, rfl, rfl, rfl, rfl, fun _ => .inr (.inr (.inr rfl))⟩
  have hwins : Method.Keeps SameTable (do
      let slot ← call (winningCard trick (← get).trumpSuit)
      let card ← call (deref slot)
      modify (write (card.toString ++ " WINS!"))) := by
    refine Method.Keeps.bind Method.keeps_fields ?_
    intro current
    refine Method.Keeps.bind (Method.keeps_call _) ?_
    intro slot
    refine Method.Keeps.bind (Method.keeps_call _) ?_
    intro card
    exact Method.keeps_assign fun _ => ⟨rfl, rfl, rfl, rfl, rfl, id⟩
  cases demo with
  | false => exact hwins
  | true => exact htrump.bind fun _ => hwins

theorem submit_sameTable (demo : Bool) :
    (submit demo).Keeps SameTable := by
  have hraise : Method.Keeps SameTable (modify raise) :=
    Method.keeps_assign fun _ => ⟨rfl, rfl, rfl, rfl, rfl, id⟩
  unfold submit
  refine Method.Keeps.bind Method.keeps_fields ?_
  intro current
  split_ifs
  · refine hraise.bind ?_
    intro _
    exact Method.keeps_assign fun _ => ⟨rfl, rfl, rfl, rfl, rfl, id⟩
  · refine hraise.bind ?_
    intro _
    refine Method.Keeps.bind Method.keeps_fields ?_
    intro raised
    refine Method.Keeps.bind (Method.keeps_call _) ?_
    intro trick
    exact announce_sameTable demo trick

/-- Every event is a placing tap, a Clear, or leaves the table alone. -/
theorem Event.after_cases
    (demo : Bool) (event : Event) {activity : Activity}
    (hlength : activity.anchors.length = activity.trackingCards.length) :
    (∃ frame hit, event = .tap frame ∧ placingHit frame = some hit ∧
        (event.handle demo).after activity = tapped demo hit activity) ∨
      (event = .clear ∧ (event.handle demo).after activity =
        cleared activity) ∨
      ((∀ frame, event = .tap frame → placingHit frame = none) ∧
        event ≠ .clear ∧
        SameTable activity ((event.handle demo).after activity)) := by
  cases event with
  | tap frame =>
      simp only [Event.handle, handleTap_eq]
      cases hplaces : placingHit frame with
      | none =>
          refine .inr (.inr ⟨?_, by simp, ?_⟩)
          · intro frame' heq
            rw [← Event.tap.inj heq, hplaces]
          · exact Std.Refl.refl activity
      | some hit =>
          exact .inl ⟨frame, hit, rfl, hplaces,
            placeCard_after hlength demo hit⟩
  | clear =>
      exact .inr (.inl ⟨rfl, Method.after_eq_of_ok (clear_run activity)⟩)
  | submit =>
      exact .inr (.inr ⟨by simp, by simp, submit_sameTable demo activity⟩)
  | selectValue item =>
      refine .inr (.inr ⟨by simp, by simp, ?_⟩)
      simp only [Event.handle,
        Method.after_eq_of_ok (selectValue_run item activity)]
      split_ifs <;> exact ⟨rfl, rfl, rfl, rfl, rfl, id⟩
  | selectSuit item =>
      refine .inr (.inr ⟨by simp, by simp, ?_⟩)
      simp only [Event.handle,
        Method.after_eq_of_ok (selectSuit_run item activity)]
      split_ifs <;> exact ⟨rfl, rfl, rfl, rfl, rfl, id⟩
  | selectTrumpSuit item =>
      refine .inr (.inr ⟨by simp, by simp, ?_⟩)
      simp only [Event.handle,
        Method.after_eq_of_ok (selectTrumpSuit_run item activity)]
      split_ifs
      · exact ⟨rfl, rfl, rfl, rfl, rfl, fun _ => .inr (.inr (.inr rfl))⟩
      · exact ⟨rfl, rfl, rfl, rfl, rfl, id⟩

end Euchre
end HighRollers
