import HighRollers.EuchreWindow

/-!
# Cards placed in runs of the Euchre activity

The first half follows the demo script, which is meant to go through five
cards again and again.  The second half compares a run after Clear with the
same run from a fresh start: the two stay in step up to the numbers of the
anchors, as long as the taps place the same cards.
-/

namespace HighRollers
namespace Euchre

open Java
open Activity

/-- The card a successful tap places when it finds the given fields.  With
`DEMO` on every case of the script runs on into the last one. -/
def chosenCard (demo : Bool) (activity : Activity) : Card :=
  if demo then ⟨Card.aceHigh, Card.spades⟩ else selectedCard activity

theorem selectedCard_withRoom (activity : Activity) :
    selectedCard (withRoom activity) = selectedCard activity := by
  unfold withRoom
  split
  · split_ifs <;> rfl
  · rfl

theorem selectedCard_withCard
    (demo : Bool) (hit : HitResult) (activity : Activity) :
    selectedCard (withCard demo hit (withRoom activity)) =
      chosenCard demo activity := by
  cases demo with
  | false =>
      change selectedCard (withRoom activity) = _
      exact selectedCard_withRoom activity
  | true => rfl

def placedBy (event : Event) (after : Activity) : List Card :=
  match event with
  | .tap frame =>
      match placingHit frame with
      | some hit => if hit.createsAnchor then [selectedCard after] else []
      | none => []
  | _ => []

/-- All cards placed in a run, in tap order. -/
def cardsPlaced (demo : Bool) (activity : Activity) : List Event → List Card
  | [] => []
  | event :: rest =>
      let after := (event.handle demo).after activity
      placedBy event after ++ cardsPlaced demo after rest

theorem Represents.placedBy_tap
    {activity : Activity} {table : Table} (hrep : Represents activity table)
    (demo : Bool) {frame : TapFrame} {hit : HitResult}
    (hplaces : placingHit frame = some hit) :
    placedBy (.tap frame) (((Event.tap frame).handle demo).after activity) =
      if hit.createsAnchor then [chosenCard demo activity] else [] := by
  simp only [placedBy, hplaces, Event.handle, handleTap_eq,
    placeCard_after hrep.length_eq]
  split_ifs with hhit
  · simp only [Euchre.tapped, hhit, if_true, selectedCard_withCard]
  · rfl

/-! ## The demo script -/

/-- The five cards of the comments in the script. -/
def scriptedCards : List Card :=
  [⟨Card.jack, Card.spades⟩, ⟨Card.queen, Card.hearts⟩, ⟨10, Card.clubs⟩,
    ⟨8, Card.diamonds⟩, ⟨Card.aceHigh, Card.spades⟩]

theorem Represents.demo_card
    {activity : Activity} {table : Table} (hrep : Represents activity table)
    (events : List Event) :
    ∀ card ∈ cardsPlaced true activity events,
      card = ⟨Card.aceHigh, Card.spades⟩ := by
  induction events generalizing activity table with
  | nil => simp [cardsPlaced]
  | cons event rest ih =>
      intro card hcard
      rw [cardsPlaced, List.mem_append] at hcard
      rcases hcard with hnow | hlater
      · cases event with
        | tap frame =>
            cases hplaces : placingHit frame with
            | none => simp [placedBy, hplaces] at hnow
            | some hit =>
                rw [hrep.placedBy_tap true hplaces] at hnow
                split_ifs at hnow with hhit
                · exact List.mem_singleton.mp hnow
                · simp at hnow
        | clear => simp [placedBy] at hnow
        | submit => simp [placedBy] at hnow
        | selectValue item => simp [placedBy] at hnow
        | selectSuit item => simp [placedBy] at hnow
        | selectTrumpSuit item => simp [placedBy] at hnow
      · exact ih (hrep.step true event) card hlater

/-- With `DEMO` on, the cards placed agree with the script at every fifth
card only. -/
theorem demo_card_scripted_iff
    (events : List Event) (n : ℕ) (hn : 1 ≤ n) (card : Card)
    (hcard : (cardsPlaced true onCreate events)[n - 1]? = some card) :
    scriptedCards[(n - 1) % 5]? = some card ↔ 5 ∣ n := by
  have hace := represents_onCreate.demo_card events card
    (List.mem_of_getElem? hcard)
  subst card
  have hlt : (n - 1) % 5 < 5 := Nat.mod_lt _ (by omega)
  constructor
  · intro hscripted
    by_contra hnot
    have hother : (n - 1) % 5 < 4 := by omega
    revert hscripted
    generalize (n - 1) % 5 = position at hother
    interval_cases position <;> decide
  · intro hdvd
    have hlast : (n - 1) % 5 = 4 := by omega
    rw [hlast]
    rfl

theorem demo_card_scripted_fifth_tap :
    (cardsPlaced true onCreate (List.replicate 5 planeTap))[4]? =
        some ⟨Card.aceHigh, Card.spades⟩ ∧
      scriptedCards[(5 - 1) % 5]? =
        some (⟨Card.aceHigh, Card.spades⟩ : Card) :=
  ⟨by decide, (demo_card_scripted_iff (List.replicate 5 planeTap) 5 (by omega)
    ⟨Card.aceHigh, Card.spades⟩ (by decide)).mpr (by omega)⟩

theorem first_demo_card_not_jack :
    (cardsPlaced true onCreate [planeTap])[0]? =
        some ⟨Card.aceHigh, Card.spades⟩ ∧
      scriptedCards[(1 - 1) % 5]? ≠
        some (⟨Card.aceHigh, Card.spades⟩ : Card) := by
  constructor
  · decide
  · decide

/-! ## Clear and a fresh start -/

def renumber (offset : ℕ) (c : ColoredAnchor) : ColoredAnchor :=
  { c with anchor := c.anchor + offset }

theorem renumber_injective (offset : ℕ) :
    Function.Injective (renumber offset) := by
  intro c c' heq
  rcases c with ⟨n, color⟩
  rcases c' with ⟨n', color'⟩
  simpa [renumber] using heq

/-- The trick state of two activities is the same up to the identity of the
anchors. -/
structure SameTrick (offset : ℕ) (activity fresh : Activity) : Prop where
  anchors : activity.anchors = fresh.anchors.map (renumber offset)
  trackingCards : activity.trackingCards = fresh.trackingCards
  lookups : ∀ c, activity.cardTypes.lookup (renumber offset c) =
    fresh.cardTypes.lookup c
  keys : ∀ c ∈ activity.cardTypes, ∃ c', c = renumber offset c'

structure InStep (offset : ℕ) (activity fresh : Activity) : Prop
    extends SameTrick offset activity fresh where
  created : activity.created = fresh.created + offset
  trumpSuit : activity.trumpSuit = fresh.trumpSuit

def Activity.trickFields (activity : Activity) :
    List ColoredAnchor × List Card × AList (fun _ : ColoredAnchor => Card) ×
      ℕ :=
  (activity.anchors, activity.trackingCards, activity.cardTypes,
    activity.created)

structure SameMessage (activity fresh : Activity) : Prop where
  message : activity.message = fresh.message
  showMessage : activity.showMessage = fresh.showMessage

section InStep

variable {offset : ℕ} {activity fresh : Activity} {table table' : Table}

theorem InStep.length_anchors (hstep : InStep offset activity fresh) :
    activity.anchors.length = fresh.anchors.length := by
  rw [hstep.anchors, List.length_map]

theorem InStep.withRoom
    (hstep : InStep offset activity fresh)
    (hlength : fresh.anchors.length = fresh.trackingCards.length) :
    InStep offset (withRoom activity) (withRoom fresh) := by
  by_cases hfull : 20 ≤ fresh.anchors.length
  · obtain ⟨oldest, first, rest, card, cards, hanchors, hcards⟩ :=
      exists_oldest hfull hlength
    have hanchors' : activity.anchors = renumber offset oldest ::
        renumber offset first :: rest.map (renumber offset) := by
      rw [hstep.anchors, hanchors]
      rfl
    rw [withRoom_of_full hfull hanchors hcards,
      withRoom_of_full (by rwa [hstep.length_anchors]) hanchors'
        (hstep.trackingCards.trans hcards)]
    refine ⟨⟨rfl, rfl, ?_, ?_⟩, hstep.created, hstep.trumpSuit⟩
    · intro c
      by_cases hc : c = first
      · subst c
        simp [evicted]
      · have hc' : renumber offset c ≠ renumber offset first :=
          fun heq => hc (renumber_injective offset heq)
        simp only [evicted]
        rw [AList.lookup_erase_ne hc', AList.lookup_erase_ne hc,
          hstep.lookups]
    · intro c hc
      exact hstep.keys c (AList.mem_erase.mp hc).2
  · have hlength' := hstep.length_anchors
    rw [withRoom_of_lt (show activity.anchors.length < 20 by omega),
      withRoom_of_lt (show fresh.anchors.length < 20 by omega)]
    exact hstep

theorem InStep.withCard
    (hstep : InStep offset activity fresh) {demo : Bool} {hit : HitResult}
    (hcard : selectedCard (withCard demo hit activity) =
      selectedCard (withCard demo hit fresh)) :
    InStep offset (withCard demo hit activity) (withCard demo hit fresh) := by
  have hnew : newAnchor hit activity =
      renumber offset (newAnchor hit fresh) := by
    simp [newAnchor, renumber, hstep.created]
  refine ⟨⟨?_, ?_, ?_, ?_⟩, ?_, ?_⟩
  · simp [hstep.anchors, hnew]
  · rw [withCard_trackingCards, withCard_trackingCards, hstep.trackingCards,
      hcard]
  · intro c
    rw [withCard_cardTypes, withCard_cardTypes, hnew, hcard]
    by_cases hc : c = newAnchor hit fresh
    · subst c
      simp
    · have hc' : renumber offset c ≠ renumber offset (newAnchor hit fresh) :=
        fun heq => hc (renumber_injective offset heq)
      rw [AList.lookup_insert_ne hc', AList.lookup_insert_ne hc,
        hstep.lookups]
  · intro c hc
    rw [withCard_cardTypes, AList.mem_insert] at hc
    rcases hc with heq | hold
    · exact ⟨newAnchor hit fresh, by rw [heq, hnew]⟩
    · exact hstep.keys c hold
  · rw [withCard_created, withCard_created, hstep.created]
    omega
  · cases demo with
    | false => exact hstep.trumpSuit
    | true => rfl

/-- Assignments outside the trick keep the activities in step. -/
theorem InStep.of_trickFields
    {activity' fresh' : Activity} (hstep : InStep offset activity fresh)
    (hfields : activity'.trickFields = activity.trickFields)
    (hfields' : fresh'.trickFields = fresh.trickFields)
    (htrump : activity'.trumpSuit = fresh'.trumpSuit) :
    InStep offset activity' fresh' := by
  simp only [Activity.trickFields, Prod.mk.injEq] at hfields hfields'
  obtain ⟨hanchors, hcards, htypes, hcreated⟩ := hfields
  obtain ⟨hanchors', hcards', htypes', hcreated'⟩ := hfields'
  refine ⟨⟨?_, ?_, ?_, ?_⟩, ?_, htrump⟩
  · rw [hanchors, hanchors', hstep.anchors]
  · rw [hcards, hcards', hstep.trackingCards]
  · rw [htypes, htypes']
    exact hstep.lookups
  · rw [htypes]
    exact hstep.keys
  · rw [hcreated, hcreated', hstep.created]

theorem InStep.cleared (hstep : InStep offset activity fresh) :
    InStep offset (cleared activity) (cleared fresh) := by
  have hempty : activity.anchors = [] ↔ fresh.anchors = [] := by
    rw [hstep.anchors, List.map_eq_nil_iff]
  unfold Euchre.cleared
  rw [detachAll_eq, detachAll_eq]
  by_cases hanchors : fresh.anchors = []
  · rw [if_pos hanchors, if_pos (hempty.mpr hanchors)]
    exact ⟨⟨hstep.anchors, rfl, hstep.lookups, hstep.keys⟩, hstep.created,
      hstep.trumpSuit⟩
  · rw [if_neg hanchors, if_neg (fun hnil => hanchors (hempty.mp hnil))]
    exact ⟨⟨rfl, rfl, by simp, by simp⟩, hstep.created, hstep.trumpSuit⟩

/-- The trick which Submit reads off the map is the same. -/
theorem InStep.trick_eq (hstep : InStep offset activity fresh) :
    (activity.anchors.map fun c => activity.cardTypes.lookup c) =
      fresh.anchors.map fun c => fresh.cardTypes.lookup c := by
  rw [hstep.anchors, List.map_map]
  apply List.map_congr_left
  intro c _
  exact hstep.lookups c

theorem InStep.trumpInEffect
    (hstep : InStep offset activity fresh) (demo : Bool) :
    trumpInEffect demo activity = trumpInEffect demo fresh := by
  simp [Euchre.trumpInEffect, hstep.trumpSuit]

theorem InStep.announced
    (hstep : InStep offset activity fresh) (demo : Bool) (trick : CardArray) :
    InStep offset (announced demo trick activity)
        (announced demo trick fresh) ∧
      (SameMessage activity fresh →
        SameMessage (announced demo trick activity)
          (announced demo trick fresh)) := by
  unfold Euchre.announced
  rw [hstep.trumpInEffect demo]
  cases (winningCard trick (Euchre.trumpInEffect demo fresh)).bind deref with
  | ok card =>
      exact ⟨hstep.of_trickFields rfl rfl rfl, fun _ => ⟨rfl, rfl⟩⟩
  | error e =>
      exact ⟨hstep.of_trickFields rfl rfl rfl,
        fun hmessage => ⟨hmessage.message, rfl⟩⟩

theorem InStep.submitted
    (hstep : InStep offset activity fresh)
    (hlength : activity.anchors.length = activity.trackingCards.length)
    (hlength' : fresh.anchors.length = fresh.trackingCards.length)
    (demo : Bool) :
    InStep offset ((submit demo).after activity) ((submit demo).after fresh) ∧
      (SameMessage activity fresh →
        SameMessage ((submit demo).after activity)
          ((submit demo).after fresh)) := by
  by_cases hcards : fresh.trackingCards = []
  · have hcards' : activity.trackingCards = [] :=
      hstep.trackingCards.trans hcards
    simp only [Method.after_eq_of_ok (submit_run_of_empty hcards demo),
      Method.after_eq_of_ok (submit_run_of_empty hcards' demo)]
    exact ⟨hstep.of_trickFields rfl rfl hstep.trumpSuit, fun _ => ⟨rfl, rfl⟩⟩
  · have hcards' : activity.trackingCards ≠ [] := by
      rwa [hstep.trackingCards]
    rw [submit_after hcards (trickArray_eq hlength'),
      submit_after hcards' (trickArray_eq hlength), hstep.trick_eq]
    exact hstep.announced demo _

theorem withRoom_message (activity : Activity) :
    (Euchre.withRoom activity).message = activity.message ∧
      (Euchre.withRoom activity).showMessage = activity.showMessage := by
  unfold Euchre.withRoom
  split
  · split_ifs <;> exact ⟨rfl, rfl⟩
  · exact ⟨rfl, rfl⟩

theorem cleared_message (activity : Activity) :
    (Euchre.cleared activity).message = activity.message ∧
      (Euchre.cleared activity).showMessage = activity.showMessage := by
  unfold Euchre.cleared
  rw [detachAll_eq]
  split_ifs <;> exact ⟨rfl, rfl⟩

theorem withCard_message (demo : Bool) (hit : HitResult) (room : Activity) :
    (Euchre.withCard demo hit room).message =
        some ("Placed Card: " ++
          (selectedCard (Euchre.withCard demo hit room)).toString) ∧
      (Euchre.withCard demo hit room).showMessage = true := by
  cases demo <;> exact ⟨rfl, rfl⟩

theorem InStep.tapped
    (hstep : InStep offset activity fresh)
    (hlength : fresh.anchors.length = fresh.trackingCards.length)
    {demo : Bool} {hit : HitResult}
    (hcard : hit.createsAnchor = true →
      chosenCard demo activity = chosenCard demo fresh) :
    InStep offset (tapped demo hit activity) (tapped demo hit fresh) ∧
      (SameMessage activity fresh →
        SameMessage (tapped demo hit activity) (tapped demo hit fresh)) := by
  have hroom := hstep.withRoom hlength
  unfold Euchre.tapped
  by_cases hhit : hit.createsAnchor = true
  · rw [if_pos hhit, if_pos hhit]
    have hselected : selectedCard
          (Euchre.withCard demo hit (Euchre.withRoom activity)) =
        selectedCard (Euchre.withCard demo hit (Euchre.withRoom fresh)) := by
      rw [selectedCard_withCard, selectedCard_withCard, hcard hhit]
    have hmessage := withCard_message demo hit (Euchre.withRoom activity)
    have hmessage' := withCard_message demo hit (Euchre.withRoom fresh)
    refine ⟨hroom.withCard hselected, fun _ => ⟨?_, ?_⟩⟩
    · rw [hmessage.1, hmessage'.1, hselected]
    · rw [hmessage.2, hmessage'.2]
  · rw [if_neg hhit, if_neg hhit]
    have hmessage := withRoom_message activity
    have hmessage' := withRoom_message fresh
    refine ⟨hroom, fun hsame => ⟨?_, ?_⟩⟩
    · rw [hmessage.1, hmessage'.1, hsame.message]
    · rw [hmessage.2, hmessage'.2, hsame.showMessage]

/-- One event keeps the two activities in step, and it writes the same message
to both. -/
theorem InStep.step
    (hstep : InStep offset activity fresh) (hrep : Represents activity table)
    (hrep' : Represents fresh table') (demo : Bool) (event : Event)
    (hcard : ∀ frame hit, event = .tap frame → placingHit frame = some hit →
      hit.createsAnchor = true →
        chosenCard demo activity = chosenCard demo fresh) :
    InStep offset ((event.handle demo).after activity)
        ((event.handle demo).after fresh) ∧
      (SameMessage activity fresh →
        SameMessage ((event.handle demo).after activity)
          ((event.handle demo).after fresh)) := by
  cases event with
  | tap frame =>
      simp only [Event.handle, handleTap_eq]
      cases hplaces : placingHit frame with
      | none => exact ⟨hstep, id⟩
      | some hit =>
          simp only [placeCard_after hrep.length_eq,
            placeCard_after hrep'.length_eq]
          exact hstep.tapped hrep'.length_eq (hcard frame hit rfl hplaces)
  | clear =>
      simp only [Event.handle, Method.after_eq_of_ok (clear_run activity),
        Method.after_eq_of_ok (clear_run fresh)]
      have hmessage := cleared_message activity
      have hmessage' := cleared_message fresh
      refine ⟨hstep.cleared, fun hsame => ⟨?_, ?_⟩⟩
      · exact hmessage.1.trans (hsame.message.trans hmessage'.1.symm)
      · exact hmessage.2.trans (hsame.showMessage.trans hmessage'.2.symm)
  | submit =>
      exact hstep.submitted hrep.length_eq hrep'.length_eq demo
  | selectValue item =>
      simp only [Event.handle,
        Method.after_eq_of_ok (selectValue_run item activity),
        Method.after_eq_of_ok (selectValue_run item fresh)]
      split_ifs <;>
        exact ⟨hstep.of_trickFields rfl rfl hstep.trumpSuit,
          fun hsame => ⟨rfl, hsame.showMessage⟩⟩
  | selectSuit item =>
      simp only [Event.handle,
        Method.after_eq_of_ok (selectSuit_run item activity),
        Method.after_eq_of_ok (selectSuit_run item fresh)]
      split_ifs <;>
        exact ⟨hstep.of_trickFields rfl rfl hstep.trumpSuit,
          fun hsame => ⟨rfl, hsame.showMessage⟩⟩
  | selectTrumpSuit item =>
      simp only [Event.handle,
        Method.after_eq_of_ok (selectTrumpSuit_run item activity),
        Method.after_eq_of_ok (selectTrumpSuit_run item fresh)]
      split_ifs
      · exact ⟨hstep.of_trickFields rfl rfl rfl, fun _ => ⟨rfl, rfl⟩⟩
      · exact ⟨hstep.of_trickFields rfl rfl hstep.trumpSuit,
          fun _ => ⟨rfl, rfl⟩⟩

end InStep

/-! ## Messages of a run -/

def silent (activity : Activity) : Activity :=
  { activity with message := none, showMessage := false }

/-- What an event writes to `message` and `showMessage`.  No handler reads the
two fields, so they are emptied first. -/
def messageOf (demo : Bool) (event : Event) (activity : Activity) :
    Option String × Bool :=
  let after := (event.handle demo).after (silent activity)
  (after.message, after.showMessage)

def messagesOf (demo : Bool) (activity : Activity) :
    List Event → List (Option String × Bool)
  | [] => []
  | event :: rest =>
      messageOf demo event activity ::
        messagesOf demo ((event.handle demo).after activity) rest

theorem placedBy_length (event : Event) (after after' : Activity) :
    (placedBy event after).length = (placedBy event after').length := by
  cases event with
  | tap frame =>
      simp only [placedBy]
      cases placingHit frame with
      | none => rfl
      | some hit =>
          dsimp only
          split_ifs <;> rfl
  | clear => rfl
  | submit => rfl
  | selectValue item => rfl
  | selectSuit item => rfl
  | selectTrumpSuit item => rfl

section Runs

variable {offset : ℕ} {activity fresh : Activity} {table table' : Table}

theorem InStep.messageOf_eq
    (hstep : InStep offset activity fresh) (hrep : Represents activity table)
    (hrep' : Represents fresh table') (demo : Bool) (event : Event)
    (hcard : ∀ frame hit, event = .tap frame → placingHit frame = some hit →
      hit.createsAnchor = true →
        chosenCard demo activity = chosenCard demo fresh) :
    messageOf demo event activity = messageOf demo event fresh := by
  have hsilent : InStep offset (silent activity) (silent fresh) :=
    hstep.of_trickFields rfl rfl hstep.trumpSuit
  have hsame : ∀ current, SameTable current (silent current) :=
    fun _ => ⟨rfl, rfl, rfl, rfl, rfl, id⟩
  have hmessage := (hsilent.step (hrep.of_sameTable (hsame activity))
    (hrep'.of_sameTable (hsame fresh)) demo event hcard).2 ⟨rfl, rfl⟩
  exact Prod.ext hmessage.message hmessage.showMessage

theorem InStep.run
    (hstep : InStep offset activity fresh) (hrep : Represents activity table)
    (hrep' : Represents fresh table') (demo : Bool) (events : List Event)
    (hcards : cardsPlaced demo activity events =
      cardsPlaced demo fresh events) :
    InStep offset (activity.run demo events) (fresh.run demo events) ∧
      messagesOf demo activity events = messagesOf demo fresh events := by
  induction events generalizing activity fresh table table' with
  | nil => exact ⟨hstep, rfl⟩
  | cons event rest ih =>
      obtain ⟨hnow, hlater⟩ := List.append_inj hcards
        (placedBy_length event _ _)
      have hcard : ∀ frame hit, event = .tap frame →
          placingHit frame = some hit → hit.createsAnchor = true →
            chosenCard demo activity = chosenCard demo fresh := by
        intro frame hit hevent hplaces hhit
        subst event
        rw [hrep.placedBy_tap demo hplaces, hrep'.placedBy_tap demo hplaces,
          if_pos hhit, if_pos hhit] at hnow
        exact List.cons.inj hnow |>.1
      have hafter := (hstep.step hrep hrep' demo event hcard).1
      have hrest := ih hafter (hrep.step demo event) (hrep'.step demo event)
        hlater
      refine ⟨hrest.1, ?_⟩
      rw [messagesOf, messagesOf,
        hstep.messageOf_eq hrep hrep' demo event hcard, hrest.2]

end Runs

/-- The fields of `onCreate`, but for the choices which tell the cards to be
placed and the trump suit. -/
def onCreateWith (currentSuit currentCardValue trumpSuit : Int8)
    (demoTapCount : ℤ) : Activity :=
  { onCreate with
    currentSuit := currentSuit
    currentCardValue := currentCardValue
    trumpSuit := trumpSuit
    demoTapCount := demoTapCount }

theorem represents_onCreateWith
    {currentSuit currentCardValue trumpSuit : Int8} {demoTapCount : ℤ}
    (htrump : IsSuit trumpSuit) :
    Represents (onCreateWith currentSuit currentCardValue trumpSuit
      demoTapCount) Table.empty :=
  { represents_onCreate with trump := htrump }

theorem Represents.inStep_onCreateWith
    {activity : Activity} (hrep : Represents activity Table.empty)
    (currentSuit currentCardValue : Int8) (demoTapCount : ℤ) :
    InStep activity.created activity
      (onCreateWith currentSuit currentCardValue activity.trumpSuit
        demoTapCount) := by
  have hanchors : activity.anchors = [] := hrep.anchors
  have hkeys : ∀ c, c ∉ activity.cardTypes := by
    intro c hc
    simpa [hanchors] using hrep.keys rfl c hc
  refine ⟨⟨hanchors, hrep.cards, ?_, ?_⟩, (Nat.zero_add _).symm, rfl⟩
  · intro c
    exact AList.lookup_eq_none.mpr (hkeys _)
  · intro c hc
    exact absurd hc (hkeys c)

/-- After any run which ends with Clear, every continuation has the same trick
state and writes the same messages as from a fresh start with the same trump
suit, if its taps place the same cards. -/
theorem clear_forgets
    (demo : Bool) (before after : List Event)
    (currentSuit currentCardValue trumpSuit : Int8) (demoTapCount : ℤ)
    (htrump : (onCreate.run demo (before ++ [.clear])).trumpSuit = trumpSuit)
    (hcards :
      cardsPlaced demo (onCreate.run demo (before ++ [.clear])) after =
        cardsPlaced demo (onCreateWith currentSuit currentCardValue trumpSuit
          demoTapCount) after) :
    SameTrick (onCreate.run demo (before ++ [.clear])).created
        (onCreate.run demo (before ++ .clear :: after))
        ((onCreateWith currentSuit currentCardValue trumpSuit
          demoTapCount).run demo after) ∧
      messagesOf demo (onCreate.run demo (before ++ [.clear])) after =
        messagesOf demo (onCreateWith currentSuit currentCardValue trumpSuit
          demoTapCount) after := by
  have hclear : onCreate.run demo (before ++ [.clear]) =
      cleared (onCreate.run demo before) := by
    rw [Activity.run, List.foldl_append]
    exact Method.after_eq_of_ok (clear_run _)
  have hrep : Represents (onCreate.run demo (before ++ [.clear]))
      Table.empty := by
    rw [hclear]
    exact (represents_run demo before).cleared
  have hrun : onCreate.run demo (before ++ .clear :: after) =
      (onCreate.run demo (before ++ [.clear])).run demo after := by
    simp [Activity.run]
  subst trumpSuit
  rw [hrun]
  have hfresh := (hrep.inStep_onCreateWith currentSuit currentCardValue
    demoTapCount).run hrep (represents_onCreateWith hrep.trump) demo after
      hcards
  exact ⟨hfresh.1.toSameTrick, hfresh.2⟩

theorem clear_forgets_21_taps :
    SameTrick
        (onCreate.run true (List.replicate 21 planeTap ++ [.clear])).created
        (onCreate.run true
          (List.replicate 21 planeTap ++ .clear :: [planeTap, .submit]))
        ((onCreateWith (-1) (-1) Card.spades 1).run true
          [planeTap, .submit]) ∧
      messagesOf true
          (onCreate.run true (List.replicate 21 planeTap ++ [.clear]))
          [planeTap, .submit] =
        messagesOf true (onCreateWith (-1) (-1) Card.spades 1)
          [planeTap, .submit] :=
  clear_forgets true (List.replicate 21 planeTap) [planeTap, .submit] (-1) (-1)
    Card.spades 1 (by decide +kernel) (by decide +kernel)

end Euchre
end HighRollers
