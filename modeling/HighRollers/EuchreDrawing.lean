import HighRollers.EuchreRuns

/-!
# Drawing the cards on the table

The anchor loop of `onDrawFrame`: at each tracked anchor stand a model of the
suit and a model of the value of its card.  The card is looked up in the map
which the evictions damage, and the two `switch` statements have no `break`.
-/

namespace HighRollers
namespace Euchre

open Java
open Activity

inductive CardModel
  | heart
  | diamond
  | club
  | spade
  | ace
  | two
  | three
  | four
  | five
  | six
  | seven
  | eight
  | nine
  | ten
  | jack
  | queen
  | king
  deriving DecidableEq, Repr

/-- A model drawn at the pose of an anchor, in its colour.  The source means to
put the value above the suit, but drops the pose `makeTranslation` returns. -/
structure ModelDrawing where
  coloredAnchor : ColoredAnchor
  model : CardModel
  deriving DecidableEq, Repr

def suitModels : List (Int8 × CardModel) :=
  [(Card.hearts, .heart), (Card.diamonds, .diamond), (Card.clubs, .club),
    (Card.spades, .spade)]

def valueModels : List (Int8 × CardModel) :=
  [(Card.ace, .ace), (2, .two), (3, .three), (4, .four), (5, .five),
    (6, .six), (7, .seven), (8, .eight), (9, .nine), (10, .ten),
    (Card.jack, .jack), (Card.queen, .queen), (Card.king, .king),
    (Card.aceHigh, .ace)]

def drawModel (coloredAnchor : ColoredAnchor) (model : CardModel)
    (drawings : List ModelDrawing) : List ModelDrawing :=
  drawings ++ [⟨coloredAnchor, model⟩]

/-- What a frame meets after its tap. -/
structure Rendering where
  /-- What `getTrackingState` says about each anchor during the frame. -/
  trackingState : ℕ → TrackingState
  /-- Whether the camera image is drawn without an exception. -/
  drawsBackground : Bool
  /-- Whether the point cloud and the planes are. -/
  drawsScene : Bool

structure DrawFrame extends Rendering where
  tap : TapFrame

/-- The loop over the anchors.  An anchor without a card ends it with a
`NullPointerException`. -/
def drawAnchors (frame : DrawFrame) (activity : Activity) :
    List ColoredAnchor → Method (List ModelDrawing) Unit
  | [] => pure ()
  | c :: rest =>
      if frame.trackingState c.anchor ≠ .tracking then
        drawAnchors frame activity rest
      else do
        let temp ← call (deref (activity.cardTypes.lookup c))
        switch temp.suit (assigning (drawModel c) suitModels) (pure ())
        switch temp.value (assigning (drawModel c) valueModels) (pure ())
        drawAnchors frame activity rest

/-- The end of `onDrawFrame`: a message is shown once. -/
def toast (activity : Activity) : Activity :=
  { activity with showMessage := false }

/-- The fields after the frame, and the models drawn in it.  Every exception
of the frame is caught and logged. -/
def onDrawFrame (demo : Bool) (frame : DrawFrame) (activity : Activity) :
    Activity × List ModelDrawing :=
  match (handleTap demo frame.tap).run activity with
  | .error _ tapped => (toast tapped, [])
  | .ok _ tapped =>
      if !frame.drawsBackground then (toast tapped, [])
      else if frame.tap.camera = .paused then (tapped, [])
      else if !frame.drawsScene then (toast tapped, [])
      else (toast tapped, (drawAnchors frame tapped tapped.anchors).after [])

/-! ## The models of one card -/

/-- The models drawn for a card: everything from its own cases on. -/
def modelsDrawn (card : Card) : List CardModel :=
  (suitModels.dropWhile fun entry => card.suit ≠ entry.1).map Prod.snd ++
    (valueModels.dropWhile fun entry => card.value ≠ entry.1).map Prod.snd

/-- The models which belong to a card. -/
structure IsModelOf (card : Card) (suit value : CardModel) : Prop where
  suit : (card.suit, suit) ∈ suitModels
  value : (card.value, value) ∈ valueModels

/-- The last case of both switches is the only one which draws one model. -/
theorem modelsDrawn_perm_iff (card : Card) :
    (∃ suit value, IsModelOf card suit value ∧
        (modelsDrawn card).Perm [suit, value]) ↔
      card = ⟨Card.aceHigh, Card.spades⟩ := by
  constructor
  · intro hdrawn
    obtain ⟨suit, value, hmodel, hperm⟩ := hdrawn
    have hlength := hperm.length_eq
    simp only [modelsDrawn, List.length_append, List.length_map,
      List.length_cons, List.length_nil] at hlength
    have hsuit : card.suit ∈ suitModels.map Prod.fst :=
      List.mem_map_of_mem hmodel.suit
    have hvalue : card.value ∈ valueModels.map Prod.fst :=
      List.mem_map_of_mem hmodel.value
    obtain ⟨hsuits, hspades⟩ := length_cases_executed hsuit
      (rfl : suitModels.getLast? = some (Card.spades, .spade))
    obtain ⟨hvalues, hace⟩ := length_cases_executed hvalue
      (rfl : valueModels.getLast? = some (Card.aceHigh, .ace))
    rcases card with ⟨cardValue, cardSuit⟩
    congr 1
    · exact hace (by omega)
    · exact hspades (by omega)
  · intro hcard
    subst card
    exact ⟨.spade, .ace, ⟨by decide, by decide⟩, .refl _⟩

/-! ## The loop -/

theorem foldl_drawModel
    (c : ColoredAnchor) (table : List (Int8 × CardModel))
    (drawings : List ModelDrawing) :
    table.foldl (fun current entry => drawModel c entry.2 current) drawings =
      drawings ++ table.map fun entry => ⟨c, entry.2⟩ := by
  induction table generalizing drawings with
  | nil => simp
  | cons entry rest ih =>
      rw [List.foldl_cons, ih]
      simp [drawModel]

def drawingsOf (entry : ColoredAnchor × Card) : List ModelDrawing :=
  (modelsDrawn entry.2).map fun model => ⟨entry.1, model⟩

section Loop

variable {frame : DrawFrame} {activity : Activity}

def DrawFrame.Tracks (frame : DrawFrame) (c : ColoredAnchor) : Prop :=
  frame.trackingState c.anchor = .tracking

instance (frame : DrawFrame) : DecidablePred frame.Tracks :=
  fun c => inferInstanceAs
    (Decidable (frame.trackingState c.anchor = .tracking))

theorem drawAnchors_run
    {entries : List (ColoredAnchor × Card)}
    (hcards : ∀ entry ∈ entries, frame.Tracks entry.1 →
      activity.cardTypes.lookup entry.1 = some entry.2)
    (drawings : List ModelDrawing) :
    (drawAnchors frame activity (entries.map Prod.fst)).run drawings =
      .ok () (drawings ++ (entries.filter fun entry =>
        frame.Tracks entry.1).flatMap drawingsOf) := by
  induction entries generalizing drawings with
  | nil => simp [drawAnchors]
  | cons entry rest ih =>
      have hrest := ih fun other hother =>
        hcards other (List.mem_cons_of_mem entry hother)
      by_cases htracks : frame.Tracks entry.1
      · have hcard := hcards entry (by simp) htracks
        have hstate : frame.trackingState entry.1.anchor = .tracking := htracks
        simp only [List.map_cons, drawAnchors, hstate, ne_eq, not_true,
          if_false, hcard, deref, EStateM.run_bind, run_call_ok,
          run_switch_assigning, foldl_drawModel, hrest]
        simp [htracks, drawingsOf, modelsDrawn, Function.comp_def]
      · have hstate : frame.trackingState entry.1.anchor ≠ .tracking := htracks
        simp only [List.map_cons, drawAnchors, if_pos hstate, hrest]
        simp [htracks]

theorem drawAnchors_after_of_null
    {c : ColoredAnchor} (htracks : frame.Tracks c)
    (hcard : activity.cardTypes.lookup c = none) (rest : List ColoredAnchor)
    (drawings : List ModelDrawing) :
    (drawAnchors frame activity (c :: rest)).after drawings = drawings := by
  have hstate : frame.trackingState c.anchor = .tracking := htracks
  simp [drawAnchors, hstate, hcard, deref, Method.after]

end Loop

def modelsAt (c : ColoredAnchor) (drawings : List ModelDrawing) :
    List CardModel :=
  (drawings.filter fun drawing => drawing.coloredAnchor = c).map
    ModelDrawing.model

theorem modelsAt_drawingsOf (entry : ColoredAnchor × Card) :
    modelsAt entry.1 (drawingsOf entry) = modelsDrawn entry.2 := by
  simp [modelsAt, drawingsOf, List.filter_map, Function.comp_def]

theorem modelsAt_of_ne
    {c : ColoredAnchor} {entries : List (ColoredAnchor × Card)}
    (hother : c ∉ entries.map Prod.fst) :
    modelsAt c (entries.flatMap drawingsOf) = [] := by
  rw [modelsAt, List.map_eq_nil_iff, List.filter_eq_nil_iff]
  intro drawing hdrawing hanchor
  obtain ⟨entry, hentry, hmem⟩ := List.mem_flatMap.mp hdrawing
  obtain ⟨model, -, rfl⟩ := List.mem_map.mp hmem
  apply hother
  rw [← of_decide_eq_true hanchor]
  exact List.mem_map_of_mem hentry

/-- Each anchor of the list gets the models of its own card. -/
theorem modelsAt_flatMap
    {entries : List (ColoredAnchor × Card)}
    (hnodup : (entries.map Prod.fst).Nodup) {entry : ColoredAnchor × Card}
    (hentry : entry ∈ entries) :
    modelsAt entry.1 (entries.flatMap drawingsOf) = modelsDrawn entry.2 := by
  induction entries with
  | nil => simp at hentry
  | cons first rest ih =>
      rw [List.map_cons, List.nodup_cons] at hnodup
      have hsplit : modelsAt entry.1 ((first :: rest).flatMap drawingsOf) =
          modelsAt entry.1 (drawingsOf first) ++
            modelsAt entry.1 (rest.flatMap drawingsOf) := by
        simp [modelsAt]
      rw [hsplit]
      rcases List.mem_cons.mp hentry with hfirst | hrest
      · subst entry
        rw [modelsAt_drawingsOf, modelsAt_of_ne hnodup.1, List.append_nil]
      · have hne : entry.1 ∉ [first].map Prod.fst := by
          simp only [List.map_singleton, List.mem_singleton]
          intro heq
          exact hnodup.1 (heq ▸ List.mem_map_of_mem hrest)
        have hnone : modelsAt entry.1 (drawingsOf first) = [] := by
          simpa using modelsAt_of_ne hne
        rw [hnone, ih hnodup.2 hrest, List.nil_append]

/-! ## Frames -/

section Taps

variable {activity : Activity} {table : Table}

theorem Represents.handleTap_run
    (hrep : Represents activity table) (demo : Bool) {frame : TapFrame}
    (hframe : (Event.tap frame).Succeeds) :
    (handleTap demo frame).run activity =
      .ok () ((handleTap demo frame).after activity) := by
  rw [handleTap_eq]
  cases hplaces : placingHit frame with
  | none => rfl
  | some hit =>
      have hrun : (placeCard demo hit).run activity =
          .ok () (Euchre.withCard demo hit (Euchre.withRoom activity)) :=
        placeCard_run (hframe hit hplaces) (evictOldest_run hrep.length_eq)
      simp only [Method.after_eq_of_ok hrun, hrun]

theorem Represents.handleTap_throws
    (hrep : Represents activity table) (demo : Bool) {frame : TapFrame}
    (hframe : ¬ (Event.tap frame).Succeeds) :
    (handleTap demo frame).Throws activity := by
  simp only [Event.Succeeds, not_forall] at hframe
  obtain ⟨hit, hplaces, hfails⟩ := hframe
  have hevict := evictOldest_run hrep.length_eq
  rw [handleTap_eq, hplaces]
  refine ⟨.external, Euchre.withRoom activity, ?_⟩
  simp only [placeCard, EStateM.run_bind, hevict, newColoredAnchor,
    if_neg hfails]
  rfl

end Taps

/-- What a frame should draw: at each tracked anchor of the list one model of
the suit and one of the value of the card placed there, and nothing else. -/
structure DrawsCards (frame : DrawFrame) (table : Table)
    (drawn : Activity × List ModelDrawing) : Prop where
  anchors : drawn.1.anchors = table.entries.map Prod.fst
  tracked : ∀ entry ∈ table.entries, frame.Tracks entry.1 →
    ∃ suit value, IsModelOf entry.2 suit value ∧
      (modelsAt entry.1 drawn.2).Perm [suit, value]
  others : ∀ drawing ∈ drawn.2, ∃ entry ∈ table.entries,
    frame.Tracks entry.1 ∧ drawing.coloredAnchor = entry.1

theorem DrawsCards.nothing_tracked
    {frame : DrawFrame} {table : Table}
    {drawn : Activity × List ModelDrawing}
    (hdraws : DrawsCards frame table drawn) (hnothing : drawn.2 = [])
    {entry : ColoredAnchor × Card} (hentry : entry ∈ table.entries) :
    ¬ frame.Tracks entry.1 := by
  intro htracks
  obtain ⟨suit, value, -, hperm⟩ := hdraws.tracked entry hentry htracks
  exact absurd hperm.length_eq (by simp [modelsAt, hnothing])

section Frames

variable {activity : Activity} {table : Table} {frame : DrawFrame}

/-- The loop draws the tracked entries when the map knows them all. -/
theorem Represents.drawAnchors_after
    (hrep : Represents activity table)
    (hkeeps : ∀ entry ∈ table.entries, frame.Tracks entry.1 →
      table.Keeps entry) :
    (drawAnchors frame activity activity.anchors).after [] =
      (table.entries.filter fun entry =>
        frame.Tracks entry.1).flatMap drawingsOf := by
  have hcards : ∀ entry ∈ table.entries, frame.Tracks entry.1 →
      activity.cardTypes.lookup entry.1 = some entry.2 := by
    intro entry hentry htracks
    exact hrep.lookup_of_keeps hentry (hkeeps entry hentry htracks)
  rw [hrep.anchors, Method.after_eq_of_ok (drawAnchors_run hcards []),
    List.nil_append]

theorem Represents.modelsAt_entry
    (hrep : Represents activity table) {entry : ColoredAnchor × Card}
    (hentry : entry ∈ table.entries) (htracks : frame.Tracks entry.1) :
    modelsAt entry.1 ((table.entries.filter fun other =>
      frame.Tracks other.1).flatMap drawingsOf) = modelsDrawn entry.2 := by
  have hnodup := hrep.anchors_nodup
  rw [hrep.anchors] at hnodup
  apply modelsAt_flatMap
  · exact hnodup.sublist (List.filter_sublist.map Prod.fst)
  · simp [hentry, htracks]

/-- A tracked anchor without a card stops the whole loop. -/
theorem Represents.drawAnchors_after_of_lost
    (hrep : Represents activity table) {entry : ColoredAnchor × Card}
    (htracks : frame.Tracks entry.1) (hlost : ¬ table.Keeps entry) :
    (drawAnchors frame activity activity.anchors).after [] = [] := by
  simp only [Table.Keeps, Classical.not_imp, not_not] at hlost
  obtain ⟨hevicted, hhead⟩ := hlost
  obtain ⟨rest, hentries⟩ := List.head?_eq_some_iff.mp hhead
  rw [hrep.anchors, hentries, List.map_cons]
  exact drawAnchors_after_of_null htracks
    (hrep.lookup_first hevicted hentries) _ []

/-- The loop draws what it should exactly when every tracked card is the Ace
of Spades and is not the one which the map has lost. -/
theorem Represents.drawsCards_iff
    (hrep : Represents activity table) :
    DrawsCards frame table (toast activity,
        (drawAnchors frame activity activity.anchors).after []) ↔
      ∀ entry ∈ table.entries, frame.Tracks entry.1 →
        entry.2 = ⟨Card.aceHigh, Card.spades⟩ ∧ table.Keeps entry := by
  constructor
  · intro hdraws
    have hkeeps : ∀ entry ∈ table.entries, frame.Tracks entry.1 →
        table.Keeps entry := by
      intro entry hentry htracks
      by_contra hlost
      rw [hrep.drawAnchors_after_of_lost htracks hlost] at hdraws
      exact hdraws.nothing_tracked rfl hentry htracks
    intro entry hentry htracks
    refine ⟨?_, hkeeps entry hentry htracks⟩
    have htracked := hdraws.tracked entry hentry htracks
    simp only [hrep.drawAnchors_after hkeeps,
      hrep.modelsAt_entry hentry htracks] at htracked
    exact (modelsDrawn_perm_iff entry.2).mp htracked
  · intro haces
    rw [hrep.drawAnchors_after fun entry hentry htracks =>
      (haces entry hentry htracks).2]
    refine ⟨hrep.anchors, ?_, ?_⟩
    · intro entry hentry htracks
      simp only [hrep.modelsAt_entry hentry htracks]
      exact (modelsDrawn_perm_iff entry.2).mpr (haces entry hentry htracks).1
    · intro drawing hdrawing
      obtain ⟨entry, hentry, hmem⟩ := List.mem_flatMap.mp hdrawing
      obtain ⟨model, -, rfl⟩ := List.mem_map.mp hmem
      rw [List.mem_filter] at hentry
      exact ⟨entry, hentry.1, of_decide_eq_true hentry.2, rfl⟩

end Frames

/-- The frame gets as far as its anchors. -/
structure DrawFrame.ReachesAnchors (frame : DrawFrame) : Prop where
  tap : (Event.tap frame.tap).Succeeds
  background : frame.drawsBackground = true
  scene : frame.drawsScene = true

theorem Represents.onDrawFrame_of_reaches
    {activity : Activity} {table : Table} (hrep : Represents activity table)
    (demo : Bool) {frame : DrawFrame} (hcamera : frame.tap.camera = .tracking)
    (hreaches : frame.ReachesAnchors) :
    onDrawFrame demo frame activity =
      (toast ((handleTap demo frame.tap).after activity),
        (drawAnchors frame ((handleTap demo frame.tap).after activity)
          ((handleTap demo frame.tap).after activity).anchors).after []) := by
  simp [onDrawFrame, hrep.handleTap_run demo hreaches.tap, hcamera,
    hreaches.background, hreaches.scene]

theorem Represents.onDrawFrame_of_not_reaches
    {activity : Activity} {table : Table} (hrep : Represents activity table)
    (demo : Bool) {frame : DrawFrame} (hcamera : frame.tap.camera = .tracking)
    (hstops : ¬ frame.ReachesAnchors) :
    onDrawFrame demo frame activity =
      (toast ((handleTap demo frame.tap).after activity), []) := by
  by_cases htap : (Event.tap frame.tap).Succeeds
  · have hscene : frame.drawsBackground = true → frame.drawsScene = false := by
      intro hbackground
      by_contra hscene
      exact hstops ⟨htap, hbackground, by simpa using hscene⟩
    cases hbackground : frame.drawsBackground with
    | false => simp [onDrawFrame, hrep.handleTap_run demo htap, hbackground]
    | true =>
        simp [onDrawFrame, hrep.handleTap_run demo htap, hcamera, hbackground,
          hscene hbackground]
  · obtain ⟨e, tapped, hthrows⟩ := hrep.handleTap_throws demo htap
    simp [onDrawFrame, Method.after, hthrows]

/-- After any run, a frame with the camera tracking draws the cards on the
table exactly when it gets as far as the anchors and every tracked anchor holds
an Ace of Spades which no eviction has taken from the map; or when no anchor is
tracked. -/
theorem frame_draws_cards_iff
    (demo : Bool) (events : List Event) (frame : DrawFrame)
    (hcamera : frame.tap.camera = .tracking) :
    DrawsCards frame
        (tableOf demo onCreate Table.empty (events ++ [.tap frame.tap]))
        (onDrawFrame demo frame (onCreate.run demo events)) ↔
      ∀ entry ∈ (tableOf demo onCreate Table.empty
          (events ++ [.tap frame.tap])).entries,
        frame.Tracks entry.1 →
          frame.ReachesAnchors ∧
            entry.2 = ⟨Card.aceHigh, Card.spades⟩ ∧
            (tableOf demo onCreate Table.empty
              (events ++ [.tap frame.tap])).Keeps entry := by
  have hbefore := represents_run demo events
  have hrep := represents_run demo (events ++ [.tap frame.tap])
  have hlast : onCreate.run demo (events ++ [.tap frame.tap]) =
      (handleTap demo frame.tap).after (onCreate.run demo events) := by
    simp [Activity.run, Event.handle]
  rw [hlast] at hrep
  generalize tableOf demo onCreate Table.empty (events ++ [.tap frame.tap]) =
    table at hrep
  by_cases hreaches : frame.ReachesAnchors
  · rw [hbefore.onDrawFrame_of_reaches demo hcamera hreaches,
      hrep.drawsCards_iff]
    simp only [hreaches, true_and]
  · rw [hbefore.onDrawFrame_of_not_reaches demo hcamera hreaches]
    simp only [hreaches, false_and, imp_false]
    constructor
    · intro hdraws entry hentry
      exact hdraws.nothing_tracked rfl hentry
    · intro hnone
      refine ⟨hrep.anchors, ?_, by simp⟩
      intro entry hentry htracks
      exact absurd htracks (hnone entry hentry)

def trackedFrame : DrawFrame where
  tap := ⟨none, .tracking⟩
  trackingState := fun _ => .tracking
  drawsBackground := true
  drawsScene := true

theorem trackedFrame_reaches : trackedFrame.ReachesAnchors where
  tap := by simp [Event.Succeeds, placingHit, trackedFrame]
  background := rfl
  scene := rfl

theorem aces_after_4_taps :
    ∀ entry ∈ (tableOf true onCreate Table.empty
        (List.replicate 4 planeTap ++ [.tap trackedFrame.tap])).entries,
      entry.2 = ⟨Card.aceHigh, Card.spades⟩ ∧
        (tableOf true onCreate Table.empty
          (List.replicate 4 planeTap ++ [.tap trackedFrame.tap])).Keeps
            entry := by
  decide

theorem frame_draws_4_cards :
    DrawsCards trackedFrame
      (tableOf true onCreate Table.empty
        (List.replicate 4 planeTap ++ [.tap trackedFrame.tap]))
      (onDrawFrame true trackedFrame
        (onCreate.run true (List.replicate 4 planeTap))) :=
  (frame_draws_cards_iff true (List.replicate 4 planeTap) trackedFrame
    rfl).mpr fun entry hentry _ =>
      ⟨trackedFrame_reaches, aces_after_4_taps entry hentry⟩

theorem frame_draws_nothing_after_21_taps :
    (onDrawFrame true trackedFrame
        (onCreate.run true (List.replicate 21 planeTap))).2 = [] ∧
      ¬ DrawsCards trackedFrame
        (tableOf true onCreate Table.empty
          (List.replicate 21 planeTap ++ [.tap trackedFrame.tap]))
        (onDrawFrame true trackedFrame
          (onCreate.run true (List.replicate 21 planeTap))) := by
  have hnothing : (onDrawFrame true trackedFrame
      (onCreate.run true (List.replicate 21 planeTap))).2 = [] := by
    decide +kernel
  have hentries : (tableOf true onCreate Table.empty
      (List.replicate 21 planeTap ++ [.tap trackedFrame.tap])).entries ≠
        [] := by
    decide +kernel
  refine ⟨hnothing, ?_⟩
  intro hdraws
  obtain ⟨entry, hentry⟩ := List.exists_mem_of_ne_nil _ hentries
  exact hdraws.nothing_tracked hnothing hentry rfl

end Euchre
end HighRollers
