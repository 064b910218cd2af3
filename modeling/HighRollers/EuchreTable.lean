import HighRollers.EuchreWindow

/-!
# The table of the Euchre activity

The purpose of `anchors`, `trackingCards` and `cardTypes` is to remember the
cards placed since the last Clear, the 20 most recent ones if there are more.
This file follows a run of the activity together with the cards placed in it.
The two lists always show the table; the map does so until the first eviction,
and from then on until the next Clear the first anchor has no card.
-/

namespace HighRollers
namespace Euchre

open Java
open ListPattern
open Activity

/-! ## The table -/

/-- The lists show the most recent of the cards placed, and the numbers from
`created` on are unused. -/
structure ShowsTable (cap : ℕ) (activity : Activity) (placed : List Card) :
    Prop where
  cards : activity.trackingCards = placed.rtake cap
  anchors_length : activity.anchors.length = activity.trackingCards.length
  anchors_nodup : activity.anchors.Nodup
  anchors_fresh : ∀ c ∈ activity.anchors, c.anchor < activity.created
  keys_fresh : ∀ c ∈ activity.cardTypes, c.anchor < activity.created
  trump : IsSuit activity.trumpSuit

/-- The map has exactly the anchors of the list as keys, and gives each of them
the card at the same place. -/
structure MapInvariant (activity : Activity) : Prop where
  keys : ∀ c, c ∈ activity.cardTypes ↔ c ∈ activity.anchors
  cards : ∀ (i : ℕ) (c : ColoredAnchor), activity.anchors[i]? = some c →
    ∃ card, activity.trackingCards[i]? = some card ∧
      activity.cardTypes.lookup c = some card

def HeadLost (activity : Activity) : Prop :=
  ∃ first rest, activity.anchors = first :: rest ∧
    activity.cardTypes.lookup first = none

structure TableInvariant (activity : Activity) (placed : List Card) : Prop
    extends ShowsTable 20 activity placed where
  whole : placed.length ≤ 20 → MapInvariant activity
  lost : 20 < placed.length → HeadLost activity

theorem HeadLost.not_mapInvariant
    {activity : Activity} (hlost : HeadLost activity) :
    ¬ MapInvariant activity := by
  rcases hlost with ⟨first, rest, hanchors, hlookup⟩
  intro hmap
  obtain ⟨card, _, hcard⟩ := hmap.cards 0 first (by simp [hanchors])
  rw [hlookup] at hcard
  contradiction

/-! ## From the window to the map -/

section Represented

variable {activity : Activity} {table : Table}

theorem Represents.mapInvariant
    (hrep : Represents activity table) (hevicted : table.evicted = false) :
    MapInvariant activity := by
  have hcards : ∀ (i : ℕ) (c : ColoredAnchor),
      activity.anchors[i]? = some c →
        ∃ card, activity.trackingCards[i]? = some card ∧
          activity.cardTypes.lookup c = some card := by
    intro i c hc
    rw [hrep.anchors, List.getElem?_map] at hc
    obtain ⟨entry, hentry, rfl⟩ := Option.map_eq_some_iff.mp hc
    have hkeeps : table.Keeps entry := by simp [Table.Keeps, hevicted]
    exact ⟨entry.2, by simp [hrep.cards, hentry],
      hrep.lookup_of_keeps (List.mem_of_getElem? hentry) hkeeps⟩
  constructor
  · intro c
    constructor
    · exact hrep.keys hevicted c
    · intro hc
      obtain ⟨i, hi⟩ := List.getElem?_of_mem hc
      obtain ⟨card, _, hlookup⟩ := hcards i c hi
      rw [← AList.lookup_isSome, hlookup]
      rfl
  · exact hcards

theorem Represents.headLost
    (hrep : Represents activity table) (hevicted : table.evicted = true) :
    HeadLost activity := by
  obtain ⟨first, rest, hentries⟩ :=
    List.exists_cons_of_ne_nil (table.nonempty hevicted)
  exact ⟨first.1, rest.map Prod.fst, by rw [hrep.anchors, hentries]; rfl,
    hrep.lookup_first hevicted hentries⟩

theorem Represents.tableInvariant
    (hrep : Represents activity table)
    {placed : List (ColoredAnchor × Card)} (hwindow : table.IsWindow placed) :
    TableInvariant activity (placed.map Prod.snd) where
  cards := by
    rw [hrep.cards, hwindow.entries]
    simp [List.rtake]
  anchors_length := hrep.length_eq
  anchors_nodup := hrep.anchors_nodup
  anchors_fresh := hrep.anchors_fresh
  keys_fresh := hrep.keys_fresh
  trump := hrep.trump
  whole := by
    intro hroom
    rw [List.length_map] at hroom
    apply hrep.mapInvariant
    rw [← Bool.not_eq_true, hwindow.evicted]
    omega
  lost := by
    intro hfull
    rw [List.length_map] at hfull
    exact hrep.headLost (hwindow.evicted.mpr hfull)

end Represented

/-! ## Runs -/

/-- The cards placed since the last Clear, brought up to date after an event
which has left the given fields. -/
def recordCards (event : Event) (after : Activity) (placed : List Card) :
    List Card :=
  match event with
  | .tap frame =>
      if (placingHit frame).isSome then placed ++ [selectedCard after]
      else placed
  | .clear => []
  | _ => placed

/-- The cards placed since the last Clear, in tap order. -/
def placedCards (demo : Bool) (activity : Activity) (placed : List Card) :
    List Event → List Card
  | [] => placed
  | event :: rest =>
      let after := (event.handle demo).after activity
      placedCards demo after (recordCards event after placed) rest

def countPlacement (count : ℕ) : Event → ℕ
  | .tap frame => if (placingHit frame).isSome then count + 1 else count
  | .clear => 0
  | _ => count

def placements (events : List Event) : ℕ :=
  events.foldl countPlacement 0

theorem placedCards_length
    (demo : Bool) (activity : Activity) (placed : List Card)
    (events : List Event) :
    (placedCards demo activity placed events).length =
      events.foldl countPlacement placed.length := by
  induction events generalizing activity placed with
  | nil => rfl
  | cons event rest ih =>
      rw [placedCards, ih, List.foldl_cons]
      congr 1
      cases event with
      | tap frame =>
          by_cases hplaces : (placingHit frame).isSome = true
          · simp [recordCards, countPlacement, hplaces]
          · simp [recordCards, countPlacement, hplaces]
      | clear => rfl
      | submit => rfl
      | selectValue item => rfl
      | selectSuit item => rfl
      | selectTrumpSuit item => rfl

theorem placedCards_eq
    (demo : Bool) (activity : Activity)
    (placed : List (ColoredAnchor × Card)) (events : List Event) :
    placedCards demo activity (placed.map Prod.snd) events =
      (placedTaps demo activity placed events).map Prod.snd := by
  induction events generalizing activity placed with
  | nil => rfl
  | cons event rest ih =>
      have hrecord : ∀ after, recordCards event after (placed.map Prod.snd) =
          (recordTap event activity after placed).map Prod.snd := by
        intro after
        cases event with
        | tap frame =>
            simp only [recordCards, recordTap]
            cases placingHit frame with
            | none => rfl
            | some hit => simp
        | clear => rfl
        | submit => rfl
        | selectValue item => rfl
        | selectSuit item => rfl
        | selectTrumpSuit item => rfl
      rw [placedCards, placedTaps]
      simp only [hrecord]
      exact ih _ _

theorem placements_eq_length (demo : Bool) (events : List Event) :
    placements events = (placedCards demo onCreate [] events).length := by
  rw [placedCards_length]
  rfl

theorem tableInvariant_run
    {events : List Event} (hevents : ∀ event ∈ events, event.Succeeds)
    (demo : Bool) :
    TableInvariant (onCreate.run demo events)
      (placedCards demo onCreate [] events) := by
  have hcards := placedCards_eq demo onCreate [] events
  rw [List.map_nil] at hcards
  rw [hcards]
  exact (represents_run demo events).tableInvariant
    (Table.isWindow_empty.run hevents demo onCreate)

/-! ## Submit after a run -/

theorem MapInvariant.lookups
    {activity : Activity} (hmap : MapInvariant activity)
    (hlength : activity.anchors.length = activity.trackingCards.length) :
    (activity.anchors.map fun c => activity.cardTypes.lookup c) =
      activity.trackingCards.map some := by
  apply List.ext_getElem?
  intro i
  rw [List.getElem?_map, List.getElem?_map]
  cases hanchor : activity.anchors[i]? with
  | none =>
      have hi : activity.trackingCards.length ≤ i := by
        rw [← hlength]
        exact List.getElem?_eq_none_iff.mp hanchor
      simp [List.getElem?_eq_none_iff.mpr hi]
  | some c =>
      obtain ⟨card, hcard, hlookup⟩ := hmap.cards i c hanchor
      simp [hcard, hlookup]

/-- What Submit is for: it returns, and it shows the prompt when no card is on
the table and otherwise the winner of the table's trick. -/
def SubmitAnnounces (demo : Bool) (activity : Activity)
    (placed : List Card) : Prop :=
  ∃ after, (submit demo).run activity = .ok () after ∧
    after.showMessage = true ∧
    (placed = [] → after.message = some pleaseIndicate) ∧
    (placed ≠ [] → ∃ (winner : ℕ) (card : Card),
      trickWinner ((placed.rtake 20).map some)
          (trumpInEffect demo activity) = .ok (winner : ℤ) ∧
        (placed.rtake 20)[winner]? = some card ∧
        after.message = some (card.toString ++ " WINS!"))

theorem TableInvariant.trumpInEffect
    {activity : Activity} {placed : List Card}
    (hinv : TableInvariant activity placed) (demo : Bool) :
    IsSuit (trumpInEffect demo activity) := by
  cases demo with
  | false => exact hinv.trump
  | true => exact .inr (.inr (.inr rfl))

theorem TableInvariant.submitAnnounces
    {activity : Activity} {placed : List Card}
    (hinv : TableInvariant activity placed) (hroom : placed.length ≤ 20)
    (demo : Bool) :
    SubmitAnnounces demo activity placed := by
  have hcards : activity.trackingCards = placed := by
    rw [hinv.cards, rtake_of_length_le hroom]
  have htrick : trickArray activity = .ok (placed.map some) := by
    rw [trickArray_eq hinv.anchors_length,
      (hinv.whole hroom).lookups hinv.anchors_length, hcards]
  unfold SubmitAnnounces
  rw [rtake_of_length_le hroom]
  cases placed with
  | nil =>
      refine ⟨_, submit_run_of_empty hcards demo, rfl, ?_, ?_⟩
      · intro _
        rfl
      · simp
  | cons lead rest =>
      obtain ⟨_, hrun, winner, rfl, card, hcard, _⟩ :=
        trickWinner_returns (hinv.trumpInEffect demo) lead rest
      have hne : activity.trackingCards ≠ [] := by simp [hcards]
      refine ⟨_, submit_run_of_winner hne htrick
        (winningCard_of_winsAt hrun hcard), rfl, ?_, ?_⟩
      · simp
      · intro _
        exact ⟨winner, card, hrun, hcard, rfl⟩

theorem TableInvariant.submit_throws
    {activity : Activity} {placed : List Card}
    (hinv : TableInvariant activity placed) (hfull : 20 < placed.length)
    (demo : Bool) :
    (submit demo).Throws activity := by
  obtain ⟨first, rest, hanchors, hlookup⟩ := hinv.lost hfull
  have htrick : trickArray activity =
      .ok (none :: rest.map fun c => activity.cardTypes.lookup c) := by
    rw [trickArray_eq hinv.anchors_length, hanchors, List.map_cons, hlookup]
  have hne : activity.trackingCards ≠ [] := by
    have hlength := hinv.anchors_length
    rw [hanchors] at hlength
    intro hnil
    simp [hnil] at hlength
  exact submit_throws_of_null_lead hne htrick demo

theorem not_submitAnnounces_of_throws
    {demo : Bool} {activity : Activity} {placed : List Card}
    (hthrows : (submit demo).Throws activity) :
    ¬ SubmitAnnounces demo activity placed := by
  intro hannounces
  rcases hannounces with ⟨after, hrun, _⟩
  exact Method.not_throws_of_ok hrun hthrows

/-- After a run of successful events, Submit announces the winner of the cards
placed since the last Clear exactly when these are at most 20; after more it
throws. -/
theorem submit_announces_winner_iff
    (demo : Bool) (events : List Event)
    (hevents : ∀ event ∈ events, event.Succeeds) :
    SubmitAnnounces demo (onCreate.run demo events)
        (placedCards demo onCreate [] events) ↔
      placements events ≤ 20 := by
  have hinv := tableInvariant_run hevents demo
  rw [placements_eq_length demo]
  constructor
  · intro hannounces
    by_contra hlt
    have hthrows := hinv.submit_throws (Nat.lt_of_not_le hlt) demo
    exact not_submitAnnounces_of_throws hthrows hannounces
  · intro hroom
    exact hinv.submitAnnounces hroom demo

theorem submit_announces_winner_after_4_taps :
    placements (List.replicate 4 planeTap) ≤ 20 ∧
      SubmitAnnounces true (onCreate.run true (List.replicate 4 planeTap))
        (placedCards true onCreate [] (List.replicate 4 planeTap)) := by
  have hroom : placements (List.replicate 4 planeTap) ≤ 20 := by decide
  exact ⟨hroom, (submit_announces_winner_iff true
    (List.replicate 4 planeTap) (planeTaps_succeed 4)).mpr hroom⟩

theorem submit_throws_after_21_taps :
    (∀ event ∈ List.replicate 21 planeTap, event.Succeeds) ∧
      (submit true).Throws
        (onCreate.run true (List.replicate 21 planeTap)) ∧
      ¬ SubmitAnnounces true
        (onCreate.run true (List.replicate 21 planeTap))
        (placedCards true onCreate [] (List.replicate 21 planeTap)) := by
  have hinv := tableInvariant_run (planeTaps_succeed 21) true
  have hfull : 20 < placements (List.replicate 21 planeTap) := by decide
  rw [placements_eq_length true] at hfull
  have hthrows := hinv.submit_throws hfull true
  exact ⟨planeTaps_succeed 21, hthrows,
    not_submitAnnounces_of_throws hthrows⟩

/-! ## The map after a run -/

/-- In the states reached by successful events the map fits the two lists
exactly while at most 20 cards were placed since the last Clear. -/
theorem mapInvariant_run_iff
    (demo : Bool) (events : List Event)
    (hevents : ∀ event ∈ events, event.Succeeds) :
    MapInvariant (onCreate.run demo events) ↔ placements events ≤ 20 := by
  have hinv := tableInvariant_run hevents demo
  rw [placements_eq_length demo]
  constructor
  · intro hmap
    by_contra hlt
    exact (hinv.lost (Nat.lt_of_not_le hlt)).not_mapInvariant hmap
  · exact hinv.whole

theorem mapInvariant_after_4_taps :
    placements (List.replicate 4 planeTap) ≤ 20 ∧
      MapInvariant (onCreate.run true (List.replicate 4 planeTap)) := by
  have hroom : placements (List.replicate 4 planeTap) ≤ 20 := by decide
  exact ⟨hroom, (mapInvariant_run_iff true
    (List.replicate 4 planeTap) (planeTaps_succeed 4)).mpr hroom⟩

theorem not_mapInvariant_after_21_taps :
    (∀ event ∈ List.replicate 21 planeTap, event.Succeeds) ∧
      ¬ MapInvariant (onCreate.run true (List.replicate 21 planeTap)) := by
  have hinv := tableInvariant_run (planeTaps_succeed 21) true
  have hfull : 20 < placements (List.replicate 21 planeTap) := by decide
  rw [placements_eq_length true] at hfull
  exact ⟨planeTaps_succeed 21, (hinv.lost hfull).not_mapInvariant⟩

end Euchre
end HighRollers
