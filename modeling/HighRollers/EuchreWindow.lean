import HighRollers.EuchreEffects
import HighRollers.ListPatterns

/-!
# The table as a bounded window

What the two lists and the map of the Euchre activity are for: the entries on
the table, each with its anchor and its card, at most 20 of them.  The fields
represent a table in every state reached, also by taps which fail in
`createAnchor`.  The map does so only in part: once an entry was evicted, and
until the next Clear, it does not know the card of the first one.
-/

namespace HighRollers
namespace Euchre

open Java
open ListPattern
open Activity

/-! ## Tables -/

structure Table where
  entries : List (ColoredAnchor × Card)
  /-- Whether an entry was evicted since the last Clear. -/
  evicted : Bool
  bound : entries.length ≤ 20
  nonempty : evicted = true → entries ≠ []

namespace Table

def empty : Table where
  entries := []
  evicted := false
  bound := by simp
  nonempty := by simp

def evict (table : Table) : Table :=
  if hfull : 20 ≤ table.entries.length then
    { entries := table.entries.tail
      evicted := true
      bound := by
        have hbound := table.bound
        simp only [List.length_tail]
        omega
      nonempty := by
        intro _ hnil
        have hlength := congrArg List.length hnil
        simp only [List.length_tail, List.length_nil] at hlength
        omega }
  else table

theorem evict_length (table : Table) : table.evict.entries.length < 20 := by
  have hbound := table.bound
  unfold evict
  split_ifs with hfull
  · simp only [List.length_tail]
    omega
  · omega

/-- A new entry, after the oldest one has left a full table. -/
def place (table : Table) (entry : ColoredAnchor × Card) : Table where
  entries := table.evict.entries ++ [entry]
  evicted := table.evict.evicted
  bound := by
    have hlength := table.evict_length
    simp only [List.length_append, List.length_singleton]
    omega
  nonempty := by simp

/-- The cards as the map knows them, in the order of the entries. -/
def known (table : Table) : CardArray :=
  if table.evicted then
    none :: table.entries.tail.map fun entry => some entry.2
  else table.entries.map fun entry => some entry.2

theorem tail_known (table : Table) :
    table.known.tail = table.entries.tail.map fun entry => some entry.2 := by
  unfold known
  split_ifs
  · rfl
  · rw [List.map_tail]

theorem known_place (table : Table) (entry : ColoredAnchor × Card) :
    (table.place entry).known = table.evict.known ++ [some entry.2] := by
  unfold known place
  split_ifs with hevicted
  · rw [List.tail_append_of_ne_nil (table.evict.nonempty hevicted)]
    simp
  · simp

/-- What an event does to the table.  The fields before and after it tell the
new anchor and the card placed. -/
def record (event : Event) (before after : Activity) (table : Table) : Table :=
  match event with
  | .tap frame =>
      match placingHit frame with
      | some hit =>
          if hit.createsAnchor then
            table.place (newAnchor hit before, selectedCard after)
          else table.evict
      | none => table
  | .clear => empty
  | _ => table

/-- The entry is not the one whose card an eviction has taken from the map. -/
def Keeps (table : Table) (entry : ColoredAnchor × Card) : Prop :=
  table.evicted = true → table.entries.head? ≠ some entry

instance (table : Table) : DecidablePred table.Keeps :=
  fun entry => inferInstanceAs
    (Decidable (table.evicted = true → table.entries.head? ≠ some entry))

end Table

/-- The table after a run. -/
def tableOf (demo : Bool) (activity : Activity) (table : Table) :
    List Event → Table
  | [] => table
  | event :: rest =>
      let after := (event.handle demo).after activity
      tableOf demo after (table.record event activity after) rest

/-! ## Fields which represent a table -/

def anchorNumbers (activity : Activity) : List ℕ :=
  activity.anchors.map ColoredAnchor.anchor

structure Represents (activity : Activity) (table : Table) : Prop where
  anchors : activity.anchors = table.entries.map Prod.fst
  cards : activity.trackingCards = table.entries.map Prod.snd
  lookups : (activity.anchors.map fun c => activity.cardTypes.lookup c) =
    table.known
  keys : table.evicted = false →
    ∀ c ∈ activity.cardTypes, c ∈ activity.anchors
  keys_fresh : ∀ c ∈ activity.cardTypes, c.anchor < activity.created
  /-- Every anchor made so far is on the table or detached. -/
  made : ∀ n, n < activity.created ↔
    n ∈ anchorNumbers activity ∨ n ∈ activity.detached
  nodup : (anchorNumbers activity ++ activity.detached).Nodup
  trump : IsSuit activity.trumpSuit

theorem represents_onCreate : Represents onCreate Table.empty where
  anchors := rfl
  cards := rfl
  lookups := rfl
  keys := by simp [onCreate]
  keys_fresh := by simp [onCreate]
  made := by simp [onCreate, anchorNumbers]
  nodup := by simp [onCreate, anchorNumbers]
  trump := .inr (.inr (.inr rfl))

section Represents

variable {activity : Activity} {table : Table}

theorem Represents.length_anchors (hrep : Represents activity table) :
    activity.anchors.length = table.entries.length := by
  rw [hrep.anchors, List.length_map]

theorem Represents.length_eq (hrep : Represents activity table) :
    activity.anchors.length = activity.trackingCards.length := by
  rw [hrep.anchors, hrep.cards, List.length_map, List.length_map]

theorem Represents.anchors_nodup (hrep : Represents activity table) :
    activity.anchors.Nodup :=
  (List.nodup_append'.mp hrep.nodup).1.of_map

theorem Represents.anchors_fresh (hrep : Represents activity table) :
    ∀ c ∈ activity.anchors, c.anchor < activity.created := by
  intro c hc
  rw [hrep.made]
  exact .inl (List.mem_map_of_mem hc)

theorem Represents.lookup_of_keeps
    (hrep : Represents activity table) {entry : ColoredAnchor × Card}
    (hentry : entry ∈ table.entries) (hkeeps : table.Keeps entry) :
    activity.cardTypes.lookup entry.1 = some entry.2 := by
  have hlookups := hrep.lookups
  rw [hrep.anchors, List.map_map] at hlookups
  by_cases hevicted : table.evicted = true
  · cases hentries : table.entries with
    | nil => simp [hentries] at hentry
    | cons first rest =>
        have hne : entry ≠ first := by
          intro heq
          exact hkeeps hevicted (by simp [hentries, heq])
        rw [hentries, List.mem_cons] at hentry
        have hrest := hentry.resolve_left hne
        simp only [Table.known, if_pos hevicted, hentries, List.map_cons,
          List.tail_cons, List.cons.injEq] at hlookups
        exact List.map_inj_left.mp hlookups.2 entry hrest
  · rw [Table.known, if_neg hevicted] at hlookups
    exact List.map_inj_left.mp hlookups entry hentry

theorem Represents.lookup_first
    (hrep : Represents activity table) (hevicted : table.evicted = true)
    {first : ColoredAnchor × Card} {rest : List (ColoredAnchor × Card)}
    (hentries : table.entries = first :: rest) :
    activity.cardTypes.lookup first.1 = none := by
  have hlookups := hrep.lookups
  simp only [hrep.anchors, hentries, Table.known, if_pos hevicted,
    List.map_cons, List.cons.injEq] at hlookups
  exact hlookups.1

theorem Represents.of_sameTable
    {after : Activity} (hrep : Represents activity table)
    (hsame : SameTable activity after) :
    Represents after table where
  anchors := by rw [hsame.anchors, hrep.anchors]
  cards := by rw [hsame.trackingCards, hrep.cards]
  lookups := by rw [hsame.anchors, hsame.cardTypes, hrep.lookups]
  keys := by simpa [hsame.anchors, hsame.cardTypes] using hrep.keys
  keys_fresh := by
    simpa [hsame.cardTypes, hsame.created] using hrep.keys_fresh
  made := by
    simpa [anchorNumbers, hsame.anchors, hsame.created, hsame.detached] using
      hrep.made
  nodup := by
    simpa [anchorNumbers, hsame.anchors, hsame.detached] using hrep.nodup
  trump := hsame.trump hrep.trump

/-! ## Steps -/

/-- An eviction takes the oldest entry away, and the map forgets the card of
the entry which becomes the first one. -/
theorem Represents.evicted
    {oldest first : ColoredAnchor} {rest : List ColoredAnchor}
    {card : Card} {cards : List Card}
    (hrep : Represents activity table)
    (hfull : 20 ≤ activity.anchors.length)
    (hanchors : activity.anchors = oldest :: first :: rest)
    (hcards : activity.trackingCards = card :: cards) :
    Represents (evicted oldest first rest cards activity) table.evict := by
  have hentries : table.evict.entries = table.entries.tail ∧
      table.evict.evicted = true := by
    rw [hrep.length_anchors] at hfull
    simp [Table.evict, hfull]
  have htail : table.entries.tail.map Prod.fst = first :: rest := by
    rw [List.map_tail, ← hrep.anchors, hanchors, List.tail_cons]
  have hnodup := hrep.nodup
  simp only [anchorNumbers, hanchors, List.map_cons] at hnodup
  refine {
    anchors := by rw [hentries.1, htail]; rfl
    cards := ?_
    lookups := ?_
    keys := by simp [hentries.2]
    keys_fresh := ?_
    made := ?_
    nodup := ?_
    trump := hrep.trump }
  · rw [hentries.1, List.map_tail, ← hrep.cards, hcards]
    rfl
  · have hfirst : ∀ c ∈ rest,
        (activity.cardTypes.erase first).lookup c =
          activity.cardTypes.lookup c := by
      intro c hc
      apply AList.lookup_erase_ne
      intro heq
      subst c
      have hnodup' := hrep.anchors_nodup
      rw [hanchors, List.nodup_cons, List.nodup_cons] at hnodup'
      exact hnodup'.2.1 hc
    have hknown := congrArg (fun known => known.tail.tail) hrep.lookups
    simp only [hanchors, List.map_cons, List.tail_cons,
      Table.tail_known] at hknown
    simp only [Euchre.evicted, List.map_cons, AList.lookup_erase]
    rw [List.map_congr_left hfirst, hknown, Table.known, if_pos hentries.2,
      hentries.1]
    simp only [List.map_tail]
  · intro c hc
    exact hrep.keys_fresh c (AList.mem_erase.mp hc).2
  · intro n
    change n < activity.created ↔ _
    rw [hrep.made]
    simp only [anchorNumbers, hanchors, Euchre.evicted, List.map_cons,
      List.mem_cons]
    tauto
  · change ((first.anchor :: rest.map ColoredAnchor.anchor) ++
      oldest.anchor :: activity.detached).Nodup
    rw [List.perm_middle.nodup_iff]
    exact hnodup

theorem Represents.withRoom (hrep : Represents activity table) :
    Represents (withRoom activity) table.evict := by
  by_cases hfull : 20 ≤ activity.anchors.length
  · obtain ⟨oldest, first, rest, card, cards, hanchors, hcards⟩ :=
      exists_oldest hfull hrep.length_eq
    rw [withRoom_of_full hfull hanchors hcards]
    exact hrep.evicted hfull hanchors hcards
  · rw [withRoom_of_lt (by omega)]
    have hsame : table.evict = table := by
      rw [hrep.length_anchors] at hfull
      simp [Table.evict, hfull]
    rw [hsame]
    exact hrep

end Represents

theorem withRoom_created (activity : Activity) :
    (withRoom activity).created = activity.created := by
  unfold withRoom
  split
  · split_ifs <;> rfl
  · rfl

section Steps

variable {activity : Activity} {table : Table}

theorem Represents.withCard
    (hrep : Represents activity table.evict) (demo : Bool) (hit : HitResult) :
    Represents (withCard demo hit activity)
      (table.place (newAnchor hit activity,
        selectedCard (withCard demo hit activity))) := by
  have hne : ∀ c ∈ activity.anchors, c ≠ newAnchor hit activity := by
    intro c hc heq
    have hlt := hrep.anchors_fresh c hc
    simp [heq, newAnchor] at hlt
  have hnew : ∀ n, n ∈ anchorNumbers activity ∨ n ∈ activity.detached →
      n ≠ activity.created := by
    intro n hmade
    exact ((hrep.made n).mpr hmade).ne
  refine {
    anchors := by simp [Table.place, hrep.anchors]
    cards := by simp [Table.place, hrep.cards]
    lookups := ?_
    keys := ?_
    keys_fresh := ?_
    made := ?_
    nodup := ?_
    trump := ?_ }
  · rw [Table.known_place, ← hrep.lookups, withCard_anchors,
      withCard_cardTypes, List.map_append]
    congr 1
    · apply List.map_congr_left
      intro c hc
      exact AList.lookup_insert_ne (hne c hc)
    · simp
  · intro hevicted c hc
    rw [withCard_cardTypes, AList.mem_insert] at hc
    rw [withCard_anchors, List.mem_append, List.mem_singleton]
    rcases hc with heq | hold
    · exact .inr heq
    · exact .inl (hrep.keys hevicted c hold)
  · intro c hc
    rw [withCard_cardTypes, AList.mem_insert] at hc
    rw [withCard_created]
    rcases hc with heq | hold
    · simp [heq, newAnchor]
    · exact (hrep.keys_fresh c hold).trans (Nat.lt_succ_self _)
  · intro n
    rw [withCard_created, Nat.lt_succ_iff_lt_or_eq, hrep.made]
    simp only [anchorNumbers, withCard_anchors, withCard_detached,
      List.map_append, List.mem_append, List.map_singleton,
      List.mem_singleton, newAnchor]
    tauto
  · have hnumbers : anchorNumbers (Euchre.withCard demo hit activity) =
        anchorNumbers activity ++ [activity.created] := by
      simp [anchorNumbers, newAnchor]
    rw [hnumbers, withCard_detached, List.append_assoc,
      List.singleton_append, List.perm_middle.nodup_iff, List.nodup_cons]
    refine ⟨?_, hrep.nodup⟩
    intro hmem
    exact hnew _ (List.mem_append.mp hmem) rfl
  · cases demo with
    | false => exact hrep.trump
    | true => exact .inr (.inr (.inr rfl))

theorem Represents.tapped
    (hrep : Represents activity table) (demo : Bool) {frame : TapFrame}
    {hit : HitResult} (hplaces : placingHit frame = some hit) :
    Represents (tapped demo hit activity)
      (table.record (.tap frame) activity (tapped demo hit activity)) := by
  have hroom := hrep.withRoom
  simp only [Table.record, hplaces]
  unfold Euchre.tapped
  by_cases hhit : hit.createsAnchor = true
  · have hanchor : newAnchor hit activity =
        newAnchor hit (Euchre.withRoom activity) := by
      simp [newAnchor, withRoom_created]
    rw [if_pos hhit, if_pos hhit, hanchor]
    exact hroom.withCard demo hit
  · rw [if_neg hhit, if_neg hhit]
    exact hroom

theorem Represents.cleared (hrep : Represents activity table) :
    Represents (cleared activity) Table.empty := by
  unfold Euchre.cleared
  rw [detachAll_eq]
  split_ifs with hanchors
  · have hentries : table.entries = [] := by
      rw [← List.map_eq_nil_iff, ← hrep.anchors, hanchors]
    have hevicted : table.evicted = false := by
      cases hcase : table.evicted with
      | false => rfl
      | true => exact absurd hentries (table.nonempty hcase)
    exact {
      anchors := hanchors
      cards := rfl
      lookups := by simp [hanchors, Table.known, Table.empty]
      keys := fun _ => hrep.keys hevicted
      keys_fresh := hrep.keys_fresh
      made := hrep.made
      nodup := hrep.nodup
      trump := hrep.trump }
  · refine {
      anchors := rfl
      cards := rfl
      lookups := rfl
      keys := by simp
      keys_fresh := by simp
      made := ?_
      nodup := ?_
      trump := hrep.trump }
    · intro n
      change n < activity.created ↔ _
      rw [hrep.made]
      simp [anchorNumbers]
    · have hnodup := hrep.nodup
      rw [← ((List.reverse_perm (anchorNumbers activity)).append_right
        activity.detached).nodup_iff] at hnodup
      exact hnodup

/-- Every event of a run keeps the fields a representation of the table. -/
theorem Represents.step
    (hrep : Represents activity table) (demo : Bool) (event : Event) :
    Represents ((event.handle demo).after activity)
      (table.record event activity ((event.handle demo).after activity)) := by
  rcases event.after_cases demo hrep.length_eq with
    ⟨frame, hit, rfl, hplaces, hafter⟩ | ⟨rfl, hafter⟩ |
    ⟨hnone, hclear, hsame⟩
  · rw [hafter]
    exact hrep.tapped demo hplaces
  · rw [hafter]
    exact hrep.cleared
  · have hrecord : table.record event activity
        ((event.handle demo).after activity) = table := by
      cases event with
      | tap frame => simp [Table.record, hnone frame rfl]
      | clear => exact absurd rfl hclear
      | submit => rfl
      | selectValue item => rfl
      | selectSuit item => rfl
      | selectTrumpSuit item => rfl
    rw [hrecord]
    exact hrep.of_sameTable hsame

theorem Represents.run
    (hrep : Represents activity table) (demo : Bool) (events : List Event) :
    Represents (activity.run demo events)
      (tableOf demo activity table events) := by
  induction events generalizing activity table with
  | nil => exact hrep
  | cons event rest ih => exact ih (hrep.step demo event)

theorem represents_run (demo : Bool) (events : List Event) :
    Represents (onCreate.run demo events)
      (tableOf demo onCreate Table.empty events) :=
  represents_onCreate.run demo events

end Steps

/-! ## Runs without failing taps -/

def recordTap (event : Event) (before after : Activity)
    (placed : List (ColoredAnchor × Card)) : List (ColoredAnchor × Card) :=
  match event with
  | .tap frame =>
      match placingHit frame with
      | some hit => placed ++ [(newAnchor hit before, selectedCard after)]
      | none => placed
  | .clear => []
  | _ => placed

/-- The placements since the last Clear, in tap order: the anchor made for the
first qualifying hit of the tap, and the card chosen at the tap. -/
def placedTaps (demo : Bool) (activity : Activity)
    (placed : List (ColoredAnchor × Card)) :
    List Event → List (ColoredAnchor × Card)
  | [] => placed
  | event :: rest =>
      let after := (event.handle demo).after activity
      placedTaps demo after (recordTap event activity after placed) rest

structure Table.IsWindow (table : Table)
    (placed : List (ColoredAnchor × Card)) : Prop where
  entries : table.entries = placed.rtake 20
  evicted : table.evicted = true ↔ 20 < placed.length

theorem Table.isWindow_empty : Table.empty.IsWindow [] where
  entries := rfl
  evicted := by simp [Table.empty]

section Windows

variable {table : Table} {placed : List (ColoredAnchor × Card)}

theorem Table.IsWindow.length (hwindow : table.IsWindow placed) :
    table.entries.length = min 20 placed.length := by
  rw [hwindow.entries, rtake_length]

theorem Table.IsWindow.evict_entries (hwindow : table.IsWindow placed) :
    table.evict.entries = placed.rtake 19 := by
  have hlength := hwindow.length
  unfold Table.evict
  split_ifs with hfull
  · rw [rtake_eq_tail (by omega), ← hwindow.entries]
  · rw [hwindow.entries, rtake_of_length_le (by omega),
      rtake_of_length_le (by omega)]

theorem Table.IsWindow.evict_evicted (hwindow : table.IsWindow placed) :
    table.evict.evicted = true ↔ 20 ≤ placed.length := by
  have hlength := hwindow.length
  unfold Table.evict
  split_ifs with hfull
  · simp only [true_iff]
    omega
  · rw [hwindow.evicted]
    omega

theorem Table.IsWindow.place
    (hwindow : table.IsWindow placed) (entry : ColoredAnchor × Card) :
    (table.place entry).IsWindow (placed ++ [entry]) where
  entries := by
    rw [List.rtake_concat_succ, ← hwindow.evict_entries]
    rfl
  evicted := by
    change table.evict.evicted = true ↔ _
    rw [hwindow.evict_evicted, List.length_append, List.length_singleton]
    omega

theorem Table.IsWindow.record
    (hwindow : table.IsWindow placed) {event : Event}
    (hevent : event.Succeeds) (before after : Activity) :
    (table.record event before after).IsWindow
      (recordTap event before after placed) := by
  cases event with
  | tap frame =>
      simp only [Table.record, recordTap]
      cases hplaces : placingHit frame with
      | none => exact hwindow
      | some hit =>
          simp only [hevent hit hplaces, if_true]
          exact hwindow.place _
  | clear => exact Table.isWindow_empty
  | submit => exact hwindow
  | selectValue item => exact hwindow
  | selectSuit item => exact hwindow
  | selectTrumpSuit item => exact hwindow

theorem Table.IsWindow.run
    (hwindow : table.IsWindow placed) {events : List Event}
    (hevents : ∀ event ∈ events, event.Succeeds) (demo : Bool)
    (activity : Activity) :
    (tableOf demo activity table events).IsWindow
      (placedTaps demo activity placed events) := by
  induction events generalizing activity table placed with
  | nil => exact hwindow
  | cons event rest ih =>
      have hrecord := hwindow.record (hevents event (by simp)) activity
        ((event.handle demo).after activity)
      have hrest : ∀ other ∈ rest, other.Succeeds := by
        intro other hother
        exact hevents other (List.mem_cons_of_mem event hother)
      exact ih hrecord hrest _

end Windows

/-- The list once there is room for another entry. -/
def dropOldest {α : Type} (entries : List α) : List α :=
  if 20 ≤ entries.length then entries.tail else entries

theorem withRoom_lists
    {activity : Activity}
    (hlength : activity.anchors.length = activity.trackingCards.length) :
    (withRoom activity).anchors = dropOldest activity.anchors ∧
      (withRoom activity).trackingCards =
        dropOldest activity.trackingCards := by
  unfold dropOldest
  rw [← hlength]
  by_cases hfull : 20 ≤ activity.anchors.length
  · obtain ⟨oldest, first, rest, card, cards, hanchors, hcards⟩ :=
      exists_oldest hfull hlength
    rw [withRoom_of_full hfull hanchors hcards, if_pos hfull, if_pos hfull,
      hanchors, hcards]
    exact ⟨rfl, rfl⟩
  · rw [withRoom_of_lt (by omega), if_neg hfull, if_neg hfull]
    exact ⟨rfl, rfl⟩

/-- A tap adds one entry to each list, for its first qualifying hit. -/
structure TapAddsOne (frame : TapFrame) (activity after : Activity) :
    Prop where
  adds : ∀ hit, placingHit frame = some hit →
    after.anchors =
        dropOldest activity.anchors ++ [newAnchor hit activity] ∧
      after.trackingCards =
        dropOldest activity.trackingCards ++ [selectedCard after]
  keeps : placingHit frame = none →
    after.anchors = activity.anchors ∧
      after.trackingCards = activity.trackingCards

/-- Both lists hold the latest placements, and the anchors on the table are
those which were made and not detached. -/
structure ListsLatest (activity : Activity)
    (placed : List (ColoredAnchor × Card)) : Prop where
  anchors : activity.anchors = (placed.rtake 20).map Prod.fst
  cards : activity.trackingCards = (placed.rtake 20).map Prod.snd
  length_eq : activity.anchors.length = activity.trackingCards.length
  bound : activity.anchors.length ≤ 20
  live : ∀ n, n ∈ anchorNumbers activity ↔
    n < activity.created ∧ n ∉ activity.detached
  distinct : (anchorNumbers activity).Nodup
  detached_once : activity.detached.Nodup

theorem Represents.listsLatest
    {activity : Activity} {table : Table}
    {placed : List (ColoredAnchor × Card)} (hrep : Represents activity table)
    (hwindow : table.IsWindow placed) :
    ListsLatest activity placed where
  anchors := by rw [hrep.anchors, hwindow.entries]
  cards := by rw [hrep.cards, hwindow.entries]
  length_eq := hrep.length_eq
  bound := by
    rw [hrep.length_anchors]
    exact table.bound
  live := by
    intro n
    have hdisjoint := (List.nodup_append'.mp hrep.nodup).2.2
    rw [hrep.made]
    constructor
    · intro hmem
      exact ⟨.inl hmem, hdisjoint hmem⟩
    · intro hlive
      exact hlive.1.resolve_right hlive.2
  distinct := (List.nodup_append'.mp hrep.nodup).1
  detached_once := (List.nodup_append'.mp hrep.nodup).2.1

theorem Represents.tapAddsOne
    {activity : Activity} {table : Table} (hrep : Represents activity table)
    (demo : Bool) {frame : TapFrame}
    (hframe : (Event.tap frame).Succeeds) :
    TapAddsOne frame activity ((handleTap demo frame).after activity) := by
  have hroom := withRoom_lists hrep.length_eq
  rw [handleTap_eq]
  cases hplaces : placingHit frame with
  | none => exact ⟨by simp [hplaces], fun _ => ⟨rfl, rfl⟩⟩
  | some hit =>
      have hafter := placeCard_after hrep.length_eq demo hit
      simp only [Euchre.tapped, hframe hit hplaces, if_true] at hafter
      refine ⟨?_, by simp [hplaces]⟩
      intro hit' hplaces'
      have heq : hit = hit' := Option.some.inj (hplaces.symm.trans hplaces')
      subst hit'
      simp only [hafter]
      rw [withCard_anchors, withCard_trackingCards, hroom.1, hroom.2]
      simp [newAnchor, withRoom_created]

/-- In every run of successful events the two lists hold the latest 20
placements since the last Clear, entry by entry from the same taps, and no
anchor leaks or is detached twice. -/
theorem lists_latest_run
    (demo : Bool) (events : List Event)
    (hevents : ∀ event ∈ events, event.Succeeds) :
    ListsLatest (onCreate.run demo events)
        (placedTaps demo onCreate [] events) ∧
      ∀ frame, (Event.tap frame).Succeeds →
        TapAddsOne frame (onCreate.run demo events)
          ((handleTap demo frame).after (onCreate.run demo events)) := by
  have hrep := represents_run demo events
  have hwindow := Table.isWindow_empty.run hevents demo onCreate
  constructor
  · exact hrep.listsLatest hwindow
  · intro frame hframe
    exact hrep.tapAddsOne demo hframe

def planeTap : Event :=
  .tap ⟨some [⟨.plane true true, true⟩], .tracking⟩

theorem planeTaps_succeed (count : ℕ) :
    ∀ event ∈ List.replicate count planeTap, event.Succeeds := by
  intro event hevent
  rw [List.eq_of_mem_replicate hevent]
  simp [planeTap, Event.Succeeds, placingHit, qualifies]

theorem lists_latest_after_21_taps :
    ListsLatest (onCreate.run true (List.replicate 21 planeTap))
        (placedTaps true onCreate [] (List.replicate 21 planeTap)) ∧
      (placedTaps true onCreate [] (List.replicate 21 planeTap)).length =
        21 :=
  ⟨(lists_latest_run true (List.replicate 21 planeTap)
    (planeTaps_succeed 21)).1, by decide +kernel⟩

/-! ## Taps which fail -/

/-- The fields which a failing tap should leave as they are. -/
structure SameAsBefore (activity after : Activity) : Prop where
  anchors : after.anchors = activity.anchors
  trackingCards : after.trackingCards = activity.trackingCards
  cardTypes : after.cardTypes = activity.cardTypes
  detached : after.detached = activity.detached
  currentSuit : after.currentSuit = activity.currentSuit
  currentCardValue : after.currentCardValue = activity.currentCardValue
  demoTapCount : after.demoTapCount = activity.demoTapCount

theorem Represents.sameAsBefore_withRoom_iff
    {activity : Activity} {table : Table}
    (hrep : Represents activity table) :
    SameAsBefore activity (Euchre.withRoom activity) ↔
      activity.anchors.length < 20 := by
  constructor
  · intro hsame
    by_contra hfull
    have hanchors := congrArg List.length hsame.anchors
    rw [(withRoom_lists hrep.length_eq).1, dropOldest,
      if_pos (Nat.le_of_not_lt hfull), List.length_tail] at hanchors
    omega
  · intro hroom
    rw [withRoom_of_lt hroom]
    exact ⟨rfl, rfl, rfl, rfl, rfl, rfl, rfl⟩

/-- A tap which fails in `createAnchor` changes nothing exactly while fewer
than 20 cards are on the table: a full table is evicted from first. -/
theorem failing_tap_unchanged_iff
    (demo : Bool) (events : List Event) (frame : TapFrame) (hit : HitResult)
    (hplaces : placingHit frame = some hit)
    (hfails : hit.createsAnchor = false) :
    SameAsBefore (onCreate.run demo events)
        ((handleTap demo frame).after (onCreate.run demo events)) ↔
      (onCreate.run demo events).anchors.length < 20 := by
  have hrep := represents_run demo events
  have hafter := placeCard_after hrep.length_eq demo hit
  rw [handleTap_eq, hplaces]
  simp only [hafter, tapped, hfails]
  exact hrep.sameAsBefore_withRoom_iff

def failingTap : TapFrame :=
  ⟨some [⟨.plane true true, false⟩], .tracking⟩

theorem failing_tap_unchanged_after_4_taps :
    SameAsBefore (onCreate.run true (List.replicate 4 planeTap))
      ((handleTap true failingTap).after
        (onCreate.run true (List.replicate 4 planeTap))) :=
  (failing_tap_unchanged_iff true (List.replicate 4 planeTap) failingTap
    ⟨.plane true true, false⟩ (by decide) rfl).mpr (by decide)

theorem failing_tap_evicts_after_20_taps :
    placingHit failingTap = some ⟨.plane true true, false⟩ ∧
      ¬ SameAsBefore (onCreate.run true (List.replicate 20 planeTap))
        ((handleTap true failingTap).after
          (onCreate.run true (List.replicate 20 planeTap))) := by
  refine ⟨by decide, ?_⟩
  intro hsame
  have hanchors := congrArg List.length hsame.anchors
  revert hanchors
  decide +kernel

end Euchre
end HighRollers
