import HighRollers.EuchreActivity

/-!
# Spinner listeners against the parse functions

`parseValue` and `parseSuit` name the constant which belongs to an item; the
listeners assign it in `switch` statements without `break`.  After any
recognised selection the field therefore holds the constant of the last case.
The main result says for which sequences of selections the two readings of the
spinners still agree.
-/

namespace HighRollers
namespace Euchre

open Java
open Activity

inductive Spinner
  | value
  | suit
  | trumpSuit
  deriving DecidableEq, Repr

structure Selection where
  spinner : Spinner
  item : String
  deriving DecidableEq, Repr

def Selection.event (selection : Selection) : Event :=
  match selection.spinner with
  | .value => .selectValue selection.item
  | .suit => .selectSuit selection.item
  | .trumpSuit => .selectTrumpSuit selection.item

def itemsOf (spinner : Spinner) (selections : List Selection) : List String :=
  (selections.filter fun selection => selection.spinner = spinner).map
    Selection.item

def lastRecognised (parse : String → Int8) (items : List String) :
    Option String :=
  items.reverse.find? fun item => parse item ≠ -1

def intended (parse : String → Int8) (initial : Int8) (items : List String) :
    Int8 :=
  ((lastRecognised parse items).map parse).getD initial

def AgreesWithParse (activity : Activity) (selections : List Selection) :
    Prop :=
  activity.currentCardValue =
      intended parseValue onCreate.currentCardValue
        (itemsOf .value selections) ∧
    activity.currentSuit =
      intended parseSuit onCreate.currentSuit (itemsOf .suit selections) ∧
    activity.trumpSuit =
      intended parseSuit onCreate.trumpSuit (itemsOf .trumpSuit selections)

/-! ## One selection -/

theorem parseValue_ne_iff (item : String) :
    parseValue item ≠ -1 ↔ item ∈ valueCases.map Prod.fst := by
  unfold parseValue
  split <;> simp_all [valueCases, Card.jack, Card.queen, Card.king,
    Card.aceHigh]

theorem parseSuit_ne_iff (item : String) :
    parseSuit item ≠ -1 ↔ item ∈ suitCases.map Prod.fst := by
  unfold parseSuit
  split <;> simp_all [suitCases, Card.hearts, Card.diamonds, Card.clubs,
    Card.spades]

theorem parseValue_eq_aceHigh_iff (item : String) :
    parseValue item = Card.aceHigh ↔ item = "Ace" := by
  unfold parseValue
  split <;> simp_all [Card.jack, Card.queen, Card.king, Card.aceHigh]

theorem parseSuit_eq_spades_iff (item : String) :
    parseSuit item = Card.spades ↔ item = "Spades" := by
  unfold parseSuit
  split <;> simp_all [Card.hearts, Card.diamonds, Card.clubs, Card.spades]

theorem run_listener
    {set : Int8 → Activity → Activity} (hset : Overwrites set)
    {table : List (String × Int8)} {parse : String → Int8} {item : String}
    (hparse : parse item ≠ -1 ↔ item ∈ table.map Prod.fst)
    (activity : Activity) :
    (switch item (assigning set table) (pure ())).run activity =
      .ok () (if parse item ≠ -1 then set (lastValue 0 table) activity
        else activity) := by
  by_cases hitem : parse item ≠ -1
  · rw [if_pos hitem, run_switch_of_mem hset (hparse.mp hitem) 0]
  · rw [if_neg hitem]
    rw [hparse] at hitem
    exact run_switch_of_not_mem hitem activity

theorem selectValue_run (item : String) (activity : Activity) :
    (selectValue item).run activity =
      .ok () (if parseValue item ≠ -1 then
        setCardType Card.aceHigh
          (write ("Selected Value: " ++ item) activity)
      else
        write ("Selected Value: " ++ item) activity) := by
  have hset : Overwrites setCardType := fun _ _ _ => rfl
  simp only [selectValue, EStateM.run_bind, run_assign]
  rw [run_listener hset (parseValue_ne_iff item)]
  rfl

theorem selectSuit_run (item : String) (activity : Activity) :
    (selectSuit item).run activity =
      .ok () (if parseSuit item ≠ -1 then
        setCurrentSuit Card.spades
          (write ("Selected Suit: " ++ item) activity)
      else
        write ("Selected Suit: " ++ item) activity) := by
  have hset : Overwrites setCurrentSuit := fun _ _ _ => rfl
  simp only [selectSuit, EStateM.run_bind, run_assign]
  rw [run_listener hset (parseSuit_ne_iff item)]
  rfl

theorem selectTrumpSuit_run (item : String) (activity : Activity) :
    (selectTrumpSuit item).run activity =
      .ok () (if parseSuit item ≠ -1 then
        setTrumpSuit Card.spades
          (raise (write ("Selected Trump Suit: " ++ item) activity))
      else
        raise (write ("Selected Trump Suit: " ++ item) activity)) := by
  have hset : Overwrites setTrumpSuit := fun _ _ _ => rfl
  simp only [selectTrumpSuit, EStateM.run_bind, run_assign]
  rw [run_listener hset (parseSuit_ne_iff item)]
  rfl

/-! ## Runs of selections -/

theorem lastRecognised_cons
    (parse : String → Int8) (item : String) (items : List String) :
    lastRecognised parse (item :: items) =
      (lastRecognised parse items).or
        (if parse item ≠ -1 then some item else none) := by
  unfold lastRecognised
  rw [List.reverse_cons, List.find?_append]
  by_cases hitem : parse item = -1 <;> simp [hitem]

/-- A field which every recognised selection of one spinner sets to `final`,
and which nothing else changes, holds `final` as soon as there is one. -/
theorem field_run_eq
    {field : Activity → Int8} {spinner : Spinner} {parse : String → Int8}
    {final : Int8} {demo : Bool}
    (hstep : ∀ (selection : Selection) (activity : Activity),
      field ((selection.event.handle demo).after activity) =
        if selection.spinner = spinner ∧ parse selection.item ≠ -1 then final
        else field activity)
    (selections : List Selection) (activity : Activity) :
    field (activity.run demo (selections.map Selection.event)) =
      if (lastRecognised parse (itemsOf spinner selections)).isSome then final
      else field activity := by
  induction selections generalizing activity with
  | nil => simp [Activity.run, itemsOf, lastRecognised]
  | cons selection rest ih =>
      have hrest := ih ((selection.event.handle demo).after activity)
      simp only [Activity.run, List.map_cons, List.foldl_cons] at hrest ⊢
      rw [hrest, hstep]
      by_cases hspinner : selection.spinner = spinner
      · have hitems : itemsOf spinner (selection :: rest) =
            selection.item :: itemsOf spinner rest := by
          simp [itemsOf, hspinner]
        rw [hitems, lastRecognised_cons]
        by_cases hitem : parse selection.item = -1
        · simp [hitem]
        · simp [hspinner, hitem]
      · have hitems : itemsOf spinner (selection :: rest) =
            itemsOf spinner rest := by
          simp [itemsOf, hspinner]
        rw [hitems]
        simp [hspinner]

theorem eq_intended_iff
    {parse : String → Int8} {final initial : Int8} {finalItem : String}
    (hfinal : ∀ item, parse item = final ↔ item = finalItem)
    (items : List String) :
    (if (lastRecognised parse items).isSome then final else initial) =
        intended parse initial items ↔
      ∀ item, lastRecognised parse items = some item → item = finalItem := by
  unfold intended
  cases hlast : lastRecognised parse items with
  | none => simp
  | some item =>
      have hitem := hfinal item
      simp only [Option.isSome_some, if_true, Option.map_some,
        Option.getD_some, Option.some.injEq, forall_eq']
      rw [eq_comm, hitem]

theorem selection_step
    (demo : Bool) (selection : Selection) (activity : Activity) :
    ((selection.event.handle demo).after activity).currentCardValue =
        (if selection.spinner = .value ∧ parseValue selection.item ≠ -1 then
          Card.aceHigh else activity.currentCardValue) ∧
      ((selection.event.handle demo).after activity).currentSuit =
        (if selection.spinner = .suit ∧ parseSuit selection.item ≠ -1 then
          Card.spades else activity.currentSuit) ∧
      ((selection.event.handle demo).after activity).trumpSuit =
        (if selection.spinner = .trumpSuit ∧ parseSuit selection.item ≠ -1
          then Card.spades else activity.trumpSuit) := by
  rcases selection with ⟨spinner, item⟩
  cases spinner with
  | value =>
      simp only [Selection.event, Event.handle,
        Method.after_eq_of_ok (selectValue_run item activity)]
      split_ifs <;> simp_all [setCardType, write]
  | suit =>
      simp only [Selection.event, Event.handle,
        Method.after_eq_of_ok (selectSuit_run item activity)]
      split_ifs <;> simp_all [setCurrentSuit, write]
  | trumpSuit =>
      simp only [Selection.event, Event.handle,
        Method.after_eq_of_ok (selectTrumpSuit_run item activity)]
      split_ifs <;> simp_all [setTrumpSuit, raise, write]

theorem selections_run
    (demo : Bool) (selections : List Selection) (activity : Activity) :
    let after := activity.run demo (selections.map Selection.event)
    after.currentCardValue =
        (if (lastRecognised parseValue (itemsOf .value selections)).isSome
          then Card.aceHigh else activity.currentCardValue) ∧
      after.currentSuit =
        (if (lastRecognised parseSuit (itemsOf .suit selections)).isSome
          then Card.spades else activity.currentSuit) ∧
      after.trumpSuit =
        (if (lastRecognised parseSuit (itemsOf .trumpSuit selections)).isSome
          then Card.spades else activity.trumpSuit) := by
  have hvalue := field_run_eq
    (fun selection current => (selection_step demo selection current).1)
    selections activity
  have hsuit := field_run_eq
    (fun selection current => (selection_step demo selection current).2.1)
    selections activity
  have htrump := field_run_eq
    (fun selection current => (selection_step demo selection current).2.2)
    selections activity
  exact ⟨hvalue, hsuit, htrump⟩

/-- The listeners agree with the parse functions exactly while no spinner has
been left on an item of any case but the last. -/
theorem listeners_agree_with_parse_iff
    (demo : Bool) (selections : List Selection) :
    AgreesWithParse
        (onCreate.run demo (selections.map Selection.event)) selections ↔
      (∀ item, lastRecognised parseValue (itemsOf .value selections) =
          some item → item = "Ace") ∧
        (∀ item, lastRecognised parseSuit (itemsOf .suit selections) =
          some item → item = "Spades") ∧
        ∀ item, lastRecognised parseSuit (itemsOf .trumpSuit selections) =
          some item → item = "Spades" := by
  have hrun := selections_run demo selections onCreate
  unfold AgreesWithParse
  rw [hrun.1, hrun.2.1, hrun.2.2,
    eq_intended_iff parseValue_eq_aceHigh_iff,
    eq_intended_iff parseSuit_eq_spades_iff,
    eq_intended_iff parseSuit_eq_spades_iff]

theorem select_two_disagrees :
    ¬ AgreesWithParse
      (onCreate.run true (([⟨.value, "Two"⟩] : List Selection).map
        Selection.event))
      [⟨.value, "Two"⟩] := by
  intro hagrees
  have hrun := selections_run true [⟨.value, "Two"⟩] onCreate
  have hvalue := hagrees.1
  rw [hrun.1] at hvalue
  revert hvalue
  decide

end Euchre
end HighRollers
