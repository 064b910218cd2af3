import HighRollers.BoundedQueue
import HighRollers.EuchreDrawing

/-!
# Taps, frames and listeners of the Euchre app

`TapHelper` hands taps from the UI thread to the GL thread through a queue of
sixteen places, and every frame which gets as far as `handleTap` takes one of
them.  Between the frames the listeners run.  The fields of the activity are
those of a run of events, and of the taps made this run handles as many as
there is time for, in their order.
-/

namespace HighRollers
namespace Euchre

open Java
open Activity
open BoundedQueue

/-- `τ` is the type of the motion events. -/
structure Screen (τ : Type) where
  activity : Activity
  queuedSingleTaps : List τ

inductive Listener
  | submit
  | clear
  | select (selection : Selection)
  deriving DecidableEq, Repr

def Listener.event : Listener → Event
  | .submit => .submit
  | .clear => .clear
  | .select selection => selection.event

/-- How far a frame comes: there is no session, an exception comes before
`handleTap`, or the session is updated. -/
inductive FrameStart (τ : Type)
  | noSession
  | failed
  | updated (camera : TrackingState) (hitTest : τ → List HitResult)
      (rendering : Rendering)

inductive Input (τ : Type)
  | onSingleTapUp (tap : τ)
  | listener (pressed : Listener)
  | onDrawFrame (start : FrameStart τ)

section Steps

variable {τ : Type}

def Screen.onCreate : Screen τ where
  activity := Activity.onCreate
  queuedSingleTaps := []

/-- The frame of `onDrawFrame` in which the tap is polled. -/
def drawFrame (tap : Option τ) (camera : TrackingState)
    (hitTest : τ → List HitResult) (rendering : Rendering) :
    DrawFrame :=
  { rendering with tap := ⟨tap.map hitTest, camera⟩ }

def Screen.step (demo : Bool) (screen : Screen τ) : Input τ → Screen τ
  | .onSingleTapUp tap =>
      { screen with
        queuedSingleTaps := offer 16 tap screen.queuedSingleTaps }
  | .listener pressed =>
      { screen with
        activity := (pressed.event.handle demo).after screen.activity }
  | .onDrawFrame .noSession => screen
  | .onDrawFrame .failed => { screen with activity := toast screen.activity }
  | .onDrawFrame (.updated camera hitTest rendering) =>
      let frame := drawFrame screen.queuedSingleTaps.head? camera hitTest
        rendering
      { activity := (onDrawFrame demo frame screen.activity).1
        queuedSingleTaps := screen.queuedSingleTaps.tail }

def Screen.run (demo : Bool) (screen : Screen τ) (inputs : List (Input τ)) :
    Screen τ :=
  inputs.foldl (Screen.step demo) screen

/-- An event of the activity, and the tap it was polled with. -/
structure Handled (τ : Type) where
  event : Event
  tap : Option τ

def Input.handled (queue : List τ) : Input τ → List (Handled τ)
  | .listener pressed => [⟨pressed.event, none⟩]
  | .onDrawFrame (.updated camera hitTest _) =>
      [⟨.tap ⟨queue.head?.map hitTest, camera⟩, queue.head?⟩]
  | .onSingleTapUp _ => []
  | .onDrawFrame .noSession => []
  | .onDrawFrame .failed => []

/-- What the input asks of the queue of taps. -/
def Input.request : Input τ → Option (Request τ)
  | .onSingleTapUp tap => some (.offer tap)
  | .onDrawFrame (.updated _ _ _) => some .poll
  | .listener _ => none
  | .onDrawFrame .noSession => none
  | .onDrawFrame .failed => none

def Input.queue (input : Input τ) (queue : List τ) : List τ :=
  match input with
  | .onSingleTapUp tap => offer 16 tap queue
  | .onDrawFrame (.updated _ _ _) => queue.tail
  | _ => queue

def handled (queue : List τ) : List (Input τ) → List (Handled τ)
  | [] => []
  | input :: rest =>
      input.handled queue ++ handled (input.queue queue) rest

end Steps

/-! ## The flag of the message -/

/-- No handler reads the flag. -/
theorem withRoom_toast (activity : Activity) :
    withRoom (toast activity) = toast (withRoom activity) := by
  unfold withRoom
  have hanchors : (toast activity).anchors = activity.anchors := rfl
  have hcards : (toast activity).trackingCards = activity.trackingCards := rfl
  rw [hanchors, hcards]
  split
  · split_ifs <;> rfl
  · rfl

theorem tapped_toast (demo : Bool) (hit : HitResult) (activity : Activity) :
    toast (tapped demo hit (toast activity)) =
      toast (tapped demo hit activity) := by
  unfold tapped
  rw [withRoom_toast]
  split_ifs
  · cases demo <;> rfl
  · rfl

theorem cleared_toast (activity : Activity) :
    cleared (toast activity) = toast (cleared activity) := by
  have hanchors : (toast activity).anchors = activity.anchors := rfl
  unfold cleared
  rw [detachAll_eq, detachAll_eq, hanchors]
  split_ifs <;> rfl

theorem submit_toast
    {activity : Activity}
    (hlength : activity.anchors.length = activity.trackingCards.length)
    (demo : Bool) :
    (submit demo).after (toast activity) = (submit demo).after activity := by
  by_cases hcards : activity.trackingCards = []
  · have hcards' : (toast activity).trackingCards = [] := hcards
    rw [Method.after_eq_of_ok (submit_run_of_empty hcards demo),
      Method.after_eq_of_ok (submit_run_of_empty hcards' demo)]
    rfl
  · have hcards' : (toast activity).trackingCards ≠ [] := hcards
    have htrick := trickArray_eq hlength
    have htrick' := trickArray_eq
      (show (toast activity).anchors.length =
        (toast activity).trackingCards.length from hlength)
    rw [submit_after hcards htrick demo, submit_after hcards' htrick' demo]
    cases demo <;> rfl

theorem handle_toast
    {activity : Activity}
    (hlength : activity.anchors.length = activity.trackingCards.length)
    (demo : Bool) (event : Event) :
    toast ((event.handle demo).after (toast activity)) =
      toast ((event.handle demo).after activity) := by
  have hlength' : (toast activity).anchors.length =
      (toast activity).trackingCards.length := hlength
  cases event with
  | tap frame =>
      simp only [Event.handle, handleTap_eq]
      cases placingHit frame with
      | none => rfl
      | some hit =>
          dsimp only
          rw [placeCard_after hlength, placeCard_after hlength',
            tapped_toast]
  | submit => exact congrArg toast (submit_toast hlength demo)
  | clear =>
      have hclear : ∀ current : Activity,
          (Event.clear.handle demo).after current = cleared current :=
        fun current => Method.after_eq_of_ok (clear_run current)
      rw [hclear, hclear, cleared_toast]
      rfl
  | selectValue item =>
      simp only [Event.handle, Method.after_eq_of_ok (selectValue_run item _)]
      split_ifs <;> rfl
  | selectSuit item =>
      simp only [Event.handle, Method.after_eq_of_ok (selectSuit_run item _)]
      split_ifs <;> rfl
  | selectTrumpSuit item =>
      simp only [Event.handle,
        Method.after_eq_of_ok (selectTrumpSuit_run item _)]
      split_ifs <;> rfl

/-- A frame does to the other fields what its tap does. -/
theorem toast_onDrawFrame
    (demo : Bool) (frame : DrawFrame) (activity : Activity) :
    toast (onDrawFrame demo frame activity).1 =
      toast ((handleTap demo frame.tap).after activity) := by
  unfold onDrawFrame Method.after
  cases (handleTap demo frame.tap).run activity with
  | error e tapped => rfl
  | ok _ tapped =>
      dsimp only
      split_ifs <;> rfl

/-! ## Runs -/

section Runs

variable {τ : Type}

/-- The fields are those of the table but for the flag. -/
def SameButFlag (activity activity' : Activity) : Prop :=
  toast activity = toast activity'

theorem SameButFlag.handle
    {activity activity' : Activity} (hsame : SameButFlag activity activity')
    (hlength : activity'.anchors.length = activity'.trackingCards.length)
    (demo : Bool) (event : Event) :
    SameButFlag ((event.handle demo).after activity)
      ((event.handle demo).after activity') := by
  have hfields : toast activity = toast activity' := hsame
  have hlength' : activity.anchors.length = activity.trackingCards.length := by
    change (toast activity).anchors.length =
      (toast activity).trackingCards.length
    rw [hfields]
    exact hlength
  unfold SameButFlag
  rw [← handle_toast hlength, ← hfields, handle_toast hlength']

theorem SameButFlag.step
    {demo : Bool} {screen : Screen τ} {events : List Event}
    (hsame : SameButFlag screen.activity (Activity.onCreate.run demo events))
    (input : Input τ) :
    SameButFlag (screen.step demo input).activity
      (Activity.onCreate.run demo
        (events ++ (input.handled screen.queuedSingleTaps).map
          Handled.event)) := by
  have hlength := (represents_run demo events).length_eq
  have happend : ∀ event, Activity.onCreate.run demo (events ++ [event]) =
      (event.handle demo).after (Activity.onCreate.run demo events) := by
    intro event
    simp [Activity.run]
  cases input with
  | onSingleTapUp tap =>
      simpa [Input.handled, Screen.step] using hsame
  | listener pressed =>
      rw [Input.handled, List.map_singleton, happend]
      exact hsame.handle hlength demo _
  | onDrawFrame start =>
      cases start with
      | noSession => simpa [Input.handled, Screen.step] using hsame
      | failed =>
          rw [Input.handled, List.map_nil, List.append_nil]
          exact hsame
      | updated camera hitTest rendering =>
          rw [Input.handled, List.map_singleton, happend]
          have hframe := toast_onDrawFrame demo
            (drawFrame screen.queuedSingleTaps.head? camera hitTest
              rendering) screen.activity
          exact hframe.trans (hsame.handle hlength demo (.tap _))

theorem step_queuedSingleTaps
    (demo : Bool) (screen : Screen τ) (input : Input τ) :
    (screen.step demo input).queuedSingleTaps =
      input.queue screen.queuedSingleTaps := by
  cases input with
  | onSingleTapUp tap => rfl
  | listener pressed => rfl
  | onDrawFrame start => cases start <;> rfl

theorem SameButFlag.run
    {demo : Bool} {screen : Screen τ} {events : List Event}
    (hsame : SameButFlag screen.activity (Activity.onCreate.run demo events))
    (inputs : List (Input τ)) :
    SameButFlag (screen.run demo inputs).activity
      (Activity.onCreate.run demo
        (events ++ (handled screen.queuedSingleTaps inputs).map
          Handled.event)) := by
  induction inputs generalizing screen events with
  | nil => simpa [handled, Screen.run] using hsame
  | cons input rest ih =>
      have hrest := ih (hsame.step input)
      rw [step_queuedSingleTaps, List.append_assoc] at hrest
      rw [handled, List.map_append]
      exact hrest

/-! ## The queue -/

def tapsMade (inputs : List (Input τ)) : List τ :=
  inputs.filterMap fun input =>
    match input with
    | .onSingleTapUp tap => some tap
    | _ => none

/-- The number of frames in which the session was updated. -/
def updates (inputs : List (Input τ)) : ℕ :=
  inputs.countP fun input =>
    match input with
    | .onDrawFrame (.updated _ _ _) => true
    | _ => false

theorem offered_requests (inputs : List (Input τ)) :
    offered (inputs.filterMap Input.request) = tapsMade inputs := by
  unfold offered tapsMade
  rw [List.filterMap_filterMap]
  refine List.filterMap_congr fun input _ => ?_
  cases input with
  | onSingleTapUp tap => rfl
  | listener pressed => rfl
  | onDrawFrame start => cases start <;> rfl

theorem polls_requests (inputs : List (Input τ)) :
    polls (inputs.filterMap Input.request) = updates inputs := by
  unfold polls updates
  rw [List.countP_filterMap]
  refine List.countP_congr fun input _ => ?_
  cases input with
  | onSingleTapUp tap => simp [Input.request]
  | listener pressed => simp [Input.request]
  | onDrawFrame start => cases start <;> simp [Input.request]

theorem traffic_input (traffic : Traffic τ) (input : Input τ) :
    (traffic.run 16 input.request.toList).queued =
        input.queue traffic.queued ∧
      (traffic.run 16 input.request.toList).polled =
        traffic.polled ++
          (input.handled traffic.queued).filterMap Handled.tap := by
  cases input with
  | onSingleTapUp tap =>
      by_cases hroom : traffic.queued.length < 16 <;>
        simp [Input.request, Input.queue, Input.handled, Traffic.run,
          Traffic.step, offer, hroom]
  | listener pressed =>
      simp [Input.request, Input.queue, Input.handled, Traffic.run]
  | onDrawFrame start =>
      cases start with
      | noSession =>
          simp [Input.request, Input.queue, Input.handled, Traffic.run]
      | failed =>
          simp [Input.request, Input.queue, Input.handled, Traffic.run]
      | updated camera hitTest rendering =>
          cases hqueue : traffic.queued <;>
            simp [Input.request, Input.queue, Input.handled, Traffic.run,
              Traffic.step, hqueue]

/-- The queue of the helper is a bounded queue, and the taps polled from it
are those of the frames. -/
theorem run_traffic
    (demo : Bool) (screen : Screen τ) (traffic : Traffic τ)
    (hqueue : traffic.queued = screen.queuedSingleTaps)
    (inputs : List (Input τ)) :
    (traffic.run 16 (inputs.filterMap Input.request)).queued =
        (screen.run demo inputs).queuedSingleTaps ∧
      (traffic.run 16 (inputs.filterMap Input.request)).polled =
        traffic.polled ++
          (handled screen.queuedSingleTaps inputs).filterMap
            Handled.tap := by
  induction inputs generalizing screen traffic with
  | nil => simp [Traffic.run, Screen.run, handled, hqueue]
  | cons input rest ih =>
      have hfirst : traffic.run 16 ((input :: rest).filterMap Input.request) =
          (traffic.run 16 input.request.toList).run 16
            (rest.filterMap Input.request) := by
        cases hrequest : input.request <;> simp [hrequest, Traffic.run]
      obtain ⟨hqueued, hpolled⟩ := traffic_input traffic input
      rw [hqueue] at hqueued hpolled
      have hstep := step_queuedSingleTaps demo screen input
      have hrest := ih (screen.step demo input)
        (traffic.run 16 input.request.toList) (hqueued.trans hstep.symm)
      rw [hpolled, hstep] at hrest
      rw [hfirst, handled, List.filterMap_append, ← List.append_assoc]
      exact hrest

/-! ## Cards placed -/

def Event.hasTap : Event → Bool
  | .tap frame => frame.tap.isSome
  | _ => false

theorem created_handle_le
    {activity : Activity}
    (hlength : activity.anchors.length = activity.trackingCards.length)
    (demo : Bool) (event : Event) :
    ((event.handle demo).after activity).created ≤
      activity.created + if event.hasTap then 1 else 0 := by
  rcases event.after_cases demo hlength with
    ⟨frame, hit, rfl, hplaces, hafter⟩ | ⟨rfl, hafter⟩ | ⟨-, -, hsame⟩
  · have htap : (Event.tap frame).hasTap = true := by
      cases hframe : frame.tap with
      | none => simp [placingHit, hframe] at hplaces
      | some hits => simp [Event.hasTap, hframe]
    rw [hafter, if_pos htap, tapped]
    split_ifs
    · rw [withCard_created, withRoom_created]
    · rw [withRoom_created]
      omega
  · rw [hafter, cleared, detachAll_eq]
    split_ifs <;> exact Nat.le_add_right _ _
  · rw [hsame.created]
    exact Nat.le_add_right _ _

theorem created_run_le (demo : Bool) (events : List Event) :
    (Activity.onCreate.run demo events).created ≤
      events.countP Event.hasTap := by
  induction events using List.reverseRecOn with
  | nil => exact le_rfl
  | append_singleton events event ih =>
      have hstep := created_handle_le (represents_run demo events).length_eq
        demo event
      simp only [Activity.run, List.foldl_append, List.foldl_cons,
        List.foldl_nil, List.countP_append, List.countP_singleton] at ih hstep ⊢
      omega

theorem countP_handled (queue : List τ) (inputs : List (Input τ)) :
    ((handled queue inputs).map Handled.event).countP Event.hasTap =
      ((handled queue inputs).filterMap Handled.tap).length := by
  induction inputs generalizing queue with
  | nil => rfl
  | cons input rest ih =>
      rw [handled, List.map_append, List.countP_append, List.filterMap_append,
        List.length_append, ih]
      congr 1
      cases input with
      | onSingleTapUp tap => rfl
      | listener pressed =>
          cases pressed with
          | submit => rfl
          | clear => rfl
          | select selection =>
              cases hspinner : selection.spinner <;>
                simp [Input.handled, Listener.event, Selection.event, hspinner,
                  Event.hasTap]
      | onDrawFrame start =>
          cases start with
          | noSession => rfl
          | failed => rfl
          | updated camera hitTest rendering => cases queue <;> rfl

/-! ## From the tap to the table -/

def handledEvents (inputs : List (Input τ)) : List Event :=
  (handled [] inputs).map Handled.event

def handledTaps (inputs : List (Input τ)) : List τ :=
  (handled [] inputs).filterMap Handled.tap

/-- The taps made reach the table in their order, each at most once, with at
most sixteen on the way. -/
theorem taps_in_order (demo : Bool) (inputs : List (Input τ)) :
    SameButFlag (Screen.onCreate.run demo inputs).activity
        (Activity.onCreate.run demo (handledEvents inputs)) ∧
      (handledTaps inputs ++
        (Screen.onCreate.run demo inputs).queuedSingleTaps).Sublist
          (tapsMade inputs) ∧
      (Screen.onCreate.run demo inputs).queuedSingleTaps.length ≤ 16 ∧
      (Screen.onCreate.run demo inputs).activity.created ≤
        (handledTaps inputs).length := by
  have hstart : SameButFlag (Screen.onCreate : Screen τ).activity
      (Activity.onCreate.run demo []) := rfl
  have hsame : SameButFlag (Screen.onCreate.run demo inputs).activity
      (Activity.onCreate.run demo (handledEvents inputs)) :=
    hstart.run inputs
  obtain ⟨hqueued, hpolled⟩ := run_traffic demo Screen.onCreate Traffic.empty
    rfl inputs
  have hsublist := polled_queued_sublist 16 (inputs.filterMap Input.request)
  have hlength := length_queued_le 16 (inputs.filterMap Input.request)
  rw [hqueued] at hlength
  rw [hqueued, hpolled, offered_requests] at hsublist
  refine ⟨hsame, hsublist, hlength, ?_⟩
  have hcreated := congrArg Activity.created hsame
  have hcount := created_run_le demo (handledEvents inputs)
  rw [handledEvents, countP_handled] at hcount
  exact hcreated.trans_le hcount

/-- No tap is lost exactly if no stretch of the run has more taps than frames
and free places for them. -/
theorem no_tap_lost_iff (demo : Bool) (inputs : List (Input τ)) :
    handledTaps inputs ++
        (Screen.onCreate.run demo inputs).queuedSingleTaps =
          tapsMade inputs ↔
      ∀ window, window <:+: inputs →
        (tapsMade window).length ≤ updates window + 16 := by
  obtain ⟨hqueued, hpolled⟩ := run_traffic demo Screen.onCreate Traffic.empty
    rfl inputs
  have heq := polled_queued_eq_iff 16 (inputs.filterMap Input.request)
  rw [hqueued, hpolled, offered_requests] at heq
  have hlost := lost_eq_nil_iff 16 (inputs.filterMap Input.request)
  constructor
  · intro hall window hpart
    have hwindow := hlost.mp (heq.mp hall) _ (hpart.filterMap Input.request)
    rwa [offered_requests, polls_requests] at hwindow
  · intro hwindows
    refine heq.mpr (hlost.mpr ?_)
    intro requests hpart
    obtain ⟨window, hwindow, rfl⟩ := List.infix_filterMap_iff.mp hpart
    rw [offered_requests, polls_requests]
    exact hwindows window hwindow

end Runs

end Euchre
end HighRollers
