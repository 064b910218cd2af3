import Mathlib.Tactic

/-!
# Bounded queues

A queue of fixed capacity between a thread which offers entries and a thread
which polls them.  Neither waits: an offer to a full queue is lost, and a poll
of an empty queue takes nothing.  What is polled keeps its order.  An entry is
lost exactly if some stretch of the requests offers more than its polls and the
capacity together can take.
-/

namespace BoundedQueue

variable {α : Type}

inductive Request (α : Type)
  | offer (entry : α)
  | poll
  deriving DecidableEq, Repr

def offer (capacity : ℕ) (entry : α) (queue : List α) : List α :=
  if queue.length < capacity then queue ++ [entry] else queue

/-- The queue, and what became of the other entries. -/
structure Traffic (α : Type) where
  queued : List α
  polled : List α
  lost : List α
  deriving DecidableEq, Repr

namespace Traffic

def empty : Traffic α where
  queued := []
  polled := []
  lost := []

def step (capacity : ℕ) (traffic : Traffic α) : Request α → Traffic α
  | .offer entry =>
      if traffic.queued.length < capacity then
        { traffic with queued := offer capacity entry traffic.queued }
      else
        { traffic with lost := traffic.lost ++ [entry] }
  | .poll =>
      { traffic with
        queued := traffic.queued.tail
        polled := traffic.polled ++ traffic.queued.head?.toList }

def run (capacity : ℕ) (traffic : Traffic α) (requests : List (Request α)) :
    Traffic α :=
  requests.foldl (step capacity) traffic

end Traffic

def offered (requests : List (Request α)) : List α :=
  requests.filterMap fun request =>
    match request with
    | .offer entry => some entry
    | .poll => none

def polls (requests : List (Request α)) : ℕ :=
  requests.countP fun request =>
    match request with
    | .offer _ => false
    | .poll => true

@[simp] theorem offered_append (requests requests' : List (Request α)) :
    offered (requests ++ requests') = offered requests ++ offered requests' :=
  List.filterMap_append

@[simp] theorem polls_append (requests requests' : List (Request α)) :
    polls (requests ++ requests') = polls requests + polls requests' :=
  List.countP_append

@[simp] theorem offered_offer (entry : α) :
    offered [Request.offer entry] = [entry] := rfl

@[simp] theorem offered_poll : offered [(Request.poll : Request α)] = [] :=
  rfl

@[simp] theorem polls_offer (entry : α) :
    polls [Request.offer entry] = 0 := rfl

@[simp] theorem polls_poll : polls [(Request.poll : Request α)] = 1 := rfl

theorem run_concat
    (capacity : ℕ) (traffic : Traffic α) (requests : List (Request α))
    (request : Request α) :
    traffic.run capacity (requests ++ [request]) =
      (traffic.run capacity requests).step capacity request := by
  simp [Traffic.run]

/-! ## Order -/

/-- Entries leave in the order in which they came, and nothing else happens to
those which were accepted. -/
theorem polled_queued_sublist
    (capacity : ℕ) (requests : List (Request α)) :
    ((Traffic.empty.run capacity requests).polled ++
      (Traffic.empty.run capacity requests).queued).Sublist
        (offered requests) := by
  induction requests using List.reverseRecOn with
  | nil => exact List.Sublist.refl []
  | append_singleton requests request ih =>
      rw [run_concat]
      generalize Traffic.empty.run capacity requests = traffic at ih ⊢
      cases request with
      | offer entry =>
          simp only [Traffic.step, offer, offered_append, offered_offer]
          split_ifs with hroom
          · rw [← List.append_assoc]
            exact ih.append (List.Sublist.refl [entry])
          · exact ih.trans (List.sublist_append_left _ _)
      | poll =>
          simp only [Traffic.step, offered_append, offered_poll,
            List.append_nil]
          cases hqueued : traffic.queued with
          | nil => simpa [hqueued] using ih
          | cons first rest => simpa [hqueued] using ih

theorem length_add_lost
    (capacity : ℕ) (requests : List (Request α)) :
    (Traffic.empty.run capacity requests).polled.length +
        (Traffic.empty.run capacity requests).queued.length +
        (Traffic.empty.run capacity requests).lost.length =
      (offered requests).length := by
  induction requests using List.reverseRecOn with
  | nil => rfl
  | append_singleton requests request ih =>
      rw [run_concat]
      generalize Traffic.empty.run capacity requests = traffic at ih ⊢
      cases request with
      | offer entry =>
          simp only [Traffic.step, offer, offered_append, offered_offer,
            List.length_append, List.length_singleton]
          split_ifs with hroom <;> simp <;> omega
      | poll =>
          simp only [Traffic.step, offered_append, offered_poll,
            List.append_nil]
          cases hqueued : traffic.queued with
          | nil => simpa [hqueued] using ih
          | cons first rest =>
              simp [hqueued] at ih ⊢
              omega

theorem polled_queued_eq_iff
    (capacity : ℕ) (requests : List (Request α)) :
    (Traffic.empty.run capacity requests).polled ++
        (Traffic.empty.run capacity requests).queued = offered requests ↔
      (Traffic.empty.run capacity requests).lost = [] := by
  have hsublist := polled_queued_sublist capacity requests
  have hlength := length_add_lost capacity requests
  constructor
  · intro heq
    have hall := congrArg List.length heq
    rw [List.length_append] at hall
    exact List.length_eq_zero_iff.mp (by omega)
  · intro hlost
    rw [hlost, List.length_nil] at hlength
    exact hsublist.eq_of_length (by rw [List.length_append]; omega)

theorem length_queued_le
    (capacity : ℕ) (requests : List (Request α)) :
    (Traffic.empty.run capacity requests).queued.length ≤ capacity := by
  induction requests using List.reverseRecOn with
  | nil => exact Nat.zero_le capacity
  | append_singleton requests request ih =>
      rw [run_concat]
      generalize Traffic.empty.run capacity requests = traffic at ih ⊢
      cases request with
      | offer entry =>
          simp only [Traffic.step, offer]
          split_ifs with hroom
          · simpa using hroom
          · exact ih
      | poll =>
          simp only [Traffic.step, List.length_tail]
          omega

/-! ## Losses -/

/-- Every offer of a stretch is still queued or lost, but for those which its
polls took. -/
theorem length_add_offered_le
    (capacity : ℕ) (traffic : Traffic α) (window : List (Request α)) :
    traffic.queued.length + traffic.lost.length + (offered window).length ≤
      (traffic.run capacity window).queued.length +
        (traffic.run capacity window).lost.length + polls window := by
  induction window using List.reverseRecOn with
  | nil => exact le_rfl
  | append_singleton window request ih =>
      rw [run_concat]
      generalize traffic.run capacity window = after at ih ⊢
      cases request with
      | offer entry =>
          simp only [Traffic.step, offer, offered_append, polls_append,
            offered_offer, polls_offer]
          split_ifs with hroom <;> simp <;> omega
      | poll =>
          simp only [Traffic.step, offered_append, polls_append,
            offered_poll, polls_poll, List.length_tail, List.append_nil]
          omega

theorem lost_step_kept
    (capacity : ℕ) (traffic : Traffic α) (request : Request α) :
    traffic.lost <+: (traffic.step capacity request).lost := by
  cases request with
  | offer entry =>
      simp only [Traffic.step]
      split_ifs
      · exact List.prefix_refl _
      · exact List.prefix_append _ _
  | poll => exact List.prefix_refl _

theorem lost_kept
    (capacity : ℕ) (traffic : Traffic α) (requests : List (Request α)) :
    traffic.lost <+: (traffic.run capacity requests).lost := by
  induction requests using List.reverseRecOn with
  | nil => exact List.prefix_refl _
  | append_singleton requests request ih =>
      rw [run_concat]
      exact ih.trans (lost_step_kept capacity _ request)

theorem suffix_concat
    {window requests : List (Request α)} (hsuffix : window <:+ requests)
    (request : Request α) :
    window ++ [request] <:+ requests ++ [request] := by
  rcases hsuffix with ⟨before, rfl⟩
  exact ⟨before, by simp⟩

/-- Without a loss, the queue holds what the requests since it was last empty
offered and did not poll. -/
theorem exists_suffix
    (capacity : ℕ) (requests : List (Request α))
    (hlost : (Traffic.empty.run capacity requests).lost = []) :
    ∃ window, window <:+ requests ∧
      (Traffic.empty.run capacity requests).queued.length + polls window =
        (offered window).length := by
  induction requests using List.reverseRecOn with
  | nil => exact ⟨[], List.suffix_refl [], rfl⟩
  | append_singleton requests request ih =>
      rw [run_concat] at hlost ⊢
      have hbefore : (Traffic.empty.run capacity requests).lost = [] := by
        have hprefix := lost_step_kept capacity
          (Traffic.empty.run capacity requests) request
        rw [hlost] at hprefix
        exact List.prefix_nil.mp hprefix
      obtain ⟨window, hsuffix, hlength⟩ := ih hbefore
      generalize Traffic.empty.run capacity requests = traffic
        at hlost hlength ⊢
      have hlonger := suffix_concat hsuffix request
      cases request with
      | offer entry =>
          refine ⟨window ++ [.offer entry], hlonger, ?_⟩
          simp only [Traffic.step] at hlost ⊢
          split_ifs at hlost ⊢ with hroom
          · simp [offer, hroom]
            omega
          · simp at hlost
      | poll =>
          cases hqueued : traffic.queued with
          | nil => exact ⟨[], List.nil_suffix, by simp [Traffic.step, hqueued,
              polls, offered]⟩
          | cons first rest =>
              refine ⟨window ++ [.poll], hlonger, ?_⟩
              simp [Traffic.step, hqueued] at hlength ⊢
              omega

theorem lost_eq_nil_iff
    (capacity : ℕ) (requests : List (Request α)) :
    (Traffic.empty.run capacity requests).lost = [] ↔
      ∀ window, window <:+: requests →
        (offered window).length ≤ polls window + capacity := by
  constructor
  · rintro hlost window ⟨before, after, rfl⟩
    have hsplit : Traffic.empty.run capacity (before ++ window ++ after) =
        ((Traffic.empty.run capacity before).run capacity window).run capacity
          after := by
      simp [Traffic.run]
    rw [hsplit] at hlost
    have hprefix := lost_kept capacity
      ((Traffic.empty.run capacity before).run capacity window) after
    rw [hlost] at hprefix
    have hnone := List.prefix_nil.mp hprefix
    have hbound := length_queued_le capacity (before ++ window)
    have hoffers := length_add_offered_le capacity
      (Traffic.empty.run capacity before) window
    have hjoin : Traffic.empty.run capacity (before ++ window) =
        (Traffic.empty.run capacity before).run capacity window := by
      simp [Traffic.run]
    rw [hjoin] at hbound
    rw [hnone, List.length_nil] at hoffers
    omega
  · intro hwindows
    induction requests using List.reverseRecOn with
    | nil => rfl
    | append_singleton requests request ih =>
        have hlost := ih fun window hpart =>
          hwindows window (hpart.trans (List.prefix_append _ _).isInfix)
        obtain ⟨window, hsuffix, hlength⟩ :=
          exists_suffix capacity requests hlost
        rw [run_concat]
        cases request with
        | poll => exact hlost
        | offer entry =>
            have hwindow := hwindows _
              (suffix_concat hsuffix (.offer entry)).isInfix
            simp at hwindow
            have hroom : (Traffic.empty.run capacity requests).queued.length <
                capacity := by
              omega
            simp only [Traffic.step, if_pos hroom]
            exact hlost

end BoundedQueue
