import Mathlib.Tactic

/-!
# Java methods as total functions

A method without side effects either returns a value or throws.  This file
fixes that reading for array reads, dereferences and counted `for` loops, and
gives the loop rules used by every later correctness proof.  A loop body ends
an iteration normally or leaves the enclosing method with a `return`, so
nested loops compose without any bookkeeping.
-/

namespace Java

inductive Throwable
  | nullPointer
  | arrayIndexOutOfBounds
  | indexOutOfBounds
  | numberFormat
  | external
  deriving DecidableEq, Repr

abbrev Run (α : Type) := Except Throwable α

@[simp] theorem pure_eq_ok {α : Type} (value : α) :
    (pure value : Run α) = .ok value := rfl

@[simp] theorem ok_bind {α β : Type} (value : α) (rest : α → Run β) :
    ((.ok value : Run α) >>= rest) = rest value := rfl

@[simp] theorem error_bind {α β : Type} (e : Throwable) (rest : α → Run β) :
    ((.error e : Run α) >>= rest) = .error e := rfl

/-! ## Arrays of references -/

def arrayGet {α : Type} (array : List α) : ℤ → Run α
  | .ofNat index =>
      match array[index]? with
      | some entry => .ok entry
      | none => .error .arrayIndexOutOfBounds
  | .negSucc _ => .error .arrayIndexOutOfBounds

/-- The int which the 32 low bits of a number stand for. -/
def int32 (value : ℤ) : ℤ :=
  value.bmod (2 ^ 32)

theorem int32_of_lt {n : ℕ} (hn : n < 2 ^ 31) : int32 (n : ℤ) = n := by
  unfold int32 Int.bmod
  simp only [Nat.reducePow] at hn ⊢
  split_ifs <;> omega

/-- A field access through a reference which may be `null`. -/
def deref {α : Type} : Option α → Run α
  | some object => .ok object
  | none => .error .nullPointer

def element {α : Type} (array : List (Option α)) (index : ℤ) : Run α :=
  (arrayGet array index).bind deref

theorem arrayGet_natCast_of_lt
    {α : Type} {array : List α} {index : ℕ} (hindex : index < array.length) :
    arrayGet array (index : ℤ) = .ok array[index] := by
  simp [arrayGet, hindex]

theorem element_map_some
    {α : Type} {objects : List α} {index : ℕ}
    (hindex : index < objects.length) :
    element (objects.map some) (index : ℤ) = .ok objects[index] := by
  have hbound : index < (objects.map some).length := by simpa using hindex
  simp [element, arrayGet_natCast_of_lt hbound, Except.bind, deref]

/-! ## Contracts of methods -/

def Returns {ρ : Type} (method : Run ρ) (post : ρ → Prop) : Prop :=
  ∃ value, method = .ok value ∧ post value

/-- The method returns normally and its answer is the truth value of `claim`. -/
def Decides (method : Run Bool) (claim : Prop) : Prop :=
  Returns method fun answer => answer = true ↔ claim

theorem Decides.congr
    {method : Run Bool} {claim claim' : Prop}
    (hdecides : Decides method claim) (hiff : claim ↔ claim') :
    Decides method claim' := by
  rcases hdecides with ⟨answer, hmethod, hanswer⟩
  exact ⟨answer, hmethod, hanswer.trans hiff⟩

theorem Decides.eq_ok
    {method : Run Bool} {claim : Prop} [Decidable claim]
    (hdecides : Decides method claim) :
    method = .ok (decide claim) := by
  rcases hdecides with ⟨answer, hmethod, hanswer⟩
  rw [hmethod]
  by_cases hclaim : claim
  · simp [hclaim, hanswer.mpr hclaim]
  · have hfalse : answer = false := by
      simpa [hclaim] using hanswer
    simp [hclaim, hfalse]

theorem Decides.eq_ok_true
    {method : Run Bool} {claim : Prop} (hdecides : Decides method claim)
    (hclaim : claim) :
    method = .ok true := by
  rcases hdecides with ⟨answer, hmethod, hanswer⟩
  rw [hmethod, hanswer.mpr hclaim]

def andAlso (first second : Run Bool) : Run Bool :=
  first.bind fun answer => if answer then second else .ok false

def orElse (first second : Run Bool) : Run Bool :=
  first.bind fun answer => if answer then .ok true else second

theorem Decides.ok
    {answer : Bool} {claim : Prop} (hanswer : answer = true ↔ claim) :
    Decides (.ok answer) claim :=
  ⟨answer, rfl, hanswer⟩

theorem Decides.andAlso
    {first second : Run Bool} {claim claim' : Prop}
    (hfirst : Decides first claim) (hsecond : claim → Decides second claim') :
    Decides (andAlso first second) (claim ∧ claim') := by
  rcases hfirst with ⟨answer, rfl, hanswer⟩
  cases answer with
  | true =>
      have hclaim : claim := hanswer.mp rfl
      exact (hsecond hclaim).congr ⟨fun h => ⟨hclaim, h⟩, fun h => h.2⟩
  | false =>
      have hclaim : ¬ claim := by simpa using hanswer
      exact Decides.ok (by simp [hclaim])

theorem Decides.orElse
    {first second : Run Bool} {claim claim' : Prop}
    (hfirst : Decides first claim) (hsecond : ¬ claim → Decides second claim') :
    Decides (orElse first second) (claim ∨ claim') := by
  rcases hfirst with ⟨answer, rfl, hanswer⟩
  cases answer with
  | true =>
      have hclaim : claim := hanswer.mp rfl
      exact Decides.ok (by simp [hclaim])
  | false =>
      have hclaim : ¬ claim := by simpa using hanswer
      exact (hsecond hclaim).congr (by simp [hclaim])

/-! ## Counted loops -/

/-- How one iteration ends: the loop goes on, or the method returns. -/
inductive Completion (ρ σ : Type)
  | next (state : σ)
  | ret (value : ρ)
  deriving DecidableEq, Repr

section Loops

variable {ρ σ : Type}

def forLoop (guard : σ → Bool) (body : ℕ → σ → Run (Completion ρ σ)) :
    ℕ → ℕ → σ → Run (Completion ρ σ)
  | 0, _, state => .ok (.next state)
  | count + 1, index, state =>
      if guard state then
        match body index state with
        | .ok (.next state') => forLoop guard body count (index + 1) state'
        | .ok (.ret value) => .ok (.ret value)
        | .error e => .error e
      else
        .ok (.next state)

/-- `for (int i = lo; i < hi && guard; i++) body`. -/
def forWhile (lo hi : ℕ) (guard : σ → Bool) (state : σ)
    (body : ℕ → σ → Run (Completion ρ σ)) : Run (Completion ρ σ) :=
  forLoop guard body (hi - lo) lo state

/-- `for (int i = lo; i < hi; i++) body`. -/
def forRange (lo hi : ℕ) (state : σ)
    (body : ℕ → σ → Run (Completion ρ σ)) : Run (Completion ρ σ) :=
  forWhile lo hi (fun _ => true) state body

/-- The statements after a loop; they are skipped by a `return` inside it. -/
def afterLoop (loop : Run (Completion ρ σ)) (rest : σ → Run ρ) : Run ρ :=
  match loop with
  | .ok (.next state) => rest state
  | .ok (.ret value) => .ok value
  | .error e => .error e

def assign (value : Run σ) : Run (Completion ρ σ) :=
  value.map .next

/-- `if (test) return value;` -/
def returnWhen (test : Run Bool) (value : ρ) (state : σ) :
    Run (Completion ρ σ) :=
  test.bind fun answer => .ok (if answer then .ret value else .next state)

def andThen {τ : Type} (code : Run (Completion ρ σ))
    (rest : σ → Run (Completion ρ τ)) : Run (Completion ρ τ) :=
  match code with
  | .ok (.next state) => rest state
  | .ok (.ret value) => .ok (.ret value)
  | .error e => .error e

@[simp] theorem afterLoop_next (state : σ) (rest : σ → Run ρ) :
    afterLoop (.ok (.next state)) rest = rest state := rfl

@[simp] theorem afterLoop_ret (value : ρ) (rest : σ → Run ρ) :
    afterLoop (.ok (.ret value)) rest = .ok value := rfl

/-- No exception: the code goes on in a state satisfying `normal`, or returns
a value satisfying `returned`. -/
def Completes (code : Run (Completion ρ σ)) (normal : σ → Prop)
    (returned : ρ → Prop) : Prop :=
  (∃ state, code = .ok (.next state) ∧ normal state) ∨
    ∃ value, code = .ok (.ret value) ∧ returned value

theorem Completes.next
    {state : σ} {normal : σ → Prop} {returned : ρ → Prop}
    (hstate : normal state) :
    Completes (.ok (.next state)) normal returned :=
  .inl ⟨state, rfl, hstate⟩

theorem Completes.ret
    {value : ρ} {normal : σ → Prop} {returned : ρ → Prop}
    (hvalue : returned value) :
    Completes (.ok (.ret value)) normal returned :=
  .inr ⟨value, rfl, hvalue⟩

theorem Completes.mono
    {code : Run (Completion ρ σ)} {normal normal' : σ → Prop} {returned : ρ → Prop}
    (hcode : Completes code normal returned)
    (hnormal : ∀ state, normal state → normal' state) :
    Completes code normal' returned := by
  rcases hcode with ⟨state, hrun, hstate⟩ | ⟨value, hrun, hvalue⟩
  · exact .inl ⟨state, hrun, hnormal state hstate⟩
  · exact .inr ⟨value, hrun, hvalue⟩

theorem Completes.andThen
    {τ : Type} {code : Run (Completion ρ σ)} {rest : σ → Run (Completion ρ τ)}
    {normal : σ → Prop} {normal' : τ → Prop} {returned : ρ → Prop}
    (hcode : Completes code normal returned)
    (hrest : ∀ state, normal state →
      Completes (rest state) normal' returned) :
    Completes (andThen code rest) normal' returned := by
  rcases hcode with ⟨state, rfl, hstate⟩ | ⟨value, rfl, hvalue⟩
  · exact hrest state hstate
  · exact .ret hvalue

theorem Completes.afterLoop
    {code : Run (Completion ρ σ)} {rest : σ → Run ρ}
    {normal : σ → Prop} {post : ρ → Prop}
    (hcode : Completes code normal post)
    (hrest : ∀ state, normal state → Returns (rest state) post) :
    Returns (afterLoop code rest) post := by
  rcases hcode with ⟨state, rfl, hstate⟩ | ⟨value, rfl, hvalue⟩
  · exact hrest state hstate
  · exact ⟨value, rfl, hvalue⟩

theorem Returns.completes_assign
    {value : Run σ} {normal : σ → Prop} {returned : ρ → Prop}
    (hvalue : Returns value normal) :
    Completes (assign value) normal returned := by
  rcases hvalue with ⟨state, rfl, hstate⟩
  exact .next hstate

private theorem forLoop_rule
    {guard : σ → Bool} {body : ℕ → σ → Run (Completion ρ σ)}
    (invariant : ℕ → σ → Prop) (returned : ρ → Prop) (lo hi count : ℕ)
    (hstep : ∀ index state, lo ≤ index → index < hi → guard state = true →
      invariant index state →
        Completes (body index state) (invariant (index + 1)) returned) :
    ∀ index state, lo ≤ index → index + count = hi → invariant index state →
      Completes (forLoop guard body count index state)
        (fun final => invariant hi final ∨
          guard final = false ∧ ∃ stop, stop < hi ∧ invariant stop final)
        returned := by
  induction count with
  | zero =>
      intro index state _ hindex hinv
      have heq : index = hi := by omega
      subst index
      exact .next (.inl hinv)
  | succ count ih =>
      intro index state hlo hindex hinv
      unfold forLoop
      by_cases hguard : guard state = true
      · rw [if_pos hguard]
        rcases hstep index state hlo (by omega) hguard hinv with
          ⟨state', hbody, hinv'⟩ | ⟨value, hbody, hvalue⟩
        · rw [hbody]
          exact ih (index + 1) state' (by omega) (by omega) hinv'
        · rw [hbody]
          exact .ret hvalue
      · rw [if_neg hguard]
        have hfalse : guard state = false := by simpa using hguard
        exact .next (.inr ⟨hfalse, index, by omega, hinv⟩)

/-- Invariant rule for a guarded loop.  Either the index bound is reached, or
the guard fails at an earlier index. -/
theorem forWhile_rule
    {lo hi : ℕ} {guard : σ → Bool} {state : σ}
    {body : ℕ → σ → Run (Completion ρ σ)}
    (invariant : ℕ → σ → Prop) {returned : ρ → Prop}
    (hle : lo ≤ hi) (hinit : invariant lo state)
    (hstep : ∀ index state, lo ≤ index → index < hi → guard state = true →
      invariant index state →
        Completes (body index state) (invariant (index + 1)) returned) :
    Completes (forWhile lo hi guard state body)
      (fun final => invariant hi final ∨
        guard final = false ∧ ∃ stop, stop < hi ∧ invariant stop final)
      returned :=
  forLoop_rule invariant returned lo hi (hi - lo) hstep lo state
    le_rfl (by omega) hinit

theorem forRange_rule
    {lo hi : ℕ} {state : σ} {body : ℕ → σ → Run (Completion ρ σ)}
    (invariant : ℕ → σ → Prop) {returned : ρ → Prop}
    (hle : lo ≤ hi) (hinit : invariant lo state)
    (hstep : ∀ index state, lo ≤ index → index < hi →
      invariant index state →
        Completes (body index state) (invariant (index + 1)) returned) :
    Completes (forRange lo hi state body) (invariant hi) returned := by
  have hloop : Completes (forRange lo hi state body)
      (fun final => invariant hi final ∨
        (fun _ : σ => true) final = false ∧
          ∃ stop, stop < hi ∧ invariant stop final) returned := by
    apply forWhile_rule invariant hle hinit
    intro index current hlo hindex _ hinv
    exact hstep index current hlo hindex hinv
  apply hloop.mono
  intro final hfinal
  rcases hfinal with hinv | hstop
  · exact hinv
  · exact absurd hstop.1 (by simp)

/-- A loop of assignments, where the method returns the final state. -/
theorem forRange_assign_rule
    {lo hi : ℕ} {state : σ} {body : ℕ → σ → Run σ}
    (invariant : ℕ → σ → Prop) (hle : lo ≤ hi) (hinit : invariant lo state)
    (hstep : ∀ index state, lo ≤ index → index < hi →
      invariant index state →
        Returns (body index state) (invariant (index + 1))) :
    Returns
      (afterLoop
        (forRange lo hi state fun index current =>
          assign (body index current))
        fun final => .ok final) (invariant hi) := by
  apply (forRange_rule invariant hle hinit ?_).afterLoop
  · intro final hfinal
    exact ⟨final, rfl, hfinal⟩
  · intro index current hlo hhi hinv
    exact (hstep index current hlo hhi hinv).completes_assign

/-- The case where the state before every iteration is known. -/
theorem forRange_assign_eq
    {lo hi : ℕ} {state result : σ} {body : ℕ → σ → Run σ} (states : ℕ → σ)
    (hle : lo ≤ hi) (hinit : states lo = state) (hfinal : states hi = result)
    (hstep : ∀ index, lo ≤ index → index < hi →
      body index (states index) = .ok (states (index + 1))) :
    afterLoop
        (forRange lo hi state fun index current =>
          assign (body index current))
        (fun final => .ok final) = .ok result := by
  have hbody : ∀ index current, lo ≤ index → index < hi →
      states index = current →
        Returns (body index current) fun next => states (index + 1) = next := by
    intro index current hlo hhi hinv
    subst current
    exact ⟨_, hstep index hlo hhi, rfl⟩
  obtain ⟨final, hrun, heq⟩ := forRange_assign_rule
    (fun index current => states index = current) hle hinit hbody
  rw [hrun, ← heq, hfinal]

/-- Two loops whose bodies agree along `f` have results which do. -/
theorem afterLoop_forRange_map
    {τ : Type} (f : σ → τ) {body : ℕ → σ → Run σ} {body' : ℕ → τ → Run τ}
    (hbody : ∀ index state,
      body' index (f state) = (body index state).map f)
    (lo hi : ℕ) (state : σ) :
    afterLoop
        (forRange lo hi (f state) fun index current =>
          assign (body' index current))
        (fun final => .ok final) =
      (afterLoop
        (forRange lo hi state fun index current =>
          assign (body index current))
        fun final => .ok final).map f := by
  unfold forRange forWhile
  induction hi - lo generalizing lo state with
  | zero => rfl
  | succ count ih =>
      simp only [forLoop, if_true, hbody]
      cases body lo state with
      | error e => rfl
      | ok next => exact ih (lo + 1) next

theorem forRange_of_ge
    {lo hi : ℕ} (hge : hi ≤ lo) (state : σ)
    (body : ℕ → σ → Run (Completion ρ σ)) :
    forRange lo hi state body = .ok (.next state) := by
  have hcount : hi - lo = 0 := by omega
  simp [forRange, forWhile, hcount, forLoop]

/-- Rule for a loop whose guard stops it as soon as its goal is reached. -/
theorem forWhile_until
    {lo hi : ℕ} {guard : σ → Bool} {state : σ}
    {body : ℕ → σ → Run (Completion ρ σ)}
    (reached : σ → Prop) (running : ℕ → σ → Prop) {returned : ρ → Prop}
    (hreached : ∀ state, reached state → guard state = false)
    (hrunning : ∀ index state, running index state → guard state = true)
    (hle : lo ≤ hi) (hinit : running lo state)
    (hstep : ∀ index state, lo ≤ index → index < hi → running index state →
      Completes (body index state)
        (fun next => reached next ∨ running (index + 1) next) returned) :
    Completes (forWhile lo hi guard state body)
      (fun final => reached final ∨ running hi final) returned := by
  have hloop : Completes (forWhile lo hi guard state body)
      (fun final => (reached final ∨ running hi final) ∨
        guard final = false ∧ ∃ stop, stop < hi ∧
          (reached final ∨ running stop final)) returned := by
    apply forWhile_rule (fun index current =>
      reached current ∨ running index current) hle (.inr hinit)
    intro index current hlo hindex hguard hinv
    rcases hinv with hdone | hrun
    · rw [hreached current hdone] at hguard
      contradiction
    · exact hstep index current hlo hindex hrun
  apply hloop.mono
  intro final hfinal
  rcases hfinal with hinv | ⟨hguard, stop, _, hinv⟩
  · exact hinv
  · rcases hinv with hdone | hrun
    · exact .inl hdone
    · rw [hrunning stop final hrun] at hguard
      contradiction

/-! ## Search loops -/

/-- The code returns `value` when `found` holds and otherwise goes on in an
unchanged state. -/
def Finds (code : Run (Completion ρ σ)) (value : ρ) (state : σ)
    (found : Prop) : Prop :=
  (found ∧ code = .ok (.ret value)) ∨ (¬ found ∧ code = .ok (.next state))

theorem Decides.finds_returnWhen
    {test : Run Bool} {claim : Prop} (htest : Decides test claim)
    (value : ρ) (state : σ) :
    Finds (returnWhen test value state) value state claim := by
  rcases htest with ⟨answer, rfl, hanswer⟩
  cases answer with
  | true => exact .inl ⟨hanswer.mp rfl, rfl⟩
  | false => exact .inr ⟨by simpa using hanswer, rfl⟩

theorem forRange_first
    {lo hi : ℕ} {state : σ} {body : ℕ → σ → Run (Completion ρ σ)}
    {result : ℕ → ρ} {found : ℕ → Prop} (hle : lo ≤ hi)
    (hbody : ∀ index, lo ≤ index → index < hi →
      Finds (body index state) (result index) state (found index)) :
    (∃ index, lo ≤ index ∧ index < hi ∧ found index ∧
        (∀ earlier, lo ≤ earlier → earlier < index → ¬ found earlier) ∧
        forRange lo hi state body = .ok (.ret (result index))) ∨
      (∀ index, lo ≤ index → index < hi → ¬ found index) ∧
        forRange lo hi state body = .ok (.next state) := by
  have hloop : Completes (forRange lo hi state body)
      (fun current => current = state ∧
        ∀ earlier, lo ≤ earlier → earlier < hi → ¬ found earlier)
      (fun value => ∃ index, lo ≤ index ∧ index < hi ∧ found index ∧
        (∀ earlier, lo ≤ earlier → earlier < index → ¬ found earlier) ∧
        value = result index) := by
    apply forRange_rule (fun index current => current = state ∧
      ∀ earlier, lo ≤ earlier → earlier < index → ¬ found earlier) hle
    · exact ⟨rfl, fun _ _ _ => by omega⟩
    · intro index current hlo hindex hinv
      rcases hinv with ⟨hcurrent, hnone⟩
      subst current
      rcases hbody index hlo hindex with ⟨hfound, hrun⟩ | ⟨hnot, hrun⟩
      · rw [hrun]
        exact .ret ⟨index, hlo, hindex, hfound, hnone, rfl⟩
      · rw [hrun]
        apply Completes.next
        constructor
        · rfl
        · intro earlier hloEarlier hearlier
          by_cases heq : earlier = index
          · simpa [heq] using hnot
          · exact hnone earlier hloEarlier (by omega)
  rcases hloop with ⟨current, hrun, hcurrent, hnone⟩ |
    ⟨value, hrun, index, hlo, hindex, hfound, hfirst, hvalue⟩
  · subst current
    exact .inr ⟨hnone, hrun⟩
  · subst value
    exact .inl ⟨index, hlo, hindex, hfound, hfirst, hrun⟩

theorem forRange_finds
    {lo hi : ℕ} {state : σ} {value : ρ}
    {body : ℕ → σ → Run (Completion ρ σ)} {found : ℕ → Prop} (hle : lo ≤ hi)
    (hbody : ∀ index, lo ≤ index → index < hi →
      Finds (body index state) value state (found index)) :
    Finds (forRange lo hi state body) value state
      (∃ index, lo ≤ index ∧ index < hi ∧ found index) := by
  rcases forRange_first hle hbody with
    ⟨index, hlo, hindex, hfound, _, hrun⟩ | ⟨hnone, hrun⟩
  · exact .inl ⟨⟨index, hlo, hindex, hfound⟩, hrun⟩
  · have hnot : ¬ ∃ index, lo ≤ index ∧ index < hi ∧ found index := by
      intro hexists
      rcases hexists with ⟨index, hlo, hindex, hfound⟩
      exact hnone index hlo hindex hfound
    exact .inr ⟨hnot, hrun⟩

theorem forRange_finds_and
    {lo hi : ℕ} {state : σ} {value : ρ} {outer : Prop}
    {body : ℕ → σ → Run (Completion ρ σ)} {found : ℕ → Prop} (hle : lo ≤ hi)
    (hbody : ∀ index, lo ≤ index → index < hi →
      Finds (body index state) value state (outer ∧ found index)) :
    Finds (forRange lo hi state body) value state
      (outer ∧ ∃ index, lo ≤ index ∧ index < hi ∧ found index) := by
  have hloop := forRange_finds hle hbody
  have hiff : (∃ index, lo ≤ index ∧ index < hi ∧ outer ∧ found index) ↔
      outer ∧ ∃ index, lo ≤ index ∧ index < hi ∧ found index := by
    constructor
    · intro hexists
      rcases hexists with ⟨index, hlo, hindex, houter, hfound⟩
      exact ⟨houter, index, hlo, hindex, hfound⟩
    · intro hboth
      rcases hboth with ⟨houter, index, hlo, hindex, hfound⟩
      exact ⟨index, hlo, hindex, houter, hfound⟩
  rwa [hiff] at hloop

theorem Finds.decides
    {code : Run (Completion Bool σ)} {state : σ} {found : Prop}
    (hfinds : Finds code true state found) :
    Decides (afterLoop code fun _ => .ok false) found := by
  rcases hfinds with ⟨hfound, hrun⟩ | ⟨hnot, hrun⟩
  · exact ⟨true, by rw [hrun]; rfl, by simpa using hfound⟩
  · exact ⟨false, by rw [hrun]; rfl, by simpa using hnot⟩

end Loops

end Java
