import HighRollers.JavaRun
import Mathlib.Data.List.TakeWhile

/-!
# Methods which change their object

A method with side effects runs on the fields of its object, and an exception
keeps every assignment made before it.  The second half of the file reads
`switch` statements: where no case ends with a `break`, control runs on from
the matching case into all later ones.
-/

namespace Java

abbrev Method (σ α : Type) := EStateM Throwable σ α

section Methods

variable {σ α : Type}

/-- The fields after the call, also when it ends with an exception. -/
def Method.after (method : Method σ α) (state : σ) : σ :=
  match method.run state with
  | .ok _ state' => state'
  | .error _ state' => state'

def Method.Throws (method : Method σ α) (state : σ) : Prop :=
  ∃ e state', method.run state = .error e state'

theorem Method.after_eq_of_ok
    {method : Method σ α} {state state' : σ} {value : α}
    (hrun : method.run state = .ok value state') :
    method.after state = state' := by
  simp [Method.after, hrun]

theorem Method.after_bind_of_ok
    {β : Type} {method : Method σ α} {state state' : σ} {value : α}
    (hrun : method.run state = .ok value state') (rest : α → Method σ β) :
    (method >>= rest : Method σ β).after state = (rest value).after state' := by
  simp [Method.after, hrun]

theorem Method.after_bind_of_throws
    {β : Type} {method : Method σ α} {state : σ} (hthrows : method.Throws state)
    (rest : α → Method σ β) :
    (method >>= rest : Method σ β).after state = method.after state := by
  rcases hthrows with ⟨e, state', hrun⟩
  simp [Method.after, hrun]

theorem Method.not_throws_of_ok
    {method : Method σ α} {state state' : σ} {value : α}
    (hrun : method.run state = .ok value state') :
    ¬ method.Throws state := by
  intro hthrows
  rcases hthrows with ⟨e, state'', herror⟩
  rw [hrun] at herror
  contradiction

theorem Method.throws_bind
    {β : Type} {method : Method σ α} {rest : α → Method σ β}
    (hrest : ∀ value state, (rest value).Throws state) (state : σ) :
    (method >>= rest : Method σ β).Throws state := by
  unfold Method.Throws
  rw [EStateM.run_bind]
  cases method.run state with
  | ok value state' => exact hrest value state'
  | error e state' => exact ⟨e, state', rfl⟩

theorem Method.Throws.bind
    {β : Type} {method : Method σ α} {state : σ} (hthrows : method.Throws state)
    (rest : α → Method σ β) :
    (method >>= rest : Method σ β).Throws state := by
  rcases hthrows with ⟨e, state', hrun⟩
  exact ⟨e, state', by rw [EStateM.run_bind, hrun]⟩

theorem Method.Throws.of_bind
    {β : Type} {method : Method σ α} {state state' : σ} {value : α}
    {rest : α → Method σ β} (hrun : method.run state = .ok value state')
    (hthrows : (rest value).Throws state') :
    (method >>= rest : Method σ β).Throws state := by
  rcases hthrows with ⟨e, after, hrest⟩
  exact ⟨e, after, by rw [EStateM.run_bind, hrun]; exact hrest⟩

def call (code : Run α) : Method σ α := fun state =>
  match code with
  | .ok value => .ok value state
  | .error e => .error e state

@[simp] theorem run_call_ok (value : α) (state : σ) :
    (call (.ok value) : Method σ α).run state = .ok value state := rfl

@[simp] theorem run_call_error (e : Throwable) (state : σ) :
    (call (.error e) : Method σ α).run state = .error e state := rfl

@[simp] theorem run_assign (f : σ → σ) (state : σ) :
    (modify f : Method σ Unit).run state = .ok () (f state) := rfl

@[simp] theorem run_fields (state : σ) :
    (get : Method σ σ).run state = .ok state state := rfl

theorem run_catch (method : Method σ α) (value : α) (state : σ) :
    (tryCatch method fun _ => pure value : Method σ α).run state =
      match method.run state with
      | .ok value' state' => .ok value' state'
      | .error _ state' => .ok value state' := by
  change EStateM.tryCatch method _ state = _
  unfold EStateM.tryCatch EStateM.run
  cases method state with
  | ok value' state' => rfl
  | error e state' => rfl

/-- The method of an object which is one part of the fields. -/
def Method.onPart {τ : Type} (method : Method τ α) (part : σ → τ)
    (put : τ → σ → σ) : Method σ α := fun state =>
  match method.run (part state) with
  | .ok value state' => .ok value (put state' state)
  | .error e state' => .error e (put state' state)

theorem Method.run_onPart
    {τ : Type} (method : Method τ α) (part : σ → τ) (put : τ → σ → σ)
    (state : σ) :
    (method.onPart part put).run state =
      match method.run (part state) with
      | .ok value state' => .ok value (put state' state)
      | .error e state' => .error e (put state' state) := rfl

end Methods

/-! ## What a method leaves alone -/

section Frames

variable {σ α β : Type} {relation : σ → σ → Prop}

/-- The fields before and after the call are related, also when it throws. -/
def Method.Keeps (relation : σ → σ → Prop) (method : Method σ α) : Prop :=
  ∀ state, relation state (method.after state)

theorem Method.Keeps.bind
    [IsTrans σ relation] {method : Method σ α} {rest : α → Method σ β}
    (hmethod : method.Keeps relation)
    (hrest : ∀ value, (rest value).Keeps relation) :
    Method.Keeps relation (method >>= rest) := by
  intro state
  have hfirst := hmethod state
  simp only [Method.after, EStateM.run_bind] at hfirst ⊢
  cases hrun : method.run state with
  | error e state' => simpa [hrun] using hfirst
  | ok value state' =>
      have hsecond := hrest value state'
      simp only [Method.after] at hsecond
      simp only [hrun] at hfirst ⊢
      exact IsTrans.trans _ _ _ hfirst hsecond

/-- Code which keeps a relation adds nothing to what came before it. -/
theorem Method.Keeps.after_bind
    [Std.Refl relation] {rest : α → Method σ β}
    (hrest : ∀ value, (rest value).Keeps relation) (method : Method σ α)
    (state : σ) :
    relation (method.after state)
      ((method >>= rest : Method σ β).after state) := by
  simp only [Method.after, EStateM.run_bind]
  cases method.run state with
  | ok value state' => exact hrest value state'
  | error e state' => exact Std.Refl.refl state'

theorem Method.keeps_call [Std.Refl relation] (code : Run α) :
    Method.Keeps relation (call code : Method σ α) := by
  intro state
  cases code with
  | ok value => exact Std.Refl.refl state
  | error e => exact Std.Refl.refl state

theorem Method.keeps_fields [Std.Refl relation] :
    Method.Keeps relation (get : Method σ σ) :=
  Std.Refl.refl

theorem Method.keeps_assign
    {f : σ → σ} (hassign : ∀ state, relation state (f state)) :
    Method.Keeps relation (modify f : Method σ Unit) :=
  hassign

/-- A property which holds after the call if it held before. -/
def Preserves {σ : Type} (property : σ → Prop) (state after : σ) : Prop :=
  property state → property after

instance {σ : Type} (property : σ → Prop) : Std.Refl (Preserves property) where
  refl _ := id

instance {σ : Type} (property : σ → Prop) :
    IsTrans σ (Preserves property) where
  trans _ _ _ hfirst hsecond := hsecond ∘ hfirst

end Frames

/-! ## Loops over a collection -/

section ForEach

variable {ι σ : Type}

def forEach (body : ι → Method σ Unit) : List ι → Method σ Unit
  | [] => pure ()
  | entry :: rest => do
      body entry
      forEach body rest

theorem forEach_keeps
    {relation : σ → σ → Prop} [Std.Refl relation] [IsTrans σ relation]
    {body : ι → Method σ Unit} {list : List ι}
    (hbody : ∀ i ∈ list, (body i).Keeps relation) :
    (forEach body list).Keeps relation := by
  induction list with
  | nil => exact Std.Refl.refl
  | cons i rest ih =>
      have hrest := ih fun j hj => hbody j (List.mem_cons_of_mem i hj)
      exact (hbody i List.mem_cons_self).bind fun _ => hrest

/-- The loop ends at the first entry which fails, where what comes before it
does not change which entries fail. -/
theorem run_forEach
    {body : ι → Method σ Unit} {next lost : ι → σ → σ} {e : Throwable}
    {fails : σ → ι → Prop} [∀ state, DecidablePred (fails state)]
    (hok : ∀ i state, ¬ fails state i →
      (body i).run state = .ok () (next i state))
    (herror : ∀ i state, fails state i →
      (body i).run state = .error e (lost i state))
    (hkept : ∀ i state, ¬ fails state i →
      ∀ j, fails (next i state) j ↔ fails state j)
    (list : List ι) (state : σ) :
    (forEach body list).run state =
      match list.find? fun i => fails state i with
      | none => .ok () (list.foldl (fun current i => next i current) state)
      | some i => .error e (lost i
          ((list.takeWhile fun i => ¬ fails state i).foldl
            (fun current i => next i current) state)) := by
  induction list generalizing state with
  | nil => rfl
  | cons i rest ih =>
      rw [forEach, EStateM.run_bind]
      by_cases hfails : fails state i
      · simp [herror i state hfails, hfails]
      · have hsame : ∀ j, fails (next i state) j ↔ fails state j :=
          hkept i state hfails
        simp only [hok i state hfails, ih, hsame]
        simp [hfails]

end ForEach

/-! ## Lists as `ArrayList` -/

section ArrayLists

variable {α : Type}

def listGet (list : List α) (index : ℕ) : Run α :=
  match list[index]? with
  | some entry => .ok entry
  | none => .error .indexOutOfBounds

def listRemove (list : List α) (index : ℕ) : Run (List α) :=
  if index < list.length then .ok (list.eraseIdx index)
  else .error .indexOutOfBounds

@[simp] theorem listGet_cons_zero (entry : α) (rest : List α) :
    listGet (entry :: rest) 0 = .ok entry := rfl

@[simp] theorem listRemove_cons_zero (entry : α) (rest : List α) :
    listRemove (entry :: rest) 0 = .ok rest := by
  simp [listRemove]

end ArrayLists

/-! ## Arrays as targets of assignments -/

section ArrayWrites

variable {α : Type}

def arraySet (array : List α) (index : ℕ) (entry : α) : Run (List α) :=
  if index < array.length then .ok (array.set index entry)
  else .error .arrayIndexOutOfBounds

/-- A for-each loop storing one entry after the other, starting at slot
`counter`. -/
def fillFrom (array : List α) (counter : ℕ) : List α → Run (List α)
  | [] => .ok array
  | entry :: rest =>
      (arraySet array counter entry).bind fun array' =>
        fillFrom array' (counter + 1) rest

theorem fillFrom_eq_ok
    {array entries : List α} {counter : ℕ}
    (hfits : counter + entries.length = array.length) :
    fillFrom array counter entries = .ok (array.take counter ++ entries) := by
  induction entries generalizing array counter with
  | nil =>
      have hall : array.length ≤ counter := by simp at hfits; omega
      simp [fillFrom, List.take_of_length_le hall]
  | cons entry rest ih =>
      simp only [List.length_cons] at hfits
      have hslot : counter < array.length := by omega
      have hrest : counter + 1 + rest.length =
          (array.set counter entry).length := by
        simp only [List.length_set]
        omega
      have htake : (array.set counter entry).take (counter + 1) =
          array.take counter ++ [entry] := by
        rw [List.take_add_one]
        simp [hslot, List.take_set_of_le]
      simp only [fillFrom, arraySet, if_pos hslot, Except.bind]
      rw [ih hrest, htake]
      simp

end ArrayWrites

/-! ## Switch statements without `break` -/

section Switch

variable {κ : Type} [DecidableEq κ] {m : Type → Type} [Monad m]

def runOn : List (κ × m Unit) → m Unit → m Unit
  | [], last => last
  | (_, body) :: rest, last => do
      body
      runOn rest last

/-- Nothing is executed before the case labelled `key`, everything from there
on.  A `default` stands last. -/
def switch (key : κ) : List (κ × m Unit) → m Unit → m Unit
  | [], last => last
  | (label, body) :: rest, last =>
      if key = label then runOn ((label, body) :: rest) last
      else switch key rest last

theorem switch_self (label : κ) (body : m Unit) (rest : List (κ × m Unit))
    (last : m Unit) :
    switch label ((label, body) :: rest) last =
      runOn ((label, body) :: rest) last := by
  simp [switch]

theorem switch_of_ne
    {key label : κ} (hkey : key ≠ label) (body : m Unit)
    (rest : List (κ × m Unit)) (last : m Unit) :
    switch key ((label, body) :: rest) last = switch key rest last := by
  simp [switch, hkey]

/-- The cases executed are those from the matching one on. -/
theorem switch_eq_runOn (key : κ) (branches : List (κ × m Unit))
    (last : m Unit) :
    switch key branches last =
      runOn (branches.dropWhile fun entry => key ≠ entry.1) last := by
  induction branches with
  | nil => rfl
  | cons entry rest ih =>
      by_cases hentry : key = entry.1
      · subst key
        rw [switch_self, List.dropWhile_cons_of_neg (by simp)]
      · rw [switch_of_ne hentry,
          List.dropWhile_cons_of_pos (by simpa using hentry), ih]

end Switch

section SwitchRules

variable {κ σ : Type}

theorem switch_throws
    [DecidableEq κ] {key : κ} {branches : List (κ × Method σ Unit)}
    {last : Method σ Unit} (hkey : key ∈ branches.map Prod.fst)
    (hbodies : ∀ entry ∈ branches, ∀ state, entry.2.Throws state) (state : σ) :
    (switch key branches last).Throws state := by
  induction branches with
  | nil => simp at hkey
  | cons entry rest ih =>
      by_cases hentry : key = entry.1
      · subst key
        rw [switch_self]
        exact (hbodies entry (by simp) state).bind _
      · rw [switch_of_ne hentry]
        apply ih
        · simpa [hentry] using hkey
        · intro other hother
          exact hbodies other (List.mem_cons_of_mem entry hother)

theorem runOn_keeps
    {relation : σ → σ → Prop} [IsTrans σ relation]
    {branches : List (κ × Method σ Unit)} {last : Method σ Unit}
    (hbodies : ∀ entry ∈ branches, entry.2.Keeps relation)
    (hlast : last.Keeps relation) :
    (runOn branches last).Keeps relation := by
  induction branches with
  | nil => exact hlast
  | cons entry rest ih =>
      have hrest := ih fun other hother =>
        hbodies other (List.mem_cons_of_mem entry hother)
      exact (hbodies entry (by simp)).bind fun _ => hrest

theorem switch_keeps
    [DecidableEq κ] {relation : σ → σ → Prop} [IsTrans σ relation]
    {key : κ} {branches : List (κ × Method σ Unit)} {last : Method σ Unit}
    (hbodies : ∀ entry ∈ branches, entry.2.Keeps relation)
    (hlast : last.Keeps relation) :
    (switch key branches last).Keeps relation := by
  induction branches with
  | nil => exact hlast
  | cons entry rest ih =>
      by_cases hentry : key = entry.1
      · subst key
        rw [switch_self]
        exact runOn_keeps hbodies hlast
      · rw [switch_of_ne hentry]
        exact ih fun other hother =>
          hbodies other (List.mem_cons_of_mem entry hother)

end SwitchRules

section Overwriting

variable {κ σ ν : Type}

def assigning (set : ν → σ → σ) (table : List (κ × ν)) :
    List (κ × Method σ Unit) :=
  table.map fun entry => (entry.1, modify (set entry.2))

/-- A later assignment makes an earlier one invisible. -/
def Overwrites (set : ν → σ → σ) : Prop :=
  ∀ new old state, set new (set old state) = set new state

def lastValue : ν → List (κ × ν) → ν
  | value, [] => value
  | _, (_, value) :: rest => lastValue value rest

variable {set : ν → σ → σ}

theorem foldl_overwriting
    (hset : Overwrites set) (table : List (κ × ν)) (value : ν) (state : σ) :
    table.foldl (fun current entry => set entry.2 current) (set value state) =
      set (lastValue value table) state := by
  induction table generalizing value with
  | nil => rfl
  | cons entry rest ih => rw [List.foldl_cons, hset, ih, lastValue]

theorem lastValue_append
    (value : ν) (before : List (κ × ν)) (entry : κ × ν)
    (rest : List (κ × ν)) :
    lastValue value (before ++ entry :: rest) = lastValue entry.2 rest := by
  induction before generalizing value with
  | nil => rfl
  | cons first others ih => exact ih first.2

theorem run_runOn_eq_foldl (table : List (κ × ν)) (state : σ) :
    (runOn (assigning set table) (pure ())).run state =
      .ok () (table.foldl (fun current entry => set entry.2 current)
        state) := by
  induction table generalizing state with
  | nil => simp [assigning, runOn]
  | cons entry rest ih =>
      have hrest := ih (set entry.2 state)
      simp only [assigning, List.map_cons, runOn, EStateM.run_bind,
        run_assign, List.foldl_cons] at hrest ⊢
      exact hrest

theorem run_switch_assigning
    [DecidableEq κ] (key : κ) (table : List (κ × ν)) (state : σ) :
    (switch key (assigning set table) (pure ())).run state =
      .ok () ((table.dropWhile fun entry => key ≠ entry.1).foldl
        (fun current entry => set entry.2 current) state) := by
  have hsuffix : ((assigning set table).dropWhile
      fun entry => decide (key ≠ entry.1)) =
        assigning set (table.dropWhile fun entry => key ≠ entry.1) := by
    rw [assigning, List.dropWhile_map]
    rfl
  rw [switch_eq_runOn, hsuffix, run_runOn_eq_foldl]

/-- Of the cases executed after a matching label there is at least one, and
more than one unless the label is the last. -/
theorem length_cases_executed
    [DecidableEq κ] {key : κ} {table : List (κ × ν)} {last : κ × ν}
    (hkey : key ∈ table.map Prod.fst) (hlast : table.getLast? = some last) :
    1 ≤ (table.dropWhile fun entry => key ≠ entry.1).length ∧
      ((table.dropWhile fun entry => key ≠ entry.1).length = 1 →
        key = last.1) := by
  induction table with
  | nil => simp at hkey
  | cons entry rest ih =>
      by_cases hentry : key = entry.1
      · rw [List.dropWhile_cons_of_neg (by simp [hentry])]
        refine ⟨by simp, ?_⟩
        intro hone
        have hrest : rest = [] := by simpa using hone
        subst rest
        have heq : entry = last := by simpa using hlast
        rw [hentry, heq]
      · rw [List.dropWhile_cons_of_pos (by simpa using hentry)]
        have hlater : key ∈ rest.map Prod.fst := by simpa [hentry] using hkey
        have hnonempty : rest ≠ [] := by
          intro hnil
          simp [hnil] at hlater
        rw [List.getLast?_cons_of_ne_nil hnonempty] at hlast
        exact ih hlater hlast

/-- Whichever case is entered, the field ends up with the value of the last
one. -/
theorem run_switch_of_mem
    [DecidableEq κ]
    (hset : Overwrites set)
    {key : κ} {table : List (κ × ν)} (hkey : key ∈ table.map Prod.fst)
    (value : ν) (state : σ) :
    (switch key (assigning set table) (pure ())).run state =
      .ok () (set (lastValue value table) state) := by
  have hsome : (table.dropWhile fun entry => key ≠ entry.1) ≠ [] := by
    intro hnil
    obtain ⟨entry, hentry, heq⟩ := List.mem_map.mp hkey
    have hne := List.dropWhile_eq_nil_iff.mp hnil entry hentry
    simp [heq] at hne
  obtain ⟨entry, rest, hsuffix⟩ := List.exists_cons_of_ne_nil hsome
  have hlast := lastValue_append value
    (table.takeWhile fun entry => key ≠ entry.1) entry rest
  rw [← hsuffix, List.takeWhile_append_dropWhile] at hlast
  rw [run_switch_assigning, hsuffix, List.foldl_cons, foldl_overwriting hset,
    hlast]

theorem run_switch_of_not_mem
    [DecidableEq κ] {key : κ} {table : List (κ × ν)}
    (hkey : key ∉ table.map Prod.fst) (state : σ) :
    (switch key (assigning set table) (pure ())).run state = .ok () state := by
  have hnone : (table.dropWhile fun entry => key ≠ entry.1) = [] := by
    rw [List.dropWhile_eq_nil_iff]
    intro entry hentry
    have hne : key ≠ entry.1 := by
      intro heq
      exact hkey (heq ▸ List.mem_map_of_mem hentry)
    simpa using hne
  rw [run_switch_assigning, hnone, List.foldl_nil]

end Overwriting

end Java
