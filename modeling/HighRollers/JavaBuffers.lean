import HighRollers.JavaMethod

/-!
# Buffers

A buffer has a position and a limit below its capacity.  Entries are put at the
position, and a put at the limit throws.  Where a buffer is too small for what
is to come, it is replaced by one whose size is doubled until it is not, if the
number of its bytes is an int.
-/

namespace Java

structure Buffer (α : Type) where
  cells : List α
  limit : ℕ
  position : ℕ
  limit_le : limit ≤ cells.length
  position_le : position ≤ limit

/-- `while (size < need) size *= 2`.  Java does not leave this loop with a size
of zero, which no buffer here has. -/
def grow (need size : ℕ) : ℕ :=
  if 0 < size ∧ size < need then grow need (2 * size) else size
termination_by need - size

section Growth

variable {need need' size : ℕ}

theorem grow_of_le (hfits : need ≤ size) : grow need size = size := by
  rw [grow, if_neg (by omega)]

theorem grow_of_lt (hsize : 0 < size) (hneed : size < need) :
    grow need size = grow need (2 * size) := by
  rw [grow, if_pos ⟨hsize, hneed⟩]

theorem le_grow (hsize : 0 < size) : need ≤ grow need size := by
  fun_induction grow need size with
  | case1 size hlow ih => exact ih (by omega)
  | case2 size hlow => omega

/-- Growing in two steps comes to the same size as growing for the larger
need at once. -/
theorem grow_grow (hsize : 0 < size) :
    grow need' (grow need size) = grow (max need need') size := by
  fun_induction grow need size with
  | case1 size hlow ih =>
      rw [ih (by omega), ← grow_of_lt hsize (by omega)]
  | case2 size hlow =>
      by_cases hfits : need' ≤ size
      · rw [grow_of_le hfits, grow_of_le (by omega)]
      · rw [max_eq_right (by omega)]

theorem grow_eq_pow (hsize : 0 < size) :
    ∃ steps, grow need size = size * 2 ^ steps ∧
      ∀ step < steps, size * 2 ^ step < need := by
  fun_induction grow need size with
  | case1 size hlow ih =>
      obtain ⟨steps, hgrow, hearlier⟩ := ih (by omega)
      refine ⟨steps + 1, by rw [hgrow, pow_succ]; ring, ?_⟩
      intro step hstep
      cases step with
      | zero => simpa using hlow.2
      | succ step =>
          have hbefore := hearlier step (by omega)
          calc size * 2 ^ (step + 1) = 2 * size * 2 ^ step := by
                rw [pow_succ]; ring
            _ < need := hbefore
  | case2 size hlow => exact ⟨0, by simp, by simp⟩

/-- A need below `base * 2 ^ bound` takes no more doublings than that. -/
theorem grow_pow_le
    {base steps bound : ℕ} (hbase : 0 < base) (hsteps : steps ≤ bound)
    (hneed : need ≤ base * 2 ^ bound) :
    ∃ steps' ≤ bound, grow need (base * 2 ^ steps) = base * 2 ^ steps' := by
  obtain ⟨more, hgrow, hearlier⟩ :=
    @grow_eq_pow need (base * 2 ^ steps) (by positivity)
  refine ⟨steps + more, ?_, by rw [hgrow, pow_add, mul_assoc]⟩
  cases more with
  | zero => exact hsteps
  | succ more =>
      have hlast := hearlier more (by omega)
      rw [mul_assoc, ← pow_add] at hlast
      have hpow : 2 ^ (steps + more) < 2 ^ bound :=
        Nat.lt_of_mul_lt_mul_left (hlast.trans_le hneed)
      have hlt := (Nat.pow_lt_pow_iff_right (by omega)).mp hpow
      omega

end Growth

namespace Buffer

variable {α : Type}

def capacity (buffer : Buffer α) : ℕ :=
  buffer.cells.length

def allocate (fill : α) (size : ℕ) : Buffer α where
  cells := List.replicate size fill
  limit := size
  position := 0
  limit_le := by simp
  position_le := Nat.zero_le _

def rewind (buffer : Buffer α) : Buffer α where
  cells := buffer.cells
  limit := buffer.limit
  position := 0
  limit_le := buffer.limit_le
  position_le := Nat.zero_le _

/-- `buffer.limit(newLimit)`. -/
def setLimit (newLimit : ℕ) (buffer : Buffer α) : Run (Buffer α) :=
  if hlimit : newLimit ≤ buffer.cells.length then
    .ok { cells := buffer.cells
          limit := newLimit
          position := min buffer.position newLimit
          limit_le := hlimit
          position_le := min_le_right _ _ }
  else .error .external

def put (entry : α) (buffer : Buffer α) : Run (Buffer α) :=
  if hroom : buffer.position < buffer.limit then
    .ok { cells := buffer.cells.set buffer.position entry
          limit := buffer.limit
          position := buffer.position + 1
          limit_le := by simpa using buffer.limit_le
          position_le := hroom }
  else .error .external

/-- `ByteBuffer.allocateDirect(bytes * size)`, seen as a buffer of entries with
this many bytes each.  The product is an int. -/
def allocateDirect (fill : α) (bytes size : ℕ) : Run (Buffer α) :=
  if int32 (bytes * size : ℕ) < 0 then .error .external
  else .ok (allocate fill ((int32 (bytes * size : ℕ)).toNat / bytes))

def enlarge (fill : α) (bytes need : ℕ) (buffer : Buffer α) :
    Run (Buffer α) :=
  if buffer.capacity < need then
    allocateDirect fill bytes (grow need buffer.capacity)
  else .ok buffer

/-- Make room for `need` entries, and start over. -/
def prepare (fill : α) (bytes need : ℕ) (buffer : Buffer α) :
    Run (Buffer α) := do
  let room ← buffer.enlarge fill bytes need
  room.rewind.setLimit need

/-- What is read from the buffer once it is rewound. -/
def contents (buffer : Buffer α) : List α :=
  buffer.cells.take buffer.limit

theorem setLimit_eq_ok
    (buffer : Buffer α) {newLimit : ℕ} (hlimit : newLimit ≤ buffer.capacity) :
    ∃ after, buffer.setLimit newLimit = .ok after ∧
      after.cells = buffer.cells ∧ after.limit = newLimit ∧
      after.position = min buffer.position newLimit := by
  have hcells : newLimit ≤ buffer.cells.length := hlimit
  rw [setLimit, dif_pos hcells]
  exact ⟨_, rfl, rfl, rfl, rfl⟩

theorem capacity_allocate (fill : α) (size : ℕ) :
    (allocate fill size).capacity = size :=
  List.length_replicate

theorem allocateDirect_eq_ok
    (fill : α) {bytes size : ℕ} (hbytes : 0 < bytes)
    (hfits : bytes * size < 2 ^ 31) :
    allocateDirect fill bytes size = .ok (allocate fill size) := by
  rw [allocateDirect, int32_of_lt hfits, if_neg (by omega), Int.toNat_natCast,
    Nat.mul_div_cancel_left size hbytes]

theorem allocateDirect_eq_error
    (fill : α) {bytes size : ℕ} (hwraps : 2 ^ 31 ≤ bytes * size % 2 ^ 32) :
    allocateDirect fill bytes size = .error .external := by
  rw [allocateDirect, if_pos]
  unfold int32 Int.bmod
  simp only [Nat.reducePow] at hwraps ⊢
  split_ifs <;> omega

theorem enlarge_eq_ok
    (fill : α) {bytes need : ℕ} {buffer : Buffer α} (hbytes : 0 < bytes)
    (hfits : bytes * grow need buffer.capacity < 2 ^ 31) :
    ∃ room, buffer.enlarge fill bytes need = .ok room ∧
      room.capacity = grow need buffer.capacity := by
  unfold enlarge
  split_ifs with hsmall
  · exact ⟨_, allocateDirect_eq_ok fill hbytes hfits, capacity_allocate fill _⟩
  · exact ⟨buffer, rfl, by rw [grow_of_le (by omega)]⟩

theorem prepare_eq_ok
    (fill : α) {bytes need : ℕ} {buffer : Buffer α} (hbytes : 0 < bytes)
    (hsize : 0 < buffer.capacity)
    (hfits : bytes * grow need buffer.capacity < 2 ^ 31) :
    ∃ after, buffer.prepare fill bytes need = .ok after ∧
      after.capacity = grow need buffer.capacity ∧ after.limit = need ∧
      after.position = 0 := by
  obtain ⟨room, hroom, hcapacity⟩ := enlarge_eq_ok fill hbytes hfits
  have hneed : need ≤ room.rewind.capacity := by
    have hgrown : need ≤ room.capacity := by
      rw [hcapacity]
      exact le_grow hsize
    exact hgrown
  obtain ⟨after, hafter, hcells, hlimit, hposition⟩ :=
    setLimit_eq_ok room.rewind hneed
  have hcapacity' : after.capacity = room.capacity :=
    congrArg List.length hcells
  refine ⟨after, ?_, hcapacity'.trans hcapacity, hlimit,
    hposition.trans (Nat.zero_min need)⟩
  rw [prepare, hroom, ok_bind, hafter]

theorem prepare_eq_error
    (fill : α) {bytes need : ℕ} {buffer : Buffer α}
    (hsmall : buffer.capacity < need)
    (hwraps : 2 ^ 31 ≤ bytes * grow need buffer.capacity % 2 ^ 32) :
    buffer.prepare fill bytes need = .error .external := by
  rw [prepare, enlarge, if_pos hsmall, allocateDirect_eq_error fill hwraps,
    error_bind]

theorem put_eq_ok
    {buffer : Buffer α} (hroom : buffer.position < buffer.limit) (entry : α) :
    ∃ after, buffer.put entry = .ok after ∧
      after.cells = buffer.cells.set buffer.position entry ∧
      after.limit = buffer.limit ∧ after.position = buffer.position + 1 := by
  rw [put, dif_pos hroom]
  exact ⟨_, rfl, rfl, rfl, rfl⟩

theorem capacity_put
    {buffer after : Buffer α} {entry : α}
    (hput : buffer.put entry = .ok after) :
    after.capacity = buffer.capacity := by
  unfold put at hput
  split_ifs at hput
  cases hput
  simp [capacity]

theorem put_eq_error
    {buffer : Buffer α} (hfull : ¬ buffer.position < buffer.limit)
    (entry : α) :
    buffer.put entry = .error .external := by
  rw [put, dif_neg hfull]

end Buffer

/-! ## Buffers of an object -/

/-- A buffer which is kept in a field. -/
structure BufferField (σ α : Type) where
  read : σ → Buffer α
  write : Buffer α → σ → σ
  read_write : ∀ buffer state, read (write buffer state) = buffer
  write_read : ∀ state, write (read state) state = state
  write_write : ∀ buffer buffer' state,
    write buffer' (write buffer state) = write buffer' state

namespace BufferField

variable {σ α : Type} (field : BufferField σ α)

def apply (change : Buffer α → Run (Buffer α)) : Method σ Unit := do
  let buffer ← call (change (field.read (← get)))
  modify (field.write buffer)

def put (entry : α) : Method σ Unit :=
  field.apply (Buffer.put entry)

def putAll (entries : List α) : Method σ Unit :=
  forEach field.put entries

theorem run_apply_ok
    {change : Buffer α → Run (Buffer α)} {state : σ} {buffer : Buffer α}
    (hchange : change (field.read state) = .ok buffer) :
    (field.apply change).run state = .ok () (field.write buffer state) := by
  simp [apply, hchange]

theorem run_apply_error
    {change : Buffer α → Run (Buffer α)} {state : σ} {e : Throwable}
    (hchange : change (field.read state) = .error e) :
    (field.apply change).run state = .error e state := by
  simp [apply, hchange]

/-- A put does not change the capacity, nor anything outside the buffer. -/
theorem put_keeps
    {relation : σ → σ → Prop} [Std.Refl relation]
    (hwrite : ∀ buffer state,
      buffer.capacity = (field.read state).capacity →
        relation state (field.write buffer state))
    (entry : α) :
    (field.put entry).Keeps relation := by
  intro state
  cases hput : (field.read state).put entry with
  | error e =>
      have hrun := field.run_apply_error hput
      simp only [Method.after, put, hrun]
      exact Std.Refl.refl state
  | ok buffer =>
      rw [put, Method.after_eq_of_ok (field.run_apply_ok hput)]
      exact hwrite buffer state (Buffer.capacity_put hput)

theorem putAll_append (entries entries' : List α) :
    field.putAll (entries ++ entries') = (do
      field.putAll entries
      field.putAll entries') := by
  unfold putAll
  induction entries with
  | nil => simp [forEach]
  | cons entry rest ih => simp [forEach, ih]

theorem putAll_singleton (entry : α) :
    field.putAll [entry] = field.put entry := by
  simp [putAll, forEach]

theorem forEach_putAll {ι : Type} (entries : ι → List α) (list : List ι) :
    forEach (fun i => field.putAll (entries i)) list =
      field.putAll (list.flatMap entries) := by
  induction list with
  | nil => rfl
  | cons i rest ih => rw [List.flatMap_cons, putAll_append, ← ih, forEach]

/-- Entries which fit overwrite the cells from the position on. -/
theorem run_putAll
    {state : σ} {entries : List α}
    (hfits : (field.read state).position + entries.length ≤
      (field.read state).limit) :
    ∃ after, (field.putAll entries).run state =
        .ok () (field.write after state) ∧
      after.limit = (field.read state).limit ∧
      after.cells =
        (field.read state).cells.take (field.read state).position ++
          entries ++ (field.read state).cells.drop
            ((field.read state).position + entries.length) := by
  induction entries generalizing state with
  | nil =>
      refine ⟨field.read state, ?_, rfl, by simp⟩
      rw [field.write_read]
      rfl
  | cons entry rest ih =>
      simp only [List.length_cons] at hfits
      obtain ⟨next, hput, hcells, hlimit, hposition⟩ :=
        Buffer.put_eq_ok (show (field.read state).position <
          (field.read state).limit by omega) entry
      have hread : field.read (field.write next state) = next :=
        field.read_write next state
      obtain ⟨after, hrun, hlimit', hcells'⟩ := @ih (field.write next state)
        (by rw [hread, hlimit, hposition]; omega)
      rw [field.write_write] at hrun
      rw [hread] at hlimit' hcells'
      have hslot : (field.read state).position <
          (field.read state).cells.length := by
        have hle := (field.read state).limit_le
        omega
      refine ⟨after, ?_, hlimit'.trans hlimit, ?_⟩
      · simp only [putAll, forEach, EStateM.run_bind, put,
          field.run_apply_ok hput] at hrun ⊢
        exact hrun
      · rw [hcells', hcells, hposition, List.take_add_one,
          List.drop_set_of_lt (by omega)]
        simp only [List.length_cons, List.getElem?_set_self hslot,
          Option.toList_some, List.take_set_of_le (le_refl _)]
        rw [show (field.read state).position + 1 + rest.length =
          (field.read state).position + (rest.length + 1) by omega]
        simp

theorem putAll_throws
    {state : σ} {entries : List α}
    (hfull : (field.read state).limit <
      (field.read state).position + entries.length) :
    (field.putAll entries).Throws state := by
  induction entries generalizing state with
  | nil =>
      have hle := (field.read state).position_le
      simp only [List.length_nil] at hfull
      omega
  | cons entry rest ih =>
      by_cases hroom :
          (field.read state).position < (field.read state).limit
      · obtain ⟨next, hput, -, hlimit, hposition⟩ :=
          Buffer.put_eq_ok hroom entry
        have hread := field.read_write next state
        obtain ⟨e, after, hrun⟩ := @ih (field.write next state) (by
          rw [hread, hlimit, hposition]
          simp only [List.length_cons] at hfull
          omega)
        refine ⟨e, after, ?_⟩
        simp only [putAll, forEach, EStateM.run_bind, put,
          field.run_apply_ok hput] at hrun ⊢
        exact hrun
      · have hput := Buffer.put_eq_error hroom entry
        refine Method.Throws.bind ?_ _
        exact ⟨_, _, field.run_apply_error hput⟩

end BufferField

end Java
