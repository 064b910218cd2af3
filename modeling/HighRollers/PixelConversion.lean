import HighRollers.ArrayStores

/-!
# From GL pixels to a bitmap

`SavePicture` turns the frame buffer into a bitmap: the rows are turned upside
down and the red and blue bytes of every pixel change places.  Pixels are
32-bit words, and the indices are computed in Java ints, which wrap around.
-/

namespace HighRollers
namespace Picture

open Java

abbrev Pixel := BitVec 32

/-- An index computed in ints is right if it is in range. -/
theorem int32_index
    {row width column : ℕ} (hlt : row * width + column < 2 ^ 31) :
    int32 (int32 ((row : ℤ) * width) + column) =
      ((row * width + column : ℕ) : ℤ) := by
  have hproduct : int32 ((row * width : ℕ) : ℤ) = ((row * width : ℕ) : ℤ) :=
    int32_of_lt (by omega)
  rw [← Nat.cast_mul, hproduct, ← Nat.cast_add, int32_of_lt hlt]

theorem int32_row {i height : ℕ} (hi : i < height) (hlt : height < 2 ^ 31) :
    int32 (int32 ((height : ℤ) - i) - 1) = ((height - 1 - i : ℕ) : ℤ) := by
  have hfirst : (height : ℤ) - i = ((height - i : ℕ) : ℤ) :=
    (Nat.cast_sub hi.le).symm
  have hsecond : ((height - i : ℕ) : ℤ) - 1 = ((height - 1 - i : ℕ) : ℤ) := by
    clear hlt
    omega
  rw [hfirst, int32_of_lt ((Nat.sub_le _ _).trans_lt hlt), hsecond,
    int32_of_lt (((Nat.sub_le _ _).trans (Nat.sub_le _ _)).trans_lt hlt)]

/-! ## One pixel -/

def convertPixel (p : Pixel) : Pixel :=
  let b := (p &&& 0x00ff0000#32).sshiftRight 16
  let r := (p &&& 0x000000ff#32) <<< 16
  let ga := p &&& 0xff00ff00#32
  ga ||| r ||| b

/-- The bit of the input which becomes bit `i` of the output. -/
def exchange (i : ℕ) : ℕ :=
  if i < 8 then i + 16 else if 16 ≤ i ∧ i < 24 then i - 16 else i

theorem getLsbD_convertPixel (p : Pixel) {i : ℕ} (hi : i < 32) :
    (convertPixel p).getLsbD i = p.getLsbD (exchange i) := by
  have hsign : (0x00ff0000#32).msb = false := by decide
  simp only [convertPixel, exchange, BitVec.getLsbD_or, BitVec.getLsbD_and,
    BitVec.getLsbD_sshiftRight, BitVec.getLsbD_shiftLeft, BitVec.msb_and,
    hsign]
  interval_cases i <;> simp

theorem convertPixel_convertPixel (p : Pixel) :
    convertPixel (convertPixel p) = p := by
  apply BitVec.eq_of_getLsbD_eq
  intro i hi
  have hexchange : exchange i < 32 ∧ exchange (exchange i) = i := by
    unfold exchange
    split_ifs <;> omega
  rw [getLsbD_convertPixel _ hi, getLsbD_convertPixel _ hexchange.1,
    hexchange.2]

def byte (n : ℕ) (p : Pixel) : BitVec 8 :=
  p.extractLsb' (8 * n) 8

/-- `q` has the alpha and green bytes of `p`, and its red and blue bytes
exchanged. -/
structure RedBlueExchanged (p q : Pixel) : Prop where
  alpha : byte 3 q = byte 3 p
  green : byte 1 q = byte 1 p
  low : byte 0 q = byte 2 p
  high : byte 2 q = byte 0 p

theorem byte_convertPixel
    {n m : ℕ} (hn : n < 4)
    (hbits : ∀ i, i < 8 → exchange (8 * n + i) = 8 * m + i) (p : Pixel) :
    byte n (convertPixel p) = byte m p := by
  apply BitVec.eq_of_getLsbD_eq
  intro i hi
  rw [byte, byte, BitVec.getLsbD_extractLsb', BitVec.getLsbD_extractLsb',
    getLsbD_convertPixel p (by omega), hbits i hi]

theorem redBlueExchanged_convertPixel (p : Pixel) :
    RedBlueExchanged p (convertPixel p) := by
  constructor
  all_goals
    apply byte_convertPixel (by omega)
    intro i hi
    unfold exchange
    split_ifs <;> omega

/-! ## The loops -/

/-- The array `bitmapData`, and the indices stored to so far, in order. -/
structure Bitmap where
  data : List Pixel
  stored : List ℤ
  deriving DecidableEq, Repr

def Bitmap.put (index : ℤ) (pixel : Pixel) (bitmap : Bitmap) : Run Bitmap := do
  let data ← arrayPut bitmap.data index pixel
  return ⟨data, bitmap.stored ++ [index]⟩

def convertAt (pixelData : List Pixel) (mWidth mHeight i j : ℕ)
    (bitmap : Bitmap) : Run Bitmap := do
  let p ← arrayGet pixelData (int32 (int32 (i * mWidth) + j))
  let row := int32 (int32 (mHeight - i) - 1)
  bitmap.put (int32 (int32 (row * mWidth) + j)) (convertPixel p)

/-- The double loop of `SavePicture`. -/
def convert (pixelData : List Pixel) (mWidth mHeight : ℕ) : Run Bitmap :=
  afterLoop
    (forRange 0 mHeight ⟨List.replicate pixelData.length 0, []⟩
      fun i bitmap =>
        forRange 0 mWidth bitmap fun j bitmap =>
          assign (convertAt pixelData mWidth mHeight i j bitmap))
    fun bitmap => .ok bitmap

def Bitmap.storing (bitmap : Bitmap) (stores : List (ℕ × Pixel)) : Bitmap :=
  ⟨storeAll bitmap.data stores,
    bitmap.stored ++ stores.map fun store => (store.1 : ℤ)⟩

theorem Bitmap.storing_append
    (bitmap : Bitmap) (stores stores' : List (ℕ × Pixel)) :
    bitmap.storing (stores ++ stores') =
      (bitmap.storing stores).storing stores' := by
  simp [Bitmap.storing, storeAll_append]

section Loops

variable (pixelData : List Pixel) (mWidth mHeight : ℕ)

/-- The store of the iteration with counters `i` and `j`. -/
def cellStore (i j : ℕ) : ℕ × Pixel :=
  ((mHeight - 1 - i) * mWidth + j,
    convertPixel (pixelData.getD (i * mWidth + j) 0))

def rowStores (i columns : ℕ) : List (ℕ × Pixel) :=
  (List.range columns).map (cellStore pixelData mWidth mHeight i)

def tableStores (rows : ℕ) : List (ℕ × Pixel) :=
  (List.range rows).flatMap fun i =>
    rowStores pixelData mWidth mHeight i mWidth

variable {pixelData mWidth mHeight} {bitmap : Bitmap}

theorem convertAt_eq
    (hsize : mWidth * mHeight < 2 ^ 31)
    (hpixels : pixelData.length = mWidth * mHeight)
    (hbitmap : bitmap.data.length = mWidth * mHeight)
    {i j : ℕ} (hi : i < mHeight) (hj : j < mWidth) :
    convertAt pixelData mWidth mHeight i j bitmap =
      .ok (bitmap.storing [cellStore pixelData mWidth mHeight i j]) := by
  have hread : i * mWidth + j < mWidth * mHeight := cell_lt hi hj
  have hwrite : (mHeight - 1 - i) * mWidth + j < mWidth * mHeight :=
    cell_lt (by omega) hj
  have hheight : mHeight ≤ mWidth * mHeight :=
    Nat.le_mul_of_pos_left mHeight (by omega)
  have hrow := int32_row hi (hheight.trans_lt hsize)
  have hfrom := int32_index (hread.trans hsize)
  have hto := int32_index (hwrite.trans hsize)
  have hread' : i * mWidth + j < pixelData.length := by
    rw [hpixels]
    exact hread
  have hwrite' : (mHeight - 1 - i) * mWidth + j < bitmap.data.length := by
    rw [hbitmap]
    exact hwrite
  simp only [convertAt, hfrom, hrow, hto, arrayGet_natCast_of_lt hread',
    ok_bind, Bitmap.put, arrayPut_natCast_of_lt hwrite', pure_eq_ok]
  simp [Bitmap.storing, storeAll, cellStore, hread']

theorem row_completes
    (hsize : mWidth * mHeight < 2 ^ 31)
    (hpixels : pixelData.length = mWidth * mHeight)
    (hbitmap : bitmap.data.length = mWidth * mHeight)
    {i : ℕ} (hi : i < mHeight) :
    Completes (ρ := Bitmap) (forRange 0 mWidth bitmap fun j bitmap =>
        assign (convertAt pixelData mWidth mHeight i j bitmap))
      (fun after => after =
        bitmap.storing (rowStores pixelData mWidth mHeight i mWidth))
      (fun _ => False) := by
  apply forRange_rule (fun j current => current =
    bitmap.storing (rowStores pixelData mWidth mHeight i j)) (Nat.zero_le _)
  · simp [rowStores, Bitmap.storing, storeAll]
  · intro j current _ hj hcurrent
    subst current
    apply Returns.completes_assign
    refine ⟨_, convertAt_eq hsize hpixels ?_ hi hj, ?_⟩
    · simp [Bitmap.storing, hbitmap]
    · rw [← Bitmap.storing_append, rowStores, rowStores, List.range_succ,
        List.map_append, List.map_singleton]

/-- The loops return, and amount to one store for each cell. -/
theorem convert_eq
    (hsize : mWidth * mHeight < 2 ^ 31)
    (hpixels : pixelData.length = mWidth * mHeight) :
    convert pixelData mWidth mHeight =
      .ok (Bitmap.storing ⟨List.replicate pixelData.length 0, []⟩
        (tableStores pixelData mWidth mHeight mHeight)) := by
  have hreturns : Returns (convert pixelData mWidth mHeight) fun bitmap =>
      bitmap = Bitmap.storing ⟨List.replicate pixelData.length 0, []⟩
        (tableStores pixelData mWidth mHeight mHeight) := by
    unfold convert
    refine (forRange_rule (fun i current => current =
      Bitmap.storing ⟨List.replicate pixelData.length 0, []⟩
        (tableStores pixelData mWidth mHeight i)) (Nat.zero_le _) ?_
          ?_).afterLoop ?_
    · simp [tableStores, Bitmap.storing, storeAll]
    · intro i current _ hi hcurrent
      subst current
      have hlength : (Bitmap.storing ⟨List.replicate pixelData.length 0, []⟩
          (tableStores pixelData mWidth mHeight i)).data.length =
            mWidth * mHeight := by
        simp [Bitmap.storing, hpixels]
      rcases row_completes hsize hpixels hlength hi with
        ⟨after, hrun, hafter⟩ | ⟨_, _, hfalse⟩
      · rw [hrun]
        apply Completes.next
        rw [hafter, ← Bitmap.storing_append, tableStores, tableStores,
          List.range_succ, List.flatMap_append, List.flatMap_singleton]
      · exact hfalse.elim
    · intro bitmap hbitmap
      exact ⟨bitmap, rfl, hbitmap⟩
  obtain ⟨bitmap, hrun, hbitmap⟩ := hreturns
  rw [hrun, hbitmap]

variable (pixelData) in
theorem mem_tableStores
    {i j : ℕ} (hi : i < mHeight) (hj : j < mWidth) :
    cellStore pixelData mWidth mHeight i j ∈
      tableStores pixelData mWidth mHeight mHeight := by
  rw [tableStores, List.mem_flatMap]
  refine ⟨i, List.mem_range.mpr hi, ?_⟩
  exact List.mem_map_of_mem (List.mem_range.mpr hj)

variable (pixelData mWidth mHeight)

theorem tableStores_indices :
    (tableStores pixelData mWidth mHeight mHeight).map Prod.fst =
      (List.range mHeight).flatMap fun i => (List.range mWidth).map fun j =>
        (mHeight - 1 - i) * mWidth + j := by
  simp [tableStores, rowStores, cellStore, List.map_flatMap,
    Function.comp_def]

theorem tableStores_nodup :
    ((tableStores pixelData mWidth mHeight mHeight).map Prod.fst).Nodup := by
  rw [tableStores_indices, List.nodup_flatMap]
  constructor
  · intro i _
    exact List.nodup_range.map fun j j' hj => by simpa using hj
  · apply List.nodup_range.imp_of_mem
    intro i i' hi hi' hne
    rw [List.mem_range] at hi hi'
    intro index hindex hindex'
    simp only [List.mem_map, List.mem_range] at hindex hindex'
    obtain ⟨j, hj, rfl⟩ := hindex
    obtain ⟨j', hj', heq⟩ := hindex'
    have hrows := (cell_inj hj' hj heq).1
    omega

/-- The indices stored to are all those of the array, each of them once. -/
theorem tableStores_perm :
    ((tableStores pixelData mWidth mHeight mHeight).map Prod.fst).Perm
      (List.range (mWidth * mHeight)) := by
  rw [List.perm_ext_iff_of_nodup (tableStores_nodup _ _ _) List.nodup_range]
  intro index
  rw [tableStores_indices]
  simp only [List.mem_flatMap, List.mem_map, List.mem_range]
  constructor
  · intro hstored
    obtain ⟨i, hi, j, hj, rfl⟩ := hstored
    exact cell_lt (by omega) hj
  · intro hindex
    obtain ⟨row, column, hrow, hcolumn, rfl⟩ := exists_cell hindex
    refine ⟨mHeight - 1 - row, by omega, column, hcolumn, ?_⟩
    have hrows : mHeight - 1 - (mHeight - 1 - row) = row := by omega
    rw [hrows]

variable {pixelData mWidth mHeight}

/-- The loops return, store once to each index, and put the converted pixel
of each cell into the mirrored row. -/
theorem convert_spec
    (hsize : mWidth * mHeight < 2 ^ 31)
    (hpixels : pixelData.length = mWidth * mHeight) :
    ∃ bitmap, convert pixelData mWidth mHeight = .ok bitmap ∧
      bitmap.data.length = mWidth * mHeight ∧
      bitmap.stored.Perm
        ((List.range (mWidth * mHeight)).map fun index : ℕ => (index : ℤ)) ∧
      ∀ y, y < mHeight → ∀ x, x < mWidth →
        bitmap.data[(mHeight - 1 - y) * mWidth + x]? =
          (pixelData[y * mWidth + x]?).map convertPixel := by
  refine ⟨_, convert_eq hsize hpixels, by simp [Bitmap.storing, hpixels],
    ?_, ?_⟩
  · have hperm := (tableStores_perm pixelData mWidth mHeight).map
      (fun index : ℕ => (index : ℤ))
    rw [List.map_map] at hperm
    exact hperm
  · intro y hy x hx
    have hread : y * mWidth + x < pixelData.length := by
      rw [hpixels]
      exact cell_lt hy hx
    have hwrite : (mHeight - 1 - y) * mWidth + x <
        (List.replicate pixelData.length (0 : Pixel)).length := by
      rw [List.length_replicate, hpixels]
      exact cell_lt (by omega) hx
    have hstored := storeAll_getElem?
      (tableStores_nodup pixelData mWidth mHeight)
      (mem_tableStores pixelData hy hx) hwrite
    simpa [hread, Bitmap.storing] using hstored

end Loops

/-! ## The conversion -/

/-- The conversion stores once to every cell of the bitmap and in range,
mirrors the rows and exchanges red and blue, and undoes itself. -/
theorem convert_mirrors_and_exchanges
    (mWidth mHeight : ℕ) (hsize : mWidth * mHeight < 2 ^ 31)
    (pixelData : List Pixel)
    (hpixels : pixelData.length = mWidth * mHeight) :
    ∃ bitmap, convert pixelData mWidth mHeight = .ok bitmap ∧
      bitmap.data.length = mWidth * mHeight ∧
      bitmap.stored.Perm
        ((List.range (mWidth * mHeight)).map fun index : ℕ => (index : ℤ)) ∧
      (∀ y, y < mHeight → ∀ x, x < mWidth →
        ∃ p q, pixelData[y * mWidth + x]? = some p ∧
          bitmap.data[(mHeight - 1 - y) * mWidth + x]? = some q ∧
          RedBlueExchanged p q) ∧
      ∃ again, convert bitmap.data mWidth mHeight = .ok again ∧
        again.data = pixelData := by
  obtain ⟨bitmap, hrun, hlength, hstored, hcells⟩ :=
    convert_spec hsize hpixels
  obtain ⟨again, hrun', hlength', _, hcells'⟩ := convert_spec hsize hlength
  refine ⟨bitmap, hrun, hlength, hstored, ?_, again, hrun', ?_⟩
  · intro y hy x hx
    have hread : y * mWidth + x < pixelData.length := by
      rw [hpixels]
      exact cell_lt hy hx
    refine ⟨pixelData[y * mWidth + x], _, List.getElem?_eq_getElem hread, ?_,
      redBlueExchanged_convertPixel _⟩
    rw [hcells y hy x hx, List.getElem?_eq_getElem hread, Option.map_some]
  · apply List.ext_getElem?
    intro index
    by_cases hindex : index < mWidth * mHeight
    · obtain ⟨row, column, hrow, hcolumn, rfl⟩ := exists_cell hindex
      have hmirror : mHeight - 1 - (mHeight - 1 - row) = row := by
        clear hsize
        omega
      have hagain := hcells' (mHeight - 1 - row) (by clear hsize; omega)
        column hcolumn
      rw [hmirror, hcells row hrow column hcolumn, Option.map_map] at hagain
      rw [hagain]
      have hundo : convertPixel ∘ convertPixel = id :=
        funext convertPixel_convertPixel
      rw [hundo, Option.map_id]
      rfl
    · have hge : mWidth * mHeight ≤ index := Nat.le_of_not_lt hindex
      rw [List.getElem?_eq_none (hlength'.trans_le hge),
        List.getElem?_eq_none (hpixels.trans_le hge)]

theorem convert_mirrors_two_rows :
    convert [0xff0000aa#32, 0x80112233#32] 1 2 =
        .ok ⟨[0x80332211#32, 0xffaa0000#32], [1, 0]⟩ ∧
      ∃ again, convert [0x80332211#32, 0xffaa0000#32] 1 2 = .ok again ∧
        again.data = [0xff0000aa#32, 0x80112233#32] := by
  have hvalue : convert [0xff0000aa#32, 0x80112233#32] 1 2 =
      .ok ⟨[0x80332211#32, 0xffaa0000#32], [1, 0]⟩ := by
    decide
  obtain ⟨bitmap, hrun, _, _, _, hagain⟩ := convert_mirrors_and_exchanges 1 2
    (by decide) [0xff0000aa#32, 0x80112233#32] rfl
  have hbitmap : bitmap = ⟨[0x80332211#32, 0xffaa0000#32], [1, 0]⟩ :=
    Except.ok.inj (hrun.symm.trans hvalue)
  subst bitmap
  exact ⟨hvalue, hagain⟩

end Picture
end HighRollers
