import HighRollers.JavaRun

/-!
# Texts in Java

The parts of `String` and `Integer` which a parser of file names relies on:
comparison without regard to case, splitting at runs of separators, and
`parseInt`.  A text is its list of characters.
-/

namespace Java

/-! ## Letter case -/

/-- `Character.toUpperCase`, exact for the characters which it sends to an
ASCII letter: besides these letters the dotless i and the long s. -/
def upperCase (c : Char) : Char :=
  if c = Char.ofNat 0x131 then 'I'
  else if c = Char.ofNat 0x17F then 'S'
  else c.toUpper

/-- `Character.toLowerCase`, exact for the characters which it sends to an
ASCII letter: besides these letters the dotted I and the Kelvin sign. -/
def lowerCase (c : Char) : Char :=
  if c = Char.ofNat 0x130 then 'i'
  else if c = Char.ofNat 0x212A then 'k'
  else c.toLower

def foldCase (c : Char) : Char :=
  lowerCase (upperCase c)

/-- `text.equalsIgnoreCase(word)` for an ASCII word. -/
def equalsIgnoreCase (text : List Char) (word : String) : Bool :=
  text.map foldCase = word.toList.map foldCase

theorem eq_of_equalsIgnoreCase
    {text : List Char} {word word' : String}
    (hword : equalsIgnoreCase text word = true)
    (hword' : equalsIgnoreCase text word' = true) :
    word.toList.map foldCase = word'.toList.map foldCase := by
  simp only [equalsIgnoreCase, decide_eq_true_eq] at hword hword'
  rw [← hword, hword']

/-! ## Splitting -/

section Split

/-- `text.split("[...]+")`: the pieces between maximal runs of separators.  A
leading empty piece is kept, trailing empty pieces are dropped, and a text
without separators is its only piece. -/
def split (isSeparator : Char → Bool) (text : List Char) :
    List (List Char) :=
  let pieces := text.splitOnP isSeparator
  let components :=
    pieces.headD [] :: pieces.tail.filter fun piece => !piece.isEmpty
  if components = [[]] ∧ text ≠ [] then [] else components

variable {isSeparator : Char → Bool}

theorem filter_splitOnP_of_separators
    {separators : List Char} (hseparators : ∀ c ∈ separators, isSeparator c)
    (rest : List Char) :
    ((separators ++ rest).splitOnP isSeparator).filter
        (fun piece => !piece.isEmpty) =
      (rest.splitOnP isSeparator).filter fun piece => !piece.isEmpty := by
  induction separators with
  | nil => rfl
  | cons c separators ih =>
      have hc : isSeparator c = true := hseparators c (by simp)
      have hrest := ih fun d hd => hseparators d (List.mem_cons_of_mem c hd)
      simp [List.splitOnP_cons_eq_if_modifyHead, hc, hrest]

theorem splitOnP_word
    {word rest : List Char} (hword : ∀ c ∈ word, isSeparator c = false)
    (hrest : ∀ c ∈ rest.head?, isSeparator c = true) :
    ∃ more, (word ++ rest).splitOnP isSeparator = word :: more := by
  cases rest with
  | nil =>
      exact ⟨[], by simpa using List.splitOnP_eq_singleton hword⟩
  | cons c rest =>
      have hc : isSeparator c = true := by simpa using hrest
      exact ⟨rest.splitOnP isSeparator,
        List.splitOnP_append_cons_of_forall_mem hword c hc rest⟩

theorem split_two_words
    {first separators second rest : List Char}
    (hfirst : ∀ c ∈ first, isSeparator c = false)
    (hne : separators ≠ [])
    (hseparators : ∀ c ∈ separators, isSeparator c = true)
    (hsecond : ∀ c ∈ second, isSeparator c = false)
    (hsecondNe : second ≠ [])
    (hrest : ∀ c ∈ rest.head?, isSeparator c = true) :
    ∃ more, split isSeparator (first ++ separators ++ second ++ rest) =
      first :: second :: more := by
  obtain ⟨more, hmore⟩ := splitOnP_word hsecond hrest
  cases separators with
  | nil => contradiction
  | cons c separators =>
      have hc : isSeparator c = true := hseparators c (by simp)
      have hothers : ∀ d ∈ separators, isSeparator d = true :=
        fun d hd => hseparators d (List.mem_cons_of_mem c hd)
      have hpieces := List.splitOnP_append_cons_of_forall_mem hfirst c hc
        (separators ++ (second ++ rest))
      have hfilter := filter_splitOnP_of_separators hothers (second ++ rest)
      rw [hmore] at hfilter
      have hkept : (!second.isEmpty) = true := by simpa using hsecondNe
      refine ⟨more.filter fun piece => !piece.isEmpty, ?_⟩
      simp only [List.append_assoc, List.cons_append]
      simp [split, hpieces, hfilter, hkept]

end Split

/-! ## Numbers -/

/-- The decimal zeros of the basic plane; each starts a run of ten digits. -/
def digitZeros : List ℕ :=
  [0x30, 0x660, 0x6F0, 0x7C0, 0x966, 0x9E6, 0xA66, 0xAE6, 0xB66, 0xBE6,
    0xC66, 0xCE6, 0xD66, 0xDE6, 0xE50, 0xED0, 0xF20, 0x1040, 0x1090, 0x17E0,
    0x1810, 0x1946, 0x19D0, 0x1A80, 0x1A90, 0x1B50, 0x1BB0, 0x1C40, 0x1C50,
    0xA620, 0xA8D0, 0xA900, 0xA9D0, 0xA9F0, 0xAA50, 0xABF0, 0xFF10]

/-- `Character.digit(c, 10)`. -/
def digit (c : Char) : Option ℕ :=
  (digitZeros.find? fun start => start ≤ c.toNat ∧ c.toNat < start + 10).map
    fun start => c.toNat - start

def digitsValue : ℕ → List Char → Option ℕ
  | value, [] => some value
  | value, c :: digits =>
      (digit c).bind fun d => digitsValue (10 * value + d) digits

def intValue (sign : ℤ) (digits : List Char) : Run ℤ :=
  if digits = [] then .error .numberFormat
  else
    match digitsValue 0 digits with
    | some value =>
        if -2 ^ 31 ≤ sign * value ∧ sign * value < 2 ^ 31 then
          .ok (sign * value)
        else .error .numberFormat
    | none => .error .numberFormat

/-- `Integer.parseInt(text)`. -/
def parseInt (text : List Char) : Run ℤ :=
  match text with
  | '-' :: digits => intValue (-1) digits
  | '+' :: digits => intValue 1 digits
  | digits => intValue 1 digits

def IsNumeral (text : List Char) : Prop :=
  text ≠ [] ∧ ∀ c ∈ text, c.isDigit = true

def numeralValue (text : List Char) : ℕ :=
  text.foldl (fun value c => 10 * value + (c.toNat - 48)) 0

theorem digit_of_isDigit {c : Char} (hc : c.isDigit = true) :
    digit c = some (c.toNat - 48) := by
  have hrange : 48 ≤ c.toNat ∧ c.toNat < 58 := by
    have hbounds := Char.isDigit_iff_toNat.mp hc
    exact ⟨hbounds.1, Nat.lt_succ_of_le hbounds.2⟩
  simp [digit, digitZeros, hrange]

theorem digitsValue_of_isDigit
    {digits : List Char} (hdigits : ∀ c ∈ digits, c.isDigit = true)
    (value : ℕ) :
    digitsValue value digits =
      some (digits.foldl (fun value c => 10 * value + (c.toNat - 48))
        value) := by
  induction digits generalizing value with
  | nil => rfl
  | cons c digits ih =>
      have hrest : ∀ d ∈ digits, d.isDigit = true :=
        fun d hd => hdigits d (List.mem_cons_of_mem c hd)
      simp [digitsValue, digit_of_isDigit (hdigits c (by simp)), ih hrest]

/-- A numeral denotes an `int` exactly when it is small enough. -/
theorem parseInt_of_isNumeral
    {text : List Char} (htext : IsNumeral text) :
    parseInt text =
      if numeralValue text < 2 ^ 31 then .ok (numeralValue text : ℤ)
      else .error .numberFormat := by
  have hplain : parseInt text = intValue 1 text := by
    unfold parseInt
    split
    · exact absurd (htext.2 '-' (by simp)) (by decide)
    · exact absurd (htext.2 '+' (by simp)) (by decide)
    · rfl
  have hvalue : digitsValue 0 text = some (numeralValue text) :=
    digitsValue_of_isDigit htext.2 0
  have hiff : (-2 ^ 31 ≤ (numeralValue text : ℤ) ∧
      (numeralValue text : ℤ) < 2 ^ 31) ↔ numeralValue text < 2 ^ 31 := by
    omega
  simp only [hplain, intValue, if_neg htext.1, hvalue, one_mul, hiff]

theorem foldCase_of_far
    {c : Char} (hfar : c.toNat < 65 ∨ 122 < c.toNat)
    (hdotted : c ≠ Char.ofNat 0x130) (hdotless : c ≠ Char.ofNat 0x131)
    (hlong : c ≠ Char.ofNat 0x17F) (hkelvin : c ≠ Char.ofNat 0x212A) :
    foldCase c = c := by
  have hnotLower : ¬ ('a'.val ≤ c.val ∧ c.val ≤ 'z'.val) := by
    intro hrange
    have hlower : 97 ≤ c.toNat := hrange.1
    have hupper : c.toNat ≤ 122 := hrange.2
    omega
  have hnotUpper : ¬ (c.val ≥ 'A'.val ∧ c.val ≤ 'Z'.val) := by
    intro hrange
    have hlower : 65 ≤ c.toNat := hrange.1
    have hupper : c.toNat ≤ 90 := hrange.2
    omega
  have htoUpper : c.toUpper = c := dif_neg hnotLower
  have htoLower : c.toLower = c := dif_neg hnotUpper
  have hupper : upperCase c = c := by
    rw [upperCase, if_neg hdotless, if_neg hlong, htoUpper]
  rw [foldCase, hupper, lowerCase, if_neg hdotted, if_neg hkelvin, htoLower]

theorem ne_ofNat
    {c : Char} {code : ℕ} (hcode : (Char.ofNat code).toNat = code)
    (hc : c.toNat ≠ code) : c ≠ Char.ofNat code := by
  intro heq
  subst c
  exact hc hcode

theorem digit_of_foldCase
    {c : Char} (hc : 'a' ≤ foldCase c ∧ foldCase c ≤ 'z') :
    digit c = none := by
  by_contra hdigit
  have hexists : ∃ start ∈ digitZeros,
      start ≤ c.toNat ∧ c.toNat < start + 10 := by
    simpa [digit] using hdigit
  have hfar : (c.toNat < 65 ∨ 122 < c.toNat) ∧ c.toNat ≠ 0x130 ∧
      c.toNat ≠ 0x131 ∧ c.toNat ≠ 0x17F ∧ c.toNat ≠ 0x212A := by
    simp only [digitZeros, List.mem_cons, List.not_mem_nil, or_false,
      exists_eq_or_imp, exists_eq_left] at hexists
    omega
  have hfold : foldCase c = c :=
    foldCase_of_far hfar.1 (ne_ofNat rfl hfar.2.1) (ne_ofNat rfl hfar.2.2.1)
      (ne_ofNat rfl hfar.2.2.2.1) (ne_ofNat rfl hfar.2.2.2.2)
  rw [hfold] at hc
  have hlower : 97 ≤ c.toNat := hc.1
  have hupper : c.toNat ≤ 122 := hc.2
  omega

def startsWithLetter (word : String) : Bool :=
  (word.toList.map foldCase).head?.any fun c => 'a' ≤ c && c ≤ 'z'

theorem parseInt_of_startsWithLetter
    {text : List Char} {word : String}
    (hword : startsWithLetter word = true)
    (htext : equalsIgnoreCase text word = true) :
    parseInt text = .error .numberFormat := by
  simp only [equalsIgnoreCase, decide_eq_true_eq] at htext
  rw [startsWithLetter, ← htext] at hword
  cases text with
  | nil => simp at hword
  | cons c rest =>
      have hletter : 'a' ≤ foldCase c ∧ foldCase c ≤ 'z' := by
        simpa using hword
      have hplain : parseInt (c :: rest) = intValue 1 (c :: rest) := by
        unfold parseInt
        split
        · rename_i heq
          rw [(List.cons.inj heq).1] at hletter
          exact absurd hletter (by decide)
        · rename_i heq
          rw [(List.cons.inj heq).1] at hletter
          exact absurd hletter (by decide)
        · rfl
      rw [hplain]
      simp [intValue, digitsValue, digit_of_foldCase hletter]

end Java
