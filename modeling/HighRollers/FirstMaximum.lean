import HighRollers.JavaRun

/-!
# Running maximum loops

A loop which keeps the index of the best candidate seen so far, and replaces
it only by a strictly better one, ends at the least index of a maximal
candidate.  The rule below covers loops seeded with the first candidate,
wherever that candidate lies.
-/

namespace FirstMaximum

open Java

variable {κ : Type} [LinearOrder κ]

/-- `winner` is the least index below `bound` among the candidates with a
maximal key. -/
structure IsFirstMax (bound : ℕ) (candidate : ℕ → Prop) (key : ℕ → κ)
    (winner : ℕ) : Prop where
  lt : winner < bound
  mem : candidate winner
  le : ∀ i, i < bound → candidate i → key i ≤ key winner
  first : ∀ i, i < winner → candidate i → key i < key winner

variable {bound : ℕ} {candidate : ℕ → Prop} {key : ℕ → κ} {winner : ℕ}

theorem IsFirstMax.seed
    (hcandidate : candidate winner)
    (hfirst : ∀ i, i < winner → ¬ candidate i) :
    IsFirstMax (winner + 1) candidate key winner := by
  constructor
  · omega
  · exact hcandidate
  · intro i hi hcand
    by_cases heq : i = winner
    · rw [heq]
    · exact (hfirst i (by omega) hcand).elim
  · intro i hi hcand
    exact (hfirst i hi hcand).elim

theorem IsFirstMax.skip
    (hmax : IsFirstMax bound candidate key winner)
    (hskip : ¬ (candidate bound ∧ key winner < key bound)) :
    IsFirstMax (bound + 1) candidate key winner := by
  constructor
  · have hlt := hmax.lt
    omega
  · exact hmax.mem
  · intro i hi hcand
    by_cases heq : i = bound
    · subst i
      exact not_lt.mp fun hlt => hskip ⟨hcand, hlt⟩
    · exact hmax.le i (by omega) hcand
  · exact hmax.first

theorem IsFirstMax.replace
    (hmax : IsFirstMax bound candidate key winner)
    (hcandidate : candidate bound) (hbetter : key winner < key bound) :
    IsFirstMax (bound + 1) candidate key bound := by
  have hless : ∀ i, i < bound → candidate i → key i < key bound := by
    intro i hi hcand
    exact (hmax.le i hi hcand).trans_lt hbetter
  constructor
  · omega
  · exact hcandidate
  · intro i hi hcand
    by_cases heq : i = bound
    · rw [heq]
    · exact (hless i (by omega) hcand).le
  · exact hless

def KeepsBest (candidate : ℕ → Prop) (key : ℕ → κ) (index best next : ℕ) :
    Prop :=
  (candidate index ∧ key best < key index ∧ next = index) ∨
    (¬ (candidate index ∧ key best < key index) ∧ next = best)

section SeededLoop

variable {lo hi seed index best next : ℕ}

/-- The invariant of the loop: it has not passed its seed yet, or it holds the
first maximum of what it has seen. -/
def BestSoFar (candidate : ℕ → Prop) (key : ℕ → κ) (seed index best : ℕ) :
    Prop :=
  index ≤ seed ∧ best = seed ∨ IsFirstMax index candidate key best

theorem BestSoFar.start
    (hcandidate : candidate seed) (hfirst : ∀ i, i < seed → ¬ candidate i)
    (hlo : lo ≤ seed + 1) :
    BestSoFar candidate key seed lo seed := by
  by_cases heq : lo = seed + 1
  · right
    rw [heq]
    exact IsFirstMax.seed hcandidate hfirst
  · left
    exact ⟨by omega, rfl⟩

theorem BestSoFar.lt
    (hbest : BestSoFar candidate key seed index best) (hseed : seed < hi)
    (hindex : index < hi) :
    best < hi := by
  rcases hbest with ⟨_, heq⟩ | hmax
  · omega
  · have hlt := hmax.lt
    omega

theorem BestSoFar.mem
    (hbest : BestSoFar candidate key seed index best)
    (hcandidate : candidate seed) :
    candidate best := by
  rcases hbest with ⟨_, heq⟩ | hmax
  · rwa [heq]
  · exact hmax.mem

theorem BestSoFar.step
    (hbest : BestSoFar candidate key seed index best)
    (hcandidate : candidate seed) (hfirst : ∀ i, i < seed → ¬ candidate i)
    (hnext : KeepsBest candidate key index best next) :
    BestSoFar candidate key seed (index + 1) next := by
  rcases hbest with ⟨hbefore, hbestSeed⟩ | hmax
  · subst best
    -- Up to the seed no candidate can replace it.
    have hkept : next = seed := by
      rcases hnext with ⟨hcand, hbetter, _⟩ | ⟨_, hkeep⟩
      · by_cases heq : index = seed
        · rw [heq] at hbetter
          exact (lt_irrefl _ hbetter).elim
        · exact (hfirst index (by omega) hcand).elim
      · exact hkeep
    subst next
    exact .start hcandidate hfirst (by omega)
  · right
    rcases hnext with ⟨hcand, hbetter, hreplace⟩ | ⟨hskip, hkeep⟩
    · subst next
      exact hmax.replace hcand hbetter
    · subst next
      exact hmax.skip hskip

/-- A running maximum loop seeded with the first candidate `seed`; `state best`
is what the loop keeps for its candidate. -/
theorem forRange_firstMax
    {ρ σ : Type} {body : ℕ → σ → Run (Completion ρ σ)} {returned : ρ → Prop}
    (state : ℕ → σ) (hle : lo ≤ hi) (hlo : lo ≤ seed + 1)
    (hseed : seed < hi) (hcandidate : candidate seed)
    (hfirst : ∀ i, i < seed → ¬ candidate i)
    (hbody : ∀ index best, index < hi → best < hi → candidate best →
      ∃ next : ℕ, body index (state best) = .ok (.next (state next)) ∧
        KeepsBest candidate key index best next) :
    Completes (forRange lo hi (state seed) body)
      (fun final => ∃ winner : ℕ, final = state winner ∧
        IsFirstMax hi candidate key winner) returned := by
  apply (forRange_rule (fun index current => ∃ best : ℕ,
    current = state best ∧ BestSoFar candidate key seed index best)
      hle ?_ ?_).mono
  · intro final hfinal
    rcases hfinal with ⟨best, hbest, hseedOr | hmax⟩
    · omega
    · exact ⟨best, hbest, hmax⟩
  · exact ⟨seed, rfl, .start hcandidate hfirst hlo⟩
  · intro index current _ hindex hinv
    rcases hinv with ⟨best, hcurrent, hbest⟩
    subst current
    obtain ⟨next, hrun, hnext⟩ := hbody index best hindex
      (hbest.lt hseed hindex) (hbest.mem hcandidate)
    rw [hrun]
    apply Completes.next
    exact ⟨next, rfl, hbest.step hcandidate hfirst hnext⟩

end SeededLoop

end FirstMaximum
