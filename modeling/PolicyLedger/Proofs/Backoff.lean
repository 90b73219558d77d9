import Mathlib.Algebra.Group.Nat.Defs
import Mathlib.Data.List.Basic
import Mathlib.Data.List.Induction
import PolicyLedger.Backoff

/-!
How waiting times grow. The value that is kept never leaves the range of what can be held, and is still the one that would
come of growing without any bound, cut off at the ceiling.
-/
namespace PolicyLedger

namespace Duration

private theorem nanoseconds_min (d e : Duration) : (d.min e).nanoseconds = Min.min d.nanoseconds e.nanoseconds := by
  unfold min
  split
  · rename_i below
    exact (Nat.min_eq_left below).symm
  · rename_i above
    exact (Nat.min_eq_right (Nat.le_of_not_le above)).symm

/-- A product that is too long is so with anything added to it. -/
private theorem checkedMul_checkedAdd (d e : Duration) (factor : UInt32) :
    (d.checkedMul factor).bind (·.checkedAdd e) = ofNanoseconds? (d.nanoseconds * factor.toNat + e.nanoseconds) := by
  by_cases held : d.nanoseconds * factor.toNat ≤ limit
  · rw [checkedMul, ofNanoseconds?, dif_pos held]
    rfl
  · rw [checkedMul, ofNanoseconds?, dif_neg held, ofNanoseconds?, dif_neg (by omega)]
    rfl

/-- What is too long to be held is longer than any ceiling. -/
private theorem nanoseconds_getD_min (n : Nat) (ceiling : Duration) :
    (((ofNanoseconds? n).getD ceiling).min ceiling).nanoseconds = Min.min n ceiling.nanoseconds := by
  rw [nanoseconds_min, ofNanoseconds?]
  by_cases held : n ≤ limit
  · rw [dif_pos held]
    rfl
  · have above : ceiling.nanoseconds ≤ n := Nat.le_of_lt (Nat.lt_of_le_of_lt ceiling.bounded (Nat.lt_of_not_le held))
    rw [dif_neg held, Option.getD_none, Nat.min_self, Nat.min_eq_right above]

end Duration

/-- What happens to a backoff: it grows, with what chance adds, or begins again. -/
inductive BackoffMove where
  | increment (jitter : Duration)
  | reset
  deriving DecidableEq

namespace BackoffMove

/-- What chance added since the backoff last began, once this happened too. -/
def follow (jitters : List Duration) : BackoffMove → List Duration
  | increment jitter => jitters ++ [jitter]
  | reset => []

/-- What chance added since the backoff last began, oldest first. -/
def jitters (moves : List BackoffMove) : List Duration := moves.foldl follow []

private theorem jitters_snoc (moves : List BackoffMove) (m : BackoffMove) :
    jitters (moves ++ [m]) = follow (jitters moves) m :=
  List.foldl_append

end BackoffMove

/-- Nanoseconds that a backoff without a ceiling comes to. -/
def BackoffConfig.unbounded (config : BackoffConfig) (jitters : List Duration) : Nat :=
  jitters.foldl (fun value jitter => value * config.multiplier.toNat + jitter.nanoseconds) config.initial.nanoseconds

namespace BackoffConfig

private theorem unbounded_snoc (config : BackoffConfig) (jitters : List Duration) (jitter : Duration) :
    config.unbounded (jitters ++ [jitter]) =
      config.unbounded jitters * config.multiplier.toNat + jitter.nanoseconds := List.foldl_append

/-- Chance only ever adds to the powers of the multiplier. -/
private theorem pow_le_unbounded (config : BackoffConfig) (jitters : List Duration) :
    config.initial.nanoseconds * config.multiplier.toNat ^ jitters.length ≤ config.unbounded jitters := by
  induction jitters using List.reverseRecOn with
  | nil => exact Nat.le_of_eq (Nat.mul_one _)
  | append_singleton jitters jitter ih =>
    rw [unbounded_snoc, List.length_append, List.length_singleton, Nat.pow_succ, ← Nat.mul_assoc]
    exact Nat.le_add_right_of_le (Nat.mul_le_mul_right _ ih)

private theorem unbounded_of_zero (config : BackoffConfig) {jitters : List Duration}
    (still : ∀ jitter ∈ jitters, jitter = .zero) :
    config.unbounded jitters = config.initial.nanoseconds * config.multiplier.toNat ^ jitters.length := by
  induction jitters using List.reverseRecOn with
  | nil => exact (Nat.mul_one _).symm
  | append_singleton jitters jitter ih =>
    rw [List.forall_mem_append, List.forall_mem_singleton] at still
    rw [unbounded_snoc, ih still.1, still.2, List.length_append, List.length_singleton, Nat.pow_succ, ← Nat.mul_assoc]
    rfl

end BackoffConfig

namespace Backoff

variable {b : Backoff} {config : BackoffConfig}

def step (b : Backoff) : BackoffMove → Backoff
  | .increment jitter => b.increment jitter
  | .reset => b.reset

def run (b : Backoff) (moves : List BackoffMove) : Backoff := moves.foldl step b

/-! ### One increment -/

/-- An increment is exact up to the ceiling, and stays there once it is reached. -/
private theorem nanoseconds_increment (b : Backoff) (jitter : Duration) :
    (b.increment jitter).value.nanoseconds =
      if b.config.ceiling ≤ b.value then b.config.ceiling.nanoseconds
      else min (b.value.nanoseconds * b.config.multiplier.toNat + jitter.nanoseconds)
        b.config.ceiling.nanoseconds := by
  unfold increment
  dsimp only
  split
  · rfl
  · rw [Duration.checkedMul_checkedAdd, Duration.nanoseconds_getD_min]

private theorem increment_le_ceiling (b : Backoff) (jitter : Duration) :
    (b.increment jitter).value ≤ b.config.ceiling := by
  show (b.increment jitter).value.nanoseconds ≤ b.config.ceiling.nanoseconds
  rw [nanoseconds_increment]
  split
  · exact Nat.le_refl _
  · exact Nat.min_le_right _ _

/-- With a multiplier that is not zero the ceiling needs no case of its own. -/
private theorem nanoseconds_increment_of_pos (grows : 1 ≤ b.config.multiplier) (jitter : Duration) :
    (b.increment jitter).value.nanoseconds =
      min (b.value.nanoseconds * b.config.multiplier.toNat + jitter.nanoseconds) b.config.ceiling.nanoseconds := by
  rw [nanoseconds_increment]
  split
  · rename_i reached
    have reached : b.config.ceiling.nanoseconds ≤ b.value.nanoseconds := reached
    have longer := Nat.le_mul_of_pos_right b.value.nanoseconds (UInt32.le_iff_toNat_le.mp grows)
    exact (Nat.min_eq_right (by omega)).symm
  · rfl

/-! ### All that can happen -/

private theorem run_snoc (b : Backoff) (moves : List BackoffMove) (m : BackoffMove) :
    b.run (moves ++ [m]) = (b.run moves).step m := List.foldl_append

private theorem step_config (b : Backoff) (m : BackoffMove) : (b.step m).config = b.config := by
  cases m with
  | increment jitter =>
    unfold step increment
    dsimp only
    split <;> rfl
  | reset => rfl

private theorem run_config (b : Backoff) (moves : List BackoffMove) : (b.run moves).config = b.config := by
  induction moves generalizing b with
  | nil => rfl
  | cons m rest ih => exact (ih (b.step m)).trans (step_config b m)

/-- A value that is cut off at the ceiling each time it grows is the value that grows freely, cut off once. -/
theorem nanoseconds_run (grows : 1 ≤ config.multiplier) (below : config.initial ≤ config.ceiling)
    (moves : List BackoffMove) :
    ((start config).run moves).value.nanoseconds =
      min (config.unbounded (BackoffMove.jitters moves)) config.ceiling.nanoseconds := by
  induction moves using List.reverseRecOn with
  | nil => exact (Nat.min_eq_left below).symm
  | append_singleton moves m ih =>
    have same : ((start config).run moves).config = config := run_config ..
    rw [run_snoc, BackoffMove.jitters_snoc]
    cases m with
    | increment jitter =>
      rw [step, nanoseconds_increment_of_pos (by rwa [same]), same, ih, BackoffMove.follow,
        BackoffConfig.unbounded_snoc]
      -- What is at the ceiling already stays there, with or without the cut before.
      rcases Nat.le_total (config.unbounded (BackoffMove.jitters moves)) config.ceiling.nanoseconds with within | beyond
      · rw [Nat.min_eq_left within]
      · have positive := UInt32.le_iff_toNat_le.mp grows
        have cut := Nat.le_mul_of_pos_right config.ceiling.nanoseconds positive
        have free := Nat.le_mul_of_pos_right (config.unbounded (BackoffMove.jitters moves)) positive
        rw [Nat.min_eq_right beyond]
        omega
    | reset =>
      rw [step, reset, same]
      exact (Nat.min_eq_left below).symm

/-- Once it grew since it last began, a backoff is at most at its ceiling, however it is set up. -/
private theorem run_le_ceiling (moves : List BackoffMove) (grown : BackoffMove.jitters moves ≠ []) :
    ((start config).run moves).value ≤ config.ceiling := by
  rcases List.eq_nil_or_concat' moves with rfl | ⟨before, m, rfl⟩
  · exact absurd rfl grown
  · cases m with
    | increment jitter =>
      have same : ((start config).run before).config = config := run_config ..
      have under := increment_le_ceiling ((start config).run before) jitter
      rw [same] at under
      rwa [run_snoc]
    | reset => exact absurd (BackoffMove.jitters_snoc before .reset) grown

/-- A backoff grows with the powers of its multiplier, by more if chance adds to it, and up to its ceiling; each increment
is exact, whatever it is cut off from. However it is set up, once it grew it is at most at its ceiling. -/
theorem grows_to_ceiling (config : BackoffConfig) (moves : List BackoffMove) :
    let b := (start config).run moves
    let jitters := BackoffMove.jitters moves
    let power := config.initial.nanoseconds * config.multiplier.toNat ^ jitters.length
    (1 ≤ config.multiplier → config.initial ≤ config.ceiling →
      min power config.ceiling.nanoseconds ≤ b.value.nanoseconds ∧ b.value ≤ config.ceiling ∧
      (∀ jitter, b.value ≤ (b.increment jitter).value) ∧
      ((∀ jitter ∈ jitters, jitter = .zero) → b.value.nanoseconds = min power config.ceiling.nanoseconds) ∧
      ∀ jitter, (b.increment jitter).value.nanoseconds =
        min (b.value.nanoseconds * config.multiplier.toNat + jitter.nanoseconds) config.ceiling.nanoseconds) ∧
    (jitters ≠ [] → b.value ≤ config.ceiling) := by
  intro b jitters power
  refine ⟨?_, run_le_ceiling moves⟩
  intro grows below
  have value : b.value.nanoseconds = min (config.unbounded jitters) config.ceiling.nanoseconds :=
    nanoseconds_run grows below moves
  have same : b.config = config := run_config ..
  have next (jitter : Duration) : (b.increment jitter).value.nanoseconds =
      min (b.value.nanoseconds * config.multiplier.toNat + jitter.nanoseconds) config.ceiling.nanoseconds := by
    rw [nanoseconds_increment_of_pos (by rwa [same]), same]
  have under : b.value.nanoseconds ≤ config.ceiling.nanoseconds := value ▸ Nat.min_le_right _ _
  refine ⟨?_, under, ?_, ?_, next⟩
  · have free := config.pow_le_unbounded jitters
    omega
  · intro jitter
    show b.value.nanoseconds ≤ (b.increment jitter).value.nanoseconds
    have longer := Nat.le_mul_of_pos_right b.value.nanoseconds (UInt32.le_iff_toNat_le.mp grows)
    rw [next]
    omega
  · intro still
    rw [value, config.unbounded_of_zero still]

/-- Doubles from a second up to the longest time there is. -/
def doubling : BackoffConfig := ⟨.ofSecs 1, 2, .ofMillis 100, ⟨Duration.limit, Nat.le_refl _⟩⟩

/-- After eighty doublings the product can not be held any more, after three it is exact; and a backoff that begins above
its ceiling, and is multiplied by zero, comes down to it. -/
theorem doubling_grows :
    1 ≤ doubling.multiplier ∧ doubling.initial ≤ doubling.ceiling ∧
    ((start doubling).run (List.replicate 80 (.increment .zero))).value.nanoseconds = Duration.limit ∧
    ((start doubling).run (.reset :: List.replicate 3 (.increment .zero))).value.nanoseconds = 8 * 1000000000 ∧
    ((start ⟨.ofSecs 5, 0, .zero, .ofSecs 1⟩).run [.increment .zero]).value ≤ .ofSecs 1 := by
  have grows : 1 ≤ doubling.multiplier := by decide
  have below : doubling.initial ≤ doubling.ceiling := by decide
  refine ⟨grows, below, ?_, ?_, (grows_to_ceiling _ _).2 (by decide)⟩
  · obtain ⟨_, _, _, exact, _⟩ := (grows_to_ceiling doubling (List.replicate 80 (.increment .zero))).1 grows below
    exact (exact (by decide)).trans (by decide)
  · obtain ⟨_, _, _, exact, _⟩ :=
      (grows_to_ceiling doubling (.reset :: List.replicate 3 (.increment .zero))).1 grows below
    exact (exact (by decide)).trans (by decide)

end Backoff
end PolicyLedger
