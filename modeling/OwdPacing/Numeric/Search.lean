import Mathlib.Algebra.Order.Ring.Abs
import Mathlib.Tactic.Linarith
import Mathlib.Tactic.Ring

/-!
# Search with a moving window

A quantity is searched in rounds.  A round compares it with a window of equally
spaced points, of which the estimate of the round before is one, and ends on the
last point that does not exceed it, or on the first point.  The quantity may be fixed,
may drift, or may be looked for from zero, on a grid.
-/

namespace Numeric

variable {α : Type*} [LinearOrder α] {δ target E E' : α} {point : ℕ → α} {last : ℕ}

/-- Where a round that looks for `target` among the points up to `point last` ends.
A target on a point may count for either side. -/
inductive Search (point : ℕ → α) (last : ℕ) (target : α) : α → Prop
  | above (le : point last ≤ target) : Search point last target (point last)
  | below (le : target ≤ point 0) : Search point last target (point 0)
  | framed (i : ℕ) (lt : i < last) (low : point i ≤ target) (high : target ≤ point (i + 1)) :
      Search point last target (point i)

/-- Between two points there is no choice. -/
theorem Search.eq_of_between (mono : StrictMono point) {i : ℕ} (lt : i < last)
    (low : point i < target) (high : target < point (i + 1))
    (search : Search point last target E') : E' = point i := by
  cases search with
  | above le => exact absurd (le.trans_lt high) (mono.monotone lt).not_gt
  | below le => exact absurd (low.trans_le le) (mono.monotone (Nat.zero_le i)).not_gt
  | framed j ltJ lowJ highJ =>
      have below : j < i + 1 := mono.lt_iff_lt.mp (lowJ.trans_lt high)
      have above : i < j + 1 := mono.lt_iff_lt.mp (low.trans_le highJ)
      rw [Nat.le_antisymm (Nat.le_of_lt_succ below) (Nat.le_of_lt_succ above)]

variable [CommRing α]

/-- The points of a round after the estimate `E`: they are `δ` apart, `E` is one of
them and not the last, and the first only if there is no room for another one
between zero and `E`. -/
structure Window (δ E : α) (point : ℕ → α) (last : ℕ) : Prop where
  spaced : ∀ i, point (i + 1) = point i + δ
  centre : ∃ i < last, point i = E ∧ (i = 0 → E ≤ δ)

/-- The next window frames a target that is less than `δ` above the estimate. -/
theorem Window.frames (w : Window δ E point last) (low : E < target) (high : target < E + δ) :
    ∃ i < last, point i = E ∧ point i < target ∧ target < point (i + 1) := by
  obtain ⟨i, lt, rfl, -⟩ := w.centre
  refine ⟨i, lt, rfl, low, ?_⟩
  rw [w.spaced]
  exact high

variable [IsStrictOrderedRing α]

theorem Window.strictMono (w : Window δ E point last) (pos : 0 < δ) : StrictMono point := by
  apply strictMono_nat_of_lt_succ
  intro i
  rw [w.spaced]
  exact lt_add_of_pos_right _ pos

/-- **A round brings the estimate nearer by `δ`**, or within `δ`. -/
theorem Window.contracts (w : Window δ E point last) (pos : 0 < δ) (nonneg : 0 ≤ target)
    (search : Search point last target E') :
    |E' - target| ≤ max δ (|E - target| - δ) := by
  obtain ⟨i, lt, rfl, first⟩ := w.centre
  have mono := (w.strictMono pos).monotone
  cases search with
  | above le =>
      have next : point i + δ ≤ point last := w.spaced i ▸ mono lt
      have near : |point i - target| = target - point i := by
        rw [abs_sub_comm]
        exact abs_of_nonneg (by linarith)
      apply le_max_of_le_right
      rw [near, abs_sub_comm, abs_of_nonneg (by linarith)]
      linarith
  | below le =>
      rw [abs_of_nonneg (by linarith)]
      cases i with
      | zero =>
          have clamped := first rfl
          apply le_max_of_le_left
          linarith
      | succ i =>
          have previous : point 0 + δ ≤ point (i + 1) := by
            rw [w.spaced]
            exact add_le_add_left (mono (Nat.zero_le i)) δ
          apply le_max_of_le_right
          rw [abs_of_nonneg (by linarith)]
          linarith
  | framed j lt low high =>
      have next := w.spaced j
      apply le_max_of_le_left
      rw [abs_sub_comm, abs_of_nonneg (by linarith)]
      linarith

/-- The error after `j` rounds, each of which brings the estimate nearer. -/
theorem error_le_of_contracts (estimate : ℕ → α) {j : ℕ} (nonneg : 0 ≤ δ)
    (step : ∀ i < j, |estimate (i + 1) - target| ≤ max δ (|estimate i - target| - δ)) :
    |estimate j - target| ≤ max δ (|estimate 0 - target| - j * δ) := by
  induction j with
  | zero =>
      apply le_max_of_le_right
      rw [Nat.cast_zero, zero_mul, sub_zero]
  | succ j ih =>
      have earlier := ih fun i lt => step i (Nat.lt_succ_of_lt lt)
      have total : ((j + 1 : ℕ) : α) * δ = j * δ + δ := by
        push_cast
        ring
      rw [total]
      apply (step j (Nat.lt_succ_self j)).trans
      apply max_le (le_max_left _ _)
      cases le_max_iff.mp earlier with
      | inl within =>
          apply le_max_of_le_left
          linarith
      | inr nearer =>
          apply le_max_of_le_right
          linarith

/-- The error while the target moves by no more than `v` between two rounds. -/
theorem error_le_of_drift (estimate target : ℕ → α) {v : α} {j : ℕ}
    (step : ∀ i < j, |estimate (i + 1) - target i| ≤ max δ (|estimate i - target i| - δ))
    (drift : ∀ i < j, |target (i + 1) - target i| ≤ v) (slow : v ≤ δ) :
    |estimate j - target j| ≤ max (δ + v) (|estimate 0 - target 0| - j * (δ - v)) := by
  induction j with
  | zero =>
      apply le_max_of_le_right
      rw [Nat.cast_zero, zero_mul, sub_zero]
  | succ j ih =>
      have earlier := ih (fun i lt => step i (Nat.lt_succ_of_lt lt))
        fun i lt => drift i (Nat.lt_succ_of_lt lt)
      have moved := drift j (Nat.lt_succ_self j)
      have total : ((j + 1 : ℕ) : α) * (δ - v) = j * (δ - v) + (δ - v) := by
        push_cast
        ring
      have split : |estimate (j + 1) - target (j + 1)| ≤
          |estimate (j + 1) - target j| + |target (j + 1) - target j| := by
        rw [abs_sub_comm (target (j + 1))]
        exact abs_sub_le _ _ _
      rw [total]
      cases le_max_iff.mp (step j (Nat.lt_succ_self j)) with
      | inl within =>
          apply le_max_of_le_left
          linarith
      | inr nearer =>
          cases le_max_iff.mp earlier with
          | inl before =>
              apply le_max_of_le_left
              linarith
          | inr before =>
              apply le_max_of_le_right
              linarith

/-! ## Search from zero on a grid -/

section Grid

variable {half m n : ℕ}

/-- How many steps of the grid `k` rounds can climb from zero, when a window has
`half` points below the estimate, or as many as there is room for, and `last` points
after the first. -/
def climb (half last : ℕ) : ℕ → ℕ
  | 0 => 0
  | k + 1 => last + k * (last - half)

theorem climb_succ (le : half ≤ last) (k : ℕ) :
    climb half last (k + 1) = climb half last k - half + last := by
  cases k with
  | zero => simp [climb]
  | succ k =>
      rw [climb, climb, Nat.succ_mul]
      omega

/-- The window after the estimate `m * δ`. -/
def gridPoint (δ : α) (half m i : ℕ) : α := ((m - half + i : ℕ) : α) * δ

theorem gridPoint_zero_le (pos : 0 < δ) : gridPoint δ half m 0 ≤ m * δ := by
  unfold gridPoint
  exact mul_le_mul_of_nonneg_right (Nat.cast_le.mpr (Nat.sub_le m half)) pos.le

/-- Where a round ends whose window does not start above the target. -/
theorem Search.grid (pos : 0 < δ) (low : m * δ ≤ target)
    (search : Search (gridPoint δ half m) last target E') :
    ∃ m' : ℕ, E' = m' * δ ∧ m' * δ ≤ target ∧
      (m' = m - half + last ∨ target ≤ (m' + 1 : ℕ) * δ ∧ m' ≤ m - half + last) := by
  cases search with
  | above le => exact ⟨m - half + last, rfl, le, .inl rfl⟩
  | below le =>
      have first : target = gridPoint δ half m 0 := le.antisymm ((gridPoint_zero_le pos).trans low)
      refine ⟨m - half, rfl, (gridPoint_zero_le pos).trans low, .inr ⟨?_, Nat.le_add_right _ _⟩⟩
      rw [first, gridPoint, Nat.add_zero]
      exact mul_le_mul_of_nonneg_right (Nat.cast_le.mpr (Nat.le_succ _)) pos.le
  | framed i lt lowI high =>
      exact ⟨m - half + i, rfl, lowI, .inr ⟨high, Nat.add_le_add_left lt.le _⟩⟩

variable {estimate : ℕ → α} {j : ℕ}

/-- **The climb.**  A search that starts from zero goes up the grid as far as its
windows reach, never above the target, and stays within one step of it. -/
theorem climb_of_search (pos : 0 < δ) (nonneg : 0 ≤ target) (le : half ≤ last)
    (zero : estimate 0 = 0)
    (step : ∀ i < j, ∀ m : ℕ, estimate i = m * δ →
      Search (gridPoint δ half m) last target (estimate (i + 1))) :
    ∃ m : ℕ, estimate j = m * δ ∧ m * δ ≤ target ∧ m ≤ climb half last j ∧
      (m = climb half last j ∨ target ≤ (m + 1 : ℕ) * δ) := by
  induction j with
  | zero => exact ⟨0, by simpa using zero, by simpa using nonneg, Nat.le_refl 0, .inl rfl⟩
  | succ j ih =>
      obtain ⟨m, eq, low, bound, reached⟩ := ih fun i lt => step i (Nat.lt_succ_of_lt lt)
      obtain ⟨m', eq', low', case⟩ := (step j (Nat.lt_succ_self j) m eq).grid pos low
      have next := climb_succ le j
      refine ⟨m', eq', low', ?_, ?_⟩
      · rcases case with top | ⟨-, below⟩ <;> omega
      · rcases case with top | ⟨near, -⟩
        · rcases reached with all | near
          · exact .inl (by omega)
          · refine .inr (near.trans (mul_le_mul_of_nonneg_right (Nat.cast_le.mpr ?_) pos.le))
            omega
        · exact .inr near

/-- Off the grid there is only one way. -/
theorem eq_of_climb (pos : 0 < δ) (low : n * δ < target) (high : target < (n + 1 : ℕ) * δ)
    (below : m * δ ≤ target) {top : ℕ} (bound : m ≤ top)
    (reached : m = top ∨ target ≤ (m + 1 : ℕ) * δ) : m = min n top := by
  have le : m ≤ n := by
    have := lt_of_mul_lt_mul_right (below.trans_lt high) pos.le
    exact Nat.le_of_lt_succ (Nat.cast_lt.mp this)
  rcases reached with all | near
  · omega
  · have := lt_of_mul_lt_mul_right (low.trans_le near) pos.le
    have ge : n < m + 1 := Nat.cast_lt.mp this
    omega

end Grid

end Numeric
