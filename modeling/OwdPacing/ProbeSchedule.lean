import OwdPacing.Client
import Mathlib.Algebra.Order.Ring.Int
import Mathlib.Order.Bounds.Basic
import Mathlib.Tactic.Ring

/-!
# The probe schedule

`GetProbeDelay` in closed form.  `probeOffset cfg E i` is the delay of probe `i`
when the previous estimate is `E`: the probes are two milliseconds apart, the
estimate is one of them, and they start half the probes below it, or as far
below as the delays stay non-negative.
-/

namespace OwdPacing

open StateError

namespace Config

variable (cfg : Config)

/-- Two milliseconds, the delay between two probes. -/
def gap : Int := cfg.milliSeconds 2

theorem gap_eq : cfg.gap = 2 * cfg.ticksPerMs := rfl

theorem gap_pos : 0 < cfg.gap := by
  have := cfg.ticksPerMs_pos
  rw [gap_eq]
  omega

/-- How many probes are sent before the one at the estimate `E`. -/
def shift (E : Int) : Int := min ((cfg.probes : Int) / 2) (E / cfg.gap)

/-- The delay of probe `i` after the slow packet, for a previous estimate `E`. -/
def probeOffset (E : Int) (i : Nat) : Int := E + cfg.gap * (i - cfg.shift E)

variable {cfg} {E : Int}

theorem shift_nonneg (pos : 0 ≤ E) : 0 ≤ cfg.shift E := by
  refine le_min (by omega) ?_
  exact Int.ediv_nonneg pos cfg.gap_pos.le

theorem shift_le_half : cfg.shift E ≤ (cfg.probes : Int) / 2 := min_le_left _ _

theorem gap_mul_shift_le : cfg.gap * cfg.shift E ≤ E :=
  calc cfg.gap * cfg.shift E ≤ cfg.gap * (E / cfg.gap) :=
        Int.mul_le_mul_of_nonneg_left (min_le_right _ _) cfg.gap_pos.le
    _ ≤ E := Int.mul_ediv_self_le cfg.gap_pos.ne'

theorem probeOffset_succ (i : Nat) : cfg.probeOffset E (i + 1) = cfg.probeOffset E i + cfg.gap := by
  simp only [probeOffset, Nat.cast_add, Nat.cast_one]
  ring

theorem probeOffset_nonneg (i : Nat) : 0 ≤ cfg.probeOffset E i := by
  induction i with
  | zero =>
      have : cfg.gap * cfg.shift E ≤ E := gap_mul_shift_le
      simp only [probeOffset, Nat.cast_zero, zero_sub, mul_neg]
      omega
  | succ i ih =>
      rw [probeOffset_succ]
      have := cfg.gap_pos
      omega

/-- The estimate is the delay of a probe. -/
theorem exists_probeOffset_eq (nonempty : 1 ≤ cfg.probes) (nonneg : 0 ≤ E) :
    ∃ i < cfg.probes, cfg.probeOffset E i = E := by
  have shift : 0 ≤ cfg.shift E := shift_nonneg nonneg
  have half : cfg.shift E ≤ (cfg.probes : Int) / 2 := shift_le_half
  refine ⟨(cfg.shift E).toNat, by omega, ?_⟩
  rw [probeOffset, Int.toNat_of_nonneg shift, sub_self, mul_zero, add_zero]

/-- The first probe is as far below the estimate as half the probes and time 0 allow. -/
theorem probeOffset_zero_isLeast (nonneg : 0 ≤ E) :
    IsLeast {d | 0 ≤ d ∧ ∃ s : Nat, s ≤ cfg.probes / 2 ∧ d = E - cfg.milliSeconds 2 * s}
      (cfg.probeOffset E 0) := by
  have first : cfg.probeOffset E 0 = E - cfg.gap * cfg.shift E := by
    simp only [probeOffset, Nat.cast_zero]
    ring
  have half : cfg.shift E ≤ (cfg.probes : Int) / 2 := shift_le_half
  have shift : 0 ≤ cfg.shift E := shift_nonneg nonneg
  constructor
  · refine ⟨probeOffset_nonneg 0, (cfg.shift E).toNat, by omega, ?_⟩
    rw [Int.toNat_of_nonneg shift, first]
    rfl
  · rintro d ⟨positive, s, le, rfl⟩
    have reached : (s : Int) ≤ E / cfg.gap := by
      rw [Int.le_ediv_iff_mul_le cfg.gap_pos, mul_comm]
      exact sub_nonneg.mp positive
    have within : (s : Int) ≤ cfg.shift E := le_min (by omega) reached
    rw [first]
    exact sub_le_sub_left (Int.mul_le_mul_of_nonneg_left within cfg.gap_pos.le) E

/-- The first probe is at most half the probes below the estimate. -/
theorem le_probeOffset_zero : E - cfg.gap * ((cfg.probes : Int) / 2) ≤ cfg.probeOffset E 0 := by
  have : cfg.gap * cfg.shift E ≤ cfg.gap * ((cfg.probes : Int) / 2) :=
    Int.mul_le_mul_of_nonneg_left shift_le_half cfg.gap_pos.le
  simp only [probeOffset, Nat.cast_zero, zero_sub, mul_neg]
  omega

theorem probeOffset_le_add (nonneg : 0 ≤ E) (i : Nat) : cfg.probeOffset E i ≤ E + cfg.gap * i := by
  have : 0 ≤ cfg.gap * cfg.shift E := Int.mul_nonneg cfg.gap_pos.le (shift_nonneg nonneg)
  simp only [probeOffset, mul_sub]
  omega

theorem probeOffset_lt {i j : Nat} (lt : i < j) : cfg.probeOffset E i < cfg.probeOffset E j := by
  have pos := cfg.gap_pos
  have : cfg.gap * (i : Int) < cfg.gap * j := Int.mul_lt_mul_of_pos_left (by omega) pos
  simp only [probeOffset, mul_sub]
  omega

theorem probeOffset_le {i j : Nat} (le : i ≤ j) : cfg.probeOffset E i ≤ cfg.probeOffset E j := by
  rcases Nat.lt_or_eq_of_le le with lt | rfl
  · exact (probeOffset_lt lt).le
  · exact le_rfl

end Config

namespace OWdClientBasic

variable {cfg : Config}

/-- The loop of `GetProbeDelay` stops at the first index whose delay is not negative. -/
theorem shiftStart_eq (cfg : Config) {E : Int} (pos : 0 ≤ E) {h fuel : Nat} (le : h ≤ fuel) :
    shiftStart cfg.gap fuel (-(h : Int)) (E - cfg.gap * h) =
      some (-min (h : Int) (E / cfg.gap)) := by
  have gapPos := cfg.gap_pos
  induction h generalizing fuel with
  | zero =>
      have quotient : 0 ≤ E / cfg.gap := Int.ediv_nonneg pos gapPos.le
      have stop : ¬ Time.IsStrictlyNegative (E - cfg.gap * (0 : Nat)) := by
        simpa [Time.IsStrictlyNegative] using pos
      have least : min ((0 : Nat) : Int) (E / cfg.gap) = 0 := min_eq_left quotient
      cases fuel <;> rw [shiftStart, if_neg stop, least] <;> rfl
  | succ h ih =>
      obtain ⟨fuel, rfl⟩ : ∃ f, fuel = f + 1 := ⟨fuel - 1, by omega⟩
      have quotient : E / cfg.gap < (h + 1 : Nat) ↔ E < (h + 1 : Nat) * cfg.gap :=
        Int.ediv_lt_iff_lt_mul gapPos
      rw [mul_comm] at quotient
      unfold shiftStart
      split_ifs with negative
      · -- still negative: one step up, and the quotient is at most `h`
        have index : -((h + 1 : Nat) : Int) + 1 = -(h : Int) := by omega
        have delay : E - cfg.gap * (h + 1 : Nat) + cfg.gap = E - cfg.gap * h := by
          push_cast; ring
        have below : E / cfg.gap < (h + 1 : Nat) := quotient.mpr (by
          rw [Time.IsStrictlyNegative] at negative; omega)
        rw [index, delay, ih (by omega), min_eq_right (by omega), min_eq_right (by omega)]
      · have above : ¬ E / cfg.gap < (h + 1 : Nat) := fun lt => negative (by
          have := quotient.mp lt
          rw [Time.IsStrictlyNegative]; omega)
        rw [min_eq_left (by omega)]

/-- The estimate of the round before, zero in the first round. -/
def previousEstimate (c : OWdClientBasic) : Int :=
  if c.m_owdRoundStats = [] then 0 else (back c.m_owdRoundStats).EstimatedForwardDeltaOWD

/-- What `GetProbeDelay` asserts before it computes: estimation mode, a sample to
start from, and a previous estimate that is not negative. -/
structure Estimating (c : OWdClientBasic) : Prop where
  mode : c.m_currentMode = .OWDEstimation
  sampled : c.m_rttRoundStats ≠ []
  estimate : 0 ≤ c.previousEstimate

theorem getRoundNo_eq_zero_iff {c : OWdClientBasic} (mode : c.m_currentMode = .OWDEstimation) :
    c.getRoundNo = 0 ↔ c.m_owdRoundStats = [] := by
  rw [getRoundNo, mode]
  simp

section

variable {c : OWdClientBasic} {E : Int}

theorem run_estimatedForwardDeltaOwd (mode : c.m_currentMode = .OWDEstimation)
    (sampled : c.m_owdRoundStats = [] → c.m_rttRoundStats ≠ []) :
    estimatedForwardDeltaOwd.run c = .ok c.previousEstimate c := by
  rw [estimatedForwardDeltaOwd, previousEstimate, run_get_bind]
  simp only [getRoundNo_eq_zero_iff mode]
  split_ifs with first
  · rw [run_nsAssert_bind (sampled first), EStateM.run_pure]
  · rw [run_nsAssert_bind first, EStateM.run_pure]

/-- `GetProbeDelay` when its assertions hold.  It asks for RTT samples in the first round only. -/
theorem run_getProbeDelay_of_asserts (cfg : Config) (mode : c.m_currentMode = .OWDEstimation)
    (sampled : c.m_owdRoundStats = [] → c.m_rttRoundStats ≠ []) (nonneg : 0 ≤ c.previousEstimate)
    {i : UInt8} (lt : i.toNat < cfg.probes) :
    (getProbeDelay cfg i).run c = .ok (cfg.probeOffset c.previousEstimate i.toNat) c := by
  have ms := cfg.getMilliSeconds_milliSeconds 2
  have start : ∀ k : Int, cfg.milliSeconds (2 * k) = cfg.gap * k := fun k => by
    rw [Config.gap_eq, Config.milliSeconds]; ring
  have below : c.previousEstimate + cfg.gap * -((cfg.probes : Int) / 2) =
      c.previousEstimate - cfg.gap * ((cfg.probes / 2 : Nat) : Int) := by
    push_cast; ring
  have loop := shiftStart_eq cfg nonneg (Nat.div_le_self cfg.probes 2)
  rw [getProbeDelay, run_nsAssert_bind lt, run_get_bind, run_nsAssert_bind mode,
    run_bind_ok (run_estimatedForwardDeltaOwd mode sampled), run_nsAssert_bind nonneg]
  have index : -((cfg.probes : Int) / 2) = -((cfg.probes / 2 : Nat) : Int) := by push_cast; rfl
  dsimp only
  rw [ms, start, below, index, ← Config.gap, loop]
  dsimp only
  rw [start, EStateM.run_pure, Config.probeOffset, Config.shift]
  congr 2
  push_cast
  ring

/-- The index of a probe fits `uint8_t`. -/
theorem run_getProbeDelay_ofNat (cfg : Config) (mode : c.m_currentMode = .OWDEstimation)
    (sampled : c.m_owdRoundStats = [] → c.m_rttRoundStats ≠ []) (nonneg : 0 ≤ c.previousEstimate)
    (small : cfg.probes ≤ 255) {i : Nat} (lt : i < cfg.probes) :
    (getProbeDelay cfg (UInt8.ofNat i)).run c =
      .ok (cfg.probeOffset c.previousEstimate i) c := by
  have index : (UInt8.ofNat i).toNat = i :=
    UInt8.toNat_ofNat_of_lt (Nat.lt_of_lt_of_le lt (Nat.le_succ_of_le small))
  have run := run_getProbeDelay_of_asserts cfg mode sampled nonneg (index.symm ▸ lt)
  rwa [index] at run

theorem run_getProbeDelay (cfg : Config) (h : c.Estimating) {i : UInt8}
    (lt : i.toNat < cfg.probes) :
    (getProbeDelay cfg i).run c = .ok (cfg.probeOffset c.previousEstimate i.toNat) c :=
  run_getProbeDelay_of_asserts cfg h.mode (fun _ => h.sampled) h.estimate lt

/-- **The probe schedule.**  For 1 to 255 probes and any previous estimate that is
not negative the loop ends within half the probes, the delays are two milliseconds
apart and not negative, the estimate is one of them, and the first is the smallest
one that half the probes can reach below it. -/
theorem probe_schedule (nonempty : 1 ≤ cfg.probes) (small : cfg.probes ≤ 255)
    (mode : c.m_currentMode = .OWDEstimation)
    (sampled : c.m_owdRoundStats = [] → c.m_rttRoundStats ≠ [])
    (previous : c.previousEstimate = E) (nonneg : 0 ≤ E) :
    (∀ fuel, cfg.probes / 2 ≤ fuel →
      shiftStart (cfg.milliSeconds 2) fuel (-((cfg.probes / 2 : Nat) : Int))
          (E - cfg.milliSeconds 2 * (cfg.probes / 2 : Nat)) =
        some (-min ((cfg.probes / 2 : Nat) : Int) (E / cfg.milliSeconds 2))) ∧
    ∃ delay : Nat → Int,
      (∀ i < cfg.probes, (getProbeDelay cfg (UInt8.ofNat i)).run c = .ok (delay i) c ∧
        delay i = E + cfg.milliSeconds 2 *
          (i - min ((cfg.probes / 2 : Nat) : Int) (E / cfg.milliSeconds 2))) ∧
      (∀ i < cfg.probes, 0 ≤ delay i) ∧
      (∀ i, i + 1 < cfg.probes → delay (i + 1) = delay i + cfg.milliSeconds 2) ∧
      (∃ i < cfg.probes, delay i = E) ∧
      IsLeast {d | 0 ≤ d ∧ ∃ s : Nat, s ≤ cfg.probes / 2 ∧ d = E - cfg.milliSeconds 2 * s}
        (delay 0) := by
  refine ⟨fun fuel enough => shiftStart_eq cfg nonneg enough, cfg.probeOffset E, ?_, ?_, ?_, ?_, ?_⟩
  · intro i lt
    have run := run_getProbeDelay_ofNat cfg mode sampled (previous ▸ nonneg) small lt
    rw [previous] at run
    refine ⟨run, ?_⟩
    rw [Config.probeOffset, Config.shift]
    rfl
  · exact fun i _ => Config.probeOffset_nonneg i
  · exact fun i _ => Config.probeOffset_succ i
  · exact Config.exists_probeOffset_eq nonempty nonneg
  · exact Config.probeOffset_zero_isLeast nonneg

/-- A client that has estimated 3 ms. -/
def threeMilliseconds : OWdClientBasic :=
  { OWdClientBasic.new with
    m_currentMode := .OWDEstimation
    m_owdRoundStats := [{ RoundStats.new with EstimatedForwardDeltaOWD := 3000000 }] }

theorem probe_schedule_threeMilliseconds :
    (getProbeDelay .nanoseconds 2).run threeMilliseconds = .ok 5000000 threeMilliseconds := by
  have small : Config.nanoseconds.probes ≤ 255 := by decide
  obtain ⟨-, delay, schedule, -⟩ := probe_schedule (c := threeMilliseconds) (E := 3000000)
    (by decide) small rfl (by decide) rfl (by decide)
  obtain ⟨run, value⟩ := schedule 2 (by decide)
  rw [value] at run
  exact run

end

end OWdClientBasic

end OwdPacing
