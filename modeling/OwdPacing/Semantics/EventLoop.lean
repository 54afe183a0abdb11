import OwdPacing.Semantics.GuardedRun
import Mathlib.Data.List.MinMax

/-!
# Event loops

A simulator keeps an agenda of events and takes an earliest one next.  As long as
no event asks for another one in its past the clock of such a run does not go back;
and when the agenda of a state can be run, the loop that takes the first of the
earliest events runs until the agenda is empty.
-/

namespace Runs

variable {σ ε τ : Type*} [LinearOrder τ] {next : σ → ε → Option σ} {agenda : σ → List ε}
  {time : ε → τ} {now : σ → τ} {s₀ s s' : σ} {e : ε}

/-- The event is on the agenda, and no other one there is earlier. -/
def Earliest (agenda : σ → List ε) (time : ε → τ) (s : σ) (e : ε) : Prop :=
  e ∈ agenda s ∧ ∀ e' ∈ agenda s, time e ≤ time e'

instance [DecidableEq ε] (s : σ) (e : ε) : Decidable (Earliest agenda time s e) :=
  inferInstanceAs (Decidable (_ ∧ _))

/-- No event of the agenda lies in the past. -/
def Ahead (agenda : σ → List ε) (time : ε → τ) (now : σ → τ) (s : σ) : Prop :=
  ∀ e ∈ agenda s, now s ≤ time e

/-- An earliest event that asks for nothing in its past leaves nothing in the past. -/
theorem Earliest.ahead (h : Earliest agenda time s e) (clock : now s' = time e)
    (fresh : ∀ e' ∈ agenda s', e' ∈ agenda s ∨ time e ≤ time e') :
    Ahead agenda time now s' := by
  intro e' mem
  rw [clock]
  exact (fresh e' mem).elim (h.2 e') id

/-- The first of the earliest events. -/
def earliest? (agenda : σ → List ε) (time : ε → τ) (s : σ) : Option ε := (agenda s).argmin time

theorem earliest_of_earliest? (pick : earliest? agenda time s = some e) :
    Earliest agenda time s e :=
  ⟨List.argmin_mem pick, fun _ mem => List.le_of_mem_argmin mem pick⟩

theorem earliest?_eq_none_iff : earliest? agenda time s = none ↔ agenda s = [] :=
  List.argmin_eq_none

/-- At most `fuel` turns of the loop. -/
def eventLoop (next : σ → ε → Option σ) (agenda : σ → List ε) (time : ε → τ) : ℕ → σ → σ
  | 0, s => s
  | fuel + 1, s =>
      match (earliest? agenda time s).bind (next s) with
      | none => s
      | some s' => eventLoop next agenda time fuel s'

/-- What the loop does is a run under its guard. -/
theorem reach_eventLoop (fuel : ℕ) :
    Reach next (Earliest agenda time) s (eventLoop next agenda time fuel s) := by
  induction fuel generalizing s with
  | zero => exact .refl
  | succ fuel ih =>
      unfold eventLoop
      cases turn : (earliest? agenda time s).bind (next s) with
      | none => exact .refl
      | some s' =>
          obtain ⟨e, pick, step⟩ := Option.bind_eq_some_iff.mp turn
          exact .trans (.step .refl (earliest_of_earliest? pick) step) ih

/-- **The loop ends.**  When every event of the agenda of a reachable state can be
run, and lowers a measure, that many turns empty the agenda. -/
theorem agenda_eventLoop (μ : σ → ℕ)
    (enabled : ∀ {s e}, Reach next (Earliest agenda time) s₀ s → e ∈ agenda s →
      (next s e).isSome)
    (lower : ∀ {s s' e}, Reach next (Earliest agenda time) s₀ s → next s e = some s' →
      μ s' < μ s)
    {fuel : ℕ} (reach : Reach next (Earliest agenda time) s₀ s) (enough : μ s ≤ fuel) :
    agenda (eventLoop next agenda time fuel s) = [] := by
  induction fuel generalizing s with
  | zero =>
      unfold eventLoop
      by_contra some
      obtain ⟨e, mem⟩ := List.exists_mem_of_ne_nil _ some
      obtain ⟨s', step⟩ := Option.isSome_iff_exists.mp (enabled reach mem)
      have := lower reach step
      omega
  | succ fuel ih =>
      unfold eventLoop
      cases pick : earliest? agenda time s with
      | none => exact earliest?_eq_none_iff.mp pick
      | some e =>
          have earliest := earliest_of_earliest? pick
          obtain ⟨s', step⟩ := Option.isSome_iff_exists.mp (enabled reach earliest.1)
          rw [Option.bind_some, step]
          have := lower reach step
          exact ih (reach.step earliest step) (by omega)

end Runs
