import Mathlib.Order.Basic
import Mathlib.Tactic.Common

/-!
# Guarded runs of a deterministic transition function

`next : σ → ε → Option σ` says what one event does to a state, `none` when the
event is not enabled.  `Reach next G s₀` are the states of the runs from `s₀`
whose every event meets the guard `G`: a scheduling assumption (the order in
which a path delivers, the times an event may take) is a guard, so that one
transition function serves every assumption.
-/

namespace Runs

variable {σ ε : Type*}

/-- The states reachable from `s₀` by enabled events that meet the guard `G`. -/
inductive Reach (next : σ → ε → Option σ) (G : σ → ε → Prop) (s₀ : σ) : σ → Prop
  | refl : Reach next G s₀ s₀
  | step {s s' : σ} {e : ε} :
    Reach next G s₀ s → G s e → next s e = some s' → Reach next G s₀ s'

/-- The guard every event meets. -/
def anyEvent : σ → ε → Prop := fun _ _ => True

variable {next : σ → ε → Option σ} {G G' : σ → ε → Prop} {s₀ s : σ}

/-- A run under a guard is a run under a weaker one. -/
theorem Reach.mono (weaker : ∀ s e, G s e → G' s e) (h : Reach next G s₀ s) :
    Reach next G' s₀ s := by
  induction h with
  | refl => exact .refl
  | step _ guard step ih => exact .step ih (weaker _ _ guard) step

/-- And so it is under a guard that its steps meet where they happen. -/
theorem Reach.strengthen
    (meets : ∀ {s s' e}, Reach next G s₀ s → G s e → next s e = some s' → G' s e)
    (h : Reach next G s₀ s) : Reach next G' s₀ s := by
  induction h with
  | refl => exact .refl
  | step reach guard step ih => exact .step ih (meets reach guard step) step

theorem Reach.any (h : Reach next G s₀ s) : Reach next anyEvent s₀ s :=
  h.mono fun _ _ _ => trivial

theorem Reach.trans {s' : σ} (first : Reach next G s₀ s) (second : Reach next G s s') :
    Reach next G s₀ s' := by
  induction second with
  | refl => exact first
  | step _ guard step ih => exact .step ih guard step

/-- The state after a list of events, `none` when one of them is not enabled. -/
def runList (next : σ → ε → Option σ) : List ε → σ → Option σ
  | [], s => some s
  | e :: es, s => (next s e).bind (runList next es)

/-- Every event of the list meets the guard where it happens. -/
def Allowed (next : σ → ε → Option σ) (G : σ → ε → Prop) : List ε → σ → Prop
  | [], _ => True
  | e :: es, s => G s e ∧ ∀ s' ∈ next s e, Allowed next G es s'

instance Allowed.decidable [∀ s e, Decidable (G s e)] :
    (es : List ε) → (s : σ) → Decidable (Allowed next G es s)
  | [], _ => isTrue trivial
  | _ :: es, _ =>
      have : ∀ s', Decidable (Allowed next G es s') := Allowed.decidable es
      inferInstanceAs (Decidable (_ ∧ _))

theorem Allowed.any {es : List ε} : Allowed next anyEvent es s := by
  induction es generalizing s with
  | nil => trivial
  | cons e es ih => exact ⟨trivial, fun _ _ => ih⟩

/-- The state in which a list of events that can be run ends. -/
def final (next : σ → ε → Option σ) (es : List ε) (s : σ) : σ := (runList next es s).getD s

theorem next_eq_final (next : σ → ε → Option σ) (s : σ) (e : ε) (enabled : (next s e).isSome) :
    next s e = some (final next [e] s) := by
  obtain ⟨s', step⟩ := Option.isSome_iff_exists.mp enabled
  rw [final, runList, step]
  rfl

theorem Reach.of_runList {es : List ε} (run : runList next es s₀ = some s)
    (allowed : Allowed next G es s₀) : Reach next G s₀ s := by
  induction es generalizing s₀ with
  | nil =>
      obtain rfl : s₀ = s := Option.some.inj run
      exact .refl
  | cons e es ih =>
      obtain ⟨s₁, step, rest⟩ := Option.bind_eq_some_iff.mp run
      exact .trans (.step .refl allowed.1 step) (ih rest (allowed.2 s₁ step))

theorem Reach.final {es : List ε} (runs : (runList next es s₀).isSome)
    (allowed : Allowed next G es s₀) : Reach next G s₀ (final next es s₀) := by
  obtain ⟨s, run⟩ := Option.isSome_iff_exists.mp runs
  refine .of_runList ?_ allowed
  rw [Runs.final, run, Option.getD_some]

/-- An invariant: it holds at the start, and every guarded step from a reachable
state that has it leads to a state that has it. -/
theorem Reach.invariant {I : σ → Prop} (init : I s₀)
    (preserved : ∀ {s s' e}, Reach next G s₀ s → I s → G s e → next s e = some s' → I s')
    (h : Reach next G s₀ s) : I s := by
  induction h with
  | refl => exact init
  | step reach guard step ih => exact preserved reach ih guard step

/-- A forward simulation: what a step does, a run of the other system can follow. -/
theorem Reach.simulated {τ ε' : Type*} {next' : τ → ε' → Option τ} {G' : τ → ε' → Prop} {t₀ : τ}
    {R : σ → τ → Prop} (init : R s₀ t₀)
    (follow : ∀ {s s' e t}, R s t → G s e → next s e = some s' →
      ∃ t', Reach next' G' t t' ∧ R s' t')
    (h : Reach next G s₀ s) : ∃ t, Reach next' G' t₀ t ∧ R s t := by
  induction h with
  | refl => exact ⟨t₀, .refl, init⟩
  | step _ guard step ih =>
      obtain ⟨t, before, related⟩ := ih
      obtain ⟨t', after, related'⟩ := follow related guard step
      exact ⟨t', before.trans after, related'⟩

/-! ## Observers -/

/-- The system with an observer that keeps a record of the events. -/
def observed {ω : Type*} (next : σ → ε → Option σ) (record : σ → ε → ω → ω) (x : σ × ω) (e : ε) :
    Option (σ × ω) :=
  (next x.1 e).map fun s => (s, record x.1 e x.2)

section Observed

variable {ω : Type*} {record : σ → ε → ω → ω} {x : σ × ω} {o : ω}

/-- The observer does not change what the system does, -/
theorem Reach.of_observed (h : Reach (observed next record) (fun x e => G x.1 e) (s₀, o) x) :
    Reach next G s₀ x.1 := by
  induction h with
  | refl => exact .refl
  | step _ guard step ih =>
      obtain ⟨s', taken, rfl⟩ := Option.map_eq_some_iff.mp step
      exact .step ih guard taken

/-- and every run can be observed. -/
theorem Reach.exists_observed (record : σ → ε → ω → ω) (o : ω) (h : Reach next G s₀ s) :
    ∃ o', Reach (observed next record) (fun x e => G x.1 e) (s₀, o) (s, o') := by
  induction h with
  | refl => exact ⟨o, .refl⟩
  | @step s s' e _ guard step ih =>
      obtain ⟨o', before⟩ := ih
      have both : observed next record (s, o') e = some (s', record s e o') := by
        rw [observed, step]
        rfl
      exact ⟨_, before.step guard both⟩

end Observed

/-- A measure that every guarded step from a reachable state lowers leaves no
infinite run. -/
theorem no_infinite_run (μ : σ → ℕ)
    (lower : ∀ {s s' e}, Reach next G s₀ s → G s e → next s e = some s' → μ s' < μ s) :
    ¬ ∃ run : ℕ → σ, run 0 = s₀ ∧ ∀ n, ∃ e, G (run n) e ∧ next (run n) e = some (run (n + 1)) := by
  rintro ⟨run, start, steps⟩
  have reach : ∀ n, Reach next G s₀ (run n) := by
    intro n
    induction n with
    | zero => exact start ▸ .refl
    | succ n ih =>
        obtain ⟨e, guard, step⟩ := steps n
        exact .step ih guard step
  have bound : ∀ n, μ (run n) + n ≤ μ (run 0) := by
    intro n
    induction n with
    | zero => exact Nat.le_refl _
    | succ n ih =>
        obtain ⟨e, guard, step⟩ := steps n
        have := lower (reach n) guard step
        omega
  have := bound (μ (run 0) + 1)
  omega

end Runs
