import Mathlib.Tactic.Common

/-!
# Programs with a state and failures

`EStateM ε σ` is the shallow embedding of code that changes a state and may
stop: a failure keeps the state reached.  Two tools over it.

* `run_bind_ok` and its like: symbolic execution, one program step at a time.
* `Hom h g x y`: running `y` in the image under `h` of a state gives the image of
  what `x` gives, values through `g`.  It is the shape of every argument that a
  program does not look at part of its state; the rules follow the syntax.
-/

namespace StateError

variable {ε σ τ α β α' β' : Type}

/-! ## Symbolic execution -/

theorem run_bind_ok {x : EStateM ε σ α} {f : α → EStateM ε σ β} {s s' : σ} {a : α}
    (h : x.run s = .ok a s') : (x >>= f).run s = (f a).run s' := by
  rw [EStateM.run_bind, h]

theorem run_bind_error {x : EStateM ε σ α} {f : α → EStateM ε σ β} {s s' : σ} {e : ε}
    (h : x.run s = .error e s') : (x >>= f).run s = .error e s' := by
  rw [EStateM.run_bind, h]

/-- A sequence that succeeds has succeeded step by step. -/
theorem run_bind_eq_ok {x : EStateM ε σ α} {f : α → EStateM ε σ β} {s s' : σ} {b : β}
    (h : (x >>= f).run s = .ok b s') : ∃ a s₁, x.run s = .ok a s₁ ∧ (f a).run s₁ = .ok b s' := by
  rw [EStateM.run_bind] at h
  cases run : x.run s with
  | ok a s₁ =>
      rw [run] at h
      exact ⟨a, s₁, rfl, h⟩
  | error e s₁ =>
      rw [run] at h
      cases h

theorem run_get_bind (f : σ → EStateM ε σ β) (s : σ) : (get >>= f).run s = (f s).run s := rfl

theorem run_modify_bind (g : σ → σ) (f : PUnit → EStateM ε σ β) (s : σ) :
    (modify g >>= f).run s = (f ⟨⟩).run (g s) := rfl

/-- A counted loop, from the states before and after each pass: it returns exactly when
every pass does, and then in the state after the last one. -/
theorem run_forM_range (f : ℕ → EStateM ε σ PUnit) (state : ℕ → σ) (ok : ℕ → Prop)
    (pass : ∀ i, ok i → (f i).run (state i) = .ok ⟨⟩ (state (i + 1)))
    (stop : ∀ i s, ¬ ok i → (f i).run (state i) ≠ .ok ⟨⟩ s) (n : ℕ) (after : σ) :
    (forM (List.range n) f).run (state 0) = .ok ⟨⟩ after ↔
      (∀ i < n, ok i) ∧ after = state n := by
  induction n generalizing after with
  | zero =>
      constructor
      · intro run
        cases run
        exact ⟨fun i lt => absurd lt (Nat.not_lt_zero i), rfl⟩
      · rintro ⟨-, rfl⟩
        rfl
  | succ n ih =>
      have loop : forM (List.range (n + 1)) f = (forM (List.range n) f >>= fun _ => f n) := by
        rw [List.range_succ, List.forM_append]
        simp
      rw [loop]
      constructor
      · intro run
        obtain ⟨⟨⟩, s₁, before, last⟩ := run_bind_eq_ok run
        obtain ⟨earlier, rfl⟩ := (ih s₁).mp before
        have opens : ok n := by
          by_contra fails
          exact stop n after fails last
        have same := (pass n opens).symm.trans last
        cases same
        refine ⟨fun i lt => ?_, rfl⟩
        rcases Nat.lt_succ_iff_lt_or_eq.mp lt with lt | rfl
        · exact earlier i lt
        · exact opens
      · rintro ⟨all, rfl⟩
        have earlier : ∀ i < n, ok i := fun i lt => all i (Nat.lt_succ_of_lt lt)
        rw [run_bind_ok ((ih _).mpr ⟨earlier, rfl⟩)]
        exact pass n (all n (Nat.lt_succ_self n))

/-! ## State homomorphisms -/

/-- The image of a result: the state through `h`, the value through `g`. -/
def mapResult (h : σ → τ) (g : α → α') : EStateM.Result ε σ α → EStateM.Result ε τ α'
  | .ok a s => .ok (g a) (h s)
  | .error e s => .error e (h s)

@[simp] theorem mapResult_ok (h : σ → τ) (g : α → α') (a : α) (s : σ) :
    mapResult h g (.ok a s : EStateM.Result ε σ α) = .ok (g a) (h s) := rfl

@[simp] theorem mapResult_error (h : σ → τ) (g : α → α') (e : ε) (s : σ) :
    mapResult h g (.error e s : EStateM.Result ε σ α) = .error e (h s) := rfl

/-- The state a program leaves, whether it stops or not. -/
def stateOf : EStateM.Result ε σ α → σ
  | .ok _ s => s
  | .error _ s => s

theorem stateOf_mapResult (h : σ → τ) (g : α → α') (result : EStateM.Result ε σ α) :
    stateOf (mapResult h g result) = h (stateOf result) := by
  cases result <;> rfl

theorem mapResult_mapResult {υ α'' : Type} (h : σ → τ) (h' : τ → υ) (g : α → α') (g' : α' → α'')
    (result : EStateM.Result ε σ α) :
    mapResult h' g' (mapResult h g result) = mapResult (h' ∘ h) (g' ∘ g) result := by
  cases result <;> rfl

/-- `y` does to the image of a state what `x` does to the state. -/
def Hom (h : σ → τ) (g : α → α') (x : EStateM ε σ α) (y : EStateM ε τ α') : Prop :=
  ∀ s, y.run (h s) = mapResult h g (x.run s)

variable {h : σ → τ} {g : α → α'} {k : β → β'}

theorem Hom.ret {a : α} {a' : α'} (eq : a' = g a) :
    Hom h g (pure a : EStateM ε σ α) (pure a') := by
  intro s
  rw [EStateM.run_pure, EStateM.run_pure, eq, mapResult_ok]

theorem Hom.fail (e : ε) :
    Hom h g (throw e : EStateM ε σ α) (throw e) := fun _ => rfl

theorem Hom.update {f : σ → σ} {f' : τ → τ} (eq : ∀ s, f' (h s) = h (f s)) :
    Hom h id (modify f : EStateM ε σ PUnit) (modify f') := by
  intro s
  rw [EStateM.run_modify, EStateM.run_modify, eq, mapResult_ok, id]

theorem Hom.read : Hom h h (get : EStateM ε σ σ) get := fun _ => rfl

theorem Hom.bind {x : EStateM ε σ α} {y : EStateM ε τ α'} {f : α → EStateM ε σ β}
    {f' : α' → EStateM ε τ β'} (first : Hom h g x y)
    (rest : ∀ a, Hom h k (f a) (f' (g a))) : Hom h k (x >>= f) (y >>= f') := by
  intro s
  have image := first s
  rw [EStateM.run_bind, EStateM.run_bind]
  cases run : x.run s with
  | ok a s' =>
      rw [run, mapResult_ok] at image
      rw [image]
      exact rest a s'
  | error e s' =>
      rw [run, mapResult_error] at image
      rw [image]
      rfl

theorem Hom.ite {p p' : Prop} [Decidable p] [Decidable p'] {x₁ x₂ : EStateM ε σ α}
    {y₁ y₂ : EStateM ε τ α'} (same : p' ↔ p) (yes : Hom h g x₁ y₁) (no : Hom h g x₂ y₂) :
    Hom h g (if p then x₁ else x₂) (if p' then y₁ else y₂) := by
  by_cases holds : p
  · rw [if_pos holds, if_pos (same.mpr holds)]; exact yes
  · rw [if_neg holds, if_neg (mt same.mp holds)]; exact no

theorem Hom.loop_map {γ γ' : Type} {l : List γ} {m : γ → γ'} {f : γ → EStateM ε σ PUnit}
    {f' : γ' → EStateM ε τ PUnit} (each : ∀ c, Hom h id (f c) (f' (m c))) :
    Hom h id (forM l f) (forM (l.map m) f') := by
  induction l with
  | nil => exact Hom.ret rfl
  | cons c l ih =>
      rw [List.map_cons, List.forM_cons, List.forM_cons]
      exact Hom.bind (each c) fun _ => ih

theorem Hom.loop {γ : Type} {l : List γ} {f : γ → EStateM ε σ PUnit} {f' : γ → EStateM ε τ PUnit}
    (each : ∀ c, Hom h id (f c) (f' c)) : Hom h id (forM l f) (forM l f') := by
  have mapped : Hom h id (forM l f) (forM (l.map id) f') := Hom.loop_map each
  rwa [List.map_id] at mapped

end StateError
