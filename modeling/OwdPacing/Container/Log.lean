import Mathlib.Algebra.Ring.Nat
import Mathlib.Data.List.Basic
import Mathlib.Data.List.Nodup
import Mathlib.Data.List.Perm.Basic
import Mathlib.Tactic.Common

/-!
# Logs and keyed lists

Order of first appearance in a list that only grows at its end, and the update
of one entry of a list: of one whose entries have distinct keys, and of two that
are the same up to the order of their entries.
-/

namespace Container

/-- An entry of a log that grew by one is an old entry or the new one. -/
theorem getElem?_concat_cases {α : Type*} {l : List α} {new x : α} {k : ℕ}
    (get : (l ++ [new])[k]? = some x) :
    (k < l.length ∧ l[k]? = some x) ∨ (k = l.length ∧ new = x) := by
  rcases Nat.lt_or_ge k l.length with lt | ge
  · rw [List.getElem?_append_left lt] at get
    exact .inl ⟨lt, get⟩
  · have bound := (List.getElem?_eq_some_iff.mp get).1
    rw [List.length_append, List.length_singleton] at bound
    have last : k = l.length := by omega
    rw [last, List.getElem?_concat_length] at get
    exact .inr ⟨last, Option.some.inj get⟩

/-! ## Order of appearance -/

section Before

variable {α : Type*} [DecidableEq α] {l l' : List α} {a b c : α}

/-- `a` entered the log before `b`, which may still be missing from it. -/
def Before (log : List α) (a b : α) : Prop := log.idxOf a < log.idxOf b

instance (log : List α) (a b : α) : Decidable (Before log a b) :=
  inferInstanceAs (Decidable (_ < _))

theorem Before.mem (h : Before l a b) : a ∈ l :=
  List.idxOf_lt_length_iff.mp (Nat.lt_of_lt_of_le h List.idxOf_le_length)

theorem Before.asymm (h : Before l a b) : ¬ Before l b a := Nat.lt_asymm h

theorem before_or_before (mem : a ∈ l) (ne : a ≠ b) : Before l a b ∨ Before l b a := by
  rcases Nat.lt_trichotomy (l.idxOf a) (l.idxOf b) with lt | eq | gt
  · exact .inl lt
  · exact absurd ((List.idxOf_inj mem).mp eq) ne
  · exact .inr gt

/-- What is in the log keeps its place when the log grows. -/
theorem before_append (mem : a ∈ l) : Before (l ++ l') a b ↔ Before l a b := by
  have before : l.idxOf a < l.length := List.idxOf_lt_length_of_mem mem
  rw [Before, List.idxOf_append_of_mem mem, Before]
  by_cases hb : b ∈ l
  · rw [List.idxOf_append_of_mem hb]
  · rw [List.idxOf_append_of_notMem hb, List.idxOf_of_notMem hb]
    omega

/-- What was in the log came after nothing that entered it later. -/
theorem before_append_of_mem_right (mem : b ∈ l) : Before (l ++ l') a b ↔ Before l a b := by
  have before : l.idxOf b < l.length := List.idxOf_lt_length_of_mem mem
  rw [Before, List.idxOf_append_of_mem mem, Before]
  by_cases ha : a ∈ l
  · rw [List.idxOf_append_of_mem ha]
  · rw [List.idxOf_append_of_notMem ha, List.idxOf_of_notMem ha]
    omega

/-- The newest entry came before all that is still missing. -/
theorem before_concat_self (fresh : a ∉ l) : Before (l ++ [a]) a b ↔ b ∉ l ∧ b ≠ a := by
  have last : (l ++ [a]).idxOf a = l.length := by
    rw [List.idxOf_append_of_notMem fresh, List.idxOf_cons_self, Nat.add_zero]
  rw [Before, last]
  constructor
  · intro after
    refine ⟨fun mem => ?_, ?_⟩
    · have := List.idxOf_lt_length_of_mem mem
      rw [List.idxOf_append_of_mem mem] at after
      omega
    · rintro rfl
      omega
  · rintro ⟨missing, ne⟩
    have absent : b ∉ [a] := by simpa using ne
    rw [List.idxOf_append_of_notMem missing, List.idxOf_of_notMem absent]
    exact Nat.lt_add_of_pos_right Nat.one_pos

/-- The newest entry came after all that was there. -/
theorem before_concat_iff_mem (fresh : b ∉ l) : Before (l ++ [b]) a b ↔ a ∈ l := by
  have last : (l ++ [b]).idxOf b = l.length := by
    rw [List.idxOf_append_of_notMem fresh, List.idxOf_cons_self, Nat.add_zero]
  rw [Before, last]
  constructor
  · intro before
    by_contra missing
    rw [List.idxOf_append_of_notMem missing] at before
    omega
  · intro mem
    rw [List.idxOf_append_of_mem mem]
    exact List.idxOf_lt_length_of_mem mem

end Before

/-! ## Order of appearance and time -/

section Timed

variable {ε κ : Type*} [DecidableEq κ] {key : ε → κ} {time : ε → Int} {log : List ε} {x y : ε}

/-- In a log whose times do not decrease, what comes before is not later. -/
theorem time_le_of_before (sorted : log.Pairwise fun a b => time a ≤ time b)
    (nodup : (log.map key).Nodup) (memX : x ∈ log) (memY : y ∈ log)
    (before : Before (log.map key) (key x) (key y)) : time x ≤ time y := by
  obtain ⟨i, hi, rfl⟩ := List.getElem_of_mem memX
  obtain ⟨j, hj, rfl⟩ := List.getElem_of_mem memY
  have index : ∀ k (hk : k < log.length), (log.map key).idxOf (key log[k]) = k := by
    intro k hk
    have := List.Nodup.idxOf_getElem nodup k (by rwa [List.length_map])
    rwa [List.getElem_map] at this
  rw [Before, index i hi, index j hj] at before
  exact List.pairwise_iff_getElem.mp sorted i j hi hj before

/-- In such a log, what is earlier comes before. -/
theorem before_of_time_lt (sorted : log.Pairwise fun a b => time a ≤ time b)
    (nodup : (log.map key).Nodup) (memX : x ∈ log) (memY : y ∈ log) (lt : time x < time y) :
    Before (log.map key) (key x) (key y) := by
  have ne : key x ≠ key y := by
    intro eq
    have : x = y := List.inj_on_of_nodup_map nodup memX memY eq
    rw [this] at lt
    exact absurd lt (Int.lt_irrefl _)
  rcases before_or_before (List.mem_map_of_mem memX) ne with before | after
  · exact before
  · exact absurd (time_le_of_before sorted nodup memY memX after) (Int.not_le.mpr lt)

/-- In such a log the last entry is the latest. -/
theorem le_of_getLast? (sorted : log.Pairwise fun a b => time a ≤ time b)
    (last : log.getLast? = some y) (mem : x ∈ log) : time x ≤ time y := by
  obtain ⟨earlier, rfl⟩ := List.getLast?_eq_some_iff.mp last
  cases List.mem_append.mp mem with
  | inl old => exact (List.pairwise_append.mp sorted).2.2 x old y (List.mem_singleton_self y)
  | inr new => exact Int.le_of_eq (congrArg time (List.mem_singleton.mp new))

/-- A log whose times do not decrease and have all been reached at `now`. -/
structure Ascending (time : ε → Int) (log : List ε) (now : Int) : Prop where
  sorted : log.Pairwise fun a b => time a ≤ time b
  past : ∀ x ∈ log, time x ≤ now

variable {now now' : Int}

theorem Ascending.nil : Ascending time [] now := ⟨.nil, by simp⟩

theorem Ascending.later (h : Ascending time log now) (le : now ≤ now') : Ascending time log now' :=
  ⟨h.sorted, fun x mem => Int.le_trans (h.past x mem) le⟩

theorem Ascending.concat (h : Ascending time log now) (le : now ≤ now') (new : time x = now') :
    Ascending time (log ++ [x]) now' := by
  constructor
  · refine List.pairwise_append.mpr ⟨h.sorted, List.pairwise_singleton _ _, ?_⟩
    intro y mem z last
    rw [List.mem_singleton.mp last, new]
    exact Int.le_trans (h.past y mem) le
  · intro y mem
    rcases List.mem_append.mp mem with old | last
    · exact Int.le_trans (h.past y old) le
    · exact Int.le_of_eq ((congrArg time (List.mem_singleton.mp last)).trans new)

end Timed

/-! ## One entry of a keyed list -/

section Keyed

variable {ε κ : Type*} {key : ε → κ} {l : List ε} {x x' y : ε} {i : Nat}

theorem map_set_of_eq {f : ε → κ} (get : l[i]? = some x) (same : f x' = f x) :
    (l.set i x').map f = l.map f := by
  obtain ⟨lt, rfl⟩ := List.getElem?_eq_some_iff.mp get
  rw [List.map_set, same, ← List.getElem_map f (h := by rwa [List.length_map]),
    List.set_getElem_self]

/-- A sum over the list after the update of one entry. -/
theorem sum_map_set (w : ε → ℕ) (x' : ε) (get : l[i]? = some x) :
    ((l.set i x').map w).sum + w x = (l.map w).sum + w x' := by
  induction l generalizing i with
  | nil => cases get
  | cons y l ih =>
      cases i with
      | zero =>
          obtain rfl : y = x := Option.some.inj get
          rw [List.set_cons_zero, List.map_cons, List.map_cons, List.sum_cons, List.sum_cons]
          omega
      | succ i =>
          have rest := ih get
          rw [List.set_cons_succ, List.map_cons, List.map_cons, List.sum_cons, List.sum_cons]
          omega

theorem mem_set_of_keys_nodup (nodup : (l.map key).Nodup) (get : l[i]? = some x) :
    y ∈ l.set i x' ↔ y = x' ∨ y ∈ l ∧ key y ≠ key x := by
  obtain ⟨lt, rfl⟩ := List.getElem?_eq_some_iff.mp get
  rw [List.mem_iff_getElem?]
  constructor
  · rintro ⟨j, hj⟩
    rw [List.getElem?_set] at hj
    split_ifs at hj with eq
    · exact .inl (Option.some.inj hj).symm
    · obtain ⟨ltJ, rfl⟩ := List.getElem?_eq_some_iff.mp hj
      refine .inr ⟨List.getElem_mem ltJ, fun same => eq ?_⟩
      have keyJ : j < (l.map key).length := by rwa [List.length_map]
      have keyI : i < (l.map key).length := by rwa [List.length_map]
      have keys : (l.map key)[j] = (l.map key)[i] := by
        rw [List.getElem_map, List.getElem_map]
        exact same
      exact ((List.Nodup.getElem_inj_iff nodup).mp keys).symm
  · rintro (rfl | ⟨mem, ne⟩)
    · exact ⟨i, by rw [List.getElem?_set, if_pos rfl, if_pos lt]⟩
    · obtain ⟨j, ltJ, rfl⟩ := List.getElem_of_mem mem
      refine ⟨j, ?_⟩
      rw [List.getElem?_set, if_neg, List.getElem?_eq_getElem ltJ]
      rintro rfl
      exact ne rfl

theorem eq_of_key_eq (nodup : (l.map key).Nodup) (memX : x ∈ l) (memY : y ∈ l)
    (same : key x = key y) : x = y :=
  List.inj_on_of_nodup_map nodup memX memY same

/-- The entries with the key of an entry are this one. -/
theorem filter_key_eq [DecidableEq κ] (nodup : (l.map key).Nodup) (mem : x ∈ l) :
    l.filter (fun y => key y = key x) = [x] := by
  induction l with
  | nil => exact absurd mem List.not_mem_nil
  | cons y l ih =>
      rw [List.map_cons, List.nodup_cons] at nodup
      rcases List.mem_cons.mp mem with rfl | later
      · have others : l.filter (fun y => key y = key x) = [] := by
          rw [List.filter_eq_nil_iff]
          intro z memZ same
          exact nodup.1 (of_decide_eq_true same ▸ List.mem_map_of_mem memZ)
        rw [List.filter_cons_of_pos (by simp), others]
      · have ne : key y ≠ key x := fun same => nodup.1 (same ▸ List.mem_map_of_mem later)
        rw [List.filter_cons_of_neg (by simpa using ne)]
        exact ih nodup.2 later

/-- And the first of them stands where it does. -/
theorem findIdx?_key_eq [DecidableEq κ] (nodup : (l.map key).Nodup) (get : l[i]? = some x) :
    l.findIdx? (fun y => key y = key x) = some i := by
  obtain ⟨lt, rfl⟩ := List.getElem?_eq_some_iff.mp get
  rw [List.findIdx?_eq_some_iff_getElem]
  refine ⟨lt, by simp, fun j before same => ?_⟩
  have ltJ : j < l.length := Nat.lt_trans before lt
  have keys : (l.map key)[j]? = (l.map key)[i]? := by
    rw [List.getElem?_map, List.getElem?_map, List.getElem?_eq_getElem ltJ, get]
    exact congrArg some (of_decide_eq_true same)
  have index : j = i := (List.getElem?_inj (by rwa [List.length_map]) nodup).mp keys
  exact absurd index (Nat.ne_of_lt before)

end Keyed

/-! ## One entry of a list in any order -/

section Permuted

variable {ε : Type*} {l l' rest : List ε} {x y : ε} {i j : ℕ}

theorem perm_cons_eraseIdx (get : l[i]? = some x) : l.Perm (x :: l.eraseIdx i) := by
  obtain ⟨lt, rfl⟩ := List.getElem?_eq_some_iff.mp get
  exact (List.getElem_cons_eraseIdx_perm lt).symm

/-- The order of the entries does not matter for the update of one of them. -/
theorem perm_set (perm : l.Perm l') (get : l[i]? = some x) (get' : l'[j]? = some x) :
    (l.set i y).Perm (l'.set j y) := by
  have others : (l.eraseIdx i).Perm (l'.eraseIdx j) :=
    ((perm_cons_eraseIdx get).symm.trans (perm.trans (perm_cons_eraseIdx get'))).cons_inv
  have lt := (List.getElem?_eq_some_iff.mp get).1
  have lt' := (List.getElem?_eq_some_iff.mp get').1
  exact (List.set_perm_cons_eraseIdx lt y).trans
    ((others.cons y).trans (List.set_perm_cons_eraseIdx lt' y).symm)

/-- An entry of one part is an entry of the whole, and updated in both the whole keeps
the same parts. -/
theorem exists_perm_set (perm : l.Perm (l' ++ rest)) (get : l'[i]? = some x) :
    ∃ j, l[j]? = some x ∧ ∀ y, (l.set j y).Perm (l'.set i y ++ rest) := by
  have lt := (List.getElem?_eq_some_iff.mp get).1
  have both : (l' ++ rest)[i]? = some x := by rwa [List.getElem?_append_left lt]
  obtain ⟨j, got⟩ := List.getElem?_of_mem (perm.mem_iff.mpr (List.mem_of_getElem? both))
  refine ⟨j, got, fun y => ?_⟩
  rw [← List.set_append_left i y lt]
  exact perm_set perm got both

/-- What leaves one part for the other stays in the whole. -/
theorem perm_eraseIdx_append_cons (perm : l.Perm (l' ++ rest)) (get : l'[i]? = some x) :
    l.Perm (l'.eraseIdx i ++ x :: rest) :=
  perm.trans (((perm_cons_eraseIdx get).append_right rest).trans List.perm_middle.symm)

end Permuted

end Container
