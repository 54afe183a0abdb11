import Mathlib.Order.Lattice
import Mathlib.Data.List.Basic
import Mathlib.Data.List.Dedup
import Mathlib.Data.List.Induction
import Mathlib.Tactic.Common

/-!
# Sorted containers

`SortedSet α` is the value of an ordered set such as `std::set`: distinct
elements, iterated in increasing order.  `SortedMap κ α` is the value of an
ordered map such as `std::map`: at most one value a key, iterated in increasing
order of the keys.  Both carry the sortedness of their representation, so that a
list out of order cannot be built.
-/

namespace Container

/-! ## Sorted sets -/

/-- An ordered set: its elements in strictly increasing order. -/
structure SortedSet (α : Type*) [LinearOrder α] where
  elems : List α
  sorted : elems.Pairwise (· < ·)

namespace SortedSet

variable {α : Type*} [LinearOrder α]

@[ext] theorem ext {s t : SortedSet α} (h : s.elems = t.elems) : s = t := by
  cases s; cases t; cases h; rfl

instance : Membership α (SortedSet α) := ⟨fun s x => x ∈ s.elems⟩

instance : DecidableEq (SortedSet α) := fun s t =>
  decidable_of_iff (s.elems = t.elems) ⟨SortedSet.ext, fun h => by rw [h]⟩

instance (x : α) (s : SortedSet α) : Decidable (x ∈ s) :=
  inferInstanceAs (Decidable (x ∈ s.elems))

instance [Repr α] : Repr (SortedSet α) := ⟨fun s n => reprPrec s.elems n⟩

theorem mem_def {x : α} {s : SortedSet α} : x ∈ s ↔ x ∈ s.elems := Iff.rfl

/-- The set without elements. -/
def empty : SortedSet α := ⟨[], .nil⟩

@[simp] theorem elems_empty : (empty : SortedSet α).elems = [] := rfl

@[simp] theorem not_mem_empty (x : α) : x ∉ (empty : SortedSet α) := List.not_mem_nil

theorem eq_empty_iff {s : SortedSet α} : s = empty ↔ ∀ x, x ∉ s := by
  rw [SortedSet.ext_iff, elems_empty, List.eq_nil_iff_forall_not_mem]
  exact Iff.rfl

/-- Insertion into a strictly increasing list; an element already there is kept. -/
def insertList (x : α) : List α → List α
  | [] => [x]
  | y :: ys => if x < y then x :: y :: ys else if x = y then y :: ys else y :: insertList x ys

theorem mem_insertList {x y : α} {l : List α} : y ∈ insertList x l ↔ y = x ∨ y ∈ l := by
  induction l with
  | nil => simp [insertList]
  | cons z zs ih =>
      unfold insertList
      split_ifs with hlt heq
      · simp
      · subst heq; simp
      · simp only [List.mem_cons, ih]; tauto

theorem insertList_sorted {x : α} {l : List α} (h : l.Pairwise (· < ·)) :
    (insertList x l).Pairwise (· < ·) := by
  induction l with
  | nil => simp [insertList]
  | cons z zs ih =>
      obtain ⟨head, tail⟩ := List.pairwise_cons.mp h
      unfold insertList
      split_ifs with hlt heq
      · refine List.pairwise_cons.mpr ⟨fun w hw => ?_, h⟩
        rcases List.mem_cons.mp hw with rfl | hw
        · exact hlt
        · exact hlt.trans (head w hw)
      · exact h
      · refine List.pairwise_cons.mpr ⟨fun w hw => ?_, ih tail⟩
        rcases mem_insertList.mp hw with rfl | hw
        · exact lt_of_le_of_ne (not_lt.mp hlt) (Ne.symm heq)
        · exact head w hw

/-- `insert`: the set with `x` in it, and whether `x` was new. -/
def insert (s : SortedSet α) (x : α) : SortedSet α × Bool :=
  (⟨insertList x s.elems, insertList_sorted s.sorted⟩, decide (x ∉ s))

@[simp] theorem mem_insert {s : SortedSet α} {x y : α} :
    y ∈ (s.insert x).1 ↔ y = x ∨ y ∈ s := mem_insertList

theorem insert_snd_iff {s : SortedSet α} {x : α} : (s.insert x).2 = true ↔ x ∉ s :=
  decide_eq_true_iff

/-- `erase`: the set without `x`. -/
def erase (s : SortedSet α) (x : α) : SortedSet α :=
  ⟨s.elems.erase x, s.sorted.sublist List.erase_sublist⟩

@[simp] theorem elems_erase (s : SortedSet α) (x : α) :
    (s.erase x).elems = s.elems.erase x := rfl

/-- The elements of a sorted set are told apart by membership. -/
theorem ext_mem {s t : SortedSet α} (h : ∀ x, x ∈ s ↔ x ∈ t) : s = t := by
  apply SortedSet.ext
  refine List.Perm.eq_of_pairwise (fun a b _ _ hab hba => absurd hab (not_lt.mpr hba.le))
    s.sorted t.sorted ?_
  exact (List.perm_ext_iff_of_nodup (s.sorted.imp fun h => h.ne)
    (t.sorted.imp fun h => h.ne)).mpr h

/-- Insertion of an element leaves the set as it is. -/
theorem insert_of_mem {s : SortedSet α} {x : α} (mem : x ∈ s) : (s.insert x).1 = s := by
  refine ext_mem fun y => ?_
  rw [mem_insert, or_iff_right_iff_imp]
  rintro rfl
  exact mem

end SortedSet

/-! ## Sorted maps -/

/-- An ordered map: its entries in strictly increasing order of the keys. -/
structure SortedMap (κ α : Type*) [LinearOrder κ] where
  entries : List (κ × α)
  sorted : entries.Pairwise (fun a b => a.1 < b.1)

namespace SortedMap

variable {κ α β : Type*} [LinearOrder κ]

@[ext] theorem ext {m m' : SortedMap κ α} (h : m.entries = m'.entries) : m = m' := by
  cases m; cases m'; cases h; rfl

instance [DecidableEq α] : DecidableEq (SortedMap κ α) := fun m m' =>
  decidable_of_iff (m.entries = m'.entries) ⟨SortedMap.ext, fun h => by rw [h]⟩

instance [Repr κ] [Repr α] : Repr (SortedMap κ α) := ⟨fun m n => reprPrec m.entries n⟩

/-- The map without entries. -/
def empty : SortedMap κ α := ⟨[], .nil⟩

/-- The list form of an assignment: the entry of the key is replaced or added. -/
def setList (k : κ) (v : α) : List (κ × α) → List (κ × α)
  | [] => [(k, v)]
  | e :: es =>
      if k < e.1 then (k, v) :: e :: es
      else if k = e.1 then (k, v) :: es
      else e :: setList k v es

theorem mem_setList {k : κ} {v : α} {e : κ × α} {l : List (κ × α)}
    (h : e ∈ setList k v l) : e = (k, v) ∨ e ∈ l := by
  induction l with
  | nil => exact Or.inl (List.mem_singleton.mp h)
  | cons e' es ih =>
      rw [setList] at h
      split_ifs at h with hlt heq
      · exact (List.mem_cons.mp h).imp_right id
      · exact (List.mem_cons.mp h).imp_right (List.mem_cons_of_mem _)
      · rcases List.mem_cons.mp h with rfl | h
        · exact Or.inr List.mem_cons_self
        · exact (ih h).imp_right (List.mem_cons_of_mem _)

theorem setList_sorted {k : κ} {v : α} {l : List (κ × α)}
    (h : l.Pairwise (fun a b => a.1 < b.1)) :
    (setList k v l).Pairwise (fun a b => a.1 < b.1) := by
  induction l with
  | nil => simp [setList]
  | cons e es ih =>
      obtain ⟨head, tail⟩ := List.pairwise_cons.mp h
      unfold setList
      split_ifs with hlt heq
      · refine List.pairwise_cons.mpr ⟨fun w hw => ?_, h⟩
        rcases List.mem_cons.mp hw with rfl | hw
        · exact hlt
        · exact hlt.trans (head w hw)
      · exact List.pairwise_cons.mpr ⟨fun w hw => heq ▸ head w hw, tail⟩
      · refine List.pairwise_cons.mpr ⟨fun w hw => ?_, ih tail⟩
        rcases mem_setList hw with rfl | hw
        · exact lt_of_le_of_ne (not_lt.mp hlt) (Ne.symm heq)
        · exact head w hw

/-- `m[k] = v`. -/
def set (m : SortedMap κ α) (k : κ) (v : α) : SortedMap κ α :=
  ⟨setList k v m.entries, setList_sorted m.sorted⟩

theorem mem_set {m : SortedMap κ α} {k : κ} {v : α} {e : κ × α}
    (h : e ∈ (m.set k v).entries) : e = (k, v) ∨ e ∈ m.entries := mem_setList h

/-- `find`: the value of a key, when it has one. -/
def find? (m : SortedMap κ α) (k : κ) : Option α :=
  (m.entries.find? fun e => e.1 = k).map Prod.snd

theorem find?_setList_self (k : κ) (v : α) (l : List (κ × α)) :
    (setList k v l).find? (fun e => e.1 = k) = some (k, v) := by
  induction l with
  | nil => simp [setList]
  | cons e es ih =>
      unfold setList
      split_ifs with hlt heq
      · simp
      · simp
      · rw [List.find?_cons_of_neg (by simpa using Ne.symm heq)]
        exact ih

theorem find?_setList_of_ne {k k' : κ} (v : α) (l : List (κ × α)) (h : k' ≠ k) :
    (setList k v l).find? (fun e => e.1 = k') = l.find? (fun e => e.1 = k') := by
  induction l with
  | nil => simp [setList, Ne.symm h]
  | cons e es ih =>
      unfold setList
      split_ifs with hlt heq
      · rw [List.find?_cons_of_neg (by simpa using Ne.symm h)]
      · rw [List.find?_cons_of_neg (by simpa using Ne.symm h),
          List.find?_cons_of_neg (by simpa [← heq] using Ne.symm h)]
      · rw [List.find?_cons, List.find?_cons, ih]

@[simp] theorem find?_set_self (m : SortedMap κ α) (k : κ) (v : α) :
    (m.set k v).find? k = some v := by
  rw [find?, set, find?_setList_self, Option.map_some]

theorem find?_set_of_ne (m : SortedMap κ α) {k k' : κ} (v : α) (h : k' ≠ k) :
    (m.set k v).find? k' = m.find? k' := by
  rw [find?, set, find?_setList_of_ne v m.entries h, ← find?]

theorem mem_of_find? {m : SortedMap κ α} {k : κ} {v : α} (h : m.find? k = some v) :
    (k, v) ∈ m.entries := by
  obtain ⟨e, found, rfl⟩ := Option.map_eq_some_iff.mp h
  have key : e.1 = k := by simpa using List.find?_some found
  subst key
  exact List.mem_of_find?_eq_some found

/-- `m[k]` read as a value: a missing key first gets the default value. -/
def getOrInsert (m : SortedMap κ α) (k : κ) (dflt : α) : α × SortedMap κ α :=
  match m.find? k with
  | some v => (v, m)
  | none => (dflt, m.set k dflt)

theorem getOrInsert_of_find? {m : SortedMap κ α} {k : κ} {v : α} (dflt : α)
    (h : m.find? k = some v) : m.getOrInsert k dflt = (v, m) := by
  rw [getOrInsert, h]

/-- An entry set at a key no smaller than the others is the last one. -/
theorem getLast?_set {m : SortedMap κ α} {k : κ} {v : α}
    (h : ∀ e ∈ m.entries, e.1 ≤ k) : (m.set k v).entries.getLast? = some (k, v) := by
  have aux : ∀ l : List (κ × α), l.Pairwise (fun a b => a.1 < b.1) → (∀ e ∈ l, e.1 ≤ k) →
      (setList k v l).getLast? = some (k, v) := by
    intro l
    induction l with
    | nil => intro _ _; rfl
    | cons e es ih =>
        intro pairwise bound
        obtain ⟨head, tail⟩ := List.pairwise_cons.mp pairwise
        have le := bound e List.mem_cons_self
        rw [setList, if_neg (not_lt.mpr le)]
        split_ifs with heq
        · have nil : es = [] := by
            rw [List.eq_nil_iff_forall_not_mem]
            intro w hw
            exact absurd (head w hw)
              (not_lt.mpr (heq ▸ bound w (List.mem_cons_of_mem _ hw)))
          rw [nil]; rfl
        · have last := ih tail fun w hw => bound w (List.mem_cons_of_mem _ hw)
          rw [List.getLast?_cons, last]
          rfl
  exact aux m.entries m.sorted h

/-- An entry of a map filled by assignments is one of those, or was there before. -/
theorem mem_foldl_set {ι : Type*} {key : ι → κ} {val : ι → α} {l : List ι} {m : SortedMap κ α}
    {e : κ × α} (h : e ∈ (l.foldl (fun m a => m.set (key a) (val a)) m).entries) :
    e ∈ m.entries ∨ ∃ a ∈ l, e = (key a, val a) := by
  induction l using List.reverseRecOn with
  | nil => exact .inl h
  | append_singleton l a ih =>
      rw [List.foldl_concat] at h
      rcases mem_set h with rfl | h
      · exact .inr ⟨a, by simp, rfl⟩
      · rcases ih h with old | ⟨b, hb, rfl⟩
        · exact .inl old
        · exact .inr ⟨b, List.mem_append_left _ hb, rfl⟩

/-- Every key that was assigned has an entry. -/
theorem find?_foldl_set_isSome {ι : Type*} (key : ι → κ) (val : ι → α) {l : List ι}
    {m : SortedMap κ α} {a : ι} (h : a ∈ l) :
    ((l.foldl (fun m a => m.set (key a) (val a)) m).find? (key a)).isSome := by
  induction l using List.reverseRecOn with
  | nil => exact absurd h List.not_mem_nil
  | append_singleton l b ih =>
      rw [List.foldl_concat]
      by_cases same : key a = key b
      · rw [same, find?_set_self]
        rfl
      · rw [find?_set_of_ne _ _ same]
        rcases List.mem_append.mp h with old | new
        · exact ih old
        · exact absurd (congrArg key (List.mem_singleton.mp new)) same

/-- Its keys are those that were assigned, each once. -/
theorem keys_foldl_set_perm {ι : Type*} (key : ι → κ) (val : ι → α) (l : List ι) :
    ((l.foldl (fun m a => m.set (key a) (val a)) empty).entries.map Prod.fst).Perm
      (l.map key).dedup := by
  have sorted := (l.foldl (fun m a => m.set (key a) (val a)) (empty : SortedMap κ α)).sorted
  have nodup : ((l.foldl (fun m a => m.set (key a) (val a)) (empty : SortedMap κ α)).entries.map
      Prod.fst).Nodup := List.pairwise_map.mpr (sorted.imp fun lt => lt.ne)
  refine (List.perm_ext_iff_of_nodup nodup (List.nodup_dedup _)).mpr fun k => ?_
  rw [List.mem_dedup, List.mem_map, List.mem_map]
  constructor
  · rintro ⟨e, mem, rfl⟩
    rcases mem_foldl_set mem with old | ⟨a, memA, rfl⟩
    · exact absurd old List.not_mem_nil
    · exact ⟨a, memA, rfl⟩
  · rintro ⟨a, mem, rfl⟩
    obtain ⟨v, found⟩ := Option.isSome_iff_exists.mp
      (find?_foldl_set_isSome key val (m := empty) mem)
    exact ⟨_, mem_of_find? found, rfl⟩

/-- It has an entry for each assignment exactly when no two had the same key. -/
theorem length_foldl_set_iff {ι : Type*} (key : ι → κ) (val : ι → α) (l : List ι) :
    (l.foldl (fun m a => m.set (key a) (val a)) empty).entries.length = l.length ↔
      (l.map key).Nodup := by
  have size := (keys_foldl_set_perm key val l).length_eq
  rw [List.length_map] at size
  rw [size, ← List.dedup_eq_self]
  constructor
  · intro all
    exact (List.dedup_sublist _).eq_of_length (by rw [all, List.length_map])
  · intro all
    rw [all, List.length_map]

/-- Then every key has the value it was assigned. -/
theorem find?_foldl_set {ι : Type*} {key : ι → κ} (val : ι → α) {l : List ι} {a : ι}
    (nodup : (l.map key).Nodup) (mem : a ∈ l) :
    (l.foldl (fun m a => m.set (key a) (val a)) empty).find? (key a) = some (val a) := by
  obtain ⟨v, found⟩ := Option.isSome_iff_exists.mp
    (find?_foldl_set_isSome key val (m := empty) mem)
  rcases mem_foldl_set (mem_of_find? found) with old | ⟨b, memB, same⟩
  · exact absurd old List.not_mem_nil
  · obtain ⟨keys, rfl⟩ := Prod.mk.inj same
    rw [found, List.inj_on_of_nodup_map nodup mem memB keys]

/-- Assignments at keys that do not decrease: the last one is the last entry. -/
theorem getLast?_foldl_set {ι : Type*} {key : ι → κ} {val : ι → α} {l : List ι}
    (h : l.Pairwise fun a b => key a ≤ key b) :
    (l.foldl (fun m a => m.set (key a) (val a)) empty).entries.getLast? =
      l.getLast?.map fun a => (key a, val a) := by
  induction l using List.reverseRecOn with
  | nil => rfl
  | append_singleton l a _ =>
      rw [List.foldl_concat, List.getLast?_concat]
      refine getLast?_set fun e he => ?_
      rcases mem_foldl_set he with old | ⟨b, hb, rfl⟩
      · exact absurd old List.not_mem_nil
      · exact (List.pairwise_append.mp h).2.2 b hb a (by simp)

/-- The map with every value changed by `f`. -/
def map (f : α → β) (m : SortedMap κ α) : SortedMap κ β :=
  ⟨m.entries.map fun e => (e.1, f e.2), List.pairwise_map.mpr m.sorted⟩

theorem map_setList (f : α → β) (k : κ) (v : α) (l : List (κ × α)) :
    (setList k v l).map (fun e => (e.1, f e.2)) =
      setList k (f v) (l.map fun e => (e.1, f e.2)) := by
  induction l with
  | nil => rfl
  | cons e es ih =>
      rw [setList, List.map_cons, setList]
      split_ifs <;> simp [ih]

@[simp] theorem map_set (f : α → β) (m : SortedMap κ α) (k : κ) (v : α) :
    (m.set k v).map f = (m.map f).set k (f v) :=
  SortedMap.ext (map_setList f k v m.entries)

@[simp] theorem find?_map (f : α → β) (m : SortedMap κ α) (k : κ) :
    (m.map f).find? k = (m.find? k).map f := by
  rw [find?, map, List.find?_map, find?, Option.map_map, Option.map_map]
  rfl

theorem getOrInsert_map (f : α → β) (m : SortedMap κ α) (k : κ) (dflt : α) :
    (m.map f).getOrInsert k (f dflt) =
      (f (m.getOrInsert k dflt).1, (m.getOrInsert k dflt).2.map f) := by
  unfold getOrInsert
  rw [find?_map]
  cases m.find? k with
  | none => exact congrArg (Prod.mk _) (map_set f m k dflt).symm
  | some v => rfl

end SortedMap

end Container
