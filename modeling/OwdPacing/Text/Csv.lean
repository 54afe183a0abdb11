import Mathlib.Data.List.Basic
import Mathlib.Logic.Function.Basic
import Mathlib.Tactic.Common

/-!
# Tables of separated fields

A text of lines, each ended by one character, whose fields another character
keeps apart, and a reader of it: it cuts the text into lines and the lines into
fields, and finds a field by the place of its name in the header.
-/

namespace Csv

variable {κ : Type*} {sep eol : κ}

/-! ## Writing -/

/-- The text of some lines, each of them ended by `eol`. -/
def unlines (eol : κ) (lines : List (List κ)) : List κ := lines.flatMap (· ++ [eol])

/-- A line of fields with `sep` between them. -/
def line (sep : κ) (fields : List (List κ)) : List κ := [sep].intercalate fields

theorem line_singleton (f : List κ) : line sep [f] = f := List.intercalate_singleton

theorem line_cons_cons (f g : List κ) (fs : List (List κ)) :
    line sep (f :: g :: fs) = f ++ sep :: line sep (g :: fs) := by
  rw [line, List.intercalate_cons_cons, List.append_assoc]
  rfl

/-- A line has no characters but those of its fields and the one between them. -/
theorem not_mem_line {k : κ} (ne : k ≠ sep) {fs : List (List κ)} (clean : ∀ f ∈ fs, k ∉ f) :
    k ∉ line sep fs := by
  induction fs with
  | nil => exact List.not_mem_nil
  | cons f fs ih =>
      have ⟨here, later⟩ := List.forall_mem_cons.mp clean
      cases fs with
      | nil =>
          rw [line_singleton]
          exact here
      | cons g fs =>
          rw [line_cons_cons, List.mem_append, List.mem_cons]
          rintro (inField | same | inRest)
          · exact here inField
          · exact ne same
          · exact ih later inRest

/-- A field that is left blank unless `p` holds. -/
def shown (p : Prop) [Decidable p] (text : List κ) : List κ := if p then text else []

theorem not_mem_shown {k : κ} {p : Prop} [Decidable p] {text : List κ} (clean : k ∉ text) :
    k ∉ shown p text := by
  unfold shown
  split_ifs
  · exact clean
  · exact List.not_mem_nil

/-- A header line with the names of the columns and, for each row, a line of its cells. -/
def table {ρ γ : Type*} (sep eol : κ) (columns : List γ) (name : γ → List κ)
    (cell : ρ → γ → List κ) (rows : List ρ) : List κ :=
  unlines eol (line sep (columns.map name) :: rows.map fun row => line sep (columns.map (cell row)))

/-! ## Reading -/

section Reading

variable [DecidableEq κ]

/-- What stands before each `eol` of a text. -/
def lines (eol : κ) (text : List κ) : List (List κ) := (text.splitOn eol).dropLast

theorem splitOn_unlines {ls : List (List κ)} (clean : ∀ l ∈ ls, eol ∉ l) :
    (unlines eol ls).splitOn eol = ls ++ [[]] := by
  induction ls with
  | nil => exact List.splitOn_nil eol
  | cons l ls ih =>
      have ⟨here, later⟩ := List.forall_mem_cons.mp clean
      rw [unlines, List.flatMap_cons, List.append_assoc, List.singleton_append,
        List.splitOn_append_cons_self_of_not_mem here]
      exact congrArg (l :: ·) (ih later)

/-- Lines without the character that ends them are read back. -/
theorem lines_unlines {ls : List (List κ)} (clean : ∀ l ∈ ls, eol ∉ l) :
    lines eol (unlines eol ls) = ls := by
  rw [lines, splitOn_unlines clean, List.dropLast_concat]

/-- The fields of a line. -/
def fields (sep : κ) (line : List κ) : List (List κ) := line.splitOn sep

/-- Fields without the character between them are read back. -/
theorem fields_line {fs : List (List κ)} (nonempty : fs ≠ []) (clean : ∀ f ∈ fs, sep ∉ f) :
    fields sep (line sep fs) = fs :=
  List.splitOn_intercalate sep clean nonempty

/-- The field of a line below the place of `name` in the header. -/
def column (header row : List (List κ)) (name : List κ) : Option (List κ) :=
  row[header.idxOf name]?

/-- In a line with one cell for each column of a table, the cell of a column is found
by the column's name. -/
theorem column_map {γ : Type*} {columns : List γ} {name : γ → List κ} (cell : γ → List κ)
    {c : γ} (mem : c ∈ columns) (unique : ∀ d ∈ columns, name d = name c → d = c) :
    column (columns.map name) (columns.map cell) (name c) = some (cell c) := by
  have found : name c ∈ columns.map name := List.mem_map_of_mem mem
  have place := List.getElem?_idxOf found
  rw [List.getElem?_map, Option.map_eq_some_iff] at place
  obtain ⟨d, get, named⟩ := place
  obtain rfl := unique d (List.mem_of_getElem? get) named
  rw [column, List.getElem?_map, get]
  rfl

/-! ### Whole tables -/

variable {ρ γ : Type*} {columns : List γ} {name : γ → List κ} {cell : ρ → γ → List κ}

/-- A reader of tables: for each line after the header, the field below a column's name. -/
def readTable (sep eol : κ) (name : γ → List κ) (text : List κ) : List (γ → Option (List κ)) :=
  match lines eol text with
  | [] => []
  | header :: rows => rows.map fun row c => column (fields sep header) (fields sep row) (name c)

/-- A table whose texts keep clear of the two separators is read back, cell by cell. -/
theorem readTable_table (distinct : eol ≠ sep) (all : ∀ c, c ∈ columns)
    (nonempty : columns ≠ []) (unique : ∀ c d, name d = name c → d = c)
    (names : ∀ c, sep ∉ name c ∧ eol ∉ name c)
    (cells : ∀ row c, sep ∉ cell row c ∧ eol ∉ cell row c) (rows : List ρ) :
    readTable sep eol name (table sep eol columns name cell rows) =
      rows.map fun row c => some (cell row c) := by
  have fields_map : ∀ text : γ → List κ, (∀ c, sep ∉ text c ∧ eol ∉ text c) →
      fields sep (line sep (columns.map text)) = columns.map text := by
    intro text clean
    refine fields_line (by simpa using nonempty) fun f mem => ?_
    obtain ⟨c, -, rfl⟩ := List.mem_map.mp mem
    exact (clean c).1
  have eol_not_mem : ∀ text : γ → List κ, (∀ c, sep ∉ text c ∧ eol ∉ text c) →
      eol ∉ line sep (columns.map text) := by
    intro text clean
    refine not_mem_line distinct fun f mem => ?_
    obtain ⟨c, -, rfl⟩ := List.mem_map.mp mem
    exact (clean c).2
  unfold readTable table
  rw [lines_unlines]
  · simp only [List.map_map]
    refine List.map_congr_left fun row _ => funext fun c => ?_
    rw [Function.comp_apply, fields_map name names, fields_map (cell row) (cells row)]
    exact column_map (cell row) (all c) fun d _ => unique c d
  · intro l mem
    rcases List.mem_cons.mp mem with rfl | mem
    · exact eol_not_mem name names
    · obtain ⟨row, -, rfl⟩ := List.mem_map.mp mem
      exact eol_not_mem (cell row) (cells row)

end Reading

/-! ## Printed values -/

/-- A way to print values so that they can be read back from a field: their texts are
not blank, keep clear of the two separators and tell the values apart. -/
structure Printer (α : Type*) (sep eol : κ) where
  text : α → List κ
  text_ne_nil : ∀ a, text a ≠ []
  sep_not_mem : ∀ a, sep ∉ text a
  eol_not_mem : ∀ a, eol ∉ text a
  injective : Function.Injective text

namespace Printer

variable {α : Type*} (P : Printer α sep eol)

/-- The value whose text a field is, if any. -/
noncomputable def read (field : List κ) : Option α := Function.partialInv P.text field

theorem read_text (a : α) : P.read (P.text a) = some a :=
  Function.partialInv_left P.injective a

theorem read_nil : P.read [] = none := by
  rw [read, Function.partialInv, dif_neg]
  rintro ⟨a, blank⟩
  exact P.text_ne_nil a blank

/-- A value that is printed under a condition is read exactly when the condition held. -/
theorem read_shown (p : Prop) [Decidable p] (a : α) :
    P.read (shown p (P.text a)) = if p then some a else none := by
  unfold shown
  split_ifs
  · exact P.read_text a
  · exact P.read_nil

end Printer

/-! ## Decimal numbers -/

section Decimal

variable {plus suffix : List Char}

/-- The decimal digits of a number, behind a minus sign or `plus` and before `suffix`. -/
def decimalText (plus suffix : List Char) (n : Int) : List Char :=
  (if n < 0 then ['-'] else plus) ++ (Nat.toDigits 10 n.natAbs ++ suffix)

theorem not_mem_decimalText {k : Char} (digit : ¬ k.isDigit) (sign : k ∉ '-' :: (plus ++ suffix))
    (n : Int) : k ∉ decimalText plus suffix n := by
  rw [List.mem_cons, List.mem_append] at sign
  intro mem
  unfold decimalText at mem
  rw [List.mem_append, List.mem_append] at mem
  rcases mem with inSign | inDigits | inSuffix
  · split_ifs at inSign
    · exact sign (.inl (List.mem_singleton.mp inSign))
    · exact sign (.inr (.inl inSign))
  · exact digit (Nat.isDigit_of_mem_toDigits (by decide) (by decide) inDigits)
  · exact sign (.inr (.inr inSuffix))

/-- The sign of a number can be told from its text. -/
theorem neg_of_decimalText_eq (minus : '-' ∉ plus) {m n : Int}
    (same : decimalText plus suffix m = decimalText plus suffix n) (neg : m < 0) : n < 0 := by
  by_contra nonneg
  unfold decimalText at same
  rw [if_pos neg, if_neg nonneg, ← List.append_assoc, ← List.append_assoc,
    List.append_left_inj] at same
  have mem : '-' ∈ plus ++ Nat.toDigits 10 n.natAbs := same ▸ List.mem_cons_self
  rcases List.mem_append.mp mem with inPlus | inDigits
  · exact minus inPlus
  · exact absurd (Nat.isDigit_of_mem_toDigits (by decide) (by decide) inDigits) (by decide)

theorem natAbs_eq_of_decimalText_eq {m n : Int} (sign : m < 0 ↔ n < 0)
    (same : decimalText plus suffix m = decimalText plus suffix n) : m.natAbs = n.natAbs := by
  unfold decimalText at same
  rw [if_congr sign rfl rfl, List.append_right_inj, List.append_left_inj] at same
  have value := congrArg (Nat.ofDigitChars 10 · 0) same
  rwa [Nat.ofDigitChars_ten_toDigits, Nat.ofDigitChars_ten_toDigits] at value

theorem decimalText_injective (minus : '-' ∉ plus) :
    Function.Injective (decimalText plus suffix) := by
  intro m n same
  have sign : m < 0 ↔ n < 0 :=
    ⟨neg_of_decimalText_eq minus same, neg_of_decimalText_eq minus same.symm⟩
  have abs := natAbs_eq_of_decimalText_eq sign same
  omega

/-- Decimal numbers are printed so that they can be read back. -/
def Printer.decimal (plus suffix : List Char) {sep eol : Char}
    (sepDigit : ¬ sep.isDigit) (sepSign : sep ∉ '-' :: (plus ++ suffix))
    (eolDigit : ¬ eol.isDigit) (eolSign : eol ∉ '-' :: (plus ++ suffix)) (minus : '-' ∉ plus) :
    Printer Int sep eol where
  text := decimalText plus suffix
  text_ne_nil n := by
    unfold decimalText
    exact List.append_ne_nil_of_right_ne_nil _
      (List.append_ne_nil_of_left_ne_nil Nat.toDigits_ne_nil _)
  sep_not_mem := not_mem_decimalText sepDigit sepSign
  eol_not_mem := not_mem_decimalText eolDigit eolSign
  injective := decimalText_injective minus

end Decimal

end Csv
