import Mathlib.Data.List.TakeWhile
import Mathlib.Data.Nat.Digits.Defs
import PageWatch.Scalar

/-! Numerals: which texts the strict reading takes for an integer, and for which one. -/
namespace PageWatch

namespace Text

variable {before core after : List Char}

/-- Around what is left of a trimmed text, there was white space. -/
theorem exists_trim (cs : List Char) : ∃ before after, cs = before ++ trim cs ++ after ∧
    ∀ ch ∈ before ++ after, isBlank ch = true := by
  refine ⟨cs.takeWhile isBlank, ((trimStart cs).reverse.takeWhile isBlank).reverse, ?_, ?_⟩
  · have hend : trim cs ++ ((trimStart cs).reverse.takeWhile isBlank).reverse = trimStart cs := by
      rw [trim, trimEnd, ← List.reverse_append, List.takeWhile_append_dropWhile,
        List.reverse_reverse]
    rw [List.append_assoc, hend]
    exact List.takeWhile_append_dropWhile.symm
  · intro ch hch
    rcases List.mem_append.mp hch with hch | hch
    · exact List.mem_takeWhile_imp hch
    · exact List.mem_takeWhile_imp (List.mem_reverse.mp hch)

theorem dropWhile_isBlank_append (hbefore : ∀ ch ∈ before, isBlank ch = true)
    (hcore : ∀ ch ∈ core, isBlank ch = false) (hne : core ≠ []) :
    (before ++ (core ++ after)).dropWhile isBlank = core ++ after := by
  rw [List.dropWhile_append_of_pos hbefore]
  cases core with
  | nil => exact absurd rfl hne
  | cons ch core => exact List.dropWhile_cons_of_neg (by simp [hcore])

/-- White space around a word is trimmed. -/
theorem trim_append (hblank : ∀ ch ∈ before ++ after, isBlank ch = true)
    (hcore : ∀ ch ∈ core, isBlank ch = false) (hne : core ≠ []) :
    trim (before ++ core ++ after) = core := by
  have hbefore : ∀ ch ∈ before, isBlank ch = true :=
    fun ch hch => hblank ch (List.mem_append_left _ hch)
  have hafter : ∀ ch ∈ after.reverse, isBlank ch = true :=
    fun ch hch => hblank ch (List.mem_append_right _ (List.mem_reverse.mp hch))
  have hcore' : ∀ ch ∈ core.reverse, isBlank ch = false :=
    fun ch hch => hcore ch (List.mem_reverse.mp hch)
  have hend : (after.reverse ++ (core.reverse ++ [])).dropWhile isBlank = core.reverse ++ [] :=
    dropWhile_isBlank_append hafter hcore' (by simpa using hne)
  rw [List.append_nil] at hend
  rw [trim, trimStart, trimEnd, List.append_assoc, dropWhile_isBlank_append hbefore hcore hne,
    List.reverse_append, hend, List.reverse_reverse]

end Text

namespace Decimal

variable {cs digits : List Char} {n : Int}

/-- The number that digits write, the last one being the units. -/
def value (digits : List Char) : Nat :=
  Nat.ofDigits 10 (digits.reverse.map fun d => d.toNat - '0'.toNat)

/-- One or more ASCII digits. -/
def IsDigits (digits : List Char) : Prop := digits ≠ [] ∧ ∀ d ∈ digits, d.isDigit = true

/-- An integer in decimal, with or without a sign. -/
inductive Numeral : List Char → Int → Prop
  | plain {digits : List Char} (h : IsDigits digits) : Numeral digits (value digits)
  | plus {digits : List Char} (h : IsDigits digits) : Numeral ('+' :: digits) (value digits)
  | minus {digits : List Char} (h : IsDigits digits) : Numeral ('-' :: digits) (-value digits)

/-- A text that is a numeral but for white space around it. -/
def Spells (cs : List Char) (n : Int) : Prop :=
  ∃ before core after, cs = before ++ core ++ after ∧
    (∀ ch ∈ before ++ after, Text.isBlank ch = true) ∧ Numeral core n

theorem magnitude_eq_value (digits : List Char) : magnitude digits = value digits := by
  rw [magnitude, value, Nat.ofDigits_eq_foldr, List.foldr_map, List.foldr_reverse]
  simp only [Nat.cast_id, Nat.add_comm]

theorem isBlank_of_isDigit {ch : Char} (h : ch.isDigit = true) : Text.isBlank ch = false := by
  have hrange : 48 ≤ ch.toNat ∧ ch.toNat ≤ 57 := by
    simpa [Char.isDigit, UInt32.le_iff_toNat_le] using h
  rw [Text.isBlank, List.any_eq_false]
  simp only [Text.blankRanges, List.forall_mem_cons, Bool.and_eq_true, decide_eq_true_eq,
    List.not_mem_nil, false_implies, implies_true, and_true]
  omega

theorem Numeral.isBlank {ch : Char} (h : Numeral cs n) (hch : ch ∈ cs) :
    Text.isBlank ch = false := by
  cases h with
  | plain h => exact isBlank_of_isDigit (h.2 ch hch)
  | plus h | minus h =>
    rcases List.mem_cons.mp hch with rfl | hch
    · decide
    · exact isBlank_of_isDigit (h.2 ch hch)

theorem Numeral.ne_nil (h : Numeral cs n) : cs ≠ [] := by
  cases h with
  | plain h => exact h.1
  | plus h | minus h => exact List.cons_ne_nil _ _

/-- A numeral, taken apart into its sign and its digits. -/
theorem numeral_iff : Numeral cs n ↔
    IsDigits (splitSign cs).2 ∧ n = signed (splitSign cs).1 (magnitude (splitSign cs).2) := by
  rw [magnitude_eq_value]
  unfold splitSign
  split
  next cs =>
    constructor
    · intro h
      cases h with
      | plain h => exact absurd (h.2 '-' List.mem_cons_self) (by decide)
      | minus h => exact ⟨h, rfl⟩
    · rintro ⟨h, rfl⟩
      exact .minus h
  next cs =>
    constructor
    · intro h
      cases h with
      | plain h => exact absurd (h.2 '+' List.mem_cons_self) (by decide)
      | plus h => exact ⟨h, rfl⟩
    · rintro ⟨h, rfl⟩
      exact .plus h
  next cs hminus hplus =>
    constructor
    · intro h
      cases h with
      | plain h => exact ⟨h, rfl⟩
      | plus h => exact absurd rfl (hplus _)
      | minus h => exact absurd rfl (hminus _)
    · rintro ⟨h, rfl⟩
      exact .plain h

/-- The strict reading takes a text for an integer exactly if the text spells that integer. -/
theorem wholeInt?_eq_some_iff : wholeInt? cs = some n ↔ Spells cs n := by
  have hwhole : wholeInt? cs = some n ↔ Numeral (Text.trim cs) n := by
    have hdigits (ds : List Char) : (!ds.isEmpty && ds.all Char.isDigit) = true ↔ IsDigits ds := by
      simp [IsDigits]
    rw [numeral_iff, wholeInt?, Option.ite_none_right_eq_some, hdigits, Option.some.injEq,
      eq_comm (b := n)]
  rw [hwhole]
  constructor
  · intro h
    obtain ⟨before, after, hcs, hblank⟩ := Text.exists_trim cs
    exact ⟨before, Text.trim cs, after, hcs, hblank, h⟩
  · rintro ⟨before, core, after, rfl, hblank, h⟩
    rwa [Text.trim_append hblank (fun ch hch => h.isBlank hch) h.ne_nil]

end Decimal

namespace Scalar

variable {v : Scalar} {n : Int64}

/-- An integer, or a text that spells one. -/
def Spells : Scalar → Int → Prop
  | null, _ => False
  | int m, n => m.toInt = n
  | text s, n => Decimal.Spells s.toList n

theorem int64?_eq_some_iff {i : Int} : int64? i = some n ↔ i = n.toInt := by
  unfold int64?
  split
  next h =>
    rw [Int64.toInt_minValue, Int64.toInt_maxValue] at h
    have hi : (Int64.ofInt i).toInt = i := Int64.toInt_ofInt_of_le (by omega) (by omega)
    rw [Option.some.injEq, ← Int64.toInt_inj, hi]
  next h =>
    have hmin := n.minValue_le_toInt
    have hmax := n.toInt_le
    rw [Int64.toInt_minValue, Int64.toInt_maxValue] at h
    rw [Int64.toInt_minValue] at hmin
    rw [Int64.toInt_maxValue] at hmax
    simp only [reduceCtorEq, false_iff]
    omega

/-- The strict reading is exact in the 64 bit range. -/
theorem exactInt_eq_some_iff : v.exactInt = some n ↔ v.Spells n.toInt := by
  cases v with
  | null => simp [exactInt, Spells]
  | int m => simp [exactInt, Spells, Int64.toInt_inj]
  | text s =>
    simp only [exactInt, Spells, Option.bind_eq_some_iff, int64?_eq_some_iff,
      Decimal.wholeInt?_eq_some_iff, exists_eq_right]

end Scalar

end PageWatch
