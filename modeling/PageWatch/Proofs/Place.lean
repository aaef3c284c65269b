import Mathlib.Data.List.Sort
import Mathlib.Data.Prod.Lex
import PageWatch.Select.Meaning

/-! Places: where rows stand in an order by two columns, and what sorting by them makes of rows. -/
namespace PageWatch

theorem Scalar.le_antisymm {v w : Scalar} (hvw : v.le w = true) (hwv : w.le v = true) : v = w := by
  cases v <;> cases w <;> simp_all [Scalar.le]
  · exact Int64.le_antisymm hvw hwv
  · exact String.le_antisymm hvw hwv

instance : LinearOrder Scalar where
  le v w := v.le w = true
  le_refl v := by simpa using v.le_total v
  le_trans _ _ _ := Scalar.le_trans
  le_antisymm _ _ := Scalar.le_antisymm
  le_total v w := by simpa using v.le_total w
  toDecidableLE _ _ := inferInstanceAs (Decidable (_ = true))

theorem Scalar.le_iff {v w : Scalar} : v ≤ w ↔ v.le w = true := Iff.rfl

/-- The values of two columns; the second one decides between rows that share the first. -/
abbrev Place := Scalar ×ₗ Scalar

def Record.place (r : Row) (primary secondary : String) : Place :=
  toLex (r.cell primary, r.cell secondary)

namespace SortOrder

variable {α : Type} [LinearOrder α] {o : SortOrder} {p q s : α}

/-- Whether one value comes strictly before another one. -/
def Before : SortOrder → α → α → Prop
  | ascending, p, q => p < q
  | descending, p, q => q < p

theorem before_irrefl (o : SortOrder) (p : α) : ¬ o.Before p p := by
  cases o <;> exact lt_irrefl p

theorem before_trans (hpq : o.Before p q) (hqs : o.Before q s) : o.Before p s := by
  cases o with
  | ascending => exact lt_trans hpq hqs
  | descending => exact lt_trans hqs hpq

theorem before_asymm (h : o.Before p q) : ¬ o.Before q p :=
  fun h' => before_irrefl o p (before_trans h h')

theorem before_reversed_iff : o.reversed.Before p q ↔ o.Before q p := by
  cases o <;> rfl

theorem before_or_before (h : p ≠ q) : o.Before p q ∨ o.Before q p := by
  cases o with
  | ascending => exact lt_or_gt_of_ne h
  | descending => exact (lt_or_gt_of_ne h).symm

/-- What is not before a value is that value or comes after it. -/
theorem not_before_iff : ¬ o.Before p q ↔ p = q ∨ o.Before q p := by
  constructor
  · intro h
    by_cases he : p = q
    · exact .inl he
    · exact .inr ((before_or_before he).resolve_left h)
  · rintro (rfl | h)
    · exact before_irrefl o p
    · exact before_asymm h

theorem before_of_before_of_not_before (hpq : o.Before p q) (hsq : ¬ o.Before s q) :
    o.Before p s := by
  rcases not_before_iff.mp hsq with rfl | hqs
  · exact hpq
  · exact before_trans hpq hqs

theorem not_before_trans (hqp : ¬ o.Before q p) (hsq : ¬ o.Before s q) : ¬ o.Before s p := by
  intro hsp
  rcases not_before_iff.mp hsq with rfl | hqs
  · exact hqp hsp
  · exact hqp (before_trans hqs hsp)

/-- The first value decides between places, unless they share it. -/
theorem not_before_toLex_iff {a b c d : Scalar} : ¬ o.Before (toLex (a, b)) (toLex (c, d)) ↔
    o.Before c a ∨ a = c ∧ ¬ o.Before b d := by
  cases o with
  | ascending => simp [Before, Prod.Lex.toLex_le_toLex, eq_comm]
  | descending => simp [Before, Prod.Lex.toLex_le_toLex]

end SortOrder

namespace OrderTerm

variable {t : OrderTerm} {ts : List OrderTerm}

/-- The first column decides, unless two rows agree on it. -/
theorem le_cons_iff {r s : Row} : le (t :: ts) r s = true ↔
    t.order.Before (r.cell t.column) (s.cell t.column) ∨
      r.cell t.column = s.cell t.column ∧ le ts r s = true := by
  rw [le]
  by_cases h : r.cell t.column = s.cell t.column
  · rw [if_pos h, h]
    simp [SortOrder.before_irrefl]
  · rw [if_neg h]
    cases t.order with
    | ascending => simp [SortOrder.Before, lt_iff_le_and_ne, h, Scalar.le_iff]
    | descending => simp [SortOrder.Before, lt_iff_le_and_ne, h, Ne.symm h, Scalar.le_iff]

theorem le_total (ts : List OrderTerm) (r s : Row) : (le ts r s || le ts s r) = true := by
  rw [Bool.or_eq_true]
  induction ts with
  | nil => exact .inl rfl
  | cons t ts ih =>
    by_cases h : r.cell t.column = s.cell t.column
    · exact ih.imp (fun hle => le_cons_iff.mpr (.inr ⟨h, hle⟩))
        fun hle => le_cons_iff.mpr (.inr ⟨h.symm, hle⟩)
    · exact (SortOrder.before_or_before h).imp (fun hb => le_cons_iff.mpr (.inl hb))
        fun hb => le_cons_iff.mpr (.inl hb)

theorem le_trans (ts : List OrderTerm) (r s u : Row) (hrs : le ts r s = true)
    (hsu : le ts s u = true) : le ts r u = true := by
  induction ts with
  | nil => rfl
  | cons t ts ih =>
    rw [le_cons_iff] at *
    rcases hrs with hrs | ⟨hrs, hrs'⟩
    · rcases hsu with hsu | ⟨hsu, _⟩
      · exact .inl (SortOrder.before_trans hrs hsu)
      · exact .inl (hsu ▸ hrs)
    · rcases hsu with hsu | ⟨hsu, hsu'⟩
      · exact .inl (hrs ▸ hsu)
      · exact .inr ⟨hrs.trans hsu, ih hrs' hsu'⟩

end OrderTerm

theorem orderedInsert_append {α : Type} {le : α → α → Prop} [DecidableRel le] {a : α}
    {front back : List α} (hfront : ∀ b ∈ front, ¬ le a b) (hback : ∀ b ∈ back, le a b) :
    (front ++ back).orderedInsert le a = front ++ a :: back := by
  induction front with
  | nil =>
    cases back with
    | nil => rfl
    | cons b back => exact List.orderedInsert_cons_of_le le back (hback b List.mem_cons_self)
  | cons b front ih =>
    rw [List.cons_append, List.orderedInsert_of_not_le le _ (hfront b List.mem_cons_self),
      ih fun c hc => hfront c (List.mem_cons_of_mem b hc), List.cons_append]

/-- Rows that sort alike keep their order, so sorting can as well insert one row after the other. -/
theorem mergeSort_eq_insertionSort (ts : List OrderTerm) (rows : List Row) :
    rows.mergeSort (OrderTerm.le ts) =
      rows.insertionSort fun r s => OrderTerm.le ts r s = true := by
  induction rows with
  | nil => simp
  | cons r rows ih =>
    obtain ⟨front, back, hcons, hrows, hfront⟩ :=
      List.mergeSort_cons (OrderTerm.le_trans ts) (OrderTerm.le_total ts) r rows
    have hsorted := List.pairwise_mergeSort (OrderTerm.le_trans ts) (OrderTerm.le_total ts)
      (r :: rows)
    rw [hcons] at hsorted
    have hback := (List.pairwise_cons.mp (List.pairwise_append.mp hsorted).2.1).1
    rw [List.insertionSort_cons, ← ih, hcons, hrows]
    exact (orderedInsert_append (by simpa using hfront) hback).symm

section Sorted

variable {α β : Type} [LinearOrder β] {o : SortOrder} {f : α → β} {as : List α} {a b : α} {n : Nat}

theorem SortOrder.before_of_mem_take (h : as.Pairwise fun a b => o.Before (f a) (f b))
    (hb : as[n]? = some b) (ha : a ∈ as.take n) : o.Before (f a) (f b) := by
  obtain ⟨hn, rfl⟩ := List.getElem?_eq_some_iff.mp hb
  obtain ⟨i, hi, rfl⟩ := List.mem_take_iff_getElem.mp ha
  exact List.pairwise_iff_getElem.mp h i n _ hn (by omega)

theorem SortOrder.not_before_of_mem_drop (h : as.Pairwise fun a b => o.Before (f a) (f b))
    (hb : as[n]? = some b) (ha : a ∈ as.drop n) : ¬ o.Before (f a) (f b) := by
  obtain ⟨hn, rfl⟩ := List.getElem?_eq_some_iff.mp hb
  obtain ⟨i, hi, rfl⟩ := List.mem_drop_iff_getElem.mp ha
  cases i with
  | zero => exact before_irrefl _ _
  | succ i =>
    apply before_asymm
    exact List.pairwise_iff_getElem.mp h n (n + (i + 1)) hn (by omega) (by omega)

/-- From an element on, what is sorted strictly is what does not stand before that element. -/
theorem SortOrder.mem_drop_iff (h : as.Pairwise fun a b => o.Before (f a) (f b))
    (hb : as[n]? = some b) : a ∈ as.drop n ↔ a ∈ as ∧ ¬ o.Before (f a) (f b) := by
  constructor
  · intro ha
    exact ⟨List.mem_of_mem_drop ha, not_before_of_mem_drop h hb ha⟩
  · rintro ⟨ha, hbefore⟩
    rw [← List.take_append_drop n as] at ha
    exact (List.mem_append.mp ha).resolve_left fun ha => hbefore (before_of_mem_take h hb ha)

/-- Up to an element, it is what that element does not stand before. -/
theorem SortOrder.mem_take_succ_iff (h : as.Pairwise fun a b => o.Before (f a) (f b))
    (hb : as[n]? = some b) : a ∈ as.take (n + 1) ↔ a ∈ as ∧ ¬ o.Before (f b) (f a) := by
  have hafter : ∀ c ∈ as.drop (n + 1), o.Before (f b) (f c) := by
    have hsplit := List.drop_eq_getElem_cons (List.getElem?_eq_some_iff.mp hb).1
    rw [(List.getElem?_eq_some_iff.mp hb).2] at hsplit
    have hdrop := h.sublist (List.drop_sublist n as)
    rw [hsplit] at hdrop
    exact (List.pairwise_cons.mp hdrop).1
  constructor
  · intro ha
    refine ⟨List.mem_of_mem_take ha, ?_⟩
    rw [List.take_add_one, hb, List.mem_append] at ha
    rcases ha with ha | ha
    · exact before_asymm (before_of_mem_take h hb ha)
    · obtain rfl : a = b := by simpa using ha
      exact before_irrefl _ _
  · rintro ⟨ha, hbefore⟩
    rw [← List.take_append_drop (n + 1) as] at ha
    exact (List.mem_append.mp ha).resolve_right fun ha => hbefore (hafter a ha)

/-- What is sorted strictly is determined by its members. -/
theorem SortOrder.eq_of_mem_iff {bs : List α} (h : as.Pairwise fun a b => o.Before (f a) (f b))
    (h' : bs.Pairwise fun a b => o.Before (f a) (f b)) (hmem : ∀ a, a ∈ as ↔ a ∈ bs) : as = bs := by
  let before (a b : α) := o.Before (f a) (f b)
  have : Std.Irrefl before := ⟨fun a => before_irrefl _ _⟩
  have : Std.Antisymm before := ⟨fun a b hab hba => (before_asymm hab hba).elim⟩
  exact List.Pairwise.eq_of_mem_iff (r := before) h h' hmem

/-- A value cuts what is sorted strictly into what stands before it, at most one element that has
it, and what comes after it. -/
theorem SortOrder.exists_cut (h : as.Pairwise fun a b => o.Before (f a) (f b)) (p : β) :
    ∃ before here after, as = before ++ here ++ after ∧ here.length ≤ 1 ∧
      (∀ a ∈ before, o.Before (f a) p) ∧ (∀ a ∈ here, f a = p) ∧
      ∀ a ∈ after, o.Before p (f a) := by
  induction as with
  | nil => exact ⟨[], [], [], rfl, by simp, by simp, by simp, by simp⟩
  | cons a as ih =>
    obtain ⟨ha, has⟩ := List.pairwise_cons.mp h
    by_cases hbefore : o.Before (f a) p
    · obtain ⟨before, here, after, rfl, hlength, hb, hh, haft⟩ := ih has
      refine ⟨a :: before, here, after, rfl, hlength, ?_, hh, haft⟩
      intro b hmem
      rcases List.mem_cons.mp hmem with rfl | hmem
      · exact hbefore
      · exact hb b hmem
    · rcases not_before_iff.mp hbefore with rfl | hafter
      · exact ⟨[], [a], as, rfl, by simp, by simp, by simp, ha⟩
      · refine ⟨[], [], a :: as, rfl, by simp, by simp, by simp, ?_⟩
        intro b hmem
        rcases List.mem_cons.mp hmem with rfl | hmem
        · exact hafter
        · exact before_trans hafter (ha b hmem)

end Sorted

section Sorting

variable {o : SortOrder} {primary secondary : String} {r t : Row} {rows : List Row}

/-- The order by two columns, both sorted the same way. -/
def SortOrder.byPair (o : SortOrder) (primary secondary : String) : List OrderTerm :=
  [⟨primary, o⟩, ⟨secondary, o⟩]

/-- A row may stand before another one unless the other comes strictly first. -/
theorem le_byPair_iff : OrderTerm.le (o.byPair primary secondary) r t = true ↔
    ¬ o.Before (t.place primary secondary) (r.place primary secondary) := by
  rw [SortOrder.byPair, OrderTerm.le_cons_iff, OrderTerm.le_cons_iff, Record.place, Record.place,
    SortOrder.not_before_toLex_iff, SortOrder.not_before_iff]
  simp [OrderTerm.le, eq_comm, or_comm]

/-- Rows at distinct places are sorted strictly. -/
theorem pairwise_before_mergeSort
    (h : (rows.map fun r => r.place primary secondary).Nodup) :
    (rows.mergeSort (OrderTerm.le (o.byPair primary secondary))).Pairwise
      fun r t => o.Before (r.place primary secondary) (t.place primary secondary) := by
  have hsorted : (rows.mergeSort (OrderTerm.le (o.byPair primary secondary))).Pairwise
      fun r t => OrderTerm.le (o.byPair primary secondary) r t = true := by
    exact List.pairwise_mergeSort (OrderTerm.le_trans _) (OrderTerm.le_total _) rows
  have hne : (rows.mergeSort (OrderTerm.le (o.byPair primary secondary))).Pairwise
      fun r t => r.place primary secondary ≠ t.place primary secondary := by
    apply List.pairwise_map.mp
    exact ((List.mergeSort_perm _ _).map _).nodup_iff.mpr h
  refine (hsorted.and hne).imp ?_
  intro a b hab
  exact ((SortOrder.not_before_iff.mp (le_byPair_iff.mp hab.1)).resolve_left hab.2.symm)

end Sorting

end PageWatch
