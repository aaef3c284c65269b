/-! Finite sets kept as ascending lists, so that equal sets are equal values. -/
namespace PageWatch

/-- A type whose values are told apart, and ordered, by an integer. -/
class Rank (α : Type) where
  rank : α → Int
  rank_injective : ∀ {a b : α}, rank a = rank b → a = b

open Rank (rank rank_injective)

instance : Rank Int32 := ⟨Int32.toInt, Int32.toInt_inj.mp⟩

instance : Rank Int64 := ⟨Int64.toInt, Int64.toInt_inj.mp⟩

/-- A finite set: its members in strictly ascending order. -/
structure SortedSet (α : Type) [Rank α] where
  toList : List α
  ascending : toList.Pairwise fun a b => rank a < rank b

namespace SortedSet

variable {α : Type} [Rank α]

/-- Puts a member into its place in an ascending list that may hold it already. -/
def insertInto (a : α) : List α → List α
  | [] => [a]
  | b :: bs =>
    if rank a < rank b then a :: b :: bs
    else if rank a = rank b then b :: bs
    else b :: insertInto a bs

theorem mem_insertInto {a c : α} {bs : List α} : c ∈ insertInto a bs ↔ c = a ∨ c ∈ bs := by
  induction bs with
  | nil => simp [insertInto]
  | cons b bs ih =>
    unfold insertInto
    split
    · simp
    · split
      next h => simp [rank_injective h]
      next => simp [ih, or_left_comm]

theorem ascending_insertInto {a : α} {bs : List α}
    (h : bs.Pairwise fun a b => rank a < rank b) :
    (insertInto a bs).Pairwise fun a b => rank a < rank b := by
  induction bs with
  | nil => simp [insertInto]
  | cons b bs ih =>
    obtain ⟨hb, hbs⟩ := List.pairwise_cons.mp h
    unfold insertInto
    split
    next hab =>
      refine List.pairwise_cons.mpr ⟨fun c hc => ?_, h⟩
      rcases List.mem_cons.mp hc with rfl | hc
      · exact hab
      · exact Int.lt_trans hab (hb c hc)
    next hab =>
      split
      next => exact h
      next hne =>
        refine List.pairwise_cons.mpr ⟨fun c hc => ?_, ih hbs⟩
        rcases mem_insertInto.mp hc with rfl | hc
        · omega
        · exact hb c hc

def empty : SortedSet α := ⟨[], .nil⟩

instance : EmptyCollection (SortedSet α) := ⟨empty⟩

instance : Inhabited (SortedSet α) := ⟨empty⟩

instance : Membership α (SortedSet α) := ⟨fun s a => a ∈ s.toList⟩

def insert (a : α) (s : SortedSet α) : SortedSet α :=
  ⟨insertInto a s.toList, ascending_insertInto s.ascending⟩

/-- The set of the members of a list, in whatever order and however often they stand there. -/
def ofList (as : List α) : SortedSet α := as.foldr insert ∅

def isEmpty (s : SortedSet α) : Bool := s.toList.isEmpty

def contains [BEq α] (s : SortedSet α) (a : α) : Bool := s.toList.contains a

def filter (p : α → Bool) (s : SortedSet α) : SortedSet α :=
  ⟨s.toList.filter p, s.ascending.filter p⟩

theorem mem_toList {a : α} {s : SortedSet α} : a ∈ s.toList ↔ a ∈ s := Iff.rfl

@[simp] theorem not_mem_empty (a : α) : a ∉ (∅ : SortedSet α) := List.not_mem_nil

@[simp] theorem mem_insert {a b : α} {s : SortedSet α} : a ∈ s.insert b ↔ a = b ∨ a ∈ s :=
  mem_insertInto

@[simp] theorem mem_ofList {a : α} {as : List α} : a ∈ ofList as ↔ a ∈ as := by
  induction as with
  | nil => simp [ofList]
  | cons b bs ih => simpa [ofList] using or_congr_right ih

@[simp] theorem mem_filter {a : α} {p : α → Bool} {s : SortedSet α} :
    a ∈ s.filter p ↔ a ∈ s ∧ p a := List.mem_filter

/-- Two ascending lists with the same members are the same list. -/
theorem eq_of_ascending {as bs : List α} (ha : as.Pairwise fun a b => rank a < rank b)
    (hb : bs.Pairwise fun a b => rank a < rank b) (h : ∀ c, c ∈ as ↔ c ∈ bs) : as = bs := by
  induction as generalizing bs with
  | nil => exact (List.eq_nil_iff_forall_not_mem.mpr fun c hc => by simp [← h c] at hc).symm
  | cons a as ih =>
    cases bs with
    | nil => simpa using h a
    | cons b bs =>
      obtain ⟨ha', has⟩ := List.pairwise_cons.mp ha
      obtain ⟨hb', hbs⟩ := List.pairwise_cons.mp hb
      have hab : a = b := by
        rcases List.mem_cons.mp ((h a).mp List.mem_cons_self) with rfl | hmem
        · rfl
        · rcases List.mem_cons.mp ((h b).mpr List.mem_cons_self) with rfl | hmem'
          · rfl
          · exact absurd (hb' a hmem) (Int.not_lt.mpr (Int.le_of_lt (ha' b hmem')))
      subst hab
      congr 1
      refine ih has hbs fun c => ?_
      have hc := h c
      simp only [List.mem_cons] at hc
      constructor
      · intro hmem
        rcases hc.mp (Or.inr hmem) with rfl | hmem'
        · exact absurd (ha' c hmem) (Int.lt_irrefl _)
        · exact hmem'
      · intro hmem
        rcases hc.mpr (Or.inr hmem) with rfl | hmem'
        · exact absurd (hb' c hmem) (Int.lt_irrefl _)
        · exact hmem'

/-- A set is determined by its members. -/
theorem ext_mem {s t : SortedSet α} (h : ∀ a, a ∈ s ↔ a ∈ t) : s = t := by
  cases s
  cases t
  congr
  exact eq_of_ascending ‹_› ‹_› h

/-- A search finds the least member of a kind. -/
theorem find?_eq_some_iff {p : α → Bool} {s : SortedSet α} {a : α} : s.toList.find? p = some a ↔
    a ∈ s ∧ p a = true ∧ ∀ b ∈ s, p b = true → rank a ≤ rank b := by
  have hleast {a : α} (h : s.toList.find? p = some a) (b : α) (hb : b ∈ s) (hp : p b = true) :
      rank a ≤ rank b := by
    obtain ⟨_, before, after, hs, hbefore⟩ := List.find?_eq_some_iff_append.mp h
    have hsorted := s.ascending
    rw [hs, List.pairwise_append, List.pairwise_cons] at hsorted
    have hb : b ∈ before ++ a :: after := hs ▸ hb
    rcases List.mem_append.mp hb with hb | hb
    · simpa [hp] using hbefore b hb
    · rcases List.mem_cons.mp hb with rfl | hb
      · exact Int.le_refl _
      · exact Int.le_of_lt (hsorted.2.1.1 b hb)
  constructor
  · intro h
    exact ⟨List.mem_of_find?_eq_some h, List.find?_some h, hleast h⟩
  · rintro ⟨ha, hp, hmin⟩
    cases h : s.toList.find? p with
    | none => exact absurd hp (List.find?_eq_none.mp h a ha)
    | some b =>
      have hle := hmin b (List.mem_of_find?_eq_some h) (List.find?_some h)
      rw [rank_injective (Int.le_antisymm hle (hleast h a ha hp))]

end SortedSet

end PageWatch
