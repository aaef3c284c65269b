import PageWatch.Scalar

/-! Records: named scalars in ascending order of their names, as rows and change details hold. -/
namespace PageWatch

/-- A finite map from names to scalars. The order makes equal maps equal values. -/
structure Record where
  entries : List (String × Scalar)
  ascending : entries.Pairwise fun a b => a.1 < b.1

namespace Record

variable {k : String} {v : Scalar}

/-- Puts an entry into its place in an ascending list; an earlier entry of its name is replaced. -/
def insertInto (k : String) (v : Scalar) : List (String × Scalar) → List (String × Scalar)
  | [] => [(k, v)]
  | (k', v') :: es =>
    if k < k' then (k, v) :: (k', v') :: es
    else if k = k' then (k, v) :: es
    else (k', v') :: insertInto k v es

theorem fst_mem_insertInto {e : String × Scalar} {es : List (String × Scalar)}
    (h : e ∈ insertInto k v es) : e.1 = k ∨ e ∈ es := by
  induction es with
  | nil => simp_all [insertInto]
  | cons e' es ih =>
    unfold insertInto at h
    split at h
    · rcases List.mem_cons.mp h with rfl | h
      · exact .inl rfl
      · exact .inr h
    · split at h
      · rcases List.mem_cons.mp h with rfl | h
        · exact .inl rfl
        · exact .inr (List.mem_cons_of_mem _ h)
      · rcases List.mem_cons.mp h with rfl | h
        · exact .inr List.mem_cons_self
        · exact (ih h).imp_right (List.mem_cons_of_mem _)

theorem ascending_insertInto {es : List (String × Scalar)}
    (h : es.Pairwise fun a b => a.1 < b.1) :
    (insertInto k v es).Pairwise fun a b => a.1 < b.1 := by
  induction es with
  | nil => simp [insertInto]
  | cons e es ih =>
    obtain ⟨he, hes⟩ := List.pairwise_cons.mp h
    unfold insertInto
    split
    next hlt =>
      refine List.pairwise_cons.mpr ⟨fun c hc => ?_, h⟩
      rcases List.mem_cons.mp hc with rfl | hc
      · exact hlt
      · exact String.lt_trans hlt (he c hc)
    next hlt =>
      split
      next heq => exact List.pairwise_cons.mpr ⟨fun c hc => heq ▸ he c hc, hes⟩
      next hne =>
        refine List.pairwise_cons.mpr ⟨fun c hc => ?_, ih hes⟩
        rcases fst_mem_insertInto hc with hk | hc
        · rw [hk]
          exact Std.lt_of_le_of_ne (Std.not_lt.mp hlt) (Ne.symm hne)
        · exact he c hc

def empty : Record := ⟨[], .nil⟩

instance : EmptyCollection Record := ⟨empty⟩

instance : Inhabited Record := ⟨empty⟩

instance : DecidableEq Record := fun r s =>
  decidable_of_iff (r.entries = s.entries) (by cases r; cases s; simp)

/-- The record with one entry set. -/
def insert (r : Record) (k : String) (v : Scalar) : Record :=
  ⟨insertInto k v r.entries, ascending_insertInto r.ascending⟩

/-- Of several entries with one name the last stays. -/
def ofList (es : List (String × Scalar)) : Record := es.foldl (fun r e => r.insert e.1 e.2) ∅

def get? (r : Record) (k : String) : Option Scalar :=
  (r.entries.find? (·.1 == k)).map (·.2)

def keys (r : Record) : List String := r.entries.map (·.1)

def size (r : Record) : Nat := r.entries.length

/-- The entries whose names pass a test. -/
def filterKeys (p : String → Bool) (r : Record) : Record :=
  ⟨r.entries.filter fun e => p e.1, r.ascending.filter _⟩

end Record

/-- A row that a select answered. -/
abbrev Row := Record

/-- The details of one change, by column name. -/
abbrev ChangeInfo := Record

end PageWatch
