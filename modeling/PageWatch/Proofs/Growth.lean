import Mathlib.Data.List.Basic
import PageWatch.Select

/-! Growth: what selects take in push by push. Of the tables, fields and joins that are offered
under one key the first is kept, and nothing that was kept is lost. -/
namespace PageWatch

section Keys

variable {α : Type} {key : α → String} {offered kept : List α} {a : α}

/-- Takes an entry in at the end unless its key is taken. -/
def pushNew (key : α → String) (kept : List α) (a : α) : List α :=
  if kept.any fun b => key b == key a then kept else kept ++ [a]

/-- The entries that are kept of those that are offered: the first of each key, in the order in
which the keys were offered first. -/
structure FirstOfKey (key : α → String) (offered kept : List α) : Prop where
  distinct : (kept.map key).Nodup
  first : ∀ k, kept.find? (fun a => key a == k) = offered.find? fun a => key a == k
  inOrder : kept.Pairwise fun a b =>
    (offered.map key).idxOf (key a) < (offered.map key).idxOf (key b)

theorem find?_key_isSome {k : String} {as : List α} :
    (as.find? fun a => key a == k).isSome = true ↔ k ∈ as.map key := by
  simp [List.find?_isSome]

theorem prefix_pushNew (key : α → String) (kept : List α) (a : α) :
    kept <+: pushNew key kept a := by
  unfold pushNew
  split
  · exact List.prefix_rfl
  · exact List.prefix_append kept [a]

theorem prefix_foldl_pushNew (key : α → String) (as kept : List α) :
    kept <+: as.foldl (pushNew key) kept := by
  induction as generalizing kept with
  | nil => exact List.prefix_rfl
  | cons a as ih => exact (prefix_pushNew key kept a).trans (ih (pushNew key kept a))

namespace FirstOfKey

theorem nil (key : α → String) : FirstOfKey key [] [] := ⟨.nil, fun _ => rfl, .nil⟩

/-- A key is kept exactly if it is offered. -/
theorem mem_keys_iff (h : FirstOfKey key offered kept) {k : String} :
    k ∈ kept.map key ↔ k ∈ offered.map key := by
  rw [← find?_key_isSome, ← find?_key_isSome, h.first]

/-- What is kept, followed step by step: another entry is offered, and kept if its key is new. -/
theorem step (h : FirstOfKey key offered kept) (a : α) :
    FirstOfKey key (offered ++ [a]) (pushNew key kept a) := by
  have htaken : (kept.any fun b => key b == key a) = true ↔ key a ∈ offered.map key := by
    rw [← h.mem_keys_iff]
    simp
  have hplace {b : α} (hb : b ∈ kept) : ((offered ++ [a]).map key).idxOf (key b)
      = (offered.map key).idxOf (key b) := by
    rw [List.map_append]
    exact List.idxOf_append_of_mem (h.mem_keys_iff.mp (List.mem_map_of_mem hb))
  have hkept : kept.Pairwise fun b b' => ((offered ++ [a]).map key).idxOf (key b)
      < ((offered ++ [a]).map key).idxOf (key b') := by
    refine h.inOrder.imp_of_mem fun hb hb' hlt => ?_
    rw [hplace hb, hplace hb']
    exact hlt
  unfold pushNew
  by_cases hnew : (kept.any fun b => key b == key a) = true
  · rw [if_pos hnew]
    refine ⟨h.distinct, ?_, hkept⟩
    intro k
    rw [h.first, List.find?_append]
    by_cases hk : key a = k
    · have hsome := find?_key_isSome.mpr (htaken.mp hnew)
      rw [hk] at hsome
      exact (Option.or_of_isSome hsome).symm
    · simp [hk]
  · rw [if_neg hnew]
    have hfree : key a ∉ offered.map key := fun hmem => hnew (htaken.mpr hmem)
    refine ⟨?_, ?_, ?_⟩
    · rw [List.map_append, List.nodup_append]
      refine ⟨h.distinct, by simp, ?_⟩
      intro k hk k' hk' heq
      rw [List.map_singleton, List.mem_singleton] at hk'
      apply hfree
      rw [← hk', ← heq]
      exact h.mem_keys_iff.mp hk
    · intro k
      rw [List.find?_append, List.find?_append, h.first]
    · rw [List.pairwise_append]
      refine ⟨hkept, List.pairwise_singleton _ a, ?_⟩
      intro b hb b' hb'
      rw [List.mem_singleton] at hb'
      subst hb'
      have hb := List.idxOf_lt_length_of_mem (h.mem_keys_iff.mp (List.mem_map_of_mem hb))
      rw [hplace ‹_›, List.map_append, List.idxOf_append_of_notMem hfree]
      omega

/-- What is kept after any number of offers. -/
theorem run (h : FirstOfKey key offered kept) (as : List α) :
    FirstOfKey key (offered ++ as) (as.foldl (pushNew key) kept) := by
  induction as generalizing offered kept with
  | nil => rwa [List.append_nil]
  | cons a as ih =>
    have hrest := ih (h.step a)
    rwa [List.append_assoc, List.singleton_append] at hrest

end FirstOfKey

end Keys

namespace Push

/-- The tables that a push offers. -/
def tables : Push → List TableRef
  | .table t => [t]
  | .contribution c => c.tables
  | .restriction w _ => w.tables
  | _ => []

/-- The joins that a push offers. -/
def joins : Push → List JoinClause
  | .join j => [j]
  | .contribution c => c.joins
  | .restriction w _ => w.joins
  | _ => []

/-- The fields that a push offers; those of a collaborator are read only where they are pushed. -/
def fields : Push → List SelectField
  | .field f => [f]
  | _ => []

/-- The conditions that a push adds. -/
def conditions : Push → List Condition
  | .condition c => [c]
  | .restriction w negate => [.expr (w.text negate)]
  | _ => []

end Push

namespace SelectQuery

/-- A select that has taken in tables, fields, joins and conditions. -/
def grown (q : SelectQuery) (ts : List TableRef) (fs : List SelectField) (js : List JoinClause)
    (cs : List Condition) : SelectQuery :=
  { q with
    tables := ts.foldl (pushNew TableRef.key) q.tables
    fields := fs.foldl (pushNew SelectField.name) q.fields
    joins := js.foldl (pushNew JoinClause.table) q.joins
    conditions := q.conditions ++ cs }

theorem grown_grown (q : SelectQuery) (ts ts' : List TableRef) (fs fs' : List SelectField)
    (js js' : List JoinClause) (cs cs' : List Condition) :
    (q.grown ts fs js cs).grown ts' fs' js' cs'
      = q.grown (ts ++ ts') (fs ++ fs') (js ++ js') (cs ++ cs') := by
  simp [grown, List.foldl_append, List.append_assoc]

theorem pushTable_eq (q : SelectQuery) (t : TableRef) : q.pushTable t = q.grown [t] [] [] [] := by
  have h : (q.grown [t] [] [] []) = { q with tables := pushNew TableRef.key q.tables t } := by
    simp [grown]
  rw [h]
  unfold pushTable hasTable pushNew
  split <;> rfl

theorem pushField_eq (q : SelectQuery) (f : SelectField) :
    q.pushField f = q.grown [] [f] [] [] := by
  have h : (q.grown [] [f] [] []) = { q with fields := pushNew SelectField.name q.fields f } := by
    simp [grown]
  rw [h]
  unfold pushField hasField pushNew
  split <;> rfl

theorem pushJoin_eq (q : SelectQuery) (j : JoinClause) : q.pushJoin j = q.grown [] [] [j] [] := by
  have h : (q.grown [] [] [j] []) = { q with joins := pushNew JoinClause.table q.joins j } := by
    simp [grown]
  rw [h]
  unfold pushJoin hasJoin pushNew
  split <;> rfl

theorem grown_nil (q : SelectQuery) : q.grown [] [] [] [] = q := by simp [grown]

theorem pushTables_eq (q : SelectQuery) (ts : List TableRef) :
    ts.foldl pushTable q = q.grown ts [] [] [] := by
  induction ts generalizing q with
  | nil => exact q.grown_nil.symm
  | cons t ts ih => rw [List.foldl_cons, ih, pushTable_eq, grown_grown]; rfl

theorem pushJoins_eq (q : SelectQuery) (js : List JoinClause) :
    js.foldl pushJoin q = q.grown [] [] js [] := by
  induction js generalizing q with
  | nil => exact q.grown_nil.symm
  | cons j js ih => rw [List.foldl_cons, ih, pushJoin_eq, grown_grown]; rfl

/-- A push takes in what it offers and adds its conditions; it does nothing else. -/
theorem push_eq (q : SelectQuery) (p : Push) :
    q.push p = q.grown p.tables p.fields p.joins p.conditions := by
  cases p with
  | table t => exact q.pushTable_eq t
  | field f => exact q.pushField_eq f
  | join j => exact q.pushJoin_eq j
  | condition c => rfl
  | contribution c =>
    rw [push, mergeJoin, pushTables_eq, pushJoins_eq, grown_grown]
    simp [Push.tables, Push.fields, Push.joins, Push.conditions]
  | restriction w negate =>
    rw [push, mergeWhere, pushTables_eq, pushJoins_eq, grown_grown]
    have hcondition (q : SelectQuery) (c : Condition) :
        q.pushCondition c = q.grown [] [] [] [c] := rfl
    rw [hcondition, grown_grown]
    simp [Push.tables, Push.fields, Push.joins, Push.conditions]

/-- A run of pushes takes in all that they offer, in their order. -/
theorem pushAll_eq (q : SelectQuery) (ps : List Push) : q.pushAll ps
    = q.grown (ps.flatMap Push.tables) (ps.flatMap Push.fields) (ps.flatMap Push.joins)
      (ps.flatMap Push.conditions) := by
  induction ps generalizing q with
  | nil => exact q.grown_nil.symm
  | cons p ps ih =>
    have hcons : q.pushAll (p :: ps) = (q.push p).pushAll ps := rfl
    rw [hcons, ih, push_eq, grown_grown]
    rfl

theorem conditions_pushAll (q : SelectQuery) (ps : List Push) :
    (q.pushAll ps).conditions = q.conditions ++ ps.flatMap Push.conditions := by
  rw [pushAll_eq]
  rfl

/-- All that a select holds stands unchanged at the front of what another one holds. -/
structure Extends (q q' : SelectQuery) : Prop where
  tables : q.tables <+: q'.tables
  fields : q.fields <+: q'.fields
  joins : q.joins <+: q'.joins
  conditions : q.conditions <+: q'.conditions

theorem extends_pushAll (q : SelectQuery) (ps : List Push) : q.Extends (q.pushAll ps) := by
  rw [pushAll_eq]
  exact ⟨prefix_foldl_pushNew _ _ _, prefix_foldl_pushNew _ _ _, prefix_foldl_pushNew _ _ _,
    List.prefix_append _ _⟩

/-- What a select holds of all that was offered to it. -/
structure Holds (q : SelectQuery) (ts : List TableRef) (fs : List SelectField)
    (js : List JoinClause) (cs : List Condition) : Prop where
  tables : FirstOfKey TableRef.key ts q.tables
  fields : FirstOfKey SelectField.name fs q.fields
  joins : FirstOfKey JoinClause.table js q.joins
  conditions : q.conditions = cs

theorem holds_nil (caller : String) (orderBy : List OrderTerm) (limit : Option UInt32) :
    ({ caller, orderBy, limit } : SelectQuery).Holds [] [] [] [] :=
  ⟨.nil _, .nil _, .nil _, rfl⟩

theorem Holds.pushAll {q : SelectQuery} {ts : List TableRef} {fs : List SelectField}
    {js : List JoinClause} {cs : List Condition} (h : q.Holds ts fs js cs) (ps : List Push) :
    (q.pushAll ps).Holds (ts ++ ps.flatMap Push.tables) (fs ++ ps.flatMap Push.fields)
      (js ++ ps.flatMap Push.joins) (cs ++ ps.flatMap Push.conditions) := by
  rw [pushAll_eq]
  refine ⟨h.tables.run _, h.fields.run _, h.joins.run _, ?_⟩
  exact congrArg (· ++ ps.flatMap Push.conditions) h.conditions

end SelectQuery

end PageWatch
