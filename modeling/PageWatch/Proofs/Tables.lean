import PageWatch.Host.InMemory
import PageWatch.Proofs.Fetch

/-! Tables: a service in memory that answers every select from a table of changes. -/
namespace PageWatch

/-- The terms by which selects go on at the changes of a list, in both directions. -/
def seekTerms (seen : List Row) : List Term :=
  seen.flatMap fun r =>
    match r.cursor with
    | .ok cur =>
      [.fragment (cur.position.seek .ascending), .fragment (cur.position.seek .descending)]
    | .error _ => []

theorem seek_mem_seekTerms {seen : List Row} {r : Row} {cur : Cursor} (hr : r ∈ seen)
    (hcur : r.cursor = .ok cur) (order : SortOrder) :
    .fragment (cur.position.seek order) ∈ seekTerms seen := by
  rw [seekTerms, List.mem_flatMap]
  refine ⟨r, hr, ?_⟩
  rw [hcur]
  cases order <;> simp

/-- Timestamps are stored as they are written, and seeks at the changes of a list are understood. -/
def Meaning.ofChanges (seen : List Row) : Meaning :=
  .ofFragments (InMemory.executor {}) ⟨.text, fun _ _ => .unknown⟩ (Term.partsOf (seekTerms seen))

/-- An executor in memory that answers from a table, and sorts in a way that can be run. -/
def InMemory.tableExecutor (m : Meaning) (table : List Row) : Executor :=
  { InMemory.executor { backend := .sqlite } with
    select := fun q => .ok (q.cut
      ((table.filter (q.accepts m)).insertionSort fun r s => OrderTerm.le q.orderBy r s = true)) }

theorem InMemory.answers_tableExecutor (m : Meaning) (table : List Row) :
    (tableExecutor m table).Answers m table := by
  intro q
  unfold SelectQuery.answer
  rw [mergeSort_eq_insertionSort]
  rfl

/-- An executor in memory writes in the same way whatever it answers from. -/
theorem InMemory.render_tableExecutor (m : Meaning) (table : List Row) :
    Fragment.render (tableExecutor m table) = Fragment.render (executor {}) := by
  have hoperand (o : Operand) : o.render (tableExecutor m table) = o.render (executor {}) := by
    cases o <;> rfl
  funext f
  induction f with
  | compare left op right => rw [Fragment.render, Fragment.render, hoperand, hoperand]
  | same left right => rw [Fragment.render, Fragment.render, hoperand, hoperand]
  | both f g ihf ihg =>
    rw [Fragment.render, Fragment.render, ihf, ihg]
    rfl
  | either f g ihf ihg =>
    rw [Fragment.render, Fragment.render, ihf, ihg]
    rfl
  | alternative f g ihf ihg => rw [Fragment.render, Fragment.render, ihf, ihg]
  | _ => rfl

/-- So where texts are told apart, what they are made of is understood by looking them up. -/
theorem InMemory.understands_tableExecutor {m m' : Meaning} {table : List Row} {ts : List Term}
    {f : Fragment} (htexts : ((Term.partsOf ts).map (Fragment.render (executor {}))).Nodup)
    (hf : .fragment f ∈ ts) :
    (Meaning.ofFragments (executor {}) m' (Term.partsOf ts)).Understands
      (tableExecutor m table) f := by
  have hmeaning : Meaning.ofFragments (executor {}) m' (Term.partsOf ts)
      = Meaning.ofFragments (tableExecutor m table) m' (Term.partsOf ts) := by
    simp only [Meaning.ofFragments, render_tableExecutor]
  rw [hmeaning]
  rw [← render_tableExecutor m table] at htexts
  exact Meaning.understands_ofFragments htexts (Term.parts_subset_partsOf hf)

/-- A service in memory over a table. -/
def Service.ofTable (m : Meaning) (table : List Row) : Service where
  host := { InMemory.host {} with replica := .ok (InMemory.tableExecutor m table) }

/-- A change of a page that the acting user watches. -/
def InMemory.watchedChange (id : Int64) (timestamp : String) : Row :=
  (changeRow id 0 "Main Page" timestamp).insert "wl_user" (.int 1)

theorem InMemory.dates_ofChanges {seen : List Row}
    (h : ∀ r ∈ seen, ∃ id timestamp, r = watchedChange id timestamp) :
    (Meaning.ofChanges seen).Dates seen := by
  have htime (id : Int64) (timestamp : String) :
      (watchedChange id timestamp).cell "rc_timestamp" = .text timestamp := by
    simp [watchedChange, changeRow, Record.cell, Record.ofList, Record.get?_insert, Scalar.ofOption]
  have hid (id : Int64) (timestamp : String) :
      (watchedChange id timestamp).cell "rc_id" = .int id := by
    simp [watchedChange, changeRow, Record.cell, Record.ofList, Record.get?_insert, Scalar.ofOption]
  refine ⟨fun r hr => ?_, fun r hr t ht => ?_⟩
  · obtain ⟨id, timestamp, rfl⟩ := h r hr
    exact ⟨by simp [htime], id, hid id timestamp⟩
  · obtain ⟨id, timestamp, rfl⟩ := h r hr
    rw [htime, Scalar.render, Option.some.injEq] at ht
    rw [htime, ht]
    rfl

namespace Service

variable {seen table : List Row}

theorem over_ofTable
    (htexts : ((Term.partsOf (seekTerms seen)).map
      (Fragment.render (InMemory.executor {}))).Nodup)
    (hwithin : table ⊆ seen) (hdistinct : (table.map Record.feedPlace).Nodup) :
    (ofTable (.ofChanges seen) table).Over (.ofChanges seen) seen table where
  extensions := rfl
  replica := by
    refine ⟨_, rfl, InMemory.answers_tableExecutor _ _, ?_⟩
    intro r hr cur hcur order
    exact InMemory.understands_tableExecutor htexts (seek_mem_seekTerms hr hcur order)
  within := hwithin
  distinct := hdistinct

end Service

end PageWatch
