import PageWatch.Proofs.Place
import PageWatch.Proofs.Reading

/-! Seeks: the fragment that goes on at a position holds at the position and past it. -/
namespace PageWatch

namespace Comparison

variable {op : Comparison} {v w : Scalar}

/-- A comparison holds between values only, never of null. -/
theorem truth_eq_holds_iff :
    op.truth v w = .holds ↔ v ≠ .null ∧ w ≠ .null ∧ op.test v w = true := by
  cases v <;> cases w <;> simp [truth, Truth.ofBool_eq_holds_iff]

theorem test_eq : eq.test v w = true ↔ v = w := by simp [test]

theorem test_ne : ne.test v w = true ↔ v ≠ w := by simp [test]

theorem test_lt : lt.test v w = true ↔ v < w := by
  rw [← not_le, Scalar.le_iff]
  simp [test]

theorem test_le : le.test v w = true ↔ v ≤ w := Iff.rfl

theorem test_gt : gt.test v w = true ↔ w < v := by
  rw [← not_le, Scalar.le_iff]
  simp [test]

theorem test_ge : ge.test v w = true ↔ w ≤ v := Iff.rfl

theorem truth_eq : eq.truth v w = .holds ↔ v ≠ .null ∧ v = w := by
  rw [truth_eq_holds_iff, test_eq]
  constructor
  · exact fun h => ⟨h.1, h.2.2⟩
  · rintro ⟨hv, rfl⟩
    exact ⟨hv, hv, rfl⟩

theorem truth_eq_int {n : Int64} : eq.truth v (.int n) = .holds ↔ v = .int n := by
  rw [truth_eq]
  constructor
  · exact fun h => h.2
  · rintro rfl
    exact ⟨by simp, rfl⟩

theorem truth_ne_int {n : Int64} : ne.truth v (.int n) = .holds ↔ v ≠ .null ∧ v ≠ .int n := by
  rw [truth_eq_holds_iff, test_ne]
  simp

end Comparison

/-- One value is at most another one. Null is not compared with anything. -/
def Scalar.AtMost (v w : Scalar) : Prop := v ≠ .null ∧ w ≠ .null ∧ v ≤ w

namespace SortOrder

variable {o : SortOrder} {v w : Scalar}

/-- Whether a value stands at another one or past it. Null does not stand anywhere. -/
def Reaches (o : SortOrder) (v w : Scalar) : Prop := v ≠ .null ∧ w ≠ .null ∧ ¬ o.Before v w

theorem reaches_ascending_iff : ascending.Reaches v w ↔ w.AtMost v := by
  simp [Reaches, Before, Scalar.AtMost, and_left_comm]

theorem reaches_descending_iff : descending.Reaches v w ↔ v.AtMost w := by
  simp [Reaches, Before, Scalar.AtMost]

theorem truth_atOrPast : o.atOrPast.truth v w = .holds ↔ o.Reaches v w := by
  rw [Comparison.truth_eq_holds_iff]
  cases o with
  | ascending => simp [atOrPast, Reaches, Before, Comparison.test_ge]
  | descending => simp [atOrPast, Reaches, Before, Comparison.test_le]

theorem truth_past : o.past.truth v w = .holds ↔ v ≠ .null ∧ w ≠ .null ∧ o.Before w v := by
  rw [Comparison.truth_eq_holds_iff]
  cases o with
  | ascending => simp [past, Before, Comparison.test_gt]
  | descending => simp [past, Before, Comparison.test_lt]

end SortOrder

variable {m : Meaning} {r : Row} {o : SortOrder}

theorem Operand.value_column (m : Meaning) (r : Row) (name : String) :
    (column name).value m r = r.cell name := rfl

/-- A seek holds past its position in the first column, and level with it there where the second
column reaches it. -/
theorem Position.seek_eq_holds_iff (pos : Position) (hp : r.cell pos.primary ≠ .null) :
    (pos.seek o).truth m r = .holds ↔ pos.primaryValue.value m r ≠ .null ∧
      (o.Before (pos.primaryValue.value m r) (r.cell pos.primary) ∨
        r.cell pos.primary = pos.primaryValue.value m r ∧
          o.Reaches (r.cell pos.secondary) (pos.secondaryValue.value m r)) := by
  simp only [seek, Fragment.truth, Truth.or_eq_holds_iff, Truth.and_eq_holds_iff,
    Operand.value_column, SortOrder.truth_past, SortOrder.truth_atOrPast, Comparison.truth_eq]
  constructor
  · rintro (⟨_, hv, hpast⟩ | ⟨⟨_, heq⟩, hreached⟩)
    · exact ⟨hv, .inl hpast⟩
    · exact ⟨heq ▸ hp, .inr ⟨heq, hreached⟩⟩
  · rintro ⟨hv, hpast | ⟨heq, hreached⟩⟩
    · exact .inl ⟨hp, hv, hpast⟩
    · exact .inr ⟨⟨hp, heq⟩, hreached⟩

/-- The place of a change in the feed. -/
def Record.feedPlace (r : Row) : Place := r.place "rc_timestamp" "rc_id"

/-- A change with a timestamp and a number. -/
structure Record.Dated (r : Row) : Prop where
  timed : r.cell "rc_timestamp" ≠ .null
  numbered : ∃ n, r.cell "rc_id" = .int n

namespace Cursor

variable {c : Cursor}

/-- The place that a cursor points at. -/
def place (m : Meaning) (c : Cursor) : Place := toLex (m.stored c.timestamp, .int c.changeId)

/-- A change stands past a cursor in time, or level with it in time and not before it by number. -/
def Reached (c : Cursor) (o : SortOrder) (m : Meaning) (r : Row) : Prop :=
  m.stored c.timestamp ≠ .null ∧
    (o.Before (m.stored c.timestamp) (r.cell "rc_timestamp") ∨
      r.cell "rc_timestamp" = m.stored c.timestamp ∧
        o.Reaches (r.cell "rc_id") (.int c.changeId))

theorem seek_eq_holds_iff (ht : r.cell "rc_timestamp" ≠ .null) :
    (c.position.seek o).truth m r = .holds ↔ c.Reached o m r := by
  have hid : Operand.value m r (.number c.changeId.toInt) = .int c.changeId := by
    simp [Operand.value]
  rw [c.position.seek_eq_holds_iff ht]
  simp only [position, hid]
  rfl

/-- A dated change is reached from a cursor unless it stands before the cursor's place. -/
theorem reached_iff (hr : r.Dated) (hc : m.stored c.timestamp ≠ .null) :
    c.Reached o m r ↔ ¬ o.Before r.feedPlace (c.place m) := by
  obtain ⟨n, hn⟩ := hr.numbered
  rw [Record.feedPlace, Record.place, place, SortOrder.not_before_toLex_iff, hn]
  simp [Reached, SortOrder.Reaches, hc, hn]

/-- Where a seek is understood, it holds of the dated changes that do not stand before its
cursor. -/
theorem truth_seek_iff {x : Executor} (h : m.Understands x (c.position.seek o)) (hr : r.Dated)
    (hc : m.stored c.timestamp ≠ .null) :
    m.truth ((c.position.seek o).render x) r = .holds ↔ ¬ o.Before r.feedPlace (c.place m) := by
  rw [Meaning.truth_render h, seek_eq_holds_iff hr.timed]
  exact reached_iff hr hc

end Cursor

end PageWatch
