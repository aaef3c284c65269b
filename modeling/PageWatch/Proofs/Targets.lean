import PageWatch.Proofs.Failures
import PageWatch.Proofs.Wanted

/-! Targets: what the cells of a row say about its target and its place in the feed, and what is
wrong with a row that has none. -/
namespace PageWatch

theorem Scalar.toNamespace?_eq_none_iff {v : Scalar} :
    v.toNamespace? = none ↔ ∀ n, ¬ v.IsNamespace n := by
  simp only [isNamespace_iff]
  cases v.toNamespace? <;> simp

/-- An item that names an owner, with a notification timestamp that was reconciled for the owner
and the item's own target from the one that a row stores. -/
structure WatchedItem.OwnedBy (i : WatchedItem) (c : Collaborators) (owner : User) (r : Row) :
    Prop where
  user : i.user = owner
  reconciled : i.notificationTimestamp
    = c.latestNotification (r.cell "wl_notificationtimestamp").render owner i.target

namespace Row

variable {r : Row} {c : Collaborators} {user : User} {column titleColumn : String} {t : Target}
  {e : ContractError}

theorem ownedBy_watchedItem (r : Row) (c : Collaborators) (user : User) (t : Target) :
    (r.watchedItem c user t).OwnedBy c user r := by
  refine ⟨rfl, ?_⟩
  rw [← Record.bind_render]
  rfl

theorem namespaceId_eq_ok_iff {n : Int32} :
    r.namespaceId column = .ok n ↔ (r.cell column).toNamespace? = some n := by
  unfold namespaceId Scalar.toNamespace? namespaceId?
  rw [Record.bind_coerceInt]
  cases (r.cell column).coerceInt with
  | none => simp
  | some k =>
    simp only [Option.bind_some]
    split <;> simp

theorem namespaceId_eq_error_iff : r.namespaceId column = .error e ↔
    (∀ n, ¬ (r.cell column).IsNamespace n) ∧ e = .invalidCell column := by
  rw [← Scalar.toNamespace?_eq_none_iff]
  unfold namespaceId Scalar.toNamespace? namespaceId?
  rw [Record.bind_coerceInt]
  cases (r.cell column).coerceInt with
  | none => simp [eq_comm]
  | some k =>
    simp only [Option.bind_some]
    split <;> simp [eq_comm]

theorem textOf_eq_ok_iff {s : String} :
    r.textOf column = .ok s ↔ (r.cell column).render = some s := by
  unfold textOf
  rw [Record.bind_render]
  cases (r.cell column).render <;> simp

theorem textOf_eq_error_iff : r.textOf column = .error e ↔
    r.cell column = .null ∧ e = .missingCell column := by
  unfold textOf
  rw [Record.bind_render, ← Scalar.render_eq_none_iff]
  cases (r.cell column).render <;> simp [eq_comm]

theorem target_eq_ok_iff : r.target column titleColumn = .ok t ↔
    (r.cell column).toNamespace? = some t.namespaceId ∧
      (r.cell titleColumn).render = some t.title := by
  obtain ⟨n, s⟩ := t
  simp [target, Outcome.except_bind_eq_ok_iff, namespaceId_eq_ok_iff, textOf_eq_ok_iff, pure,
    Except.pure]

/-- A target fails for its namespace, or else for its title. -/
theorem target_eq_error_iff : r.target column titleColumn = .error e ↔
    ((∀ n, ¬ (r.cell column).IsNamespace n) ∧ e = .invalidCell column) ∨
      (∃ n, (r.cell column).IsNamespace n) ∧ r.cell titleColumn = .null ∧
        e = .missingCell titleColumn := by
  have hnamespace : (∃ n, (r.cell column).IsNamespace n) ↔ ∃ n, r.namespaceId column = .ok n := by
    simp [Scalar.isNamespace_iff, namespaceId_eq_ok_iff]
  rw [hnamespace]
  simp [target, Outcome.except_bind_eq_error_iff, namespaceId_eq_error_iff, textOf_eq_error_iff,
    pure, Except.pure]

/-- Why a row cannot be an item of a page, by the column that is to blame. -/
inductive ItemFault (r : Row) : ContractError → Prop where
  | noNamespace (h : ∀ n, ¬ (r.cell "rc_namespace").IsNamespace n) :
      ItemFault r (.invalidCell "rc_namespace")
  | noTitle (hn : ∃ n, (r.cell "rc_namespace").IsNamespace n) (h : r.cell "rc_title" = .null) :
      ItemFault r (.missingCell "rc_title")

/-- Why a row cannot be the cursor of a page, by the column that is to blame. -/
inductive CursorFault (r : Row) : ContractError → Prop where
  | noTimestamp (h : r.cell "rc_timestamp" = .null) :
      CursorFault r (.missingPosition "rc_timestamp")
  | noNumber (ht : r.cell "rc_timestamp" ≠ .null) (h : (r.cell "rc_id").coerceInt = none) :
      CursorFault r (.missingPosition "rc_id")

theorem changeItem_eq_error_iff : r.changeItem c user = .error e ↔ r.ItemFault e := by
  have htarget : r.changeItem c user = .error e ↔
      r.target "rc_namespace" "rc_title" = .error e := by
    simp [changeItem, Outcome.except_bind_eq_error_iff, pure, Except.pure]
  rw [htarget, target_eq_error_iff]
  constructor
  · rintro (⟨hn, rfl⟩ | ⟨hn, ht, rfl⟩)
    · exact .noNamespace hn
    · exact .noTitle hn ht
  · rintro (hn | ⟨hn, ht⟩)
    · exact .inl ⟨hn, rfl⟩
    · exact .inr ⟨hn, ht, rfl⟩

theorem cursor_eq_error_iff : r.cursor = .error e ↔ r.CursorFault e := by
  unfold cursor
  rw [Record.bind_render, Record.bind_coerceInt]
  constructor
  · intro h
    split at h <;> cases h
    next t ht hid => exact .noNumber (by simp [← Scalar.render_eq_none_iff, ht]) hid
    next ht => exact .noTimestamp (Scalar.render_eq_none_iff.mp ht)
  · rintro (ht | ⟨ht, hid⟩)
    · rw [Scalar.render_eq_none_iff.mpr ht]
    · obtain ⟨t, ht⟩ := Option.ne_none_iff_exists'.mp (mt Scalar.render_eq_none_iff.mp ht)
      rw [ht, hid]

/-- The cursor of a row is read off the two columns by which the feed is sorted. -/
theorem cursor_eq_of_feedPlace {r' : Row} (h : r.feedPlace = r'.feedPlace) :
    r.cursor = r'.cursor := by
  obtain ⟨ht, hid⟩ := Prod.mk.inj (toLex.injective h)
  unfold cursor
  rw [Record.bind_render, Record.bind_coerceInt, Record.bind_render, Record.bind_coerceInt, ht, hid]

end Row

end PageWatch
