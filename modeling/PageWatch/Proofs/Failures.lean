import PageWatch.Service

/-! Failures: which part of a call a failure comes from. -/
namespace PageWatch

namespace Outcome

variable {ε ε' α β : Type}

/-- A chain fails where its first part does, or where its second part does after the first. -/
theorem result_bind_eq_error_iff {x : Outcome ε α} {f : α → Outcome ε β} {e : ε} :
    (x >>= f).result = .error e ↔
      x.result = .error e ∨ ∃ a, x.result = .ok a ∧ (f a).result = .error e := by
  cases h : x.result with
  | ok a => simp [bind_of_ok h]
  | error e => simp [bind_of_error h]

/-- The result of a chain is the chain of the results. -/
theorem result_bind (x : Outcome ε α) (f : α → Outcome ε β) :
    (x >>= f).result = x.result >>= fun a => (f a).result := by
  cases h : x.result with
  | ok a => rw [bind_of_ok h]; rfl
  | error e => rw [bind_of_error h]; rfl

theorem result_mapError (f : ε → ε') (x : Outcome ε α) :
    (x.mapError f).result = x.result.mapError f := rfl

theorem except_ok_bind (a : α) (f : α → Except ε β) : Except.ok a >>= f = f a := rfl

theorem mapError_ok (f : ε → ε') (a : α) : (Except.ok a).mapError f = .ok a := rfl

theorem except_bind_eq_error_iff {r : Except ε α} {f : α → Except ε β} {e : ε} :
    r >>= f = .error e ↔ r = .error e ∨ ∃ a, r = .ok a ∧ f a = .error e := by
  cases r <;> simp [Bind.bind, Except.bind]

theorem exists_eq_ok_iff {r : Except ε α} : (∃ a, r = .ok a) ↔ ∀ e, r ≠ .error e := by
  cases r <;> simp

theorem except_map_eq_error_iff {r : Except ε α} {f : α → β} {e : ε} :
    r.map f = .error e ↔ r = .error e := by
  cases r <;> simp [Except.map]

/-- Whether there is a result, without the result. -/
theorem except_map_unit_eq_ok_iff {r : Except ε α} :
    (r.map fun _ => ()) = .ok () ↔ ∃ a, r = .ok a := by
  simp [except_map_eq_ok_iff]

theorem mapError_eq_error_iff {r : Except ε α} {f : ε → ε'} {e : ε'} :
    r.mapError f = .error e ↔ ∃ e₀, r = .error e₀ ∧ f e₀ = e := by
  cases r with
  | ok a => exact ⟨nofun, nofun⟩
  | error e₀ =>
    show (.error (f e₀) : Except ε' α) = .error e ↔ _
    simp

/-- A fold fails only where one of its steps does. -/
theorem exists_of_result_foldlM_error {f : β → α → Outcome ε β} {as : List α} {b : β} {e : ε}
    (h : (as.foldlM f b).result = .error e) : ∃ a b', a ∈ as ∧ (f b' a).result = .error e := by
  induction as generalizing b with
  | nil => cases h
  | cons a as ih =>
    rw [List.foldlM_cons, result_bind_eq_error_iff] at h
    rcases h with h | ⟨b', _, h⟩
    · exact ⟨a, b, List.mem_cons_self, h⟩
    · obtain ⟨a', b', ha, h⟩ := ih h
      exact ⟨a', b', List.mem_cons_of_mem _ ha, h⟩

/-- A pass over a list fails at the first element that fails; what comes after it plays no part. -/
theorem mapM_eq_error_iff {f : α → Except ε β} {as : List α} {e : ε} :
    as.mapM f = .error e ↔ ∃ front a back, as = front ++ a :: back ∧
      (∀ a' ∈ front, ∃ b, f a' = .ok b) ∧ f a = .error e := by
  induction as with
  | nil => simp [pure, Except.pure]
  | cons a as ih =>
    have hrest (b : β) : as.mapM f >>= (fun bs => (pure (b :: bs) : Except ε (List β))) = .error e ↔
        as.mapM f = .error e := by
      simp [except_bind_eq_error_iff, pure, Except.pure]
    rw [List.mapM_cons, except_bind_eq_error_iff]
    constructor
    · rintro (ha | ⟨b, hb, h⟩)
      · exact ⟨[], a, as, rfl, nofun, ha⟩
      · obtain ⟨front, a', back, rfl, hfront, ha'⟩ := ih.mp ((hrest b).mp h)
        exact ⟨a :: front, a', back, rfl, List.forall_mem_cons.mpr ⟨⟨b, hb⟩, hfront⟩, ha'⟩
    · rintro ⟨front, a', back, heq, hfront, ha'⟩
      cases front with
      | nil =>
        cases heq
        exact .inl ha'
      | cons a₀ front =>
        cases heq
        obtain ⟨⟨b, hb⟩, hfront⟩ := List.forall_mem_cons.mp hfront
        exact .inr ⟨b, hb, (hrest b).mpr (ih.mpr ⟨front, a', back, rfl, hfront, ha'⟩)⟩

theorem exists_mapM_eq_ok_iff {f : α → Except ε β} {as : List α} :
    (∃ bs, as.mapM f = .ok bs) ↔ ∀ a ∈ as, ∃ b, f a = .ok b := by
  induction as with
  | nil => simp [pure, Except.pure]
  | cons a as ih =>
    rw [List.forall_mem_cons, ← ih]
    simp only [List.mapM_cons, except_bind_eq_ok_iff, pure, Except.pure, Except.ok.injEq]
    constructor
    · rintro ⟨_, b, hb, bs, hbs, _⟩
      exact ⟨⟨b, hb⟩, bs, hbs⟩
    · rintro ⟨⟨b, hb⟩, bs, hbs⟩
      exact ⟨b :: bs, b, hb, bs, hbs, rfl⟩

theorem exists_of_mapM_eq_error {f : α → Except ε β} {as : List α} {e : ε}
    (h : as.mapM f = .error e) : ∃ a ∈ as, f a = .error e := by
  obtain ⟨front, a, back, rfl, _, ha⟩ := mapM_eq_error_iff.mp h
  exact ⟨a, List.mem_append_right front List.mem_cons_self, ha⟩

end Outcome

namespace CallError

/-- A failure of the checks before anything is asked for. -/
def isRefusal : CallError → Bool
  | validation _ | authorization _ => true
  | _ => false

/-- A failure of a hook, or a broken contract that was noticed in the given stage. -/
def isFailureOf (stage : Stage) : CallError → Bool
  | extension .. => true
  | contract c => c.stage = stage
  | _ => false

end CallError

section Contracts

variable {c : Collaborators} {x : Executor} {config : SelectConfig} {user : User}
  {e : ContractError}

theorem stage_of_storedOwner_eq_error {id : UInt64} (h : storedOwner id = .error e) :
    e.stage = .compiler := by
  unfold storedOwner at h
  split at h <;> cases h
  rfl

theorem FeedOptions.stage_of_groupFields_eq_error {group : FieldGroup}
    (h : groupFields c group = .error e) : e.stage = .compiler := by
  have hfield (name : String) (h : actorField c name = .error e) : e.stage = .compiler := by
    unfold actorField at h
    split at h <;> cases h
    rfl
  have hmap {name : String} {f : SelectField → List SelectField}
      (h : (actorField c name).map f = .error e) : e.stage = .compiler := by
    cases hname : actorField c name with
    | ok field => rw [hname] at h; cases h
    | error e' => rw [hname] at h; cases h; exact hfield name hname
  cases group with
  | user => exact hmap h
  | userId => exact hmap h
  | _ => cases h

theorem FeedOptions.stage_of_select_eq_error {o : FeedOptions} {g : Grant}
    (h : o.select c x config g = .error e) : e.stage = .compiler := by
  rcases Outcome.except_bind_eq_error_iff.mp h with h | ⟨_, _, h⟩
  · rcases Outcome.except_bind_eq_error_iff.mp h with h | ⟨_, _, h⟩
    · obtain ⟨group, _, h⟩ := Outcome.exists_of_mapM_eq_error h
      exact stage_of_groupFields_eq_error h
    · cases h
  · rcases Outcome.except_bind_eq_error_iff.mp h with h | ⟨_, _, h⟩
    · exact stage_of_storedOwner_eq_error h
    · cases h

theorem WatchlistOptions.stage_of_select_eq_error {o : WatchlistOptions} {id : UInt64}
    (h : o.select x config id = .error e) : e.stage = .compiler := by
  rcases Outcome.except_bind_eq_error_iff.mp h with h | ⟨_, _, h⟩
  · exact stage_of_storedOwner_eq_error h
  · cases h

theorem Row.stage_of_target_eq_error {r : Row} {namespaceColumn titleColumn : String}
    (h : r.target namespaceColumn titleColumn = .error e) : e.stage = .mapper := by
  unfold Row.target Row.namespaceId Row.textOf at h
  rcases Outcome.except_bind_eq_error_iff.mp h with h | ⟨_, _, h⟩
  · split at h
    · split at h <;> cases h
      rfl
    · cases h
      rfl
  · rcases Outcome.except_bind_eq_error_iff.mp h with h | ⟨_, _, h⟩
    · split at h <;> cases h
      rfl
    · cases h

theorem Row.stage_of_cursor_eq_error {r : Row} (h : r.cursor = .error e) : e.stage = .mapper := by
  unfold Row.cursor at h
  split at h <;> cases h <;> rfl

theorem Row.stage_of_changeItem_eq_error {r : Row} (h : r.changeItem c user = .error e) :
    e.stage = .mapper := by
  rcases Outcome.except_bind_eq_error_iff.mp h with h | ⟨_, _, h⟩
  · exact stage_of_target_eq_error h
  · cases h

theorem ChangePage.stage_of_ofRows_eq_error {cap : Option UInt32} {rows : List Row}
    (h : ofRows c user cap rows = .error e) : e.stage = .mapper := by
  have hitems {rows : List Row} (h : rows.mapM (fun r => r.changeItem c user) = .error e) :
      e.stage = .mapper := by
    obtain ⟨r, _, h⟩ := Outcome.exists_of_mapM_eq_error h
    exact Row.stage_of_changeItem_eq_error h
  unfold ofRows at h
  split at h
  · rcases Outcome.except_bind_eq_error_iff.mp h with h | ⟨_, _, h⟩
    · exact hitems h
    · split at h
      · rcases Outcome.except_bind_eq_error_iff.mp h with h | ⟨_, _, h⟩
        · exact Row.stage_of_cursor_eq_error h
        · cases h
      · cases h
  · rcases Outcome.except_bind_eq_error_iff.mp h with h | ⟨_, _, h⟩
    · exact hitems h
    · cases h

theorem WatchedItem.stage_of_ofRows_eq_error {rows : List Row}
    (h : ofRows c user rows = .error e) : e.stage = .mapper := by
  obtain ⟨r, _, h⟩ := Outcome.exists_of_mapM_eq_error h
  rcases Outcome.except_bind_eq_error_iff.mp h with h | ⟨_, _, h⟩
  · exact Row.stage_of_target_eq_error h
  · cases h

end Contracts

namespace Extension

variable {ctx : HookContext} {es : List Extension} {e : CallError}

/-- Hooks fail as hooks, in whatever stage. -/
theorem isFailureOf_of_beforeAll {q : SelectQuery}
    (h : (beforeAll ctx es q).result = .error e) (stage : Stage) : e.isFailureOf stage = true := by
  obtain ⟨_, _, _, h⟩ := Outcome.exists_of_result_foldlM_error h
  obtain ⟨_, _, rfl⟩ := Outcome.mapError_eq_error_iff.mp h
  rfl

theorem isFailureOf_of_afterAll {rows : List Row} {p : ChangePage}
    (h : (afterAll ctx rows es p).result = .error e) (stage : Stage) :
    e.isFailureOf stage = true := by
  obtain ⟨_, _, _, h⟩ := Outcome.exists_of_result_foldlM_error h
  obtain ⟨_, _, rfl⟩ := Outcome.mapError_eq_error_iff.mp h
  rfl

end Extension

theorem Service.isFailureOf_of_page {s : Service} {user : User} {cap : Option UInt32}
    {rows : List Row} {e : CallError}
    (h : (s.page user cap rows).result = .error e) : e.isFailureOf .mapper = true := by
  rcases Outcome.result_bind_eq_error_iff.mp h with h | ⟨page, _, h⟩
  · obtain ⟨c, hc, rfl⟩ := Outcome.mapError_eq_error_iff.mp h
    simp [CallError.isFailureOf, ChangePage.stage_of_ofRows_eq_error hc]
  · cases hc : page.cursor <;> rw [hc] at h <;> cases h

end PageWatch
