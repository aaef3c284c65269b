import PageWatch.Service

/-! The stages of a call: what has to succeed for a select to run and for an answer to come back. -/
namespace PageWatch

namespace Access

variable {c : Collaborators} {user : User} {o : FeedOptions} {g : Grant} {id : UInt64}

/-- A claim is granted exactly when its token matches. -/
theorem verifyScope_claimed_eq_ok_iff {owner : User} {token : String} :
    (verifyScope c (.claimed owner token)).result = .ok id ↔
      tokenMatches (c.watchlistToken owner) token = true ∧ owner.id = id := by
  by_cases h : tokenMatches (c.watchlistToken owner) token = true <;> simp [verifyScope, h]

/-- What is granted beside the owner depends on the acting user alone. -/
theorem decide_eq_ok_iff :
    (decide c user o).result = .ok g ↔
      ∃ id, (verifyScope c o.scope).result = .ok id ∧
        g = ⟨id, visibility c user, o.filters.filter (honors c user)⟩ := by
  simp only [decide, honoredFilters, Outcome.result_bind_eq_ok_iff, Outcome.result_pure,
    Except.ok.injEq, exists_eq_left']
  exact exists_congr fun id => and_congr_right fun _ => eq_comm

/-- Deciding writes to the log at most. -/
theorem exists_log_of_mem_effects_decide {e : Effect} (h : e ∈ (decide c user o).effects) :
    ∃ event, e = .log event := by
  simp only [decide, Outcome.mem_effects_bind, Outcome.effects_pure, List.not_mem_nil,
    and_false, exists_false, or_false] at h
  rcases h with h | ⟨id, _, h⟩
  · cases hs : o.scope with
    | own user => simp [hs, verifyScope] at h
    | claimed owner token =>
      simp only [hs, verifyScope] at h
      split at h
      · simp at h
      · exact ⟨_, by simpa using h⟩
  · obtain ⟨f, _, rfl⟩ := List.mem_map.mp h
    exact ⟨_, rfl⟩

end Access

namespace Service

variable {s : Service} {user : User} {request : FeedRequest} {cursor : Option (List Scalar)}

/-- A call that gets as far as compiling a select: what its checks found, and what the select was
compiled for. -/
structure Compiles (s : Service) (user : User) (request : FeedRequest)
    (cursor : Option (List Scalar)) (o : FeedOptions) (g : Grant) (x : Executor)
    (q : SelectQuery) : Prop where
  validated : request.validate user cursor = .ok o
  decided : (Access.decide s.host.collaborators user o).result = .ok g
  replica : s.host.replica = .ok x
  compiled : o.select s.host.collaborators x s.config g = .ok q

theorem compiles_iff {o : FeedOptions} {g : Grant} {x : Executor} {q : SelectQuery} :
    s.Compiles user request cursor o g x q ↔ request.validate user cursor = .ok o ∧
      (Access.decide s.host.collaborators user o).result = .ok g ∧ s.host.replica = .ok x ∧
      o.select s.host.collaborators x s.config g = .ok q :=
  ⟨fun h => ⟨h.validated, h.decided, h.replica, h.compiled⟩,
    fun ⟨hv, hd, hr, hc⟩ => ⟨hv, hd, hr, hc⟩⟩

/-- A call compiles one select. -/
theorem Compiles.unique {o o' : FeedOptions} {g g' : Grant} {x x' : Executor} {q q' : SelectQuery}
    (h : s.Compiles user request cursor o g x q) (h' : s.Compiles user request cursor o' g' x' q') :
    o = o' ∧ g = g' ∧ x = x' ∧ q = q' := by
  obtain rfl : o = o' := Except.ok.inj (h.validated.symm.trans h'.validated)
  obtain rfl : g = g' := Except.ok.inj (h.decided.symm.trans h'.decided)
  obtain rfl : x = x' := Except.ok.inj (h.replica.symm.trans h'.replica)
  exact ⟨rfl, rfl, rfl, Except.ok.inj (h.compiled.symm.trans h'.compiled)⟩

theorem page_eq_ok_iff {cap : Option UInt32} {rows : List Row} {p : ChangePage} :
    (s.page user cap rows).result = .ok p ↔
      ChangePage.ofRows s.host.collaborators user cap rows = .ok p := by
  simp only [Service.page, Outcome.result_bind_eq_ok_iff, Outcome.result_ofExcept,
    Outcome.mapError_eq_ok_iff]
  constructor
  · rintro ⟨p', hp, hnoted⟩
    cases hc : p'.cursor <;> simp_all
  · intro hp
    refine ⟨p, hp, ?_⟩
    cases p.cursor <;> simp

theorem not_select_mem_effects_page {cap : Option UInt32} {rows : List Row} {q : SelectQuery} :
    .select q ∉ (s.page user cap rows).effects := by
  simp only [Service.page, Outcome.mem_effects_bind]
  rintro (h | ⟨p, _, h⟩)
  · simp at h
  · cases hc : p.cursor <;> simp [hc] at h

/-- A page comes back exactly when every stage of the call succeeds. -/
theorem changes_eq_ok_iff {page : ChangePage} :
    (s.changes user request cursor).result = .ok page ↔
      ∃ o g x q q' rows p, s.Compiles user request cursor o g x q ∧
        (Extension.beforeAll ⟨user, o, x⟩ s.extensions q).result = .ok q' ∧
        x.select q' = .ok rows ∧
        ChangePage.ofRows s.host.collaborators user o.rowCap rows = .ok p ∧
        (Extension.afterAll ⟨user, o, x⟩ rows s.extensions p).result = .ok page := by
  simp [changes, FeedOptions.compile, Service.replica, Executor.run, page_eq_ok_iff, compiles_iff,
    and_assoc]

/-- The selects that a call runs are the compiled ones, as the hooks before the select left them. -/
theorem mem_selects_changes_iff {q' : SelectQuery} :
    q' ∈ (s.changes user request cursor).selects ↔
      ∃ o g x q, s.Compiles user request cursor o g x q ∧
        (Extension.beforeAll ⟨user, o, x⟩ s.extensions q).result = .ok q' := by
  have decide (o : FeedOptions) :
      .select q' ∉ (Access.decide s.host.collaborators user o).effects := by
    intro h
    obtain ⟨_, h⟩ := Access.exists_log_of_mem_effects_decide h
    cases h
  have before (ctx : HookContext) (q : SelectQuery) :
      .select q' ∉ (Extension.beforeAll ctx s.extensions q).effects :=
    Outcome.not_mem_effects_foldlM (by simp [Extension.runBefore]) _ _
  have after (ctx : HookContext) (rows : List Row) (p : ChangePage) :
      .select q' ∉ (Extension.afterAll ctx rows s.extensions p).effects :=
    Outcome.not_mem_effects_foldlM (by simp [Extension.runAfter]) _ _
  simp [Outcome.mem_selects, changes, FeedOptions.compile, Service.replica, Executor.run,
    compiles_iff, and_assoc, decide, before, after, not_select_mem_effects_page,
    eq_comm (a := q')]

/-- Only an account's own listing is selected, and it is selected as compiled. -/
theorem mem_selects_watchedPages_iff {request : WatchlistRequest} {q : SelectQuery} :
    q ∈ (s.watchedPages user request).selects ↔
      user.isRegistered = true ∧ ∃ o x, request.validate = .ok o ∧ s.host.replica = .ok x ∧
        o.select x s.config user.id = .ok q := by
  cases hu : user.isRegistered with
  | false => simp [Outcome.mem_selects, watchedPages, hu]
  | true =>
    simp [Outcome.mem_selects, watchedPages, hu, WatchlistOptions.compile, Service.replica,
      Executor.run, eq_comm (a := q)]

end Service

end PageWatch
