import PageWatch.Host.InMemory
import PageWatch.Proofs.Course
import PageWatch.Proofs.Stages

/-! Effects: how a call ends tells what it did outside. -/
namespace PageWatch

namespace Outcome

variable {ε α : Type} (r : Except ε α) (note : α → LogEvent)

/-- Rendering what was compiled does not change how compiling ended. -/
theorem result_rendered : (do
    let a ← ofExcept r
    emit .render
    log (note a)
    return a : Outcome ε α).result = r := by
  cases r <;> rfl

theorem within_rendered {p : Effect → Bool} (hrender : p .render = true)
    (hlog : ∀ event, p (.log event) = true) : (do
    let a ← ofExcept r
    emit .render
    log (note a)
    return a : Outcome ε α).Within p := by
  refine within_nil.bind fun a _ => (within_singleton hrender).bind fun _ _ => ?_
  exact (within_singleton (hlog _)).bind fun _ _ => within_nil

end Outcome

theorem FeedOptions.result_compile (o : FeedOptions) (c : Collaborators) (x : Executor)
    (config : SelectConfig) (g : Grant) :
    (o.compile c x config g).result = o.select c x config g :=
  Outcome.result_rendered _ _

theorem FeedOptions.compile_within (o : FeedOptions) {c : Collaborators} {x : Executor}
    {config : SelectConfig} {g : Grant} : (o.compile c x config g).Within Effect.isPreparing :=
  Outcome.within_rendered _ _ rfl fun _ => rfl

theorem WatchlistOptions.result_compile (o : WatchlistOptions) (x : Executor)
    (config : SelectConfig) (id : UInt64) : (o.compile x config id).result = o.select x config id :=
  Outcome.result_rendered _ _

theorem WatchlistOptions.compile_within (o : WatchlistOptions) {x : Executor}
    {config : SelectConfig} {id : UInt64} : (o.compile x config id).Within Effect.isPreparing :=
  Outcome.within_rendered _ _ rfl fun _ => rfl

namespace Extension

variable {ctx : HookContext} {es : List Extension}

theorem beforeAll_within (q : SelectQuery) :
    (beforeAll ctx es q).Within Effect.isPreparing :=
  Outcome.Within.foldlM (fun _ _ => Outcome.within_singleton rfl) es q

/-- The last hook before the select has the last word. -/
theorem beforeAll_concat_eq_ok_iff {last : Extension} {q q' : SelectQuery} :
    (beforeAll ctx (es ++ [last]) q).result = .ok q' ↔
      ∃ q₀, (beforeAll ctx es q).result = .ok q₀ ∧ last.beforeQuery ctx q₀ = .ok q' := by
  have := Outcome.lawful (ε := CallError)
  simp [beforeAll, List.foldlM_append, runBefore]

theorem afterAll_within (rows : List Row) (p : ChangePage) :
    (afterAll ctx rows es p).Within Effect.isFinishing :=
  Outcome.Within.foldlM (fun _ _ => Outcome.within_singleton rfl) es p

end Extension

namespace Service

variable {s : Service} {user : User}

section Feed

variable {request : FeedRequest} {cursor : Option (List Scalar)}

theorem page_within {cap : Option UInt32} {rows : List Row} {p : Effect → Bool}
    (hp : ∀ event, p (.log event) = true) : (s.page user cap rows).Within p := by
  refine Outcome.within_nil.bind fun page _ => ?_
  cases page.cursor with
  | none => exact Outcome.within_nil
  | some c => exact (Outcome.within_singleton (hp _)).bind fun _ _ => Outcome.within_nil

/-- How preparing the select of the feed ends: it cannot be compiled, or the hooks before it have
the last word. -/
inductive Prepares (s : Service) (user : User) (request : FeedRequest)
    (cursor : Option (List Scalar)) (x : Executor) : Except CallError SelectQuery → Prop where
  | uncompiled {o : FeedOptions} {g : Grant} {e : ContractError}
      (hvalidated : request.validate user cursor = .ok o)
      (hdecided : (Access.decide s.host.collaborators user o).result = .ok g)
      (hreplica : s.host.replica = .ok x)
      (hselect : o.select s.host.collaborators x s.config g = .error e) :
      Prepares s user request cursor x (.error (.contract e))
  | compiled {o : FeedOptions} {g : Grant} {q : SelectQuery}
      (h : s.Compiles user request cursor o g x q) :
      Prepares s user request cursor x (Extension.beforeAll ⟨user, o, x⟩ s.extensions q).result

theorem Prepares.exists_beforeAll {x : Executor} {q : SelectQuery}
    (h : s.Prepares user request cursor x (.ok q)) :
    ∃ o q₁, (Extension.beforeAll ⟨user, o, x⟩ s.extensions q₁).result = .ok q := by
  generalize hr : Except.ok q = r at h
  cases h with
  | uncompiled => cases hr
  | @compiled o g q₁ => exact ⟨o, q₁, rfl⟩

/-- The call of the feed. -/
def feedCall (s : Service) (user : User) (request : FeedRequest)
    (cursor : Option (List Scalar)) : Call (FeedOptions × Grant) ChangePage where
  check := do
    let o ← .ofExcept ((request.validate user cursor).mapError .validation)
    let g ← (Access.decide s.host.collaborators user o).mapError .authorization
    return (o, g)
  prepare := fun (o, g) x => do
    let compiled ← (o.compile s.host.collaborators x s.config g).mapError .contract
    Extension.beforeAll ⟨user, o, x⟩ s.extensions compiled
  finish := fun (o, _) x rows => do
    .log (.rowsFetched rows.length)
    let page ← s.page user o.rowCap rows
    Extension.afterAll ⟨user, o, x⟩ rows s.extensions page
  check_within := by
    refine Outcome.within_nil.bind fun o _ => Outcome.Within.bind ?_ fun _ _ => Outcome.within_nil
    intro e he
    obtain ⟨event, rfl⟩ := Access.exists_log_of_mem_effects_decide he
    rfl
  check_fails := by
    intro e h
    rcases Outcome.result_bind_eq_error_iff.mp h with h | ⟨o, _, h⟩
    · obtain ⟨_, _, rfl⟩ := Outcome.mapError_eq_error_iff.mp h
      rfl
    · rcases Outcome.result_bind_eq_error_iff.mp h with h | ⟨g, _, h⟩
      · obtain ⟨_, _, rfl⟩ := Outcome.mapError_eq_error_iff.mp h
        rfl
      · cases h
  prepare_within := by
    rintro ⟨o, g⟩ x
    refine Outcome.Within.bind ?_ fun q _ => Extension.beforeAll_within q
    exact o.compile_within.mapError
  prepare_fails := by
    rintro ⟨o, g⟩ x e h
    rcases Outcome.result_bind_eq_error_iff.mp h with h | ⟨q, _, h⟩
    · obtain ⟨c, hc, rfl⟩ := Outcome.mapError_eq_error_iff.mp h
      rw [o.result_compile] at hc
      simp [CallError.isFailureOf, FeedOptions.stage_of_select_eq_error hc]
    · exact Extension.isFailureOf_of_beforeAll h .compiler
  finish_within := by
    rintro ⟨o, _⟩ x rows
    refine Outcome.Within.bind (Outcome.within_singleton rfl) fun _ _ => ?_
    exact (page_within fun _ => rfl).bind fun p _ => Extension.afterAll_within rows p
  finish_fails := by
    rintro ⟨o, _⟩ x rows e h
    rcases Outcome.result_bind_eq_error_iff.mp h with h | ⟨_, _, h⟩
    · cases h
    · rcases Outcome.result_bind_eq_error_iff.mp h with h | ⟨p, _, h⟩
      · exact isFailureOf_of_page h
      · exact Extension.isFailureOf_of_afterAll h .mapper

theorem changes_eq_run :
    s.changes user request cursor = (s.feedCall user request cursor).run s := by
  have := Outcome.lawful (ε := CallError)
  simp only [changes, feedCall, Call.run, bind_assoc, pure_bind]

theorem check_feedCall_eq_ok_iff {o : FeedOptions} {g : Grant} :
    (s.feedCall user request cursor).check.result = .ok (o, g) ↔
      request.validate user cursor = .ok o ∧
        (Access.decide s.host.collaborators user o).result = .ok g := by
  simp only [feedCall, Outcome.result_bind_eq_ok_iff, Outcome.result_ofExcept,
    Outcome.mapError_eq_ok_iff, Outcome.result_mapError_eq_ok_iff, Outcome.result_pure,
    Except.ok.injEq, Prod.mk.injEq]
  constructor
  · rintro ⟨_, hvalidated, _, hdecided, rfl, rfl⟩
    exact ⟨hvalidated, hdecided⟩
  · rintro ⟨hvalidated, hdecided⟩
    exact ⟨o, hvalidated, g, hdecided, rfl, rfl⟩

theorem prepare_feedCall_of_error {o : FeedOptions} {g : Grant} {x : Executor} {e : ContractError}
    (h : o.select s.host.collaborators x s.config g = .error e) :
    ((s.feedCall user request cursor).prepare (o, g) x).result = .error (.contract e) := by
  have hcompile : ((o.compile s.host.collaborators x s.config g).mapError
      CallError.contract).result = .error (.contract e) := by
    rw [Outcome.mapError, o.result_compile, h]
    rfl
  simp only [feedCall]
  rw [Outcome.bind_of_error hcompile]

theorem prepare_feedCall_of_ok {o : FeedOptions} {g : Grant} {x : Executor} {q : SelectQuery}
    (h : o.select s.host.collaborators x s.config g = .ok q) :
    ((s.feedCall user request cursor).prepare (o, g) x).result
      = (Extension.beforeAll ⟨user, o, x⟩ s.extensions q).result := by
  have hcompile : ((o.compile s.host.collaborators x s.config g).mapError
      CallError.contract).result = .ok q := by
    rw [Outcome.mapError, o.result_compile, h]
    rfl
  simp only [feedCall]
  rw [Outcome.bind_of_ok hcompile]

theorem prepares_feedCall_iff {x : Executor} {r : Except CallError SelectQuery} :
    (s.feedCall user request cursor).Prepares s x r ↔ s.Prepares user request cursor x r := by
  constructor
  · rintro ⟨⟨o, g⟩, hcheck, hreplica, rfl⟩
    obtain ⟨hvalidated, hdecided⟩ := check_feedCall_eq_ok_iff.mp hcheck
    cases hselect : o.select s.host.collaborators x s.config g with
    | error e =>
      rw [prepare_feedCall_of_error hselect]
      exact .uncompiled hvalidated hdecided hreplica hselect
    | ok q =>
      rw [prepare_feedCall_of_ok hselect]
      exact .compiled ⟨hvalidated, hdecided, hreplica, hselect⟩
  · intro h
    cases h with
    | uncompiled hvalidated hdecided hreplica hselect =>
      exact ⟨_, check_feedCall_eq_ok_iff.mpr ⟨hvalidated, hdecided⟩, hreplica,
        prepare_feedCall_of_error hselect⟩
    | compiled h =>
      exact ⟨_, check_feedCall_eq_ok_iff.mpr ⟨h.validated, h.decided⟩, h.replica,
        prepare_feedCall_of_ok h.compiled⟩

end Feed

section Listing

variable {request : WatchlistRequest}

/-- How preparing the select of a listing ends. -/
def PreparesListing (s : Service) (user : User) (request : WatchlistRequest) (x : Executor)
    (r : Except CallError SelectQuery) : Prop :=
  ∃ o, request.validate = .ok o ∧ s.host.replica = .ok x ∧
    (o.select x s.config user.id).mapError .contract = r

/-- The call of the listing, for an account. -/
def listingCall (s : Service) (user : User) (request : WatchlistRequest) :
    Call WatchlistOptions (List WatchedItem) where
  check := .ofExcept (request.validate.mapError .validation)
  prepare o x := (o.compile x s.config user.id).mapError .contract
  finish _ _ rows :=
    .ofExcept ((WatchedItem.ofRows s.host.collaborators user rows).mapError .contract)
  check_within := Outcome.within_nil
  check_fails := by
    intro e h
    obtain ⟨_, _, rfl⟩ := Outcome.mapError_eq_error_iff.mp h
    rfl
  prepare_within o _ := o.compile_within.mapError
  prepare_fails := by
    intro o x e h
    obtain ⟨c, hc, rfl⟩ := Outcome.mapError_eq_error_iff.mp h
    rw [o.result_compile] at hc
    simp [CallError.isFailureOf, WatchlistOptions.stage_of_select_eq_error hc]
  finish_within _ _ _ := Outcome.within_nil
  finish_fails := by
    intro o x rows e h
    obtain ⟨c, hc, rfl⟩ := Outcome.mapError_eq_error_iff.mp h
    simp [CallError.isFailureOf, WatchedItem.stage_of_ofRows_eq_error hc]

theorem watchedPages_eq_run (hu : user.isRegistered = true) :
    s.watchedPages user request = (s.listingCall user request).run s := by
  simp [watchedPages, hu, listingCall, Call.run]

theorem prepares_listingCall_iff {x : Executor} {r : Except CallError SelectQuery} :
    (s.listingCall user request).Prepares s x r ↔ s.PreparesListing user request x r := by
  simp [Call.Prepares, listingCall, PreparesListing, Outcome.mapError,
    WatchlistOptions.result_compile]

theorem hooks_not_mem_effects_watchedPages (name : String) :
    .beforeHook name ∉ (s.watchedPages user request).effects ∧
      .afterHook name ∉ (s.watchedPages user request).effects := by
  cases hu : user.isRegistered <;>
    simp [watchedPages, hu, WatchlistOptions.compile, Service.replica, Executor.run]

end Listing

/-- How a call ends tells what it did outside: whether it asked for a replica, whether it ran its
one select, and which one, which in the feed is what the last hook before it returned. A listing
calls no hooks, and for a visitor without an account nothing is done. -/
theorem effects_go_by_ending (s : Service) (user : User) :
    (∀ request cursor,
      (s.changes user request cursor).Accounted s.host.replica (s.Prepares user request cursor) ∧
      ∀ es last, s.extensions = es ++ [last] →
        ∀ x q, s.Prepares user request cursor x (.ok q) →
          ∃ ctx q₀, ctx.executor = x ∧ last.beforeQuery ctx q₀ = .ok q) ∧
    (∀ request,
      (user.isRegistered = true →
        (s.watchedPages user request).Accounted s.host.replica
          (s.PreparesListing user request)) ∧
      (user.isRegistered = false →
        (s.watchedPages user request).result = .ok [] ∧
        (s.watchedPages user request).replicas = 0 ∧
        (s.watchedPages user request).touchesExecutor = false) ∧
      ∀ name, .beforeHook name ∉ (s.watchedPages user request).effects ∧
        .afterHook name ∉ (s.watchedPages user request).effects) := by
  refine ⟨fun request cursor => ⟨?_, fun es last hlast x q hq => ?_⟩,
    fun request => ⟨fun hu => ?_, fun hu => ?_, ?_⟩⟩
  · have hprepares : (s.feedCall user request cursor).Prepares s = s.Prepares user request cursor :=
      funext fun x => funext fun r => propext prepares_feedCall_iff
    rw [changes_eq_run, ← hprepares]
    exact (s.feedCall user request cursor).accounted s
  · obtain ⟨o, q₁, hq₁⟩ := hq.exists_beforeAll
    rw [hlast] at hq₁
    obtain ⟨q₀, _, hq₀⟩ := Extension.beforeAll_concat_eq_ok_iff.mp hq₁
    exact ⟨_, q₀, rfl, hq₀⟩
  · have hprepares : (s.listingCall user request).Prepares s = s.PreparesListing user request :=
      funext fun x => funext fun r => propext prepares_listingCall_iff
    rw [watchedPages_eq_run hu, ← hprepares]
    exact (s.listingCall user request).accounted s
  · have hnothing : s.watchedPages user request = ⟨[.log .noWatchlist], .ok []⟩ := by
      simp only [watchedPages, hu]
      rfl
    rw [hnothing]
    exact ⟨rfl, rfl, rfl⟩
  · exact hooks_not_mem_effects_watchedPages

/-- A hook that cuts the select short decides what is run, also when a hook after the select fails;
one that refuses leaves it unrun. A visitor without an account is not even told of a bad request. -/
theorem effects_go_by_ending_failing_hooks :
    let short : Extension :=
      { name := "short", beforeQuery := fun _ q => .ok { q with limit := some 7 } }
    let refuse : Extension := { name := "refuse", beforeQuery := fun _ _ => .error "not today" }
    let dismiss : Extension :=
      { name := "dismiss", afterQuery := fun _ _ _ => .error "not today" }
    let s (es : List Extension) : Service := ⟨InMemory.host {}, {}, es⟩
    let request : FeedRequest := {}
    (∃ q, q.limit = some 7 ∧
      ((s [short, dismiss]).changes InMemory.actingUser request none).Selects q) ∧
    (((s [short, refuse]).changes InMemory.actingUser request none).result
        = .error (.extension "refuse" "not today") ∧
      ((s [short, refuse]).changes InMemory.actingUser request none).StopsEarly) ∧
    (∃ x q, (s []).PreparesListing InMemory.actingUser {} x (.ok q) ∧
      ((s []).watchedPages InMemory.actingUser {}).Selects q) ∧
    ((s []).watchedPages (.anonymous "192.0.2.1") { sort := some "sideways" }).result = .ok [] := by
  intro short refuse dismiss s request
  have hrun : ((request.validate InMemory.actingUser none).toOption.bind fun o =>
      let c := InMemory.collaborators {}
      (Access.decide c InMemory.actingUser o).result.toOption.bind fun g =>
        (o.select c (InMemory.executor {}) {} g).toOption.map fun _ => ()) = some () := by
    decide +kernel
  obtain ⟨o, ho, hrun⟩ := Option.bind_eq_some_iff.mp hrun
  obtain ⟨g, hg, hrun⟩ := Option.bind_eq_some_iff.mp hrun
  obtain ⟨q, hq, _⟩ := Option.map_eq_some_iff.mp hrun
  have hcompiles (es : List Extension) :
      (s es).Compiles InMemory.actingUser request none o g (InMemory.executor {}) q :=
    ⟨Outcome.toOption_eq_some_iff.mp ho, Outcome.toOption_eq_some_iff.mp hg, rfl,
      Outcome.toOption_eq_some_iff.mp hq⟩
  have hfeed (es : List Extension) :=
    ((effects_go_by_ending (s es) InMemory.actingUser).1 request none).1
  refine ⟨⟨{ q with limit := some 7 }, rfl, ?_⟩, ?_, ?_, ?_⟩
  · exact (hfeed _).answered _ _ _ (.compiled (hcompiles _)) rfl
  · exact (hfeed _).unprepared _ _ (.compiled (hcompiles _))
  · exact (((effects_go_by_ending (s []) InMemory.actingUser).2 {}).1 rfl).completed [] rfl
  · exact (((effects_go_by_ending (s []) (.anonymous "192.0.2.1")).2 _).2.1 rfl).1

end Service

end PageWatch
