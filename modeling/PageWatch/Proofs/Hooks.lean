import PageWatch.Proofs.Cutting

/-! Hooks: extensions hand a select and a page on in the order of registration, until one of them
refuses. -/
namespace PageWatch

/-- Whether a hook of an extension was called. -/
def Effect.isHook : Effect → Bool
  | beforeHook _ | afterHook _ => true
  | _ => false

namespace Outcome

variable {ε α β : Type}

/-- What there is of an outcome beside the calls of hooks. -/
def withoutHooks (x : Outcome ε α) : Outcome ε α :=
  ⟨x.effects.filter fun e => !e.isHook, x.result⟩

theorem withoutHooks_bind (x : Outcome ε α) (f : α → Outcome ε β) :
    (x >>= f).withoutHooks = x.withoutHooks >>= fun a => (f a).withoutHooks := by
  cases h : x.result with
  | error e =>
    have hbare : x.withoutHooks.result = .error e := h
    rw [bind_of_error h, bind_of_error hbare]
    rfl
  | ok a =>
    have hbare : x.withoutHooks.result = .ok a := h
    rw [bind_of_ok h, bind_of_ok hbare]
    simp [withoutHooks]

theorem result_withoutHooks (x : Outcome ε α) : x.withoutHooks.result = x.result := rfl

theorem selects_withoutHooks (x : Outcome ε α) : x.withoutHooks.selects = x.selects := by
  unfold selects withoutHooks
  rw [List.filterMap_filter]
  refine List.filterMap_congr fun e _ => ?_
  cases e <;> rfl

/-- Where nothing but hooks is called, the result is all there is beside them. -/
theorem Within.withoutHooks_eq {x : Outcome ε α} (h : x.Within Effect.isHook) :
    x.withoutHooks = ofExcept x.result := by
  have hnone : x.effects.filter (fun e => !e.isHook) = [] := by
    rw [List.filter_eq_nil_iff]
    intro e he
    simp [h e he]
  rw [withoutHooks, hnone]
  rfl

end Outcome

namespace Extension

section Chain

variable {α : Type} {hook : Extension → α → Except String α} {mark : String → Effect}
  {es called : List Extension} {a b : α} {err : CallError}

/-- A value goes through one hook of each extension, in the order of the list. -/
inductive HandsOn (hook : Extension → α → Except String α) : List Extension → α → α → Prop where
  | nil {a : α} : HandsOn hook [] a a
  | cons {e : Extension} {es : List Extension} {a b c : α} (hfirst : hook e a = .ok b)
      (hrest : HandsOn hook es b c) : HandsOn hook (e :: es) a c

/-- An extension refuses what those before it handed on. It is the last one that is called, and the
failure carries its name and its words. -/
inductive StopsAt (hook : Extension → α → Except String α) :
    List Extension → α → List Extension → CallError → Prop where
  | refuses {front back : List Extension} {e : Extension} {a b : α} {cause : String}
      (hfront : HandsOn hook front a b) (hrefuses : hook e b = .error cause) :
      StopsAt hook (front ++ e :: back) a (front ++ [e]) (.extension e.name cause)

/-- A way to run extensions calls one hook of each in their order: two lists in a row are run as
one, and the first hook that refuses ends the run. -/
structure CallsInOrder (mark : String → Effect) (hook : Extension → α → Except String α)
    (run : List Extension → α → Outcome CallError α) : Prop where
  append : ∀ xs ys a, run (xs ++ ys) a = run xs a >>= run ys
  completes : ∀ es a b, HandsOn hook es a b → run es a = ⟨es.map fun e => mark e.name, .ok b⟩
  stops : ∀ es a called err, StopsAt hook es a called err →
    run es a = ⟨called.map fun e => mark e.name, .error err⟩
  ends : ∀ es a, (∃ b, HandsOn hook es a b) ∨ ∃ called err, StopsAt hook es a called err

/-- Calls the hook of one extension. -/
def call (mark : String → Effect) (hook : Extension → α → Except String α) (a : α)
    (e : Extension) : Outcome CallError α :=
  .perform (mark e.name) ((hook e a).mapError (.extension e.name))

theorem call_of_ok {e : Extension} (h : hook e a = .ok b) :
    call mark hook a e = ⟨[mark e.name], .ok b⟩ := by
  rw [call, h]
  rfl

theorem call_of_error {e : Extension} {cause : String} (h : hook e a = .error cause) :
    call mark hook a e = ⟨[mark e.name], .error (.extension e.name cause)⟩ := by
  rw [call, h]
  rfl

theorem HandsOn.foldlM_call (h : HandsOn hook es a b) :
    es.foldlM (call mark hook) a = ⟨es.map fun e => mark e.name, .ok b⟩ := by
  induction h with
  | nil => rfl
  | cons hfirst _ ih => rw [List.foldlM_cons, call_of_ok hfirst, Outcome.bind_of_ok rfl, ih]; rfl

theorem StopsAt.foldlM_call (h : StopsAt hook es a called err) :
    es.foldlM (call mark hook) a = ⟨called.map fun e => mark e.name, .error err⟩ := by
  have := Outcome.lawful (ε := CallError)
  cases h with
  | refuses hfront hrefuses =>
    rw [List.foldlM_append, hfront.foldlM_call, Outcome.bind_of_ok rfl, List.foldlM_cons,
      call_of_error hrefuses, Outcome.bind_of_error rfl, List.map_append]
    rfl

/-- A value goes through all extensions, or one of them refuses it. -/
theorem handsOn_or_stopsAt (hook : Extension → α → Except String α) (es : List Extension) (a : α) :
    (∃ b, HandsOn hook es a b) ∨ ∃ called err, StopsAt hook es a called err := by
  induction es generalizing a with
  | nil => exact .inl ⟨a, .nil⟩
  | cons e es ih =>
    cases hfirst : hook e a with
    | error cause =>
      have hstops : StopsAt hook ([] ++ e :: es) a ([] ++ [e]) (.extension e.name cause) :=
        .refuses .nil hfirst
      exact .inr ⟨_, _, hstops⟩
    | ok b =>
      rcases ih b with ⟨c, hrest⟩ | ⟨called, err, hrest⟩
      · exact .inl ⟨c, .cons hfirst hrest⟩
      · cases hrest with
        | refuses hfront hrefuses => exact .inr ⟨_, _, .refuses (.cons hfirst hfront) hrefuses⟩

theorem callsInOrder (mark : String → Effect) (hook : Extension → α → Except String α) :
    CallsInOrder mark hook fun es a => es.foldlM (call mark hook) a where
  append xs ys a := by
    have := Outcome.lawful (ε := CallError)
    exact List.foldlM_append
  completes _ _ _ h := h.foldlM_call
  stops _ _ _ _ h := h.foldlM_call
  ends := handsOn_or_stopsAt hook

theorem callsInOrder_beforeAll (ctx : HookContext) :
    CallsInOrder .beforeHook (fun e => e.beforeQuery ctx) (beforeAll ctx) :=
  callsInOrder .beforeHook fun e => e.beforeQuery ctx

theorem callsInOrder_afterAll (ctx : HookContext) (rows : List Row) :
    CallsInOrder .afterHook (fun e p => e.afterQuery ctx p rows) (afterAll ctx rows) :=
  callsInOrder .afterHook fun e p => e.afterQuery ctx p rows

end Chain

/-- An extension hands everything on as it is, as one that implements no hook does. -/
structure PassesThrough (e : Extension) : Prop where
  before : ∀ ctx q, e.beforeQuery ctx q = .ok q
  after : ∀ ctx p rows, e.afterQuery ctx p rows = .ok p

/-- In a run of hooks, one that hands its input on as it is plays no part. -/
theorem CallsInOrder.result_insert {α : Type} {mark : String → Effect}
    {hook : Extension → α → Except String α} {run : List Extension → α → Outcome CallError α}
    (h : CallsInOrder mark hook run) {e : Extension} (he : ∀ a, hook e a = .ok a)
    (front back : List Extension) (a : α) :
    (run (front ++ e :: back) a).result = (run (front ++ back) a).result := by
  have hskip (b : α) : (run (e :: back) b).result = (run back b).result := by
    have hone := h.completes [e] b b (.cons (he b) .nil)
    have hrest := h.append [e] back b
    rw [hone, Outcome.bind_of_ok rfl] at hrest
    rw [← List.singleton_append, hrest]
  rw [h.append, h.append, Outcome.result_bind, Outcome.result_bind]
  simp only [hskip]

variable {ctx : HookContext} {rows : List Row}

theorem withoutHooks_beforeAll (es : List Extension) (q : SelectQuery) :
    (beforeAll ctx es q).withoutHooks = .ofExcept (beforeAll ctx es q).result :=
  (Outcome.Within.foldlM (fun _ _ => Outcome.within_singleton rfl) es q).withoutHooks_eq

theorem withoutHooks_afterAll (es : List Extension) (p : ChangePage) :
    (afterAll ctx rows es p).withoutHooks = .ofExcept (afterAll ctx rows es p).result :=
  (Outcome.Within.foldlM (fun _ _ => Outcome.within_singleton rfl) es p).withoutHooks_eq

end Extension

namespace Service

open Extension

variable {s : Service} {user : User} {request : FeedRequest} {cursor : Option (List Scalar)}
  {o : FeedOptions} {g : Grant} {x : Executor} {q q' : SelectQuery} {rows : List Row}
  {page : ChangePage} {called : List Extension} {err : CallError}

/-- Beside the hooks that are called, a call takes no notice of an extension that hands everything
on as it is. -/
theorem withoutHooks_changes_insert {front back : List Extension} {e : Extension}
    (hs : s.extensions = front ++ back) (he : e.PassesThrough) :
    (({ s with extensions := front ++ e :: back } : Service).changes user request
      cursor).withoutHooks = (s.changes user request cursor).withoutHooks := by
  have hbefore (ctx : HookContext) (q : SelectQuery) :
      (beforeAll ctx (front ++ e :: back) q).withoutHooks
        = (beforeAll ctx s.extensions q).withoutHooks := by
    rw [withoutHooks_beforeAll, withoutHooks_beforeAll, hs,
      (callsInOrder_beforeAll ctx).result_insert (he.before ctx)]
  have hafter (ctx : HookContext) (rows : List Row) (p : ChangePage) :
      (afterAll ctx rows (front ++ e :: back) p).withoutHooks
        = (afterAll ctx rows s.extensions p).withoutHooks := by
    rw [withoutHooks_afterAll, withoutHooks_afterAll, hs,
      (callsInOrder_afterAll ctx rows).result_insert fun p => he.after ctx p rows]
  simp only [changes, Outcome.withoutHooks_bind, hbefore, hafter]
  rfl

/-- A hook before the select that refuses ends the call, and nothing is selected. -/
theorem Compiles.changes_of_stopsAt (h : s.Compiles user request cursor o g x q)
    (hstops : StopsAt (fun e => e.beforeQuery ⟨user, o, x⟩) s.extensions q called err) :
    (s.changes user request cursor).result = .error err ∧
      (s.changes user request cursor).selects = [] := by
  have hprepares : s.Prepares user request cursor x (.error err) := by
    have hcompiled := Prepares.compiled h
    rwa [(callsInOrder_beforeAll ⟨user, o, x⟩).stops _ _ _ _ hstops] at hcompiled
  rw [changes_eq_run]
  obtain ⟨hresult, hearly⟩ := ((s.feedCall user request cursor).accounted s).unprepared _ _
    (prepares_feedCall_iff.mpr hprepares)
  exact ⟨hresult, hearly.selects⟩

/-- The hooks after the select begin with the page of the fetched rows, however the hooks before it
rewrote the select. -/
theorem Compiles.changes_of_handsOn (h : s.Compiles user request cursor o g x q)
    (hbefore : HandsOn (fun e => e.beforeQuery ⟨user, o, x⟩) s.extensions q q')
    (hrows : x.select q' = .ok rows)
    (hpage : ChangePage.ofRows s.host.collaborators user o.rowCap rows = .ok page) :
    (s.changes user request cursor).result
      = (afterAll ⟨user, o, x⟩ rows s.extensions page).result := by
  have hresult : (beforeAll ⟨user, o, x⟩ s.extensions q).result = .ok q' := by
    rw [(callsInOrder_beforeAll ⟨user, o, x⟩).completes _ _ _ hbefore]
  rw [h.result_changes hresult hrows, hpage]
  rfl

/-- Hooks are called in the order of registration, and the first one that refuses ends the call
under its name. An extension that hands everything on as it is changes neither what is selected nor
how the call ends, wherever it stands. However the hooks before the select rewrite it, those after
it begin with the page that the fetched rows make under the limit of the request, and each of them
is shown all of these rows. -/
theorem hooks_take_turns (s : Service) (user : User) :
    (∀ ctx, CallsInOrder .beforeHook (fun e => e.beforeQuery ctx) (beforeAll ctx)) ∧
    (∀ ctx rows,
      CallsInOrder .afterHook (fun e p => e.afterQuery ctx p rows) (afterAll ctx rows)) ∧
    (∀ front e back, s.extensions = front ++ back → e.PassesThrough →
      let inserted : Service := { s with extensions := front ++ e :: back }
      (∀ request cursor,
        (inserted.changes user request cursor).result = (s.changes user request cursor).result ∧
        (inserted.changes user request cursor).selects = (s.changes user request cursor).selects) ∧
      ∀ request, inserted.watchedPages user request = s.watchedPages user request) ∧
    ∀ request cursor o g x q, s.Compiles user request cursor o g x q →
      o.limit = request.limit.map Scalar.toLimit ∧
      (∀ called err, StopsAt (fun e => e.beforeQuery ⟨user, o, x⟩) s.extensions q called err →
        (s.changes user request cursor).result = .error err ∧
        (s.changes user request cursor).selects = []) ∧
      ∀ q' rows page, HandsOn (fun e => e.beforeQuery ⟨user, o, x⟩) s.extensions q q' →
        x.select q' = .ok rows →
        ChangePage.ofRows s.host.collaborators user o.rowCap rows = .ok page →
        (∀ page', HandsOn (fun e p => e.afterQuery ⟨user, o, x⟩ p rows) s.extensions page page' →
          (s.changes user request cursor).result = .ok page') ∧
        ∀ called err,
          StopsAt (fun e p => e.afterQuery ⟨user, o, x⟩ p rows) s.extensions page called err →
          (s.changes user request cursor).result = .error err := by
  refine ⟨callsInOrder_beforeAll, callsInOrder_afterAll, ?_, ?_⟩
  · intro front e back hs he inserted
    refine ⟨fun request cursor => ?_, fun _ => rfl⟩
    have hbare : (inserted.changes user request cursor).withoutHooks
        = (s.changes user request cursor).withoutHooks := withoutHooks_changes_insert hs he
    constructor
    · rw [← Outcome.result_withoutHooks, hbare, Outcome.result_withoutHooks]
    · rw [← Outcome.selects_withoutHooks, hbare, Outcome.selects_withoutHooks]
  · intro request cursor o g x q h
    refine ⟨(FeedRequest.validate_eq_ok_iff.mp h.validated).limit,
      fun called err hstops => h.changes_of_stopsAt hstops, ?_⟩
    intro q' rows page hbefore hrows hpage
    rw [h.changes_of_handsOn hbefore hrows hpage]
    constructor
    · intro page' hafter
      rw [(callsInOrder_afterAll ⟨user, o, x⟩ rows).completes _ _ _ hafter]
    · intro called err hstops
      rw [(callsInOrder_afterAll ⟨user, o, x⟩ rows).stops _ _ _ _ hstops]

/-- A hook that widens the select does not widen the page: the hook that tallies what it is shown,
and refuses, counts one change on the page and all three rows. An extension without hooks between
the two makes no difference, and the last one is never asked. -/
theorem hooks_take_turns_widened_select :
    let widen : Extension :=
      { name := "widen", beforeQuery := fun _ q => .ok { q with limit := some 9 } }
    let tally : Extension :=
      { name := "tally",
        afterQuery := fun _ p rows =>
          if p.items.length = 1 ∧ rows.length = 3 then .error "one of three" else .ok p }
    let late : Extension := { name := "late", afterQuery := fun _ _ _ => .error "too late" }
    let rows := [InMemory.changeRow 1 0 "Foo" "20240101000000",
      InMemory.changeRow 2 0 "Bar" "20240102000000", InMemory.changeRow 3 0 "Baz" "20240103000000"]
    let s (es : List Extension) : Service := ⟨InMemory.host { rows := rows }, {}, es⟩
    let request : FeedRequest := { limit := some (.int 1) }
    (∀ ctx q, beforeAll ctx ([widen, tally] ++ [late]) q
      = beforeAll ctx [widen, tally] q >>= beforeAll ctx [late]) ∧
    ((s [widen, { name := "quiet" }, tally, late]).changes InMemory.actingUser request none).result
      = .error (.extension "tally" "one of three") ∧
    ((s [widen, { name := "quiet" }, tally, late]).changes InMemory.actingUser request none).selects
      = ((s [widen, tally, late]).changes InMemory.actingUser request none).selects := by
  intro widen tally late rows s request
  obtain ⟨hbefore, _, hinsert, hcalls⟩ :=
    hooks_take_turns (s [widen, tally, late]) InMemory.actingUser
  have hquiet : ({ name := "quiet" } : Extension).PassesThrough :=
    ⟨fun _ _ => rfl, fun _ _ _ => rfl⟩
  obtain ⟨hresult, hselects⟩ :=
    (hinsert [widen] { name := "quiet" } [tally, late] rfl hquiet).1 request none
  refine ⟨fun ctx q => (hbefore ctx).append _ _ q, hresult.trans ?_, hselects⟩
  have hrun : ((request.validate InMemory.actingUser none).toOption.bind fun o =>
      let c := InMemory.collaborators { rows := rows }
      (Access.decide c InMemory.actingUser o).result.toOption.bind fun g =>
        (o.select c (InMemory.executor { rows := rows }) {} g).toOption.map fun _ => ())
      = some () := by
    decide +kernel
  obtain ⟨o, ho, hrun⟩ := Option.bind_eq_some_iff.mp hrun
  obtain ⟨g, hg, hrun⟩ := Option.bind_eq_some_iff.mp hrun
  obtain ⟨q, hq, _⟩ := Option.map_eq_some_iff.mp hrun
  obtain ⟨hlimit, _, hpages⟩ := hcalls request none o g _ q
    ⟨Outcome.toOption_eq_some_iff.mp ho, Outcome.toOption_eq_some_iff.mp hg, rfl,
      Outcome.toOption_eq_some_iff.mp hq⟩
  have hcap : o.rowCap = some 2 := by
    rw [FeedOptions.rowCap, hlimit]
    decide +kernel
  have hpage : ∃ i cur, ChangePage.ofRows (s [widen, tally, late]).host.collaborators
      InMemory.actingUser o.rowCap rows = .ok ⟨[i], cur⟩ := by
    rw [hcap]
    exact ⟨_, _, rfl⟩
  obtain ⟨i, cur, hpage⟩ := hpage
  let x := InMemory.executor { rows := rows }
  have hstops : StopsAt (fun e p => e.afterQuery ⟨InMemory.actingUser, o, x⟩ p rows)
      ([widen] ++ tally :: [late]) ⟨[i], cur⟩ ([widen] ++ [tally])
      (.extension "tally" "one of three") :=
    .refuses (.cons rfl .nil) rfl
  have hcompleted := hpages _ rows _ (.cons rfl (.cons rfl (.cons rfl .nil))) rfl hpage
  exact hcompleted.2 _ _ hstops

end Service

end PageWatch
