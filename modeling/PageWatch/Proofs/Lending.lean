import PageWatch.Host.InMemory
import PageWatch.Proofs.Authority
import PageWatch.Proofs.Effects

/-! Lending: a claim on another user's list changes which list is read, and nothing else. -/
namespace PageWatch

namespace SelectQuery

/-- The select with other conditions. -/
def withConditions (q : SelectQuery) (cs : List Condition) : SelectQuery :=
  { q with conditions := cs }

/-- The select with another owner in its first condition. -/
def withOwner (q : SelectQuery) (n : Int64) : SelectQuery :=
  q.withConditions (.equals "wl_user" (.int n) :: q.conditions.tail)

variable (q : SelectQuery) (cs : List Condition)

/-- What is pushed finds its place whatever the conditions are that are there already. -/
theorem pushAll_withConditions (ps : List Push) : (q.withConditions cs).pushAll ps
    = (q.pushAll ps).withConditions (cs ++ ps.flatMap Push.conditions) := by
  rw [pushAll_eq, pushAll_eq]
  rfl

/-- A condition among what is pushed can be exchanged afterwards. -/
theorem pushAll_condition (front back : List Push) (c : Condition) :
    q.pushAll (front ++ .condition c :: back) = (q.pushAll (front ++ back)).withConditions
      ((q.pushAll front).conditions ++ c :: back.flatMap Push.conditions) := by
  have hpush : (q.pushAll front).push (.condition c)
      = (q.pushAll front).withConditions ((q.pushAll front).conditions ++ [c]) := rfl
  have hcons (q : SelectQuery) : q.pushAll (.condition c :: back)
      = (q.push (.condition c)).pushAll back := rfl
  rw [pushAll_append, hcons, hpush, pushAll_withConditions, pushAll_append, List.append_assoc]
  rfl

end SelectQuery

namespace FeedOptions

variable {o : FeedOptions} {c : Collaborators} {x : Executor} {config : SelectConfig} {g g' : Grant}
  {q : SelectQuery}

/-- The terms after the first are the same whosever list is read. -/
theorem tail_terms (o : FeedOptions) (backend : Backend) (owner owner' : Int64)
    (hvisibility : g'.visibility = g.visibility) (hfilters : g'.filters = g.filters) :
    (o.terms c config backend g' owner').tail = (o.terms c config backend g owner).tail := by
  simp only [terms, List.cons_append, List.tail_cons, hvisibility, hfilters]

/-- What compiles for one owner compiles for any other one, whose id fits, to the select with that
other owner. -/
theorem select_of_owner (h : o.select c x config g = .ok q)
    (hvisibility : g'.visibility = g.visibility) (hfilters : g'.filters = g.filters) {n : Int64}
    (hn : storedOwner g'.ownerId = .ok n) : o.select c x config g' = .ok (q.withOwner n) := by
  obtain ⟨fields, owner, hfields, howner, rfl⟩ := select_eq_ok_iff.mp h
  refine select_eq_ok_iff.mpr ⟨fields, n, hfields, hn, ?_⟩
  have hterms (g : Grant) (owner : Int64) : (o.terms c config x.backend g owner).map (Term.push x)
      = .condition (.equals "wl_user" (.int owner))
        :: (o.terms c config x.backend g owner).tail.map (Term.push x) := rfl
  have hfront : ((o.frame config).pushAll (o.sources c ++ fields.map .field)).conditions = [] := by
    rw [SelectQuery.conditions_pushAll, List.flatMap_append, conditions_sources]
    simp [frame, List.flatMap_map, Push.conditions]
  rw [hterms g owner, hterms g' n, o.tail_terms x.backend owner n hvisibility hfilters,
    SelectQuery.pushAll_condition, SelectQuery.pushAll_condition, hfront]
  rfl

end FeedOptions

/-- A claim as far as a call can see it: the owner and the token as they were sent, and the tokens
that the host has stored. -/
structure Claim where
  owner : Option Document
  token : Option String
  stored : User → Option String

/-- A claim on the list of the user with an id, whatever the token. -/
def Claim.On (k : Claim) (id : UInt64) : Prop :=
  ∃ claim user token, k.owner = some claim ∧ User.read claim = .ok user ∧ k.token = some token ∧
    user.id = id

def FeedRequest.claiming (r : FeedRequest) (k : Claim) : FeedRequest :=
  { r with owner := k.owner, ownerToken := k.token }

def Collaborators.storing (c : Collaborators) (k : Claim) : Collaborators :=
  { c with watchlistToken := k.stored }

def Service.storing (s : Service) (k : Claim) : Service :=
  { s with host := { s.host with collaborators := s.host.collaborators.storing k } }

section

variable {c : Collaborators} {user : User} {request : FeedRequest} {cursor : Option (List Scalar)}
  {k k' : Claim} {o o' : FeedOptions} {g g' : Grant}

theorem Claim.On.readScope {id : UInt64} (h : k.On id) (request : FeedRequest) (user : User) :
    ∃ owner token, (request.claiming k).readScope user = .ok (.claimed owner token) ∧
      owner.id = id := by
  obtain ⟨claim, owner, token, hclaim, hread, htoken, hid⟩ := h
  refine ⟨owner, token, ?_, hid⟩
  simp only [FeedRequest.readScope, FeedRequest.claiming, hclaim, htoken, hread]
  rfl

/-- A claim has a say in the scope of the options and in no other member. -/
theorem FeedRequest.Validated.eq_of_claims (h : (request.claiming k).Validated user cursor o)
    (h' : (request.claiming k').Validated user cursor o') : o' = { o with scope := o'.scope } := by
  have hkinds := Except.ok.inj (h'.kinds.symm.trans h.kinds)
  have hwalk := Except.ok.inj (h'.walk.symm.trans h.walk)
  have hfilters := Except.ok.inj (h'.filters.symm.trans h.filters)
  have hauthor := Except.ok.inj (h'.author.symm.trans h.author)
  have hstart := Except.ok.inj (h'.startFrom.symm.trans h.startFrom)
  have hgroups := h'.groups.trans h.groups.symm
  have hnamespaces := h'.namespaces.trans h.namespaces.symm
  have hwindow := h'.window.trans h.window.symm
  have hlimit := h'.limit.trans h.limit.symm
  have hrevisions := h'.allRevisions.trans h.allRevisions.symm
  have hgenerator := h'.forGenerator.trans h.forGenerator.symm
  cases o'
  simp only at *
  subst_vars
  rfl

/-- What is granted beside the list is granted to the acting user, whatever the options claim. -/
theorem Access.grant_of_decide (h : (decide (c.storing k) user o).result = .ok g) :
    g.visibility = visibility c user ∧ g.filters = o.filters.filter (honors c user) := by
  obtain ⟨id, _, rfl⟩ := decide_eq_ok_iff.mp h
  exact ⟨rfl, rfl⟩

/-- Deciding fails at a claim whose token does not match, and says whose list was claimed. -/
theorem Access.eq_of_decide_error {e : AuthorizationError}
    (h : (decide c user o).result = .error e) :
    ∃ owner token, o.scope = .claimed owner token ∧ e = .incorrectToken owner.id ∧
      (decide c user o).effects = [.log (.tokenRejected owner.id)] := by
  have hscope : (verifyScope c o.scope).result = .error e := by
    rcases Outcome.result_bind_eq_error_iff.mp h with h | ⟨_, _, h⟩
    · exact h
    · simp [honoredFilters, Outcome.result_bind_eq_error_iff] at h
  have heffects : (decide c user o).effects = (verifyScope c o.scope).effects := by
    rw [decide, Outcome.bind_of_error hscope]
  rw [heffects]
  cases hs : o.scope with
  | own owner =>
    rw [hs] at hscope
    cases hscope
  | claimed owner token =>
    rw [hs] at hscope
    refine ⟨owner, token, rfl, ?_⟩
    by_cases hmatch : tokenMatches (c.watchlistToken owner) token = true
    · simp [verifyScope, hmatch] at hscope
    · have hrefused : verifyScope c (.claimed owner token)
          = ⟨[.log (.tokenRejected owner.id)], .error (.incorrectToken owner.id)⟩ := by
        rw [verifyScope, if_neg hmatch]
        rfl
      rw [hrefused] at hscope ⊢
      exact ⟨(Except.error.inj hscope).symm, rfl⟩

end

namespace Service

variable {s : Service} {user : User} {request : FeedRequest} {cursor : Option (List Scalar)}
  {k k' : Claim}

/-- A refused call has noted whose list was claimed, and done nothing else. -/
theorem changes_of_refusal {e : AuthorizationError}
    (h : (s.changes user request cursor).result = .error (.authorization e)) :
    ∃ o owner token, request.validate user cursor = .ok o ∧ o.scope = .claimed owner token ∧
      s.changes user request cursor = ⟨[.log (.tokenRejected owner.id)],
        .error (.authorization (.incorrectToken owner.id))⟩ := by
  rw [changes_eq_run] at h ⊢
  obtain ⟨hcheck, hout⟩ := ((s.feedCall user request cursor).ends_run s).eq_of_refusal h rfl
  rw [hout]
  rcases Outcome.result_bind_eq_error_iff.mp hcheck with hv | ⟨o, ho, hcheck⟩
  · obtain ⟨_, _, hv⟩ := Outcome.mapError_eq_error_iff.mp hv
    cases hv
  · rcases Outcome.result_bind_eq_error_iff.mp hcheck with hd | ⟨g, _, hd⟩
    · obtain ⟨e', hdecide, he⟩ := Outcome.mapError_eq_error_iff.mp hd
      cases he
      obtain ⟨owner, token, hscope, rfl, heffects⟩ := Access.eq_of_decide_error hdecide
      refine ⟨o, owner, token, Outcome.mapError_eq_ok_iff.mp ho, hscope, ?_⟩
      have hchecked : (s.feedCall user request cursor).check.effects
          = [.log (.tokenRejected owner.id)] := by
        simp only [feedCall]
        rw [Outcome.bind_of_ok ho, Outcome.bind_of_error hd]
        exact heffects
      rw [hchecked]
    · cases hd

theorem changes_of_refused_claim {id : UInt64} {e : AuthorizationError} (hk : k.On id)
    (h : ((s.storing k).changes user (request.claiming k) cursor).result
      = .error (.authorization e)) :
    (s.storing k).changes user (request.claiming k) cursor
      = ⟨[.log (.tokenRejected id)], .error (.authorization (.incorrectToken id))⟩ := by
  obtain ⟨o, owner, token, hvalidated, hscope, hout⟩ := changes_of_refusal h
  obtain ⟨owner', token', hread, rfl⟩ := hk.readScope request user
  have hvalid := (FeedRequest.validate_eq_ok_iff.mp hvalidated).scope
  rw [hread, Except.ok.injEq, hscope] at hvalid
  cases hvalid
  exact hout

/-- A call that compiles for one claim compiles for every other one that passes the gate, to the
select with the other owner, as long as the other id fits. -/
theorem compiles_of_claim {o o' : FeedOptions} {g g' : Grant} {x : Executor} {q : SelectQuery}
    (h : (s.storing k).Compiles user (request.claiming k) cursor o g x q)
    (hvalidated : (request.claiming k').validate user cursor = .ok o')
    (hdecided : (Access.decide (s.storing k').host.collaborators user o').result = .ok g')
    {n : Int64} (hn : storedOwner g'.ownerId = .ok n) :
    (s.storing k').Compiles user (request.claiming k') cursor o' g' x (q.withOwner n) := by
  have hv := FeedRequest.validate_eq_ok_iff.mp h.validated
  have hoptions := hv.eq_of_claims (FeedRequest.validate_eq_ok_iff.mp hvalidated)
  obtain ⟨hvisibility, hfilters⟩ := Access.grant_of_decide h.decided
  obtain ⟨hvisibility', hfilters'⟩ := Access.grant_of_decide hdecided
  refine ⟨hvalidated, hdecided, h.replica, ?_⟩
  -- Neither the scope nor the stored tokens are looked at while a select is put together.
  have hselect (o : FeedOptions) (scope : Scope) : ({ o with scope } : FeedOptions).select
      (s.storing k').host.collaborators x s.config g'
        = o.select (s.storing k).host.collaborators x s.config g' := rfl
  rw [hoptions]
  refine (hselect o o'.scope).trans (FeedOptions.select_of_owner h.compiled ?_ ?_ hn)
  · exact hvisibility'.trans hvisibility.symm
  · rw [hfilters', hfilters, hoptions]

/-- Two calls that differ in a claim, by the owner, the token or the stored tokens. If both are let
through, the acting user sees and may filter by the same, and the selects are the same but for the
owner. If both claim one list and are refused, they cannot be told apart. -/
theorem claims_change_list_only (s : Service) (user : User) (request : FeedRequest)
    (cursor : Option (List Scalar)) (k k' : Claim) :
    (∀ o o' g g', (request.claiming k).validate user cursor = .ok o →
      (request.claiming k').validate user cursor = .ok o' →
      (Access.decide (s.storing k).host.collaborators user o).result = .ok g →
      (Access.decide (s.storing k').host.collaborators user o').result = .ok g' →
      (g.visibility = Access.visibility s.host.collaborators user ∧
        g'.visibility = g.visibility ∧
        g.filters = (SortedSet.ofList request.filters).filter
          (Access.honors s.host.collaborators user) ∧
        g'.filters = g.filters) ∧
      ∀ x q, (s.storing k).Compiles user (request.claiming k) cursor o g x q →
        q.ReadsListOf g.ownerId ∧
        ∀ x' q', (s.storing k').Compiles user (request.claiming k') cursor o' g' x' q' ↔
          x' = x ∧ ∃ n, storedOwner g'.ownerId = .ok n ∧ q' = q.withOwner n) ∧
    ∀ id e e', k.On id → k'.On id →
      ((s.storing k).changes user (request.claiming k) cursor).result
        = .error (.authorization e) →
      ((s.storing k').changes user (request.claiming k') cursor).result
        = .error (.authorization e') →
      (s.storing k).changes user (request.claiming k) cursor
          = (s.storing k').changes user (request.claiming k') cursor ∧
        ((s.storing k).changes user (request.claiming k) cursor).effects
          = [.log (.tokenRejected id)] ∧ e = .incorrectToken id := by
  constructor
  · intro o o' g g' hvalidated hvalidated' hdecided hdecided'
    have hv := FeedRequest.validate_eq_ok_iff.mp hvalidated
    have hfilters : o.filters = .ofList request.filters := hv.filters_eq
    have hfilters' : o'.filters = .ofList request.filters :=
      (FeedRequest.validate_eq_ok_iff.mp hvalidated').filters_eq
    obtain ⟨hg, hgfilters⟩ := Access.grant_of_decide hdecided
    obtain ⟨hg', hgfilters'⟩ := Access.grant_of_decide hdecided'
    rw [hfilters] at hgfilters
    rw [hfilters', ← hgfilters] at hgfilters'
    refine ⟨⟨hg, hg'.trans hg.symm, hgfilters, hgfilters'⟩, fun x q h =>
      ⟨FeedOptions.readsListOf_of_select h.compiled, fun x' q' => ?_⟩⟩
    constructor
    · intro h'
      obtain ⟨_, n, _, hn, _⟩ := FeedOptions.select_eq_ok_iff.mp h'.compiled
      obtain ⟨_, _, hx, hq⟩ := h'.unique (compiles_of_claim h hvalidated' hdecided' hn)
      exact ⟨hx, n, hn, hq⟩
    · rintro ⟨rfl, n, hn, rfl⟩
      exact compiles_of_claim h hvalidated' hdecided' hn
  · intro id e e' hk hk' h h'
    have hout := changes_of_refused_claim hk h
    have hout' := changes_of_refused_claim hk' h'
    refine ⟨hout.trans hout'.symm, ?_, ?_⟩
    · rw [hout]
    · rw [hout] at h
      cases h
      rfl

/-- The first user's own list and the one that the second user lent are read by selects that
differ in the owner; whether no token is stored or another one than was sent cannot be told. -/
theorem claims_change_list_only_lent_list :
    let claim (token : String) (stored : Option String) : Claim :=
      ⟨some InMemory.otherUser.toDocument, some token, fun _ => stored⟩
    let own : Claim := ⟨none, none, fun _ => none⟩
    let lent := claim "open sesame" (some "open sesame")
    let unset := claim "open sesame" none
    let wrong := claim "knock knock" (some "open sesame")
    let s : Service := ⟨InMemory.host {}, {}, []⟩
    let request : FeedRequest := { filters := [.patrolled] }
    let user := InMemory.actingUser
    (∃ o o' g g' x q, (s.storing own).Compiles user (request.claiming own) none o g x q ∧
      (s.storing lent).Compiles user (request.claiming lent) none o' g' x (q.withOwner 2)) ∧
    (s.storing unset).changes user (request.claiming unset) none
      = (s.storing wrong).changes user (request.claiming wrong) none := by
  intro claim own lent unset wrong s request user
  have hrefused (k : Claim)
      (h : (match ((s.storing k).changes user (request.claiming k) none).result with
        | .error (.authorization e) => some e
        | _ => none) = some (.incorrectToken 2)) :
      ((s.storing k).changes user (request.claiming k) none).result
        = .error (.authorization (.incorrectToken 2)) := by
    split at h
    next e he => rw [he, Option.some.inj h]
    next => cases h
  constructor
  · have hown : (((request.claiming own).validate user none).toOption.bind fun o =>
        let c := (s.storing own).host.collaborators
        (Access.decide c user o).result.toOption.bind fun g =>
          (o.select c (InMemory.executor {}) {} g).toOption.map fun _ => ()) = some () := by
      decide +kernel
    have hlent : (((request.claiming lent).validate user none).toOption.bind fun o =>
        (Access.decide (s.storing lent).host.collaborators user o).result.toOption.map
          (·.ownerId)) = some 2 := by
      decide +kernel
    obtain ⟨o, ho, hown⟩ := Option.bind_eq_some_iff.mp hown
    obtain ⟨g, hg, hown⟩ := Option.bind_eq_some_iff.mp hown
    obtain ⟨q, hq, _⟩ := Option.map_eq_some_iff.mp hown
    obtain ⟨o', ho', hlent⟩ := Option.bind_eq_some_iff.mp hlent
    obtain ⟨g', hg', hid⟩ := Option.map_eq_some_iff.mp hlent
    simp only [Outcome.toOption_eq_some_iff] at ho hg hq ho' hg'
    have hcompiles : (s.storing own).Compiles user (request.claiming own) none o g
        (InMemory.executor {}) q := ⟨ho, hg, rfl, hq⟩
    have hclaims := ((claims_change_list_only s user request none own lent).1 o o' g g' ho ho' hg
      hg').2 _ q hcompiles
    refine ⟨o, o', g, g', _, q, hcompiles, (hclaims.2 _ _).mpr ⟨rfl, 2, ?_, rfl⟩⟩
    rw [hid]
    rfl
  · have hon (token : String) (stored : Option String) : (claim token stored).On 2 :=
      ⟨_, InMemory.otherUser, token, rfl, rfl, rfl, rfl⟩
    exact ((claims_change_list_only s user request none unset wrong).2 2 _ _ (hon _ _) (hon _ _)
      (hrefused unset (by decide +kernel)) (hrefused wrong (by decide +kernel))).1

end Service

end PageWatch
