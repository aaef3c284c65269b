import PageWatch.Host.InMemory
import PageWatch.Proofs.Compiled
import PageWatch.Proofs.Stages
import PageWatch.Proofs.Validated

/-! Authority: a watchlist is read by its owner, or by whoever presents the owner's secret. -/
namespace PageWatch

/-- Whose list a request may have read on behalf of an acting user. -/
inductive Authority (c : Collaborators) (user : User) (request : FeedRequest) : UInt64 → Prop where
  | own (howner : request.owner = none) (htoken : request.ownerToken = none) :
      Authority c user request user.id
  | claimed {claim : Document} {owner : User} {token secret : String}
      (hclaim : request.owner = some claim) (htoken : request.ownerToken = some token)
      (howner : User.read claim = .ok owner) (hsecret : c.watchlistToken owner = some secret)
      (hset : secret ≠ "") (hsame : Sha256.ofString secret = Sha256.ofString token) :
      Authority c user request owner.id

/-- The column that a structured condition is on. -/
def Condition.column? : Condition → Option String
  | .equals column _ | .oneOf column _ => some column
  | .expr _ => none

/-- A select that reads one watchlist: its first condition fixes the owner, and no later one
does. -/
structure SelectQuery.ReadsListOf (q : SelectQuery) (id : UInt64) : Prop where
  first : ∃ owner : Int64, q.conditions.head? = some (.equals "wl_user" (.int owner)) ∧
    owner.toInt = id.toNat
  later : ∀ cond ∈ q.conditions.tail, cond.column? ≠ some "wl_user"

namespace Access

variable {c : Collaborators} {user : User} {request : FeedRequest}

theorem tokenMatches_eq_true_iff {stored : Option String} {token : String} :
    tokenMatches stored token = true ↔
      ∃ secret, stored = some secret ∧ secret ≠ "" ∧
        Sha256.ofString secret = Sha256.ofString token := by
  cases stored with
  | none => simp [tokenMatches]
  | some secret => simp [tokenMatches]

/-- The scope that a request is validated to is granted to those with authority only. -/
theorem authority_of_verifyScope {scope : Scope} {id : UInt64}
    (hs : request.readScope user = .ok scope) (hv : (verifyScope c scope).result = .ok id) :
    Authority c user request id := by
  unfold FeedRequest.readScope at hs
  split at hs
  next howner htoken =>
    cases hs
    cases hv
    exact .own howner htoken
  next => cases hs
  next => cases hs
  next claim token hclaim htoken =>
    rw [Outcome.mapError_eq_ok_iff, Outcome.except_map_eq_ok_iff] at hs
    obtain ⟨owner, hread, rfl⟩ := hs
    obtain ⟨hmatch, rfl⟩ := verifyScope_claimed_eq_ok_iff.mp hv
    obtain ⟨secret, hsecret, hset, hsame⟩ := tokenMatches_eq_true_iff.mp hmatch
    exact .claimed hclaim htoken hread hsecret hset hsame

end Access

namespace FeedOptions

variable {o : FeedOptions} {c : Collaborators} {x : Executor} {config : SelectConfig} {g : Grant}
  {q : SelectQuery}

/-- Every term but the first leaves the owner alone. -/
theorem column?_of_mem_terms_tail {backend : Backend} {owner : Int64} {t : Term}
    (h : t ∈ (o.terms c config backend g owner).tail) :
    (t.condition x).column? ≠ some "wl_user" := by
  cases origin_of_mem_terms_tail h with
  | equals hc | oneOf hc => simpa [Term.condition, Condition.column?] using hc
  | _ => simp [latestTerm, Term.condition, Condition.column?]

theorem readsListOf_of_select (h : o.select c x config g = .ok q) : q.ReadsListOf g.ownerId := by
  obtain ⟨owner, ho, hq⟩ := conditions_of_select h
  refine ⟨⟨owner, ?_, storedOwner_eq_ok_iff.mp ho⟩, ?_⟩
  · rw [hq]
    rfl
  · rw [hq, ← List.map_tail]
    intro cond hc
    obtain ⟨t, ht, rfl⟩ := List.mem_map.mp hc
    exact column?_of_mem_terms_tail ht

end FeedOptions

namespace WatchlistOptions

variable {o : WatchlistOptions} {x : Executor} {config : SelectConfig} {id : UInt64}
  {q : SelectQuery}

/-- Every term but the first leaves the owner alone. -/
theorem column?_of_mem_terms_tail {owner : Int64} {t : Term} (h : t ∈ (o.terms owner).tail) :
    (t.condition x).column? ≠ some "wl_user" := by
  simp only [terms, List.cons_append, List.tail_cons, List.mem_append, or_assoc] at h
  rcases h with h | h | h
  · unfold namespaceTerms at h
    split at h <;> simp_all [Term.condition, Condition.column?]
  · unfold filterTerms at h
    split at h <;> simp_all [Term.condition, Condition.column?]
  · unfold seekTerms at h
    split at h
    · simp only [List.mem_append, Option.mem_toList, Option.map_eq_some_iff] at h
      rcases h with (⟨t, _, rfl⟩ | ⟨t, _, rfl⟩) | ⟨t, _, rfl⟩ <;>
        simp [Term.condition, Condition.column?]
    · simp at h

theorem readsListOf_of_select (h : o.select x config id = .ok q) : q.ReadsListOf id := by
  obtain ⟨owner, ho, hq⟩ := conditions_of_select h
  refine ⟨⟨owner, ?_, storedOwner_eq_ok_iff.mp ho⟩, ?_⟩
  · rw [hq]
    rfl
  · rw [hq, ← List.map_tail]
    intro cond hc
    obtain ⟨t, ht, rfl⟩ := List.mem_map.mp hc
    exact column?_of_mem_terms_tail ht

end WatchlistOptions

namespace Service

/-- Every select that a call runs reads one list: the feed reads a list that the request has
authority over, and a listing reads the list of the account that acts. -/
theorem selects_read_authorized_list (s : Service) (user : User) :
    (s.extensions = [] → ∀ request cursor, ∀ q ∈ (s.changes user request cursor).selects,
      ∃ id, Authority s.host.collaborators user request id ∧ q.ReadsListOf id) ∧
    (∀ request, ∀ q ∈ (s.watchedPages user request).selects,
      user.id ≠ 0 ∧ q.ReadsListOf user.id) := by
  constructor
  · intro hs request cursor q hq
    obtain ⟨o, g, x, q', hc, hbefore⟩ := mem_selects_changes_iff.mp hq
    rw [hs] at hbefore
    cases hbefore
    obtain ⟨id, hid, hg⟩ := Access.decide_eq_ok_iff.mp hc.decided
    have hscope := (FeedRequest.validate_eq_ok_iff.mp hc.validated).scope
    have hread := FeedOptions.readsListOf_of_select hc.compiled
    subst hg
    exact ⟨id, Access.authority_of_verifyScope hscope hid, hread⟩
  · intro request q hq
    obtain ⟨hu, o, x, _, _, hselect⟩ := mem_selects_watchedPages_iff.mp hq
    exact ⟨by simpa [User.isRegistered] using hu, WatchlistOptions.readsListOf_of_select hselect⟩

/-- The second user lent their list under a secret, and the first one reads it, and their own. -/
theorem selects_read_lent_list :
    let s : Service := ⟨InMemory.host { tokens := [(2, "open sesame")] }, {}, []⟩
    let request := FeedRequest.ofSettings [.owner InMemory.otherUser "open sesame"]
    (∃ q, (s.changes InMemory.actingUser request none).selects = [q] ∧
      ∃ id, Authority s.host.collaborators InMemory.actingUser request id ∧ q.ReadsListOf id) ∧
    ∃ q, (s.watchedPages InMemory.actingUser {}).selects = [q] ∧ q.ReadsListOf 1 := by
  intro s request
  obtain ⟨hfeed, hlisting⟩ := selects_read_authorized_list s InMemory.actingUser
  have hone : (s.changes InMemory.actingUser request none).selects.length = 1 := by decide +kernel
  have hone' : (s.watchedPages InMemory.actingUser {}).selects.length = 1 := by decide +kernel
  obtain ⟨q, hq⟩ := List.length_eq_one_iff.mp hone
  obtain ⟨q', hq'⟩ := List.length_eq_one_iff.mp hone'
  exact ⟨⟨q, hq, hfeed rfl request none q (by simp [hq])⟩,
    q', hq', (hlisting {} q' (by simp [hq'])).2⟩

end Service

end PageWatch
