import PageWatch.Proofs.Checks
import PageWatch.Proofs.ReadBack

/-! Requests: what is put together setting by setting survives being written and read again. -/
namespace PageWatch

namespace FeedRequest

variable {r r' : FeedRequest} {user : User} {raw : Option (List Scalar)}

/-- Only a null among the limits, or as an owner, is not read back. -/
theorem read_toDocument (hlimit : r.limit ≠ some .null) (howner : r.owner ≠ some .null) :
    read r.toDocument = .ok r := by
  have hkinds := Reader.takesBack_scalar.list.option (fun _ => nofun) r.kinds
  have howner : Reader.option Reader.any (r.owner.getD .null) = .ok r.owner := by
    cases hr : r.owner with
    | none => rfl
    | some d =>
      exact Reader.takesBack_any.option_some fun hd => howner (hr.trans (congrArg some hd))
  -- No member is required, so none can be missing, and each one is stored under its own name.
  refine Shape.readTable_eq_ok ?_ rfl
  simp [Shape.storeNamed, shape, Member.optional, Except.map, bind, Except.bind, pure, Except.pure,
    Reader.takesBack_option_text _, hkinds, howner, Reader.option_scalar_of_ne hlimit,
    Reader.takesBack_bool _, FieldGroup.takesBack.list r.groups,
    ChangeFilter.takesBack.list r.filters, Reader.takesBack_scalar.list r.namespaces]

/-- A null limit is written as no limit is. -/
theorem toDocument_of_null_limit (h : r.limit = some .null) :
    r.toDocument = ({ r with limit := none } : FeedRequest).toDocument := by
  simp only [toDocument, h]
  rfl

theorem owner_set (h : r.owner ≠ some .null) (setting : Setting) :
    (r.set setting).owner ≠ some .null := by
  cases setting with
  | owner => exact nofun
  | _ => exact h

theorem owner_ofSettings (settings : List Setting) :
    (ofSettings settings).owner ≠ some .null := by
  have hblank : ({} : FeedRequest).owner ≠ some .null := nofun
  exact List.foldlRecOn (motive := fun r => r.owner ≠ some .null) settings set hblank
    fun _ h setting _ => owner_set h setting

/-- The last owner that is set stays, with its token. -/
theorem claim_ofSettings (before : List Setting) {after : List Setting} {owner : User}
    {token : String} (hlast : ∀ owner' token', .owner owner' token' ∉ after) :
    (ofSettings (before ++ .owner owner token :: after)).owner = some owner.toDocument ∧
      (ofSettings (before ++ .owner owner token :: after)).ownerToken = some token := by
  rw [ofSettings, List.foldl_append, List.foldl_cons]
  -- The claim holds right after it was set, and no later setting touches it.
  refine List.foldlRecOn (motive := fun r => r.owner = some owner.toDocument ∧
    r.ownerToken = some token) after set ?_ ?_
  · exact ⟨rfl, rfl⟩
  · intro r h setting hmem
    cases setting with
    | owner owner' token' => exact absurd hmem (hlast owner' token')
    | _ => exact h

/-- Requests that pass the same checks are validated alike, up to what they ask for beside them. -/
theorem validate_eq_map {f : FeedOptions → FeedOptions}
    (hrun : Check.run r' user raw = Check.run r user raw)
    (hoptions : ∀ o, r.Validated user raw o → r'.Validated user raw (f o)) :
    r'.validate user raw = (r.validate user raw).map f := by
  cases h : r.validate user raw with
  | ok o => exact validate_eq_ok_iff.mpr (hoptions o (validate_eq_ok_iff.mp h))
  | error e =>
    rw [validate_eq_error_iff_mapM, ← hrun, ← validate_eq_error_iff_mapM] at h
    exact h

theorem validate_relimit (r : FeedRequest) (user : User) (raw : Option (List Scalar))
    (limit : Option Scalar) : ({ r with limit } : FeedRequest).validate user raw
      = (r.validate user raw).map fun o => { o with limit := limit.map Scalar.toLimit } :=
  validate_eq_map (Check.run_of_limit r r.namespaces limit) fun _ h => h.relimit limit

/-- A null limit is one of zero, which no limit is not. -/
theorem validate_of_null_limit (h : r.limit = some .null) (user : User)
    (raw : Option (List Scalar)) : r.validate user raw
      = (({ r with limit := none } : FeedRequest).validate user raw).map
        fun o => { o with limit := some 0 } := by
  have hzero : (some Scalar.null).map Scalar.toLimit = some 0 := by decide
  have hr : r = { ({ r with limit := none } : FeedRequest) with limit := some .null } := by
    rw [← h]
  rw [← hzero, ← validate_relimit, ← hr]

/-- A request is read back as it is, or without its limit where that is null. -/
theorem exists_read_toDocument (howner : r.owner ≠ some .null) :
    ∃ r', read r.toDocument = .ok r' ∧ (r.limit ≠ some .null → r' = r) ∧
      (r.limit = some .null → r' = { r with limit := none } ∧ ∀ user raw, r.validate user raw
        = (r'.validate user raw).map fun o => { o with limit := some 0 }) := by
  by_cases hlimit : r.limit = some .null
  · have hread : read r.toDocument = .ok { r with limit := none } := by
      rw [toDocument_of_null_limit hlimit]
      exact read_toDocument nofun howner
    exact ⟨_, hread, fun hne => absurd hlimit hne, fun _ => ⟨rfl, validate_of_null_limit hlimit⟩⟩
  · exact ⟨r, read_toDocument hlimit howner, fun _ => rfl, fun heq => absurd heq hlimit⟩

/-- A claim that was set becomes the scope, and nothing else goes by it. -/
theorem validate_of_claim {owner : User} {token : String} (howner : r.owner = some owner.toDocument)
    (htoken : r.ownerToken = some token) (user : User) (raw : Option (List Scalar)) :
    r.validate user raw
      = (({ r with owner := none, ownerToken := none } : FeedRequest).validate user raw).map
        fun o => { o with scope := .claimed owner token } := by
  have hscope : r.readScope user = .ok (.claimed owner token) := by
    rw [readScope, howner, htoken]
    dsimp only
    rw [User.takesBack owner]
    rfl
  refine validate_eq_map (funext fun k => ?_) fun o h => ?_
  · cases k with
    | claim => simp only [Check.run, hscope]; rfl
    | _ => rfl
  · exact ⟨h.groups, h.namespaces, h.kinds, h.walk, h.positioned, h.window, h.limit, h.filters,
      h.author, hscope, h.allRevisions, h.forGenerator, h.startFrom⟩

end FeedRequest

namespace WatchlistRequest

variable {r : WatchlistRequest}

theorem read_toDocument (hlimit : r.limit ≠ some .null) : read r.toDocument = .ok r := by
  have htarget := Target.takesBack.option fun _ => nofun
  refine Shape.readTable_eq_ok ?_ rfl
  simp [Shape.storeNamed, shape, Member.optional, Except.map, bind, Except.bind, pure, Except.pure,
    Reader.takesBack_option_text _, htarget _, Reader.option_scalar_of_ne hlimit,
    Reader.takesBack_scalar.list r.namespaces]

theorem toDocument_of_null_limit (h : r.limit = some .null) :
    r.toDocument = ({ r with limit := none } : WatchlistRequest).toDocument := by
  simp only [toDocument, h]
  rfl

theorem validate_relimit (r : WatchlistRequest) (limit : Option Scalar) :
    ({ r with limit } : WatchlistRequest).validate
      = r.validate.map fun o => { o with limit := limit.map Scalar.toLimit } := by
  have hsort : ({ r with limit } : WatchlistRequest).readSort = r.readSort := rfl
  have hfilter : ({ r with limit } : WatchlistRequest).readFilter = r.readFilter := rfl
  have hseeks : ({ r with limit } : WatchlistRequest).seeks = r.seeks := rfl
  simp only [validate, hsort, hfilter, hseeks]
  cases r.readSort with
  | error e => rfl
  | ok sort =>
    cases r.readFilter with
    | error e => rfl
    | ok filter =>
      simp only [Outcome.except_ok_bind]
      split <;> rfl

theorem validate_of_null_limit (h : r.limit = some .null) : r.validate
    = ({ r with limit := none } : WatchlistRequest).validate.map
      fun o => { o with limit := some 0 } := by
  have hzero : (some Scalar.null).map Scalar.toLimit = some 0 := by decide
  have hr : r = { ({ r with limit := none } : WatchlistRequest) with limit := some .null } := by
    rw [← h]
  rw [← hzero, ← validate_relimit, ← hr]

theorem exists_read_toDocument (r : WatchlistRequest) :
    ∃ r', read r.toDocument = .ok r' ∧ (r.limit ≠ some .null → r' = r) ∧
      (r.limit = some .null → r' = { r with limit := none } ∧
        r.validate = r'.validate.map fun o => { o with limit := some 0 }) := by
  by_cases hlimit : r.limit = some .null
  · have hread : read r.toDocument = .ok { r with limit := none } := by
      rw [toDocument_of_null_limit hlimit]
      exact read_toDocument nofun
    exact ⟨_, hread, fun hne => absurd hlimit hne, fun _ => ⟨rfl, validate_of_null_limit hlimit⟩⟩
  · exact ⟨r, read_toDocument hlimit, fun _ => rfl, fun heq => absurd heq hlimit⟩

end WatchlistRequest

/-- A request that is put together setting by setting is read back from its document as it is, but
for a limit of null: written, that is no limit, while set it is one of zero, and this is all the
difference that validation makes between the two. The owner that was set last, with its token, is
the one whose list is claimed, whenever the rest of the request is accepted. -/
theorem assembled_requests_are_read_back :
    (∀ settings, let r := FeedRequest.ofSettings settings
      ∃ r', FeedRequest.read r.toDocument = .ok r' ∧
        (r.limit ≠ some .null → r' = r) ∧
        (r.limit = some .null → r' = { r with limit := none } ∧ ∀ user raw, r.validate user raw
          = (r'.validate user raw).map fun o => { o with limit := some 0 })) ∧
    (∀ before owner token after, (∀ owner' token', .owner owner' token' ∉ after) →
      let r := FeedRequest.ofSettings (before ++ .owner owner token :: after)
      ∀ user raw, r.validate user raw
        = (({ r with owner := none, ownerToken := none } : FeedRequest).validate user raw).map
          fun o => { o with scope := .claimed owner token }) ∧
    ∀ settings, let r := WatchlistRequest.ofSettings settings
      ∃ r', WatchlistRequest.read r.toDocument = .ok r' ∧
        (r.limit ≠ some .null → r' = r) ∧
        (r.limit = some .null → r' = { r with limit := none } ∧
          r.validate = r'.validate.map fun o => { o with limit := some 0 }) := by
  refine ⟨fun settings => ?_, ?_, fun settings => WatchlistRequest.exists_read_toDocument _⟩
  · exact FeedRequest.exists_read_toDocument (FeedRequest.owner_ofSettings settings)
  · intro before owner token after hlast r user raw
    obtain ⟨howner, htoken⟩ := FeedRequest.claim_ofSettings before hlast
    exact FeedRequest.validate_of_claim howner htoken user raw

/-- A request with all kinds of scalars and the largest id of an owner is read back as it is, and
claims that owner's list. A listing with a limit of null is read back without a limit, and is
limited to no rows before. -/
theorem assembled_requests_are_read_back_largest_id :
    let owner : User := ⟨UInt64.ofNat 0xFFFFFFFFFFFFFFFF, "Other \"User\""⟩
    let before : List FeedRequest.Setting :=
      [.namespaces [.null, .int (-1), .text "2"], .owner InMemory.actingUser "an older secret"]
    let after : List FeedRequest.Setting := [.kinds [.text " 3 "], .limit (.text "7 or so")]
    let r := FeedRequest.ofSettings (before ++ .owner owner "some secret" :: after)
    let listing := WatchlistRequest.ofSettings [.limit .null, .fromTarget ⟨-1, "Foo"⟩]
    FeedRequest.read r.toDocument = .ok r ∧
    (r.validate InMemory.actingUser none).map (fun o => o.scope)
      = .ok (.claimed owner "some secret") ∧
    WatchlistRequest.read listing.toDocument = .ok { listing with limit := none } := by
  intro owner before after r listing
  obtain ⟨hfeed, hclaim, hlisting⟩ := assembled_requests_are_read_back
  obtain ⟨r', hread, hsame, _⟩ := hfeed (before ++ .owner owner "some secret" :: after)
  obtain ⟨l', hlist, _, hnull⟩ := hlisting [.limit .null, .fromTarget ⟨-1, "Foo"⟩]
  have hlast (owner' : User) (token' : String) : .owner owner' token' ∉ after := by
    simp [after]
  refine ⟨?_, ?_, ?_⟩
  · rw [hsame nofun] at hread
    exact hread
  · rw [hclaim before owner "some secret" after hlast]
    rfl
  · rw [(hnull rfl).1] at hlist
    exact hlist

/-- A limit of null is one of zero as long as the request has not been written; read back, it is no
limit at all. -/
theorem null_limit_is_not_read_back :
    let r := FeedRequest.ofSettings [.limit .null]
    ∃ r', FeedRequest.read r.toDocument = .ok r' ∧
      (r.validate InMemory.actingUser none).map (fun o => o.limit) = .ok (some 0) ∧
      (r'.validate InMemory.actingUser none).map (fun o => o.limit) = .ok none ∧
      r'.validate InMemory.actingUser none ≠ r.validate InMemory.actingUser none := by
  intro r
  refine ⟨{ r with limit := none }, rfl, rfl, rfl, fun hsame => ?_⟩
  have hlimits := congrArg (fun v => v.map fun o => o.limit) hsame
  cases hlimits

end PageWatch
