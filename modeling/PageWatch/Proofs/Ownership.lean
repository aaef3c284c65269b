import PageWatch.Host.InMemory
import PageWatch.Proofs.Authority
import PageWatch.Proofs.Cutting

/-! Ownership: whom the items of a page name, and whose list they were read from. -/
namespace PageWatch

/-- Fetched rows with the items that they became, each naming the same owner. -/
abbrev ItemsOwnedBy (c : Collaborators) (owner : User) :
    List Row → List (WatchedItem × ChangeInfo) → Prop :=
  List.Forall₂ fun r i => i.1.OwnedBy c owner r

section

variable {c : Collaborators} {user owner : User} {size : Option Nat} {rows : List Row}
  {items : List (WatchedItem × ChangeInfo)}

theorem Row.ownedBy_of_changeItem {r : Row} {i : WatchedItem × ChangeInfo}
    (h : r.changeItem c user = .ok i) : i.1.OwnedBy c user r := by
  obtain ⟨t, _, h⟩ := Outcome.except_bind_eq_ok_iff.mp h
  cases h
  exact r.ownedBy_watchedItem c user t

theorem ChangePage.CutAt.itemsOwnedBy {page : ChangePage} (h : page.CutAt c user size rows) :
    ItemsOwnedBy c user (itemRows size rows) page.items :=
  h.items.imp fun _ _ => Row.ownedBy_of_changeItem

/-- Items name one owner, unless there are none. -/
theorem ItemsOwnedBy.owner_iff (h : ItemsOwnedBy c user rows items) :
    ItemsOwnedBy c owner rows items ↔ items = [] ∨ owner = user := by
  constructor
  · intro howner
    cases h with
    | nil => exact .inl rfl
    | cons hi _ =>
      cases howner with
      | cons hi' _ => exact .inr (hi'.user.symm.trans hi.user)
  · rintro (rfl | rfl)
    · cases h
      exact .nil
    · exact h

/-- The owner that was granted is the one that the options name. -/
theorem Access.ownerId_of_decide {o : FeedOptions} {g : Grant}
    (h : (decide c user o).result = .ok g) : g.ownerId = o.scope.owner.id := by
  obtain ⟨id, hid, rfl⟩ := decide_eq_ok_iff.mp h
  cases hs : o.scope with
  | own user =>
    rw [hs] at hid
    cases hid
    rfl
  | claimed owner token =>
    rw [hs] at hid
    exact (verifyScope_claimed_eq_ok_iff.mp hid).2.symm

end

namespace Service

/-- A page is made of the rows of one list, and all its items name the user who acts. So they name
the owner of the list exactly when that is the same user, as it is unless a list is claimed. -/
theorem items_name_acting_user (s : Service) (hs : s.extensions = []) (user : User)
    {request : FeedRequest} {cursor : Option (List Scalar)} {page : ChangePage}
    (h : (s.changes user request cursor).result = .ok page) :
    ∃ o g x q rows, s.Compiles user request cursor o g x q ∧ q.ReadsListOf o.scope.owner.id ∧
      x.select q = .ok rows ∧
      (let kept := ChangePage.itemRows o.pageSize? rows
      ItemsOwnedBy s.host.collaborators user kept page.items ∧
        (ItemsOwnedBy s.host.collaborators o.scope.owner kept page.items ↔
          page.items = [] ∨ o.scope.owner = user)) ∧
      (request.owner = none → o.scope.owner = user) := by
  obtain ⟨o, g, x, q, q', rows, p, hcompiles, hbefore, hrows, hp, hafter⟩ :=
    changes_eq_ok_iff.mp h
  rw [hs] at hbefore hafter
  cases hbefore
  cases hafter
  have hreads := FeedOptions.readsListOf_of_select hcompiles.compiled
  rw [Access.ownerId_of_decide hcompiles.decided] at hreads
  have hitems :=
    ((ChangePage.ofRows_eq_ok_iff_cutAt o.keptRows_rowCap).mp hp).itemsOwnedBy
  refine ⟨o, g, x, q, rows, hcompiles, hreads, hrows, ⟨hitems, hitems.owner_iff⟩, fun hown => ?_⟩
  have hscope := (FeedRequest.validate_eq_ok_iff.mp hcompiles.validated).scope
  unfold FeedRequest.readScope at hscope
  rw [hown] at hscope
  cases htoken : request.ownerToken with
  | none =>
    rw [htoken] at hscope
    rw [← Except.ok.inj hscope]
    rfl
  | some token => simp [htoken] at hscope

/-- The first user reads the list that the second one lent, and the one item names the first. -/
theorem items_name_acting_user_lent_list :
    let script : Script :=
      { rows := [InMemory.changeRow 1 0 "Foo1" "20240101000000"], tokens := [("2", "some secret")]
        store := .describe }
    let s : Service := ⟨script.host 0, {}, []⟩
    let request := FeedRequest.ofSettings [.owner InMemory.otherUser "some secret"]
    ∃ page, (s.changes InMemory.actingUser request none).result = .ok page ∧
      page.items.map (·.1) =
        [⟨InMemory.actingUser, ⟨0, "Foo1"⟩, some "none MockUser (#1) 0:Foo1"⟩] ∧
      ∃ o g x q rows, s.Compiles InMemory.actingUser request none o g x q ∧
        q.ReadsListOf o.scope.owner.id ∧ x.select q = .ok rows ∧
        ItemsOwnedBy s.host.collaborators InMemory.actingUser
          (ChangePage.itemRows o.pageSize? rows) page.items := by
  intro script s request
  have hrun : (s.changes InMemory.actingUser request none).result.toOption.map
      (fun page => page.items.map (·.1)) =
        some [⟨InMemory.actingUser, ⟨0, "Foo1"⟩, some "none MockUser (#1) 0:Foo1"⟩] := by
    decide +kernel
  obtain ⟨page, hpage, hitems⟩ := Option.map_eq_some_iff.mp hrun
  have hpage := Outcome.toOption_eq_some_iff.mp hpage
  obtain ⟨o, g, x, q, rows, hcompiles, hreads, hrows, ⟨howned, _⟩, _⟩ :=
    items_name_acting_user s rfl InMemory.actingUser hpage
  exact ⟨page, hpage, hitems, o, g, x, q, rows, hcompiles, hreads, hrows, howned⟩

/-- So the owner of the list that was read is not always the user whom the items name. -/
theorem items_need_not_name_list_owner :
    ¬ ∀ (s : Service) (user : User) (request : FeedRequest) (cursor : Option (List Scalar))
      (page : ChangePage), s.extensions = [] → (s.changes user request cursor).result = .ok page →
      ∀ q ∈ (s.changes user request cursor).selects, ∀ i ∈ page.items,
        q.ReadsListOf i.1.user.id := by
  intro h
  let script : Script :=
    { rows := [InMemory.changeRow 1 0 "Foo1" "20240101000000"], tokens := [("2", "some secret")]
      store := .describe }
  let s : Service := ⟨script.host 0, {}, []⟩
  let request := FeedRequest.ofSettings [.owner InMemory.otherUser "some secret"]
  have hselects : (s.changes InMemory.actingUser request none).selects.map (·.conditions.head?)
      = [some (.equals "wl_user" (.int 2))] := by
    decide +kernel
  have hrun : (s.changes InMemory.actingUser request none).result.toOption.map
      (fun page => page.items.map (·.1.user)) = some [InMemory.actingUser] := by
    decide +kernel
  obtain ⟨q, hq, hfirst⟩ := List.map_eq_singleton_iff.mp hselects
  obtain ⟨page, hpage, hitems⟩ := Option.map_eq_some_iff.mp hrun
  obtain ⟨i, hi, huser⟩ := List.map_eq_singleton_iff.mp hitems
  have hreads := h s InMemory.actingUser request none page rfl
    (Outcome.toOption_eq_some_iff.mp hpage) q (by simp [hq]) i (by simp [hi])
  obtain ⟨owner, howner, hid⟩ := hreads.first
  rw [hfirst] at howner
  cases howner
  rw [huser] at hid
  exact absurd hid (by decide)

end Service

end PageWatch
