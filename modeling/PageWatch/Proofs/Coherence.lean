import PageWatch.Proofs.Columns
import PageWatch.Proofs.Effects

/-! Coherence: whatever collaborators contribute, the select of a feed keeps what the feed reads by
itself, and has the tables and the joins of all that it reads. -/
namespace PageWatch

/-- Whether a collaborator worded a part of a term. -/
def Term.isSupplied : Term → Bool
  | .fragment f => f.isSupplied
  | .contributed _ _ => true
  | _ => false

/-- The tables and the joins are there, each under its key. -/
def SelectQuery.Provides (q : SelectQuery) (ts : List TableRef) (js : List JoinClause) : Prop :=
  (∀ t ∈ ts, q.hasTable t.key = true) ∧ ∀ j ∈ js, q.hasJoin j.table = true

theorem SelectQuery.hasTable_iff {q : SelectQuery} {key : String} :
    q.hasTable key = true ↔ key ∈ q.tables.map TableRef.key := by
  simp [hasTable]

theorem SelectQuery.hasJoin_iff {q : SelectQuery} {table : String} :
    q.hasJoin table = true ↔ table ∈ q.joins.map JoinClause.table := by
  simp [hasJoin]

/-- The condition on the latest changes, as the executor renders it. -/
def Executor.latestCondition (x : Executor) : Condition :=
  .expr (x.makeList ["rc_this_oldid=page_latest", "rc_type=3"] .or)

namespace FeedOptions

/-- Changes are joined to the watchlist by both columns of a target. -/
def watchlistJoin : JoinClause :=
  ⟨"watchlist", .inner, ["wl_namespace=rc_namespace", "wl_title=rc_title"]⟩

def pageJoin : JoinClause := ⟨"page", .left, ["rc_cur_id=page_id"]⟩

/-- The tables that the feed reads by itself. -/
def ownTables (o : FeedOptions) : List TableRef :=
  .named "recentchanges" :: .named "watchlist" :: if o.allRevisions then [] else [.named "page"]

def ownJoins (o : FeedOptions) : List JoinClause :=
  watchlistJoin :: if o.allRevisions then [] else [pageJoin]

/-- What collaborators contribute, in the order in which it is taken in. -/
def contributions (o : FeedOptions) (c : Collaborators) : List Push :=
  (if o.groups.contains .comment then [.contribution (c.comments.join "rc_comment")] else [])
    ++ (if o.needsActor then [.contribution (c.actors.join "rc_user")] else [])
    ++ o.author.toList.map fun rule =>
      .restriction (c.actors.whereUser "rc_user" rule.userName) rule.isNegated

/-- The details or the conditions of a feed come from the actor tables. -/
def ReadsActors (o : FeedOptions) (c : Collaborators) (x : Executor) (config : SelectConfig)
    (g : Grant) : Prop :=
  .user ∈ o.groups ∨ .userId ∈ o.groups ∨
    ∃ owner, ∃ t ∈ o.terms c config x.backend g owner, t.isSupplied = true

/-- No collaborator contributes a table, a join or a condition that coincides with those by which
the feed reads pages. -/
structure LeavesPageAlone (o : FeedOptions) (c : Collaborators) (x : Executor)
    (config : SelectConfig) (g : Grant) : Prop where
  tables : ∀ t ∈ (o.contributions c).flatMap Push.tables, t.key ≠ "page"
  joins : ∀ j ∈ (o.contributions c).flatMap Push.joins, j.table ≠ "page"
  conditions : ∀ owner, ∀ t ∈ o.terms c config x.backend g owner, t ≠ latestTerm →
    t.condition x ≠ x.latestCondition

/-- What a compiled select is made of: of each key the first that was offered, in the order of the
offers, the feed's own tables and joins in front. -/
structure Coherent (o : FeedOptions) (c : Collaborators) (x : Executor) (config : SelectConfig)
    (g : Grant) (q : SelectQuery) : Prop where
  tables :
    FirstOfKey TableRef.key (o.ownTables ++ (o.contributions c).flatMap Push.tables) q.tables
  joins :
    FirstOfKey JoinClause.table (o.ownJoins ++ (o.contributions c).flatMap Push.joins) q.joins
  fields : ∃ fields, o.fields c = .ok fields ∧ FirstOfKey SelectField.name fields q.fields
  conditions : ∃ owner, storedOwner g.ownerId = .ok owner ∧
    q.conditions = (o.terms c config x.backend g owner).map (Term.condition x)
  ownTables : o.ownTables <+: q.tables
  ownJoins : o.ownJoins <+: q.joins
  page : o.allRevisions = false →
    .named "page" ∈ q.tables ∧ pageJoin ∈ q.joins ∧ x.latestCondition ∈ q.conditions
  noPage : o.allRevisions = true → o.LeavesPageAlone c x config g →
    q.hasTable "page" = false ∧ q.hasJoin "page" = false ∧ x.latestCondition ∉ q.conditions
  comments : .comment ∈ o.groups →
    q.Provides (c.comments.join "rc_comment").tables (c.comments.join "rc_comment").joins
  actors : o.ReadsActors c x config g →
    q.Provides (c.actors.join "rc_user").tables (c.actors.join "rc_user").joins
  author : ∀ rule ∈ o.author, q.Provides (c.actors.whereUser "rc_user" rule.userName).tables
    (c.actors.whereUser "rc_user" rule.userName).joins

variable {o : FeedOptions} {c : Collaborators} {x : Executor} {config : SelectConfig} {g : Grant}
  {q : SelectQuery}

theorem condition_latestTerm (x : Executor) : latestTerm.condition x = x.latestCondition := rfl

/-- What the feed pushes by itself before any collaborator is asked. -/
def ownSources (o : FeedOptions) : List Push :=
  [.table (.named "recentchanges"), .table (.named "watchlist"), .join watchlistJoin]
    ++ if o.allRevisions then [] else [.table (.named "page"), .join pageJoin]

theorem tables_ownSources (o : FeedOptions) : o.ownSources.flatMap Push.tables = o.ownTables := by
  unfold ownSources ownTables
  cases o.allRevisions <;> rfl

theorem joins_ownSources (o : FeedOptions) : o.ownSources.flatMap Push.joins = o.ownJoins := by
  unfold ownSources ownJoins
  cases o.allRevisions <;> rfl

/-- Without an author, all that the terms push are conditions. -/
theorem exists_push_eq_condition {t : Term} {owner : Int64} (hauthor : o.author = none)
    (ht : t ∈ o.terms c config x.backend g owner) : ∃ cond, t.push x = .condition cond := by
  rcases origin_of_mem_terms ht with rfl | ht
  · exact ⟨_, rfl⟩
  · cases ht with
    | author hrule => cases hauthor.symm.trans hrule
    | _ => exact ⟨_, rfl⟩

/-- The rule for an author stands between terms that do not depend on it. -/
theorem exists_terms_around_author (o : FeedOptions) (c : Collaborators) (config : SelectConfig)
    (backend : Backend) (g : Grant) (owner : Int64) : ∃ front back,
      o.terms c config backend g owner = front ++ (o.authorTerms c g.visibility ++ back) ∧
      ({ o with author := none } : FeedOptions).terms c config backend g owner = front ++ back := by
  refine ⟨.equals "wl_user" (.int owner) :: o.latestTerms ++ o.namespaceTerms ++ o.kindTerms
    ++ g.filters.toList.map (filterTerm c) ++ o.windowTerms ++ o.hintTerms config backend,
    logTerms g.visibility ++ o.cursorTerms, ?_, ?_⟩
  · simp only [terms, List.append_assoc]
  · simp only [terms, List.append_assoc]
    rfl

/-- What the terms push beside conditions comes with the rule for an author. -/
theorem flatMap_push_terms {β : Type} {f : Push → List β} (hf : ∀ cond, f (.condition cond) = [])
    (o : FeedOptions) (c : Collaborators) (x : Executor) (config : SelectConfig) (g : Grant)
    (owner : Int64) :
    ((o.terms c config x.backend g owner).map (Term.push x)).flatMap f
      = (o.author.toList.map fun rule => Push.restriction
        (c.actors.whereUser "rc_user" rule.userName) rule.isNegated).flatMap f := by
  obtain ⟨front, back, hterms, hrest⟩ := o.exists_terms_around_author c config x.backend g owner
  have hplain : ∀ t ∈ front ++ back, f (t.push x) = [] := by
    intro t ht
    rw [← hrest] at ht
    obtain ⟨cond, hcond⟩ := exists_push_eq_condition rfl ht
    rw [hcond, hf]
  have hnone (ts : List Term) (hts : ts ⊆ front ++ back) :
      (ts.map (Term.push x)).flatMap f = [] := by
    rw [List.flatMap_map, List.flatMap_eq_nil_iff]
    exact fun t ht => hplain t (hts ht)
  have hauthor : ((o.authorTerms c g.visibility).map (Term.push x)).flatMap f
      = (o.author.toList.map fun rule => Push.restriction
        (c.actors.whereUser "rc_user" rule.userName) rule.isNegated).flatMap f := by
    unfold authorTerms
    cases o.author with
    | none => rfl
    | some rule => simp [Term.push, List.flatMap_map, hf]
  rw [hterms, List.map_append, List.map_append, List.flatMap_append, List.flatMap_append, hauthor,
    hnone front (List.subset_append_left front back),
    hnone back (List.subset_append_right front back), List.nil_append, List.append_nil]

/-- All that is offered to the select of a feed comes from the feed itself or is contributed. -/
theorem flatMap_pushes {β : Type} {f : Push → List β}
    (hcondition : ∀ cond, f (.condition cond) = []) (hfield : ∀ field, f (.field field) = [])
    (fields : List SelectField) (owner : Int64) :
    (o.sources c ++ fields.map Push.field
      ++ (o.terms c config x.backend g owner).map (Term.push x)).flatMap f
      = o.ownSources.flatMap f ++ (o.contributions c).flatMap f := by
  have hsources : o.sources c = o.ownSources
      ++ (if o.groups.contains .comment then [.contribution (c.comments.join "rc_comment")] else [])
      ++ (if o.needsActor then [.contribution (c.actors.join "rc_user")] else []) := rfl
  have hfields : (fields.map Push.field).flatMap f = [] := by simp [List.flatMap_map, hfield]
  rw [List.flatMap_append, List.flatMap_append, hfields, flatMap_push_terms hcondition, hsources]
  simp only [contributions, List.flatMap_append, List.append_assoc, List.nil_append]

/-- The tables and the joins of a select are taken in after the feed's own. -/
theorem taken_of_select (h : o.select c x config g = .ok q) :
    q.tables = (o.ownTables ++ (o.contributions c).flatMap Push.tables).foldl
        (pushNew TableRef.key) [] ∧
      q.joins = (o.ownJoins ++ (o.contributions c).flatMap Push.joins).foldl
        (pushNew JoinClause.table) [] := by
  obtain ⟨fields, owner, _, _, rfl⟩ := select_eq_ok_iff.mp h
  rw [SelectQuery.pushAll_eq, ← tables_ownSources, ← joins_ownSources]
  constructor
  · rw [← flatMap_pushes (fun _ => rfl) (fun _ => rfl)]
    rfl
  · rw [← flatMap_pushes (fun _ => rfl) (fun _ => rfl)]
    rfl

/-- The tables and the joins of a select: what the feed has of its own, then what is contributed. -/
theorem firstOfKey_of_select (h : o.select c x config g = .ok q) :
    FirstOfKey TableRef.key (o.ownTables ++ (o.contributions c).flatMap Push.tables) q.tables ∧
      FirstOfKey JoinClause.table (o.ownJoins ++ (o.contributions c).flatMap Push.joins)
        q.joins := by
  obtain ⟨htables, hjoins⟩ := taken_of_select h
  rw [htables, hjoins]
  exact ⟨(FirstOfKey.nil _).run _, (FirstOfKey.nil _).run _⟩

/-- None of the feed's own tables and joins is in the way of another. -/
theorem foldl_pushNew_own (o : FeedOptions) :
    o.ownTables.foldl (pushNew TableRef.key) [] = o.ownTables ∧
      o.ownJoins.foldl (pushNew JoinClause.table) [] = o.ownJoins := by
  unfold ownTables ownJoins
  cases o.allRevisions <;> decide

/-- The feed's own tables and joins come first. -/
theorem own_prefix_of_select (h : o.select c x config g = .ok q) :
    o.ownTables <+: q.tables ∧ o.ownJoins <+: q.joins := by
  obtain ⟨htables, hjoins⟩ := taken_of_select h
  obtain ⟨howntables, hownjoins⟩ := o.foldl_pushNew_own
  rw [List.foldl_append, howntables] at htables
  rw [List.foldl_append, hownjoins] at hjoins
  rw [htables, hjoins]
  exact ⟨prefix_foldl_pushNew _ _ _, prefix_foldl_pushNew _ _ _⟩

/-- The term of the latest changes is there exactly if not all revisions are wanted. -/
theorem latestTerm_mem_iff {owner : Int64} :
    latestTerm ∈ o.terms c config x.backend g owner ↔ o.allRevisions = false := by
  constructor
  · intro h
    generalize ht : latestTerm = t at h
    rcases origin_of_mem_terms h with rfl | h
    · cases ht
    · cases h with
      | latest hall => exact hall
      | own _ hpage =>
        cases ht
        exact absurd (by decide) hpage
      | _ => cases ht
  · intro hall
    have hlatest : o.latestTerms = [latestTerm] := by
      unfold latestTerms
      rw [hall]
      rfl
    simp [terms, hlatest]

theorem needsActor_eq_true_iff : o.needsActor = true ↔ .user ∈ o.groups ∨ .userId ∈ o.groups ∨
    .anon ∈ o.filters ∨ .notAnon ∈ o.filters ∨ o.author.isSome = true := by
  simp [needsActor, SortedSet.contains, SortedSet.mem_toList, or_assoc]

/-- Whatever is read from the actor tables was foreseen when the tables were taken in. -/
theorem ReadsActors.needsActor (h : o.ReadsActors c x config g)
    (hfilters : ∀ f ∈ g.filters, f ∈ o.filters) : o.needsActor = true := by
  rw [needsActor_eq_true_iff]
  rcases h with h | h | ⟨owner, t, ht, hsupplied⟩
  · exact .inl h
  · exact .inr (.inl h)
  · rcases origin_of_mem_terms ht with rfl | horigin
    · cases hsupplied
    · cases horigin with
      | anon hf => exact .inr (.inr (.inl (hfilters _ hf)))
      | notAnon hf => exact .inr (.inr (.inr (.inl (hfilters _ hf))))
      | author hrule => exact .inr (.inr (.inr (.inr (Option.isSome_of_eq_some hrule))))
      | own hf _ => cases hf.symm.trans hsupplied
      | _ => cases hsupplied

/-- The tables and joins of a contribution are there, if it is taken in. -/
theorem provides_of_contribution (h : o.select c x config g = .ok q) {p : Push}
    (hp : p ∈ o.contributions c) : q.Provides p.tables p.joins := by
  obtain ⟨htables, hjoins⟩ := firstOfKey_of_select h
  constructor
  · intro t ht
    rw [SelectQuery.hasTable_iff, htables.mem_keys_iff]
    apply List.mem_map_of_mem
    exact List.mem_append_right _ (List.mem_flatMap.mpr ⟨p, hp, ht⟩)
  · intro j hj
    rw [SelectQuery.hasJoin_iff, hjoins.mem_keys_iff]
    apply List.mem_map_of_mem
    exact List.mem_append_right _ (List.mem_flatMap.mpr ⟨p, hp, hj⟩)

theorem coherent_of_select (hfilters : ∀ f ∈ g.filters, f ∈ o.filters)
    (h : o.select c x config g = .ok q) : o.Coherent c x config g q := by
  obtain ⟨htables, hjoins⟩ := firstOfKey_of_select h
  obtain ⟨howntables, hownjoins⟩ := own_prefix_of_select h
  obtain ⟨owner, howner, hconditions⟩ := conditions_of_select h
  refine ⟨htables, hjoins, firstOfKey_fields_of_select h, ⟨owner, howner, hconditions⟩, howntables,
    hownjoins, ?page, ?noPage, ?comments, ?actors, ?author⟩
  case page =>
    intro hall
    have hpage : .named "page" ∈ o.ownTables ∧ pageJoin ∈ o.ownJoins := by
      simp [ownTables, ownJoins, hall]
    refine ⟨howntables.subset hpage.1, hownjoins.subset hpage.2, ?_⟩
    rw [hconditions, ← condition_latestTerm]
    exact List.mem_map_of_mem (latestTerm_mem_iff.mpr hall)
  case noPage =>
    intro hall halone
    have hown : o.ownTables = [.named "recentchanges", .named "watchlist"] ∧
        o.ownJoins = [watchlistJoin] := by
      simp [ownTables, ownJoins, hall]
    refine ⟨?_, ?_, ?_⟩
    · rw [Bool.eq_false_iff, ne_eq, SelectQuery.hasTable_iff, htables.mem_keys_iff, hown.1,
        List.map_append, List.mem_append, not_or]
      refine ⟨by decide, ?_⟩
      intro hkey
      obtain ⟨t, ht, heq⟩ := List.mem_map.mp hkey
      exact halone.tables t ht heq
    · rw [Bool.eq_false_iff, ne_eq, SelectQuery.hasJoin_iff, hjoins.mem_keys_iff, hown.2,
        List.map_append, List.mem_append, not_or]
      refine ⟨by decide, ?_⟩
      intro hkey
      obtain ⟨j, hj, heq⟩ := List.mem_map.mp hkey
      exact halone.joins j hj heq
    · rw [hconditions]
      intro hmem
      obtain ⟨t, ht, heq⟩ := List.mem_map.mp hmem
      have hlatest : t = latestTerm := by
        by_contra hne
        exact halone.conditions owner t ht hne heq
      rw [hlatest, latestTerm_mem_iff, hall] at ht
      cases ht
  case comments =>
    intro hcomment
    apply provides_of_contribution h (p := .contribution (c.comments.join "rc_comment"))
    simp [contributions, SortedSet.contains, SortedSet.mem_toList, hcomment]
  case actors =>
    intro hreads
    apply provides_of_contribution h (p := .contribution (c.actors.join "rc_user"))
    simp [contributions, hreads.needsActor hfilters]
  case author =>
    intro rule hrule
    apply provides_of_contribution h
      (p := .restriction (c.actors.whereUser "rc_user" rule.userName) rule.isNegated)
    simp [contributions, Option.mem_def.mp hrule]

/-- A select that grows keeps of each key the first that is pushed, in the order of the pushes, and
loses nothing. So whatever collaborators contribute, a compiled select keeps the feed's own tables
and joins in front, reads pages exactly if not all revisions are wanted, and has the tables and
joins of the comments, the actors and the author that it reads. -/
theorem compiled_selects_are_coherent :
    (∀ caller ps, (({ caller } : SelectQuery).pushAll ps).Holds (ps.flatMap Push.tables)
        (ps.flatMap Push.fields) (ps.flatMap Push.joins) (ps.flatMap Push.conditions) ∧
      ∀ more, (({ caller } : SelectQuery).pushAll ps).Extends
        (({ caller } : SelectQuery).pushAll (ps ++ more))) ∧
    ∀ (o : FeedOptions) (c : Collaborators) (x : Executor) (config : SelectConfig) (g : Grant)
      (q : SelectQuery), (∀ f ∈ g.filters, f ∈ o.filters) →
      (o.compile c x config g).result = .ok q → o.Coherent c x config g q := by
  constructor
  · intro caller ps
    constructor
    · exact (SelectQuery.holds_nil caller [] none).pushAll ps
    · intro more
      rw [SelectQuery.pushAll_append]
      exact SelectQuery.extends_pushAll _ more
  · intro o c x config g q hfilters h
    rw [o.result_compile] at h
    exact coherent_of_select hfilters h

/-- An actor store that offers a watchlist and a comment store that offers the alias of the actors:
the feed's own watchlist stays, the comments keep the alias, and the join of the actors is there. -/
theorem compiled_selects_are_coherent_clashing_aliases :
    let script : Script := {
      actorJoin := some {
        tables := [⟨"watchlist", "elsewhere"⟩, ⟨"people", "actor"⟩]
        fields := [.column "rc_user", .column "rc_user_text"]
        joins := [⟨"watchlist", .left, ["1"]⟩, ⟨"people", .inner, ["people.id = rc_actor"]⟩] }
      commentJoin := some { tables := [⟨"people", "comment"⟩] } }
    let o : FeedOptions := {
      groups := .ofList [.comment, .user], filters := .ofList [.anon], allRevisions := true,
      scope := .own ⟨1, "MockUser"⟩ }
    let c := script.collaborators
    let x := script.executor 0
    let g : Grant := ⟨1, .base, .ofList [.anon]⟩
    ∃ q, (o.compile c x {} g).result = .ok q ∧ o.Coherent c x {} g q ∧
      q.tables = [.named "recentchanges", .named "watchlist", ⟨"people", "comment"⟩] ∧
      q.joins = [watchlistJoin, ⟨"people", .inner, ["people.id = rc_actor"]⟩] ∧
      o.LeavesPageAlone c x {} g ∧ x.latestCondition ∉ q.conditions ∧
      o.ReadsActors c x {} g ∧ q.Provides (c.actors.join "rc_user").tables [] := by
  intro script o c x g
  have hrun : (o.compile c x {} g).result.toOption.map (fun q => (q.tables, q.joins))
      = some ([.named "recentchanges", .named "watchlist", ⟨"people", "comment"⟩],
        [watchlistJoin, ⟨"people", .inner, ["people.id = rc_actor"]⟩]) := by decide +kernel
  obtain ⟨q, hq, hrun⟩ := Option.map_eq_some_iff.mp hrun
  obtain ⟨htables, hjoins⟩ := Prod.mk.inj hrun
  have hcompile := Outcome.toOption_eq_some_iff.mp hq
  have hcoherent := compiled_selects_are_coherent.2 o c x {} g q (by simp [o, g]) hcompile
  have halone : o.LeavesPageAlone c x {} g := by
    refine ⟨by decide +kernel, by decide +kernel, ?_⟩
    intro owner t ht _
    have htail : ∀ t ∈ (o.terms c {} x.backend g 0).tail, t.condition x ≠ x.latestCondition := by
      decide +kernel
    rcases List.mem_cons.mp ht with rfl | ht
    · simp [Term.condition, Executor.latestCondition]
    · exact htail t ht
  have hreads : o.ReadsActors c x {} g := .inl (by simp [o])
  exact ⟨q, hcompile, hcoherent, htables, hjoins, halone, (hcoherent.noPage rfl halone).2.2, hreads,
    (hcoherent.actors hreads).1, by simp⟩

end FeedOptions

end PageWatch
