import PageWatch.Host.InMemory
import PageWatch.Proofs.Fetch

/-! Resumption: a call that goes on at a cursor reads what the call from the beginning reads, under
one condition more. -/
namespace PageWatch

/-- The condition by which a select goes on at a cursor. -/
def Cursor.condition (cur : Cursor) (x : Executor) (w : Walk) : Condition :=
  .expr ((cur.position.seek w.sortOrder).render x)

theorem SelectQuery.pushAll_concat_condition (q : SelectQuery) (ps : List Push) (c : Condition) :
    q.pushAll (ps ++ [.condition c])
      = { q.pushAll ps with conditions := (q.pushAll ps).conditions ++ [c] } := by
  rw [pushAll_append]
  rfl

/-- What compiles without a cursor compiles at every cursor, to the select with the condition of
the cursor at its end. -/
theorem FeedOptions.select_of_resumed {o : FeedOptions} {c : Collaborators} {x : Executor}
    {config : SelectConfig} {g : Grant} {q : SelectQuery} {w : Walk}
    (h : o.select c x config g = .ok q) (hw : o.walk = some w) (hstart : o.startFrom = none)
    (cur : Cursor) : ({ o with startFrom := some cur } : FeedOptions).select c x config g
      = .ok { q with conditions := q.conditions ++ [cur.condition x w] } := by
  obtain ⟨fields, owner, hfields, howner, rfl⟩ := select_eq_ok_iff.mp h
  apply select_eq_ok_iff.mpr
  refine ⟨fields, owner, hfields, howner, ?_⟩
  have hbase : ({ o with startFrom := none } : FeedOptions) = o := by rw [← hstart]
  have hcursor : ({ o with startFrom := some cur } : FeedOptions).cursorTerms
      = [.fragment (cur.position.seek w.sortOrder)] := by
    simp [cursorTerms, hw]
  have hterms : ({ o with startFrom := some cur } : FeedOptions).terms c config x.backend g owner
      = o.terms c config x.backend g owner ++ [.fragment (cur.position.seek w.sortOrder)] := by
    rw [terms_eq_append_cursorTerms _ c config x.backend g owner o.limit, hcursor]
    exact congrArg (fun o : FeedOptions => o.terms c config x.backend g owner ++ _) hbase
  rw [hterms, List.map_append, ← List.append_assoc]
  exact (SelectQuery.pushAll_concat_condition _ _ _).symm

namespace Service

variable {s : Service} {user : User} {request : FeedRequest} {o : FeedOptions} {g : Grant}
  {x : Executor} {q : SelectQuery} {w : Walk} {raw : List Scalar} {cur : Cursor}

/-- A raw pair has no say beyond the cursor that is read from it. -/
theorem changes_of_ofRaw (s : Service) (user : User) (request : FeedRequest)
    (h : Cursor.ofRaw raw = .ok cur) :
    s.changes user request (some raw) = s.changes user request (some cur.toRaw) := by
  have hread : FeedRequest.readCursor (some raw) = FeedRequest.readCursor (some cur.toRaw) := by
    simp only [FeedRequest.readCursor, h, Cursor.ofRaw_toRaw]
  have hvalidate : request.validate user (some raw) = request.validate user (some cur.toRaw) := by
    unfold FeedRequest.validate
    rw [hread]
    rfl
  unfold changes
  rw [hvalidate]

/-- What a call compiles from the beginning it compiles at a cursor, under one condition more. -/
theorem Compiles.goOn (h : s.Compiles user request none o g x q)
    (hw : request.walk = some w.name) (hcur : Cursor.ofRaw raw = .ok cur) :
    s.Compiles user request (some raw) { o with startFrom := some cur } g x
      { q with conditions := q.conditions ++ [cur.condition x w] } := by
  have hv := FeedRequest.validate_eq_ok_iff.mp h.validated
  have hwalk : o.walk = some w := hv.walk_eq_some_iff.mpr hw
  refine ⟨?_, h.decided, h.replica, ?_⟩
  · apply FeedRequest.validate_eq_ok_iff.mpr
    exact hv.resume (by simp [hwalk]) hcur
  · exact FeedOptions.select_of_resumed h.compiled hwalk hv.startFrom_none cur

/-- A cursor is read back as it was written. Along a walk, a call that compiles from the beginning
compiles at every raw pair that can be read, and to its first select with one condition more, which
comes last and depends on the pair only through the cursor that is read from it. So the next call
takes up every cursor that a page ends with. -/
theorem resumed_select_adds_condition (s : Service) (user : User) (request : FeedRequest) :
    (∀ cur : Cursor, Cursor.ofRaw cur.toRaw = .ok cur) ∧
    (∀ raw cur, Cursor.ofRaw raw = .ok cur → Cursor.ofRaw cur.toRaw = .ok cur ∧
      s.changes user request (some raw) = s.changes user request (some cur.toRaw)) ∧
    ∀ w : Walk, request.walk = some w.name →
      (∀ o g x q, s.Compiles user request none o g x q → ∀ raw cur, Cursor.ofRaw raw = .ok cur →
        ∀ o' g' x' q', s.Compiles user request (some raw) o' g' x' q' ↔
          o' = { o with startFrom := some cur } ∧ g' = g ∧ x' = x ∧
            q' = { q with conditions := q.conditions ++ [cur.condition x w] }) ∧
      ∀ start page cur, (s.changes user request start).result = .ok page →
        page.cursor = some cur → ∃ o g x q, s.Compiles user request none o g x q ∧
          s.Compiles user request (some cur.toRaw) { o with startFrom := some cur } g x
            { q with conditions := q.conditions ++ [cur.condition x w] } := by
  refine ⟨Cursor.ofRaw_toRaw, ?_, ?_⟩
  · intro raw cur hcur
    exact ⟨cur.ofRaw_toRaw, s.changes_of_ofRaw user request hcur⟩
  · intro w hw
    constructor
    · intro o g x q h raw cur hcur o' g' x' q'
      have hon := h.goOn hw hcur
      constructor
      · intro h'
        obtain ⟨rfl, rfl, rfl, rfl⟩ := hon.unique h'
        exact ⟨rfl, rfl, rfl, rfl⟩
      · rintro ⟨rfl, rfl, rfl, rfl⟩
        exact hon
    · intro start page cur hpage _
      obtain ⟨o, g, x, _, _, _, _, h, _⟩ := changes_eq_ok_iff.mp hpage
      obtain ⟨q, h₀⟩ := h.exists_from_start
      exact ⟨_, g, x, q, h₀, h₀.goOn hw cur.ofRaw_toRaw⟩

/-- A pair with an unclean id is taken up as the id that the text starts with. -/
theorem resumed_select_adds_condition_unclean_id :
    let s : Service := ⟨InMemory.host {}, {}, []⟩
    let request := FeedRequest.ofSettings [.walk .older]
    ∃ o g x q, s.Compiles InMemory.actingUser request none o g x q ∧
      s.Compiles InMemory.actingUser request
        (some [.text "20151212010101", .text " 123; DROP TABLE watchlist"])
        { o with startFrom := some ⟨"20151212010101", 123⟩ } g x
        { q with conditions := q.conditions ++ [.expr ("(rc_timestamp < '20151212010101') OR " ++
          "((rc_timestamp = '20151212010101') AND (rc_id <= 123))")] } := by
  intro s request
  have hrun : ((request.validate InMemory.actingUser none).toOption.bind fun o =>
      (Access.decide s.host.collaborators InMemory.actingUser o).result.toOption.bind fun g =>
        (o.select s.host.collaborators (InMemory.executor {}) s.config g).toOption.map
          fun _ => ()) = some () := by
    decide +kernel
  obtain ⟨o, ho, hrun⟩ := Option.bind_eq_some_iff.mp hrun
  obtain ⟨g, hg, hrun⟩ := Option.bind_eq_some_iff.mp hrun
  obtain ⟨q, hq, _⟩ := Option.map_eq_some_iff.mp hrun
  simp only [Outcome.toOption_eq_some_iff] at ho hg hq
  have h : s.Compiles InMemory.actingUser request none o g (InMemory.executor {}) q :=
    ⟨ho, hg, rfl, hq⟩
  have hread : Cursor.ofRaw [.text "20151212010101", .text " 123; DROP TABLE watchlist"]
      = .ok ⟨"20151212010101", 123⟩ := by decide +kernel
  have hcondition : Cursor.condition ⟨"20151212010101", 123⟩ (InMemory.executor {}) .older
      = .expr ("(rc_timestamp < '20151212010101') OR " ++
          "((rc_timestamp = '20151212010101') AND (rc_id <= 123))") := by decide +kernel
  obtain ⟨hon, _⟩ := (resumed_select_adds_condition s InMemory.actingUser request).2.2 .older rfl
  refine ⟨o, g, _, q, h, (hon o g _ q h _ _ hread _ _ _ _).mpr ⟨rfl, rfl, rfl, ?_⟩⟩
  rw [hcondition]

end Service

end PageWatch
