import PageWatch.Service

/-! Paging: runs of calls that follow page cursors. -/
namespace PageWatch.Service

variable (user : User) (request : FeedRequest)

/-- The pages that a run of calls fetches, one service for each call. A call goes on where the page
before it ended; the run is over with the first page without a cursor. -/
def follow : List Service → Option (List Scalar) → Except CallError (List ChangePage)
  | [], _ => .ok []
  | s :: ss, cursor => do
    let page ← (s.changes user request cursor).result
    match page.cursor with
    | some next => return page :: (← follow ss (some next.toRaw))
    | none => return [page]

theorem follow_nil (cursor : Option (List Scalar)) : follow user request [] cursor = .ok [] := rfl

/-- A failed call is the failure of the run. -/
theorem follow_of_error {s : Service} {cursor : Option (List Scalar)} {e : CallError}
    (h : (s.changes user request cursor).result = .error e) (ss : List Service) :
    follow user request (s :: ss) cursor = .error e := by
  simp [follow, h, bind, Except.bind]

/-- A page without a cursor is the last one. -/
theorem follow_of_last {s : Service} {cursor : Option (List Scalar)} {page : ChangePage}
    (h : (s.changes user request cursor).result = .ok page) (hpage : page.cursor = none)
    (ss : List Service) : follow user request (s :: ss) cursor = .ok [page] := by
  simp [follow, h, hpage, bind, Except.bind, pure, Except.pure]

/-- A run that succeeds begins with a page, and goes on where that page ended. -/
theorem follow_cons_eq_ok_iff {s : Service} {ss : List Service} {cursor : Option (List Scalar)}
    {pages : List ChangePage} :
    follow user request (s :: ss) cursor = .ok pages ↔
      ∃ page, (s.changes user request cursor).result = .ok page ∧
        ((page.cursor = none ∧ pages = [page]) ∨
          ∃ next rest, page.cursor = some next ∧
            follow user request ss (some next.toRaw) = .ok rest ∧ pages = page :: rest) := by
  simp only [follow, Outcome.except_bind_eq_ok_iff]
  refine exists_congr fun page => and_congr_right fun _ => ?_
  cases hcursor : page.cursor with
  | none => simp [pure, Except.pure, eq_comm]
  | some next =>
    simp only [Outcome.except_bind_eq_ok_iff, pure, Except.pure, Except.ok.injEq]
    simp [eq_comm]

end PageWatch.Service
