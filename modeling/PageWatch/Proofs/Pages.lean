import PageWatch.Outcome
import PageWatch.Page
import PageWatch.Proofs.Seek

/-! Pages: which rows become the items of a page and which one becomes its cursor. -/
namespace PageWatch

theorem mapM_eq_ok_iff {α β ε : Type} {f : α → Except ε β} {as : List α} {bs : List β} :
    as.mapM f = .ok bs ↔ List.Forall₂ (fun a b => f a = .ok b) as bs := by
  induction as generalizing bs with
  | nil => cases bs <;> simp [pure, Except.pure]
  | cons a as ih =>
    simp only [List.mapM_cons, Outcome.except_bind_eq_ok_iff, ih]
    constructor
    · rintro ⟨b, hb, bs', hbs, h⟩
      cases h
      exact .cons hb hbs
    · rintro (_ | ⟨hb, hbs⟩)
      exact ⟨_, hb, _, hbs, rfl⟩

theorem exists_of_forall₂ {α β : Type} {p : α → β → Prop} {as : List α} {bs : List β}
    (h : List.Forall₂ p as bs) : ∀ a ∈ as, ∃ b ∈ bs, p a b := by
  induction h with
  | nil => simp
  | cons hab _ ih =>
    intro a ha
    rcases List.mem_cons.mp ha with rfl | ha
    · exact ⟨_, List.mem_cons_self, hab⟩
    · obtain ⟨b, hb, hp⟩ := ih a ha
      exact ⟨b, List.mem_cons_of_mem _ hb, hp⟩

namespace Record

theorem find?_insertInto (k k' : String) (v : Scalar) (es : List (String × Scalar)) :
    (insertInto k v es).find? (fun e => e.1 == k')
      = if k = k' then some (k, v) else es.find? fun e => e.1 == k' := by
  induction es with
  | nil => by_cases hk : k = k' <;> simp [insertInto, hk]
  | cons e es ih =>
    unfold insertInto
    by_cases hk : k = k'
    · subst hk
      split
      · simp
      · split
        · simp
        next hne => simp [Ne.symm hne, ih]
    · split
      · simp [hk]
      · split
        next heq => simp [hk, ← heq]
        next =>
          rw [List.find?_cons, List.find?_cons, ih, if_neg hk]

/-- Setting an entry changes what its name is mapped to, and nothing else. -/
theorem get?_insert (r : Record) (k k' : String) (v : Scalar) :
    (r.insert k v).get? k' = if k = k' then some v else r.get? k' := by
  unfold get? insert
  rw [find?_insertInto]
  split <;> rfl

theorem get?_filterKeys (r : Record) (p : String → Bool) (k : String) :
    (r.filterKeys p).get? k = if p k = true then r.get? k else none := by
  unfold get? filterKeys
  rw [List.find?_filter]
  split
  next hp =>
    congr 2
    funext e
    by_cases he : e.1 = k <;> simp [he, hp]
  next hp =>
    rw [Option.map_eq_none_iff, List.find?_eq_none]
    intro e _ he
    obtain ⟨hpe, hek⟩ := of_decide_eq_true he
    rw [beq_iff_eq] at hek
    exact hp (hek ▸ hpe)

theorem bind_render (r : Row) (k : String) :
    (r.get? k).bind Scalar.render = (r.cell k).render := by
  unfold cell
  cases r.get? k <;> rfl

theorem bind_coerceInt (r : Row) (k : String) :
    (r.get? k).bind Scalar.coerceInt = (r.cell k).coerceInt := by
  unfold cell
  cases r.get? k <;> rfl

end Record

namespace Row

variable {r : Row} {c : Collaborators} {user : User} {i : WatchedItem × ChangeInfo} {cur : Cursor}

theorem changeInfo_of_changeItem (h : r.changeItem c user = .ok i) : i.2 = r.changeInfo := by
  obtain ⟨t, _, h⟩ := Outcome.except_bind_eq_ok_iff.mp h
  cases h
  rfl

/-- The details of a change tell where it stands. -/
theorem feedPlace_of_changeItem (h : r.changeItem c user = .ok i) :
    i.2.feedPlace = r.feedPlace := by
  have htime : "rc_timestamp".startsWith "rc_" = true := by decide +kernel
  have hid : "rc_id".startsWith "rc_" = true := by decide +kernel
  rw [changeInfo_of_changeItem h]
  unfold Record.feedPlace Record.place Record.cell changeInfo
  rw [Record.get?_filterKeys, Record.get?_filterKeys, if_pos htime, if_pos hid]

theorem cursor_eq_ok_iff : r.cursor = .ok cur ↔
    (r.cell "rc_timestamp").render = some cur.timestamp ∧
      (r.cell "rc_id").coerceInt = some cur.changeId := by
  unfold cursor
  rw [Record.bind_render, Record.bind_coerceInt]
  obtain ⟨timestamp, changeId⟩ := cur
  cases (r.cell "rc_timestamp").render <;> cases (r.cell "rc_id").coerceInt <;> simp

/-- A dated change becomes a cursor. -/
theorem exists_cursor_of_dated (h : r.Dated) : ∃ cur, r.cursor = .ok cur := by
  obtain ⟨n, hn⟩ := h.numbered
  cases ht : (r.cell "rc_timestamp").render with
  | none => exact (h.timed (Scalar.render_eq_none_iff.mp ht)).elim
  | some t => exact ⟨⟨t, n⟩, cursor_eq_ok_iff.mpr ⟨ht, by rw [hn, Scalar.coerceInt_int]⟩⟩

/-- The cursor of a change points at the change, if its timestamp is understood as stored. -/
theorem place_of_cursor {m : Meaning} (h : r.Dated) (hc : r.cursor = .ok cur)
    (hm : m.stored cur.timestamp = r.cell "rc_timestamp") : cur.place m = r.feedPlace := by
  obtain ⟨n, hn⟩ := h.numbered
  obtain ⟨_, hid⟩ := cursor_eq_ok_iff.mp hc
  rw [hn, Scalar.coerceInt_int, Option.some.injEq] at hid
  rw [Cursor.place, hm, ← hid, ← hn]
  rfl

end Row

namespace ChangePage

variable {c : Collaborators} {user : User} {cap : Option UInt32} {rows : List Row}
  {page : ChangePage} {kept : Nat}

/-- Without a cap every row becomes an item and nothing follows. -/
theorem ofRows_none_eq_ok_iff : ofRows c user none rows = .ok page ↔
    List.Forall₂ (fun r i => r.changeItem c user = .ok i) rows page.items ∧
      page.cursor = none := by
  simp only [ofRows, keptRows, Option.map_none, Outcome.except_bind_eq_ok_iff, mapM_eq_ok_iff]
  constructor
  · rintro ⟨items, hitems, h⟩
    cases h
    exact ⟨hitems, rfl⟩
  · rintro ⟨hitems, hcursor⟩
    exact ⟨_, hitems, by rw [← hcursor]; rfl⟩

/-- A page that returns the first rows, up to a number of them, and goes on at the next one. -/
structure Cuts (c : Collaborators) (user : User) (size : Nat) (rows : List Row)
    (page : ChangePage) : Prop where
  items : List.Forall₂ (fun r i => r.changeItem c user = .ok i) (rows.take size) page.items
  last : rows[size]? = none → page.cursor = none
  next : ∀ r, rows[size]? = some r → ∃ cur, r.cursor = .ok cur ∧ page.cursor = some cur

/-- The rows that are kept become the items, and the first row past them becomes the cursor. -/
theorem ofRows_eq_ok_iff (hkept : keptRows cap = some kept) :
    ofRows c user cap rows = .ok page ↔ page.Cuts c user kept rows := by
  simp only [ofRows, hkept, Outcome.except_bind_eq_ok_iff, mapM_eq_ok_iff]
  cases hnext : rows[kept]? with
  | none =>
    constructor
    · rintro ⟨items, hitems, h⟩
      cases h
      exact ⟨hitems, fun _ => rfl, by simp [hnext]⟩
    · intro h
      exact ⟨_, h.items, by rw [← h.last hnext]; rfl⟩
  | some next =>
    simp only [Outcome.except_bind_eq_ok_iff]
    constructor
    · rintro ⟨items, hitems, cur, hcur, h⟩
      cases h
      exact ⟨hitems, by simp [hnext], by simp [hnext, hcur]⟩
    · intro h
      obtain ⟨cur, hcur, hpage⟩ := h.next next hnext
      exact ⟨_, h.items, cur, hcur, by rw [← hpage]; rfl⟩

/-- Dated rows that become items make a page of the first ones. -/
theorem exists_cuts {items : List (WatchedItem × ChangeInfo)} (size : Nat)
    (hitems : List.Forall₂ (fun r i => r.changeItem c user = .ok i) rows items)
    (hdated : ∀ r ∈ rows, r.Dated) :
    ∃ page : ChangePage, page.Cuts c user size rows ∧ page.items = items.take size := by
  have htake := List.forall₂_take size hitems
  cases ht : rows[size]? with
  | none => exact ⟨⟨_, none⟩, ⟨htake, fun _ => rfl, by simp [ht]⟩, rfl⟩
  | some t =>
    obtain ⟨cur, hcur⟩ := Row.exists_cursor_of_dated (hdated t (List.mem_of_getElem? ht))
    exact ⟨⟨_, some cur⟩, ⟨htake, by simp [ht], by simp [ht, hcur]⟩, rfl⟩

/-- Rows past the next one play no part. -/
theorem cuts_take_iff {size : Nat} :
    page.Cuts c user size (rows.take (size + 1)) ↔ page.Cuts c user size rows := by
  have htake : (rows.take (size + 1)).take size = rows.take size := by
    rw [List.take_take, Nat.min_eq_left (Nat.le_succ size)]
  have hget : (rows.take (size + 1))[size]? = rows[size]? := List.getElem?_take_of_lt (by omega)
  constructor
  · rintro ⟨hitems, hlast, hnext⟩
    rw [htake] at hitems
    rw [hget] at hlast hnext
    exact ⟨hitems, hlast, hnext⟩
  · rintro ⟨hitems, hlast, hnext⟩
    refine ⟨?_, ?_, ?_⟩
    · rwa [htake]
    · rwa [hget]
    · rwa [hget]

end ChangePage

end PageWatch
