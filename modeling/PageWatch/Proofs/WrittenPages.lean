import PageWatch.Proofs.ReadBack

/-! Written pages: pages of changes survive being written and read again, cell by cell. -/
namespace PageWatch

namespace Record

variable {k : String} {v : Scalar} {es : List (String × Scalar)} {r s : Record}

theorem eq_of_entries (h : r.entries = s.entries) : r = s := by
  cases r
  cases s
  cases h
  rfl

theorem insertInto_last (h : ∀ e ∈ es, e.1 < k) : insertInto k v es = es ++ [(k, v)] := by
  induction es with
  | nil => rfl
  | cons e es ih =>
    obtain ⟨he, hes⟩ := List.forall_mem_cons.mp h
    rw [insertInto, if_neg (Std.not_lt.mpr (Std.le_of_lt he)), if_neg (Std.ne_of_lt he).symm,
      ih hes]
    rfl

/-- Entries that come in ascending order are taken over as they are. -/
theorem entries_foldl_insert (h : (r.entries ++ es).Pairwise fun a b => a.1 < b.1) :
    (es.foldl (fun r e => r.insert e.1 e.2) r).entries = r.entries ++ es := by
  induction es generalizing r with
  | nil => simp
  | cons e es ih =>
    have hlast : (r.insert e.1 e.2).entries = r.entries ++ [e] := by
      refine insertInto_last fun e' he' => ?_
      exact (List.pairwise_append.mp h).2.2 e' he' e List.mem_cons_self
    have hsplit : r.entries ++ e :: es = (r.insert e.1 e.2).entries ++ es := by
      rw [hlast, List.append_assoc, List.singleton_append]
    rw [hsplit] at h ⊢
    exact ih h

theorem ofList_entries (r : Record) : ofList r.entries = r :=
  eq_of_entries (entries_foldl_insert r.ascending)

theorem mem_keys_iff : k ∈ r.keys ↔ ∃ v, r.get? k = some v := by
  rw [← Option.isSome_iff_exists, get?, Option.isSome_map, List.find?_isSome]
  simp [keys]

/-- Every entry comes from a list that the record is made of. -/
theorem mem_of_get?_ofList (h : (ofList es).get? k = some v) : (k, v) ∈ es := by
  refine List.foldlRecOn (motive := fun r : Record => r.get? k = some v → (k, v) ∈ es) es
    (fun r e => r.insert e.1 e.2) (fun h => by cases h) (fun r hr e he => ?_) h
  rw [get?_insert]
  split
  next hk =>
    rintro ⟨⟩
    exact hk ▸ he
  next => exact hr

theorem mem_keys_foldl_insert : k ∈ (es.foldl (fun r e => r.insert e.1 e.2) r).keys ↔
    k ∈ r.keys ∨ ∃ v, (k, v) ∈ es := by
  induction es generalizing r with
  | nil => simp
  | cons e es ih =>
    have hkeys : k ∈ (r.insert e.1 e.2).keys ↔ k ∈ r.keys ∨ k = e.1 := by
      simp only [mem_keys_iff, get?_insert]
      rcases eq_or_ne e.1 k with rfl | hk
      · simp
      · simp [hk, hk.symm]
    rw [List.foldl_cons, ih, hkeys, or_assoc]
    simp [Prod.ext_iff, exists_or]

/-- No name of such a list is lost, whatever is set under it. -/
theorem mem_keys_ofList_iff : k ∈ (ofList es).keys ↔ ∃ v, (k, v) ∈ es := by
  have hempty : k ∉ (∅ : Record).keys := List.not_mem_nil
  rw [ofList, mem_keys_foldl_insert, or_iff_right hempty]

end Record

namespace Reader

variable {d : Document} {r : Record}

/-- The tables of scalars are read as records. -/
theorem record_eq_ok_iff : record d = .ok r ↔
    ∃ es, d = .table (es.map fun e => (e.1, e.2.toDocument)) ∧ Record.ofList es = r := by
  have hcell (m : String × Document) (e : String × Scalar) :
      (scalar m.2).map (m.1, ·) = .ok e ↔ m = (e.1, e.2.toDocument) := by
    obtain ⟨name, d⟩ := m
    obtain ⟨k, v⟩ := e
    simp only [Outcome.except_map_eq_ok_iff, exact_scalar _ _, Prod.mk.injEq]
    constructor
    · rintro ⟨v, rfl, rfl, rfl⟩
      exact ⟨rfl, rfl⟩
    · rintro ⟨rfl, rfl⟩
      exact ⟨v, rfl, rfl, rfl⟩
  cases d with
  | table members =>
    have hread : record (.table members)
        = (members.mapM fun m => (scalar m.2).map (m.1, ·)).map Record.ofList := rfl
    rw [hread, Outcome.except_map_eq_ok_iff]
    simp only [mapM_eq_ok_iff, hcell, ← List.forall₂_map_right_iff, List.forall₂_eq_eq_eq,
      Document.table.injEq]
  | _ => simp [record]

theorem takesBack_record : TakesBack record Record.toDocument :=
  fun r => record_eq_ok_iff.mpr ⟨r.entries, rfl, r.ofList_entries⟩

end Reader

theorem Cursor.takesBack : Cursor.read.TakesBack Cursor.toDocument := by
  intro c
  refine Shape.readTable_eq_ok ?_ rfl
  simp [Shape.storeNamed, shape, Member.required, Reader.exact_int64.takesBack c.changeId,
    Reader.takesBack_text c.timestamp, Except.map, bind, Except.bind, pure, Except.pure]

theorem WatchedItem.takesBack : WatchedItem.read.TakesBack WatchedItem.toDocument := by
  intro i
  refine Shape.readTable_eq_ok ?_ rfl
  simp [Shape.storeNamed, shape, Member.required, Member.optional, User.takesBack i.user,
    Target.takesBack i.target, Reader.takesBack_option_text i.notificationTimestamp, Except.map,
    bind, Except.bind, pure, Except.pure]

theorem ChangePage.takesBack : ChangePage.read.TakesBack ChangePage.toDocument := by
  intro p
  have hitems := (WatchedItem.takesBack.pair Reader.takesBack_record).list p.items
  have hcursor := Cursor.takesBack.option (fun _ => nofun) p.cursor
  refine Shape.readTable_eq_ok ?_ rfl
  simp [Shape.storeNamed, shape, Member.required, Member.optional, hitems, hcursor, Except.map,
    bind, Except.bind, pure, Except.pure]

/-- Every page is read back from the document that is written for it, so what was read from any
document stays the same when it is written and read again. A cell is null, an integer or text
exactly as its node is; the details of a change have the names that stand in their table, also those
of null cells, with a cell that stands there under its name. Ids of users and numbers of namespaces
are the integers that stand there. -/
theorem written_pages_are_read_back :
    (∀ p : ChangePage, ChangePage.read p.toDocument = .ok p) ∧
    (∀ d p, ChangePage.read d = .ok p → ChangePage.read p.toDocument = ChangePage.read d) ∧
    (∀ d v, Reader.scalar d = .ok v ↔ d = v.toDocument) ∧
    (∀ members info, Reader.record (.table members) = .ok info →
      (∀ k, k ∈ info.keys ↔ ∃ d, (k, d) ∈ members) ∧
      ∀ k v, info.get? k = some v → (k, v.toDocument) ∈ members) ∧
    (∀ d id, Reader.uint64 d = .ok id ↔ d = .int id.toNat) ∧
    ∀ d ns, Reader.int32 d = .ok ns ↔ d = .int ns.toInt := by
  refine ⟨ChangePage.takesBack, ?_, Reader.exact_scalar, ?_, Reader.exact_uint64,
    Reader.exact_int32⟩
  · intro d p hd
    rw [ChangePage.takesBack p, hd]
  · intro members info hinfo
    obtain ⟨es, hmembers, rfl⟩ := Reader.record_eq_ok_iff.mp hinfo
    obtain rfl := Document.table.inj hmembers
    refine ⟨fun k => ?_, fun k v hv => ?_⟩
    · rw [Record.mem_keys_ofList_iff]
      constructor
      · rintro ⟨v, hv⟩
        exact ⟨v.toDocument, List.mem_map_of_mem hv⟩
      · rintro ⟨d, hd⟩
        obtain ⟨⟨_, v⟩, hv, heq⟩ := List.mem_map.mp hd
        cases heq
        exact ⟨v, hv⟩
    · exact List.mem_map_of_mem (Record.mem_of_get?_ofList hv)

/-- A page whose items are given as lists, without a cursor and with a member that pages do not
have. The largest id and a negative namespace stay, digits in a text stay a text, and the null cell
stays among the details. -/
theorem written_pages_are_read_back_largest_id :
    let details : List (String × Document) :=
      [("observed", .text "12"), ("rc_id", .int 12), ("rc_user", .null)]
    let d : Document := .table [
      ("items", .list [.list [
        .list [.table [("id", .int 18446744073709551615), ("name", .text "User")],
          .list [.int (-1), .text "Foo"], .null],
        .table details]]),
      ("more", .bool true)]
    ∃ p i, ChangePage.read d = .ok p ∧ ChangePage.read p.toDocument = .ok p ∧ p.items = [i] ∧
      i.1.user.id.toNat = 18446744073709551615 ∧ i.1.target.namespaceId.toInt = -1 ∧
      i.2.get? "observed" = some (.text "12") ∧ i.2.get? "rc_id" = some (.int 12) ∧
      "rc_user" ∈ i.2.keys ∧ i.2.get? "rc_user" = some .null := by
  intro details d
  let info := Record.ofList [("observed", .text "12"), ("rc_id", .int 12), ("rc_user", .null)]
  let user : User := ⟨UInt64.ofNat 18446744073709551615, "User"⟩
  have hread : ChangePage.read d = .ok ⟨[(⟨user, ⟨-1, "Foo"⟩, none⟩, info)], none⟩ := rfl
  have hinfo : Reader.record (.table details) = .ok info := rfl
  obtain ⟨_, hagain, _, hrecord, _⟩ := written_pages_are_read_back
  have hwritten := hagain d _ hread
  rw [hread] at hwritten
  have huser : "rc_user" ∈ info.keys :=
    ((hrecord details info hinfo).1 _).mpr ⟨.null, by simp [details]⟩
  exact ⟨_, _, hread, hwritten, rfl, rfl, rfl, rfl, rfl, huser, rfl⟩

end PageWatch
