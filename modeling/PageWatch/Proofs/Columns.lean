import PageWatch.Host.Scripted
import PageWatch.Proofs.Compiled
import PageWatch.Proofs.Pages

/-! Columns: which names a compiled select reads, and that its rows always become pages. -/
namespace PageWatch

theorem Term.fields_of_pushes (x : Executor) (ts : List Term) :
    (ts.map (Term.push x)).flatMap Push.fields = [] := by
  have hterm (t : Term) : (t.push x).fields = [] := by cases t <;> rfl
  simp [List.flatMap_map, hterm]

namespace SelectQuery

variable {q : SelectQuery} {f : SelectField} {name : String}

/-- The field that a select reads under an output name. -/
def field? (q : SelectQuery) (name : String) : Option SelectField :=
  q.fields.find? fun f => f.name == name

theorem mem_fieldNames_iff : name ∈ q.fieldNames ↔ (q.field? name).isSome = true :=
  find?_key_isSome.symm

/-- Where no name comes twice, the field that is read under a name is the one of that name. -/
theorem field?_eq_some_iff (h : q.fieldNames.Nodup) :
    q.field? name = some f ↔ f ∈ q.fields ∧ f.name = name := by
  constructor
  · intro hfind
    exact ⟨List.mem_of_find?_eq_some hfind, by simpa using List.find?_some hfind⟩
  · rintro ⟨hf, rfl⟩
    cases hfind : q.field? f.name with
    | none => simpa using List.find?_eq_none.mp hfind f hf
    | some g =>
      have hname : g.name = f.name := by simpa using List.find?_some hfind
      rw [List.inj_on_of_nodup_map h (List.mem_of_find?_eq_some hfind) hf hname]

/-- A select reads a column under its own name, and nothing else under that name. -/
def ReadsPlain (q : SelectQuery) (name : String) : Prop :=
  ∀ f, f ∈ q.fields ∧ f.name = name ↔ f = ⟨name, none⟩

theorem readsPlain_of_field? (h : q.fieldNames.Nodup)
    (hfield : q.field? name = some (.column name)) : q.ReadsPlain name := by
  intro f
  rw [← field?_eq_some_iff h, hfield, Option.some.injEq, eq_comm, SelectField.column]

end SelectQuery

theorem SelectField.find?_map_column (names : List String) (name : String) :
    (names.map column).find? (fun f => f.name == name)
      = if name ∈ names then some (column name) else none := by
  induction names with
  | nil => rfl
  | cons n names ih =>
    by_cases hn : n = name
    · simp [column, hn]
    · rw [List.map_cons, List.find?_cons_of_neg (by simpa [column] using hn), ih]
      simp [Ne.symm hn]

/-- The output names of the details in a group. -/
def FieldGroup.columns (c : Collaborators) : FieldGroup → List String
  | flags => ["rc_type", "rc_minor", "rc_bot"]
  | user => ["rc_user_text"]
  | userId => ["rc_user"]
  | comment => (c.comments.fields "rc_comment").map (·.name)
  | patrol => ["rc_patrolled", "rc_log_type"]
  | sizes => ["rc_old_len", "rc_new_len"]
  | logInfo => ["rc_logid", "rc_log_type", "rc_log_action", "rc_params"]
  | tags => ["rc_tags"]

namespace FeedOptions

variable {o : FeedOptions} {c : Collaborators} {x : Executor} {config : SelectConfig} {g : Grant}
  {q : SelectQuery} {fields : List SelectField} {name : String}

theorem names_of_actorField {f : SelectField} (h : actorField c name = .ok f) : f.name = name := by
  unfold actorField at h
  split at h
  next g hg =>
    cases h
    simpa using List.find?_some hg
  next => cases h

theorem names_of_groupFields {group : FieldGroup} (h : groupFields c group = .ok fields) :
    fields.map (·.name) = group.columns c := by
  cases group with
  | user =>
    obtain ⟨f, hf, rfl⟩ := Outcome.except_map_eq_ok_iff.mp h
    simpa [FieldGroup.columns] using names_of_actorField hf
  | userId =>
    obtain ⟨f, hf, rfl⟩ := Outcome.except_map_eq_ok_iff.mp h
    simpa [FieldGroup.columns] using names_of_actorField hf
  | _ =>
    cases h
    rfl

/-- The fields of a feed are the basic ones, and then those of each group. -/
theorem fields_eq_ok_iff : o.fields c = .ok fields ↔
    ∃ groups, List.Forall₂ (fun group fs => groupFields c group = .ok fs) o.groups.toList groups ∧
      fields = (baseColumns ++ o.idColumns).map .column ++ groups.flatten := by
  simp only [FeedOptions.fields, Outcome.except_bind_eq_ok_iff, mapM_eq_ok_iff]
  exact exists_congr fun groups => and_congr_right fun _ => ⟨fun h => (Except.ok.inj h).symm,
    fun h => h ▸ rfl⟩

/-- Of the fields of each name a compiled select reads the first. -/
theorem firstOfKey_fields_of_select (h : o.select c x config g = .ok q) :
    ∃ fields, o.fields c = .ok fields ∧ FirstOfKey SelectField.name fields q.fields := by
  obtain ⟨fields, owner, hf, _, rfl⟩ := select_eq_ok_iff.mp h
  have hsources : (o.sources c).flatMap Push.fields = [] := by
    unfold sources
    split <;> split <;> split <;> rfl
  have hpushes : (fields.map Push.field).flatMap Push.fields = fields := by
    simp [List.flatMap_map, Push.fields]
  have hkept := ((SelectQuery.holds_nil config.caller o.orderBy o.rowCap).pushAll (o.sources c
    ++ fields.map .field ++ (o.terms c config x.backend g owner).map (Term.push x))).fields
  rw [List.flatMap_append, List.flatMap_append, hsources, hpushes, Term.fields_of_pushes,
    List.nil_append, List.nil_append, List.append_nil] at hkept
  exact ⟨fields, hf, hkept⟩

/-- A compiled select reads under each name the first field of that name, and no name twice. -/
theorem field?_of_select (h : o.select c x config g = .ok q) :
    q.fieldNames.Nodup ∧ ∃ fields, o.fields c = .ok fields ∧
      ∀ name, q.field? name = fields.find? fun f => f.name == name := by
  obtain ⟨fields, hfields, hkept⟩ := firstOfKey_fields_of_select h
  exact ⟨hkept.distinct, fields, hfields, hkept.first⟩

/-- No collaborator takes the place of a basic column. -/
theorem readsPlain_of_select (h : o.select c x config g = .ok q)
    (hname : name ∈ baseColumns ++ o.idColumns) : q.ReadsPlain name := by
  obtain ⟨hnodup, fields, hfields, hfield⟩ := field?_of_select h
  obtain ⟨groups, _, rfl⟩ := fields_eq_ok_iff.mp hfields
  apply SelectQuery.readsPlain_of_field? hnodup
  rw [hfield, List.find?_append, SelectField.find?_map_column, if_pos hname, Option.some_or]

/-- Which ids are read: all of them, or for a generator the id of what it generates. -/
theorem mem_idColumns_iff : name ∈ o.idColumns ↔
    (o.forGenerator = false ∧ name ∈ ["rc_cur_id", "rc_this_oldid", "rc_last_oldid"]) ∨
    (o.forGenerator = true ∧ o.allRevisions = false ∧ name = "rc_cur_id") ∨
    (o.forGenerator = true ∧ o.allRevisions = true ∧ name = "rc_this_oldid") := by
  unfold idColumns
  cases o.forGenerator <;> cases o.allRevisions <;> simp

/-- A compiled select names the basic columns, those of the ids, and those of each group. -/
theorem mem_fieldNames_of_select (h : o.select c x config g = .ok q) :
    name ∈ q.fieldNames ↔ name ∈ baseColumns ∨ name ∈ o.idColumns ∨
      ∃ group ∈ o.groups, name ∈ group.columns c := by
  obtain ⟨_, fields, hfields, hfield⟩ := field?_of_select h
  obtain ⟨groups, hgroups, rfl⟩ := fields_eq_ok_iff.mp hfields
  have hflatten : name ∈ groups.flatten.map (·.name) ↔
      ∃ group ∈ o.groups, name ∈ group.columns c := by
    simp only [List.map_flatten, List.mem_flatten, List.mem_map, exists_exists_and_eq_and]
    constructor
    · rintro ⟨fs, hfs, hname⟩
      obtain ⟨group, hgroup, hok⟩ := exists_of_forall₂ hgroups.flip fs hfs
      exact ⟨group, hgroup, names_of_groupFields hok ▸ List.mem_map.mpr hname⟩
    · rintro ⟨group, hgroup, hname⟩
      obtain ⟨fs, hfs, hok⟩ := exists_of_forall₂ hgroups group hgroup
      exact ⟨fs, hfs, List.mem_map.mp (names_of_groupFields hok ▸ hname)⟩
  rw [SelectQuery.mem_fieldNames_iff, hfield, find?_key_isSome, List.map_append,
    List.mem_append, hflatten, ← or_assoc, ← List.mem_append]
  simp [SelectField.column]

end FeedOptions

namespace Record

theorem keys_filterKeys (r : Record) (p : String → Bool) :
    (r.filterKeys p).keys = r.keys.filter p := by
  simp [keys, filterKeys, List.filter_map, Function.comp_def]

end Record

namespace Row

variable {r : Row} {c : Collaborators} {user : User}

/-- A row with a namespace in range and a title becomes an item. -/
theorem exists_changeItem {n : Int64} (hn : r.cell "rc_namespace" = .int n)
    (hrange : Int32.minValue.toInt ≤ n.toInt ∧ n.toInt ≤ Int32.maxValue.toInt)
    (htitle : r.cell "rc_title" ≠ .null) : ∃ i, r.changeItem c user = .ok i := by
  have hid : r.namespaceId "rc_namespace" = .ok n.toInt32 := by
    unfold namespaceId
    rw [Record.bind_coerceInt, hn]
    exact if_pos hrange
  obtain ⟨t, ht⟩ := Option.ne_none_iff_exists'.mp (mt Scalar.render_eq_none_iff.mp htitle)
  have htext : r.textOf "rc_title" = .ok t := by
    unfold textOf
    rw [Record.bind_render, ht]
  refine ⟨(r.watchedItem c user ⟨n.toInt32, t⟩, r.changeInfo), ?_⟩
  simp [changeItem, target, hid, htext, bind, Except.bind, pure, Except.pure]

/-- The details of a change are the columns of its row that tell of it, with their values. -/
theorem mem_keys_changeInfo_iff {k : String} :
    k ∈ r.changeInfo.keys ↔ k ∈ r.keys ∧ k.startsWith "rc_" = true := by
  rw [changeInfo, Record.keys_filterKeys, List.mem_filter]

theorem get?_changeInfo {k : String} (h : k ∈ r.changeInfo.keys) :
    r.changeInfo.get? k = r.get? k := by
  rw [changeInfo, Record.get?_filterKeys, if_pos (mem_keys_changeInfo_iff.mp h).2]

end Row

/-- A row that a select may fetch: it has the columns of the select and no others, its namespace is
in range, and it has a title, a timestamp and a number. -/
structure SelectQuery.Fetches (q : SelectQuery) (r : Row) : Prop where
  columns : ∀ k, k ∈ r.keys ↔ k ∈ q.fieldNames
  inNamespace : ∃ n : Int64, r.cell "rc_namespace" = .int n ∧
    Int32.minValue.toInt ≤ n.toInt ∧ n.toInt ≤ Int32.maxValue.toInt
  titled : r.cell "rc_title" ≠ .null
  dated : r.Dated

/-- Rows that become items, dated ones, always make a page. -/
theorem ChangePage.exists_ofRows {c : Collaborators} {user : User} {rows : List Row}
    {items : List (WatchedItem × ChangeInfo)} (cap : Option UInt32)
    (hitems : List.Forall₂ (fun r i => r.changeItem c user = .ok i) rows items)
    (hdated : ∀ r ∈ rows, r.Dated) : ∃ page, ofRows c user cap rows = .ok page ∧
      page.items = items.take ((cap.map fun n => n.toNat - 1).getD rows.length) := by
  rw [← keptRows]
  cases hkept : keptRows cap with
  | none =>
    obtain rfl : cap = none := by simpa [keptRows] using hkept
    refine ⟨⟨items, none⟩, ofRows_none_eq_ok_iff.mpr ⟨hitems, rfl⟩, ?_⟩
    simp [hitems.length_eq]
  | some kept =>
    obtain ⟨page, hcuts, hpage⟩ := exists_cuts kept hitems hdated
    exact ⟨page, (ofRows_eq_ok_iff hkept).mpr hcuts, by simpa using hpage⟩

namespace FeedOptions

variable {o : FeedOptions} {c : Collaborators} {x : Executor} {config : SelectConfig} {g : Grant}
  {q : SelectQuery}

/-- A compiled select and the pages that are made of its rows agree on columns. The select reads no
name twice; it reads the columns of every change and its ids as they are, whatever a collaborator
offers under their names. The ids are all three, or for a generator just that of the page, or of the
revision where all revisions are wanted; beside these and the columns of the groups the select names
nothing. Rows with its columns become a page under every cap, and the details of an item are the
columns of its row that tell of the change. -/
theorem rows_of_select_become_items (h : o.select c x config g = .ok q) :
    q.fieldNames.Nodup ∧
    (∀ name ∈ ["rc_id", "rc_namespace", "rc_title", "rc_timestamp", "rc_type", "rc_deleted"],
      q.ReadsPlain name) ∧
    (o.forGenerator = false →
      ∀ name ∈ ["rc_cur_id", "rc_this_oldid", "rc_last_oldid"], q.ReadsPlain name) ∧
    (o.forGenerator = true →
      q.ReadsPlain (if o.allRevisions then "rc_this_oldid" else "rc_cur_id")) ∧
    (∀ name, name ∈ q.fieldNames ↔
      name ∈ ["rc_id", "rc_namespace", "rc_title", "rc_timestamp", "rc_type", "rc_deleted",
        "wl_notificationtimestamp"] ∨
      (o.forGenerator = false ∧ name ∈ ["rc_cur_id", "rc_this_oldid", "rc_last_oldid"]) ∨
      (o.forGenerator = true ∧ o.allRevisions = false ∧ name = "rc_cur_id") ∨
      (o.forGenerator = true ∧ o.allRevisions = true ∧ name = "rc_this_oldid") ∨
      ∃ group ∈ o.groups, name ∈ group.columns c) ∧
    ∀ user cap rows, (∀ r ∈ rows, q.Fetches r) →
      ∃ page, ChangePage.ofRows c user cap rows = .ok page ∧
        List.Forall₂ (fun r i =>
            (∀ k, k ∈ i.2.keys ↔ k ∈ q.fieldNames ∧ k.startsWith "rc_" = true) ∧
            ∀ k ∈ i.2.keys, i.2.get? k = r.get? k)
          (rows.take ((cap.map fun n => n.toNat - 1).getD rows.length)) page.items := by
  have hplain (name : String) (hname : name ∈ baseColumns ++ o.idColumns) : q.ReadsPlain name :=
    readsPlain_of_select h hname
  refine ⟨(field?_of_select h).1, ?_, ?_, ?_, ?_, ?_⟩
  · intro name hname
    -- The last of the basic columns tells of the watch and not of the change.
    have hbase : name ∈ baseColumns := List.dropLast_subset baseColumns hname
    exact hplain name (List.mem_append_left _ hbase)
  · intro hmode name hname
    exact hplain name (List.mem_append_right _ (by simpa [idColumns, hmode] using hname))
  · intro hmode
    refine hplain _ (List.mem_append_right _ ?_)
    simp only [idColumns, hmode, if_true]
    split <;> simp
  · intro name
    rw [mem_fieldNames_of_select h, mem_idColumns_iff, or_assoc, or_assoc]
    rfl
  · intro user cap rows hrows
    have hexists (r : Row) (hr : r ∈ rows) : ∃ i, r.changeItem c user = .ok i := by
      obtain ⟨n, hn, hrange⟩ := (hrows r hr).inNamespace
      exact Row.exists_changeItem hn hrange (hrows r hr).titled
    choose! item hitem using hexists
    have hitems : List.Forall₂ (fun r i => r.changeItem c user = .ok i) rows (rows.map item) := by
      rw [List.forall₂_map_right_iff, List.forall₂_same]
      exact hitem
    obtain ⟨page, hpage, htake⟩ :=
      ChangePage.exists_ofRows cap hitems fun r hr => (hrows r hr).dated
    refine ⟨page, hpage, ?_⟩
    rw [htake, ← List.map_take, List.forall₂_map_right_iff, List.forall₂_same]
    intro r hr
    have hr := List.mem_of_mem_take hr
    rw [Row.changeInfo_of_changeItem (hitem r hr)]
    refine ⟨fun k => ?_, fun k => Row.get?_changeInfo⟩
    rw [Row.mem_keys_changeInfo_iff, (hrows r hr).columns]

/-- A comment store that offers a number, a log type and a remark of its own: the number of a change
is read as it is, the log type is the store's, and rows become items without the remark. -/
theorem rows_of_select_become_items_repeated_names :
    let offered : List SelectField :=
      [⟨"rc_id", some "comment_id"⟩, ⟨"rc_log_type", some "comment_type"⟩, .column "remark"]
    let script : Script := { commentFields := some offered }
    let user : User := ⟨1, "MockUser"⟩
    let o : FeedOptions := { groups := .ofList FieldGroup.all, scope := .own user }
    let row := Record.ofList (["rc_id", "rc_namespace", "rc_title", "rc_timestamp", "rc_type",
      "rc_deleted", "wl_notificationtimestamp", "rc_cur_id", "rc_this_oldid", "rc_last_oldid",
      "rc_minor", "rc_bot", "rc_user_text", "rc_user", "rc_log_type", "remark", "rc_patrolled",
      "rc_old_len", "rc_new_len", "rc_logid", "rc_log_action", "rc_params", "rc_tags"].map
        fun name => (name, .int 5))
    ∃ q, o.select script.collaborators (script.executor 0) {} ⟨1, .base, ∅⟩ = .ok q ∧
      q.ReadsPlain "rc_id" ∧ ⟨"rc_log_type", some "comment_type"⟩ ∈ q.fields ∧ q.Fetches row ∧
      ∃ page, ChangePage.ofRows script.collaborators user (some 2) [row, row] = .ok page ∧
        ∃ i, page.items = [i] ∧ i.2.get? "rc_log_type" = some (.int 5) ∧ "remark" ∉ i.2.keys := by
  intro offered script user o row
  have hrun : (o.select script.collaborators (script.executor 0) {} ⟨1, .base, ∅⟩).toOption.map
      (fun q => (q.field? "rc_log_type", row.keys.all q.fieldNames.contains,
        q.fieldNames.all row.keys.contains))
      = some (some ⟨"rc_log_type", some "comment_type"⟩, true, true) := by decide +kernel
  obtain ⟨q, hq, hrun⟩ := Option.map_eq_some_iff.mp hrun
  simp only [Prod.mk.injEq, List.all_eq_true, List.contains_iff_mem] at hrun
  obtain ⟨hlog, hselected, hfetched⟩ := hrun
  have hselect := Outcome.toOption_eq_some_iff.mp hq
  obtain ⟨hnodup, hplain, _, _, _, hpages⟩ := rows_of_select_become_items hselect
  have hcell : row.cell "rc_namespace" = .int 5 ∧ row.cell "rc_title" = .int 5 ∧
      row.cell "rc_timestamp" = .int 5 ∧ row.cell "rc_id" = .int 5 ∧
      row.get? "rc_log_type" = some (.int 5) := by decide +kernel
  obtain ⟨hnamespace, htitle, htimestamp, hid, htype⟩ := hcell
  have hrow : q.Fetches row :=
    ⟨fun k => ⟨hselected k, hfetched k⟩, ⟨5, hnamespace, by decide⟩, by simp [htitle],
      by simp [htimestamp], 5, hid⟩
  obtain ⟨page, hpage, hitems⟩ := hpages user (some 2) [row, row] (by simpa using hrow)
  have htake : [row, row].take (((some (2 : UInt32)).map fun n => n.toNat - 1).getD
      [row, row].length) = [row] := rfl
  rw [htake] at hitems
  obtain ⟨i, _, ⟨hkeys, hvalues⟩, hnil, hi⟩ := List.forall₂_cons_left_iff.mp hitems
  rw [List.forall₂_nil_left_iff.mp hnil] at hi
  have hstarts : "rc_log_type".startsWith "rc_" = true ∧ "remark".startsWith "rc_" = false := by
    decide +kernel
  have hmem := (SelectQuery.field?_eq_some_iff hnodup).mp hlog
  refine ⟨q, hselect, hplain "rc_id" (by simp), hmem.1, hrow, page, hpage, i, hi, ?_, ?_⟩
  · have hkey : "rc_log_type" ∈ q.fieldNames := List.mem_map.mpr ⟨_, hmem⟩
    rw [hvalues _ ((hkeys _).mpr ⟨hkey, hstarts.1⟩), htype]
  · intro hremark
    simpa [hstarts.2] using (hkeys _).mp hremark

end FeedOptions

end PageWatch
