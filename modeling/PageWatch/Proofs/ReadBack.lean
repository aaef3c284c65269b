import PageWatch.Proofs.Numerals
import PageWatch.Proofs.Pages
import PageWatch.Request

/-! Reading back: what readers make of the documents that are written for them. -/
namespace PageWatch

namespace Reader

variable {α β : Type} {read : Reader α} {write : α → Document} {read' : Reader β}
  {write' : β → Document}

/-- A reader takes every value back from the document that is written for it. -/
def TakesBack (read : Reader α) (write : α → Document) : Prop := ∀ a, read (write a) = .ok a

/-- A reader takes a value from the document that is written for it, and from no other. -/
def Exact (read : Reader α) (write : α → Document) : Prop := ∀ d a, read d = .ok a ↔ d = write a

theorem Exact.takesBack (h : Exact read write) : TakesBack read write := fun _ => (h _ _).mpr rfl

theorem exact_text : Exact text .text := by
  intro d s
  cases d <;> simp [text]

theorem takesBack_text : TakesBack text .text := exact_text.takesBack

theorem takesBack_bool : TakesBack bool .bool := fun _ => rfl

theorem takesBack_any : TakesBack any id := fun _ => rfl

/-- Integers of 64 bits, texts and null are written as nodes of different kinds. -/
theorem exact_scalar : Exact scalar Scalar.toDocument := by
  intro d v
  cases d with
  | int n =>
    cases v with
    | int i =>
      simp only [scalar, Scalar.toDocument, Document.int.injEq, ← Scalar.int64?_eq_some_iff]
      cases Scalar.int64? n <;> simp
    | _ => cases hn : Scalar.int64? n <;> simp [scalar, Scalar.toDocument, hn]
  | _ => cases v <;> simp [scalar, Scalar.toDocument]

theorem takesBack_scalar : TakesBack scalar Scalar.toDocument := exact_scalar.takesBack

theorem integer_eq_ok_iff {name : String} {low high n : Int} {d : Document} :
    integer name low high d = .ok n ↔ d = .int n ∧ low ≤ n ∧ n ≤ high := by
  cases d with
  | int m =>
    rw [integer, ite_eq_iff]
    simp only [Except.ok.injEq, reduceCtorEq, and_false, or_false, Document.int.injEq]
    constructor
    · rintro ⟨hbounds, rfl⟩
      exact ⟨rfl, hbounds⟩
    · rintro ⟨rfl, hbounds⟩
      exact ⟨hbounds, rfl⟩
  | _ => simp [integer]

/-- Bounded integers are read exactly if their type has the same bounds. -/
theorem exact_integer {name : String} {low high : Int} {ofInt : Int → α} {toInt : α → Int}
    (hof : ∀ a, ofInt (toInt a) = a) (hbounds : ∀ a, low ≤ toInt a ∧ toInt a ≤ high)
    (hto : ∀ n, low ≤ n → n ≤ high → toInt (ofInt n) = n) :
    Exact (fun d => (integer name low high d).map ofInt) fun a => .int (toInt a) := by
  intro d a
  simp only [Outcome.except_map_eq_ok_iff, integer_eq_ok_iff]
  constructor
  · rintro ⟨n, ⟨rfl, hlow, hhigh⟩, rfl⟩
    rw [hto n hlow hhigh]
  · rintro rfl
    exact ⟨_, ⟨rfl, hbounds a⟩, hof a⟩

theorem exact_uint64 : Exact uint64 fun n => .int n.toNat := by
  have hsize : UInt64.size = 18446744073709551616 := rfl
  refine exact_integer (fun n => UInt64.ofNat_toNat) (fun n => ?_) fun n hlow hhigh => ?_
  · have hn := n.toNat_lt
    omega
  · rw [UInt64.toNat_ofNat_of_lt' (by omega)]
    omega

theorem takesBack_uint64 : TakesBack uint64 fun n => .int n.toNat := exact_uint64.takesBack

theorem exact_int64 : Exact int64 fun n => .int n.toInt :=
  exact_integer Int64.ofInt_toInt (fun n => ⟨n.minValue_le_toInt, n.toInt_le⟩)
    fun _ hlow hhigh => Int64.toInt_ofInt_of_le hlow (Int.lt_of_le_of_lt hhigh (by decide))

theorem exact_int32 : Exact int32 fun n => .int n.toInt :=
  exact_integer Int32.ofInt_toInt (fun n => ⟨n.minValue_le_toInt, n.toInt_le⟩)
    fun _ hlow hhigh => Int32.toInt_ofInt_of_le hlow (Int.lt_of_le_of_lt hhigh (by decide))

theorem takesBack_int32 : TakesBack int32 fun n => .int n.toInt := exact_int32.takesBack

theorem TakesBack.list (h : TakesBack read write) : TakesBack (list read) (.ofList write) := by
  intro as
  refine mapM_eq_ok_iff.mpr ?_
  rw [List.forall₂_map_left_iff, List.forall₂_same]
  exact fun a _ => h a

/-- A pair is written as a list of two. -/
theorem TakesBack.pair (h : TakesBack read write) (h' : TakesBack read' write') :
    TakesBack (pair read read') fun p => .list [write p.1, write' p.2] := by
  rintro ⟨a, b⟩
  simp only [Reader.pair, h a, h' b]
  rfl

/-- Only a value that is written as null is lost in an option. -/
theorem TakesBack.option_some (h : TakesBack read write) {a : α} (ha : write a ≠ .null) :
    Reader.option read (write a) = .ok (some a) := by
  unfold Reader.option
  split
  next hnull => exact absurd hnull ha
  next => rw [h a]; rfl

theorem TakesBack.option (h : TakesBack read write) (hnull : ∀ a, write a ≠ .null) :
    TakesBack (Reader.option read) (.ofOption write) := by
  intro a?
  cases a? with
  | none => rfl
  | some a => exact h.option_some (hnull a)

theorem takesBack_option_text : TakesBack (Reader.option text) (.ofOption .text) :=
  takesBack_text.option fun _ => nofun

theorem option_scalar_of_ne {v? : Option Scalar} (h : v? ≠ some .null) :
    option scalar (.ofOption Scalar.toDocument v?) = .ok v? := by
  cases v? with
  | none => rfl
  | some v =>
    refine takesBack_scalar.option_some ?_
    cases v with
    | null => exact absurd rfl h
    | int n => exact nofun
    | text s => exact nofun

end Reader

theorem FieldGroup.takesBack : FieldGroup.read.TakesBack FieldGroup.toDocument := by
  intro g
  cases g <;> rfl

theorem ChangeFilter.takesBack : ChangeFilter.read.TakesBack ChangeFilter.toDocument := by
  intro f
  cases f <;> rfl

/-- A table is read by storing its members one after the other. -/
theorem Shape.readTable_eq_ok {σ : Type} {s : Shape σ} {members : List (String × Document)} {x : σ}
    (hstored : members.foldlM s.storeNamed s.blank = .ok x) (hmissing : s.missing? members = none) :
    s.readTable members = .ok x := by
  rw [readTable, hstored]
  simp only [bind, Except.bind, hmissing]

theorem User.takesBack : User.read.TakesBack User.toDocument := by
  intro u
  refine Shape.readTable_eq_ok ?_ rfl
  simp [Shape.storeNamed, shape, Member.required, Reader.takesBack_uint64 u.id,
    Reader.takesBack_text u.name, Except.map, bind, Except.bind, pure, Except.pure]

theorem Target.takesBack : Target.read.TakesBack Target.toDocument := by
  intro t
  refine Shape.readTable_eq_ok ?_ rfl
  simp [Shape.storeNamed, shape, Member.required, Reader.takesBack_int32 t.namespaceId,
    Reader.takesBack_text t.title, Except.map, bind, Except.bind, pure, Except.pure]

end PageWatch
