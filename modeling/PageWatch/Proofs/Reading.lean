import Mathlib.Data.List.Dedup
import PageWatch.Select.Meaning

/-! Reading: how conditions are written, and that the text of a condition says what it has to if the
texts of its parts do. -/
namespace PageWatch

/-- The comparison that an operator of SQL stands for. -/
def Comparison.ofOperator? : String → Option Comparison
  | "=" => some .eq
  | "!=" => some .ne
  | "<" => some .lt
  | "<=" => some .le
  | ">" => some .gt
  | ">=" => some .ge
  | _ => none

theorem Comparison.ofOperator?_symbol (op : Comparison) : ofOperator? op.symbol = some op := by
  cases op <;> rfl

theorem Comparison.ofOperator?_eq_some_iff {s : String} {op : Comparison} :
    ofOperator? s = some op ↔ s = op.symbol := by
  constructor
  · intro h
    unfold ofOperator? at h
    split at h <;> cases h <;> rfl
  · rintro rfl
    exact op.ofOperator?_symbol

/-- How an operand is written in SQL. A caller's timestamp is a literal of the stored format. -/
inductive Operand.Written (x : Executor) : Operand → String → Prop
  | column (name : String) : Written x (.column name) name
  | masked (name : String) (mask : UInt32) : Written x (.masked name mask) (x.bitAnd name mask)
  | number (n : Int) : Written x (.number n) (toString n)
  | quoted (s : String) : Written x (.quoted s) (x.quote s)
  | moment (t : String) : Written x (.moment t) (x.quote (x.timestamp t))

theorem Operand.written_render (x : Executor) (o : Operand) : o.Written x (o.render x) := by
  cases o with
  | column name => exact .column name
  | masked name mask => exact .masked name mask
  | number n => exact .number n
  | quoted s => exact .quoted s
  | moment t => exact .moment t

theorem Operand.Written.eq_render {x : Executor} {o : Operand} {s : String} (h : o.Written x s) :
    s = o.render x := by
  cases h <;> rfl

/-- How a condition is written in SQL. The executor joins what it lists. -/
inductive Fragment.Written (x : Executor) : Fragment → String → Prop
  | compare {left right : Operand} {op : Comparison} {s operator t : String}
    (hleft : left.Written x s) (hop : Comparison.ofOperator? operator = some op)
    (hright : right.Written x t) :
    Written x (.compare left op right) (s ++ " " ++ operator ++ " " ++ t)
  | same {left right : Operand} {s t : String} (hleft : left.Written x s)
    (hright : right.Written x t) : Written x (.same left right) (s ++ "=" ++ t)
  | isNull (column : String) : Written x (.isNull column) (column ++ " IS NULL")
  | isNotNull (column : String) : Written x (.isNotNull column) (column ++ " IS NOT NULL")
  | both {f g : Fragment} {s t : String} (hf : Written x f s) (hg : Written x g t) :
    Written x (.both f g) (x.makeList [s, t] .and)
  | either {f g : Fragment} {s t : String} (hf : Written x f s) (hg : Written x g t) :
    Written x (.either f g) (x.makeList [s, t] .or)
  | alternative {f g : Fragment} {s t : String} (hf : Written x f s) (hg : Written x g t) :
    Written x (.alternative f g) (s ++ " OR " ++ t)
  | host (text : String) : Written x (.host text) text

namespace Fragment

variable {x : Executor} {f : Fragment} {s : String}

theorem written_render (x : Executor) (f : Fragment) : f.Written x (f.render x) := by
  induction f with
  | compare left op right =>
    exact .compare (left.written_render x) op.ofOperator?_symbol (right.written_render x)
  | same left right => exact .same (left.written_render x) (right.written_render x)
  | isNull column => exact .isNull column
  | isNotNull column => exact .isNotNull column
  | both f g ihf ihg => exact .both ihf ihg
  | either f g ihf ihg => exact .either ihf ihg
  | alternative f g ihf ihg => exact .alternative ihf ihg
  | host text => exact .host text

/-- A condition is written in one way only. -/
theorem Written.eq_render (h : f.Written x s) : s = f.render x := by
  induction h with
  | compare hleft hop hright =>
    rw [hleft.eq_render, hright.eq_render, Comparison.ofOperator?_eq_some_iff.mp hop, render]
  | same hleft hright => rw [hleft.eq_render, hright.eq_render, render]
  | both _ _ ihf ihg => rw [ihf, ihg, render]
  | either _ _ ihf ihg => rw [ihf, ihg, render]
  | alternative _ _ ihf ihg => rw [ihf, ihg, render]
  | _ => rfl

end Fragment

namespace Meaning

variable {m : Meaning} {x : Executor}

/-- The texts by which a fragment and its parts are written say what they say in SQL: an operator
between two operands compares them, a list says that all or some of its parts hold. -/
def Understands (m : Meaning) (x : Executor) : Fragment → Prop
  | .compare left _ right => ∀ s operator t op, left.Written x s →
      Comparison.ofOperator? operator = some op → right.Written x t →
      ∀ r, m.truth (s ++ " " ++ operator ++ " " ++ t) r
        = op.truth (left.value m r) (right.value m r)
  | .same left right => ∀ s t, left.Written x s → right.Written x t →
      ∀ r, m.truth (s ++ "=" ++ t) r = Comparison.eq.truth (left.value m r) (right.value m r)
  | .isNull column => ∀ r, m.truth (column ++ " IS NULL") r = .ofBool (r.cell column = .null)
  | .isNotNull column =>
      ∀ r, m.truth (column ++ " IS NOT NULL") r = .ofBool (r.cell column ≠ .null)
  | .both f g => m.Understands x f ∧ m.Understands x g ∧ ∀ s t, f.Written x s → g.Written x t →
      ∀ r, m.truth (x.makeList [s, t] .and) r = (m.truth s r).and (m.truth t r)
  | .either f g => m.Understands x f ∧ m.Understands x g ∧ ∀ s t, f.Written x s → g.Written x t →
      ∀ r, m.truth (x.makeList [s, t] .or) r = (m.truth s r).or (m.truth t r)
  | .alternative f g => m.Understands x f ∧ m.Understands x g ∧
      ∀ s t, f.Written x s → g.Written x t →
      ∀ r, m.truth (s ++ " OR " ++ t) r = (m.truth s r).or (m.truth t r)
  | .host _ => True

/-- The text of a term says what it says in SQL; a host's condition may be negated. -/
def UnderstandsTerm (m : Meaning) (x : Executor) : Term → Prop
  | .fragment f => m.Understands x f
  | .contributed w true =>
      ∀ r, m.truth ("NOT(" ++ w.condition ++ ")") r = (m.truth w.condition r).not
  | _ => True

/-- However a fragment is written, its text says what the fragment says. -/
theorem truth_of_written {f : Fragment} {s : String} (hs : f.Written x s)
    (h : m.Understands x f) (r : Row) : m.truth s r = f.truth m r := by
  induction hs with
  | compare hleft hop hright => exact h _ _ _ _ hleft hop hright r
  | same hleft hright => exact h _ _ hleft hright r
  | isNull column => exact h r
  | isNotNull column => exact h r
  | both hfs hgt ihf ihg =>
    obtain ⟨hf, hg, hand⟩ := h
    rw [hand _ _ hfs hgt r, ihf hf, ihg hg, Fragment.truth]
  | either hfs hgt ihf ihg =>
    obtain ⟨hf, hg, hor⟩ := h
    rw [hor _ _ hfs hgt r, ihf hf, ihg hg, Fragment.truth]
  | alternative hfs hgt ihf ihg =>
    obtain ⟨hf, hg, hor⟩ := h
    rw [hor _ _ hfs hgt r, ihf hf, ihg hg, Fragment.truth]
  | host text => rfl

theorem truth_render {f : Fragment} (h : m.Understands x f) (r : Row) :
    m.truth (f.render x) r = f.truth m r :=
  truth_of_written (f.written_render x) h r

/-- A term whose text is understood is rendered faithfully. -/
theorem reads_of_understands {t : Term} (h : m.UnderstandsTerm x t) : m.Reads x t := by
  intro r
  cases t with
  | equals column value => rfl
  | oneOf column values => rfl
  | fragment f => exact truth_render h r
  | contributed w negate =>
    cases negate with
    | false => rfl
    | true => exact h r

end Meaning

/-- The fragments whose texts have to be understood for a fragment to be understood. -/
def Fragment.parts : Fragment → List Fragment
  | compare left _ right => [.eq, .ne, .lt, .le, .gt, .ge].map (compare left · right)
  | both f g => both f g :: (f.parts ++ g.parts)
  | either f g => either f g :: (f.parts ++ g.parts)
  | alternative f g => alternative f g :: (f.parts ++ g.parts)
  | f => [f]

theorem Fragment.mem_parts (f : Fragment) : f ∈ f.parts := by
  cases f with
  | compare left op right => cases op <;> simp [parts]
  | _ => simp [parts]

namespace Meaning

variable {x : Executor} {m : Meaning} {fs : List Fragment} {f : Fragment}

/-- The meaning that looks texts up among the texts of some fragments, and leaves others to
another meaning. -/
def ofFragments (x : Executor) (m : Meaning) (fs : List Fragment) : Meaning where
  stored := m.stored
  truth text r :=
    match fs.find? (fun f => f.render x == text) with
    | some f => f.truth m r
    | none => m.truth text r

theorem value_ofFragments (o : Operand) (r : Row) :
    o.value (ofFragments x m fs) r = o.value m r := by
  cases o <;> rfl

theorem truth_ofFragments (hdistinct : (fs.map (Fragment.render x)).Nodup) (hf : f ∈ fs)
    (r : Row) : (ofFragments x m fs).truth (f.render x) r = f.truth m r := by
  cases hfind : fs.find? (fun g => g.render x == f.render x) with
  | none =>
    have hnone := List.find?_eq_none.mp hfind f hf
    simp at hnone
  | some g =>
    have hg : g ∈ fs := List.mem_of_find?_eq_some hfind
    have hrender : g.render x = f.render x := by simpa using List.find?_some hfind
    obtain rfl := List.inj_on_of_nodup_map hdistinct hg hf hrender
    simp only [ofFragments, hfind]

/-- Where the texts of its parts are told apart, a fragment is understood by looking them up. -/
theorem understands_ofFragments (hdistinct : (fs.map (Fragment.render x)).Nodup)
    (hf : f.parts ⊆ fs) : (ofFragments x m fs).Understands x f := by
  have hread {g : Fragment} (hg : g ∈ fs) {s : String} (hs : g.Written x s) (r : Row) :
      (ofFragments x m fs).truth s r = g.truth m r := by
    rw [hs.eq_render]
    exact truth_ofFragments hdistinct hg r
  induction f with
  | compare left op right =>
    intro s operator t op' hleft hop hright r
    have hmem : Fragment.compare left op' right ∈ fs := hf (by cases op' <;> simp [Fragment.parts])
    rw [value_ofFragments, value_ofFragments]
    exact hread hmem (.compare hleft hop hright) r
  | same left right =>
    intro s t hleft hright r
    rw [value_ofFragments, value_ofFragments]
    exact hread (hf (Fragment.mem_parts _)) (.same hleft hright) r
  | isNull column => exact hread (hf (Fragment.mem_parts _)) (.isNull column)
  | isNotNull column => exact hread (hf (Fragment.mem_parts _)) (.isNotNull column)
  | both f g ihf ihg =>
    obtain ⟨hself, hparts⟩ := List.cons_subset.mp hf
    obtain ⟨hfs, hgs⟩ := List.append_subset.mp hparts
    refine ⟨ihf hfs, ihg hgs, fun s t hs ht r => ?_⟩
    rw [hread (hfs f.mem_parts) hs, hread (hgs g.mem_parts) ht]
    exact hread hself (.both hs ht) r
  | either f g ihf ihg =>
    obtain ⟨hself, hparts⟩ := List.cons_subset.mp hf
    obtain ⟨hfs, hgs⟩ := List.append_subset.mp hparts
    refine ⟨ihf hfs, ihg hgs, fun s t hs ht r => ?_⟩
    rw [hread (hfs f.mem_parts) hs, hread (hgs g.mem_parts) ht]
    exact hread hself (.either hs ht) r
  | alternative f g ihf ihg =>
    obtain ⟨hself, hparts⟩ := List.cons_subset.mp hf
    obtain ⟨hfs, hgs⟩ := List.append_subset.mp hparts
    refine ⟨ihf hfs, ihg hgs, fun s t hs ht r => ?_⟩
    rw [hread (hfs f.mem_parts) hs, hread (hgs g.mem_parts) ht]
    exact hread hself (.alternative hs ht) r
  | host text => trivial

end Meaning

namespace Term

/-- The fragments whose texts have to be understood for a term to be understood. -/
def parts : Term → List Fragment
  | fragment f => f.parts
  | _ => []

def isNegated : Term → Bool
  | contributed _ negate => negate
  | _ => false

/-- The parts of some terms, each once. -/
def partsOf (ts : List Term) : List Fragment := (ts.flatMap parts).dedup

theorem parts_subset_partsOf {t : Term} {ts : List Term} (ht : t ∈ ts) : t.parts ⊆ partsOf ts := by
  intro f hf
  rw [partsOf, List.mem_dedup, List.mem_flatMap]
  exact ⟨t, ht, hf⟩

end Term

/-- Where the texts of their parts are told apart, terms that negate nothing are understood. -/
theorem Meaning.understandsTerm_ofFragments {x : Executor} {m : Meaning} {ts : List Term} {t : Term}
    (hdistinct : ((Term.partsOf ts).map (Fragment.render x)).Nodup) (ht : t ∈ ts)
    (hnegated : t.isNegated = false) :
    (ofFragments x m (Term.partsOf ts)).UnderstandsTerm x t := by
  cases t with
  | fragment f => exact understands_ofFragments hdistinct (Term.parts_subset_partsOf ht)
  | contributed w negate =>
    obtain rfl : negate = false := hnegated
    trivial
  | _ => trivial

end PageWatch
