import PageWatch.Proofs.Prefixes

/-! Views: the strict, the tolerant and the textual view of a scalar, and where they part. -/
namespace PageWatch

namespace Decimal

variable {cs after after' : List Char} {m n : Int}

theorem StartsWith.unique (h : StartsWith cs m after) (h' : StartsWith cs n after') :
    m = n ∧ after = after' := by
  obtain ⟨hm, hafter⟩ := startsWith_iff.mp h
  obtain ⟨hn, hafter'⟩ := startsWith_iff.mp h'
  exact ⟨Option.some.inj (hm.symm.trans hn), hafter.symm.trans hafter'⟩

/-- A text spells the integer it starts with if nothing but white space follows. -/
theorem spells_iff : Spells cs n ↔
    ∃ after, StartsWith cs n after ∧ ∀ ch ∈ after, Text.isBlank ch = true := by
  constructor
  · rintro ⟨before, core, after, hcs, hblank, hcore⟩
    have hafter : ∀ ch ∈ after, Text.isBlank ch = true :=
      fun ch hch => hblank ch (List.mem_append_right _ hch)
    refine ⟨after, ⟨before, core, hcs, fun ch hch => hblank ch (List.mem_append_left _ hch), hcore,
      fun ch hch => ?_⟩, hafter⟩
    cases hdigit : ch.isDigit with
    | false => rfl
    | true =>
      have hch := hafter ch (List.mem_of_mem_head? hch)
      rw [isBlank_of_isDigit hdigit] at hch
      cases hch
  · rintro ⟨after, ⟨before, core, hcs, hblank, hcore, _⟩, hafter⟩
    exact ⟨before, core, after, hcs, fun ch hch => (List.mem_append.mp hch).elim (hblank ch)
      (hafter ch), hcore⟩

theorem isDigits_toDigits (k : Nat) : IsDigits (Nat.toDigits 10 k) :=
  ⟨Nat.toDigits_ne_nil, fun _ => Nat.isDigit_of_mem_toDigits (by omega) (by omega)⟩

theorem value_toDigits (k : Nat) : value (Nat.toDigits 10 k) = k := by
  rw [← magnitude_eq_value, magnitude, ← Nat.ofDigitChars_eq_foldl, Nat.ofDigitChars_ten_toDigits]

/-- The decimal text of an integer is a numeral for it. -/
theorem numeral_toString (n : Int) : Numeral (toString n).toList n := by
  rw [Int.toString_eq_repr, Int.repr_eq_if]
  split
  next hn =>
    have hplain := Numeral.plain (isDigits_toDigits n.toNat)
    rw [value_toDigits, Int.toNat_of_nonneg hn] at hplain
    rwa [Nat.repr_eq_ofList_toDigits, String.toList_ofList]
  next hn =>
    have hminus := Numeral.minus (isDigits_toDigits (-n).toNat)
    rw [value_toDigits, Int.toNat_of_nonneg (by omega), Int.neg_neg] at hminus
    rw [Nat.repr_eq_ofList_toDigits, String.toList_append, String.toList_ofList,
      String.toList_ofList]
    exact hminus

theorem Numeral.spells (h : Numeral cs n) : Spells cs n :=
  ⟨[], cs, [], by simp, nofun, h⟩

theorem Numeral.sign (h : Numeral cs n) :
    (cs.head? = some '-' → n ≤ 0) ∧ (cs.head? ≠ some '-' → 0 ≤ n) := by
  cases h with
  | plain h =>
    refine ⟨fun hminus => ?_, fun _ => Int.natCast_nonneg _⟩
    have hdigit := h.2 '-' (List.mem_of_mem_head? hminus)
    cases hdigit
  | plus h => exact ⟨nofun, fun _ => Int.natCast_nonneg _⟩
  | minus h => exact ⟨fun _ => by omega, fun hplus => absurd rfl hplus⟩

end Decimal

namespace Scalar

variable {v : Scalar} {s : String} {n : Int} {i : Int64} {after : List Char}

theorem Spells.startsWith (h : v.Spells n) : v.StartsWith n := by
  cases v with
  | null => exact h
  | int m => exact h
  | text s =>
    obtain ⟨after, hstarts, _⟩ := Decimal.spells_iff.mp h
    exact ⟨after, hstarts⟩

/-- What is read strictly is read tolerantly, as the same integer. -/
theorem coerceInt_of_exactInt (h : v.exactInt = some i) : v.coerceInt = some i := by
  rw [coerceInt_of_startsWith (exactInt_eq_some_iff.mp h).startsWith, Int64.ofIntClamp_toInt]

theorem int64?_eq_none_iff : int64? n = none ↔ n < -2 ^ 63 ∨ 2 ^ 63 ≤ n := by
  unfold int64?
  rw [Int64.toInt_minValue, Int64.toInt_maxValue]
  split
  · simp only [reduceCtorEq, false_iff]
    omega
  · simp only [true_iff]
    omega

/-- A numeral alone is refused by the strict reading only for its size. So the tolerant reading of a
text is the strict one of its numeral, or else the bound of 64 bits on the side of the sign. -/
theorem coerceInt_eq_exactInt_getD {before core : List Char}
    (hblank : ∀ ch ∈ before, Text.isBlank ch = true) (hcore : Decimal.Numeral core n)
    (hafter : ∀ ch ∈ after.head?, ch.isDigit = false) :
    (text (.ofList (before ++ core ++ after))).coerceInt
      = some ((text (.ofList core)).exactInt.getD
          (if core.head? = some '-' then Int64.minValue else Int64.maxValue)) := by
  have hstarts : (text (.ofList (before ++ core ++ after))).StartsWith n :=
    ⟨after, before, core, String.toList_ofList, hblank, hcore, hafter⟩
  have hwhole : (text (.ofList core)).exactInt = int64? n := by
    rw [exactInt, String.toList_ofList, Decimal.wholeInt?_eq_some_iff.mpr hcore.spells,
      Option.bind_some]
  rw [coerceInt_of_startsWith hstarts, hwhole]
  cases hn : int64? n with
  | some i =>
    rw [int64?_eq_some_iff.mp hn, Int64.ofIntClamp_toInt, Option.getD_some]
  | none =>
    rw [int64?_eq_none_iff] at hn
    rw [Option.getD_none, Option.some.injEq, ← Int64.toInt_inj, toInt_ofIntClamp]
    have hmin : Int64.minValue.toInt = -2 ^ 63 := Int64.toInt_minValue
    have hmax : Int64.maxValue.toInt = 2 ^ 63 - 1 := Int64.toInt_maxValue
    obtain ⟨hneg, hpos⟩ := hcore.sign
    split
    next hminus =>
      have := hneg hminus
      omega
    next hplus =>
      have := hpos hplus
      omega

/-- A text that starts with an integer is refused by the strict reading if more than white space
follows, or if the integer does not fit into 64 bits. -/
theorem exactInt_eq_none_iff (h : Decimal.StartsWith s.toList n after) :
    (text s).exactInt = none ↔
      (∃ ch ∈ after, Text.isBlank ch = false) ∨ n < -2 ^ 63 ∨ 2 ^ 63 ≤ n := by
  have hspells (i : Int64) : (text s).exactInt = some i ↔
      (∀ ch ∈ after, Text.isBlank ch = true) ∧ int64? n = some i := by
    rw [exactInt_eq_some_iff, int64?_eq_some_iff, Spells, Decimal.spells_iff]
    constructor
    · rintro ⟨after', h', hblank⟩
      obtain ⟨rfl, rfl⟩ := h.unique h'
      exact ⟨hblank, rfl⟩
    · rintro ⟨hblank, rfl⟩
      exact ⟨after, h, hblank⟩
  have hmore : (∃ ch ∈ after, Text.isBlank ch = false) ↔
      ¬ ∀ ch ∈ after, Text.isBlank ch = true := by
    simp
  rw [← int64?_eq_none_iff, hmore, ← imp_iff_not_or, Option.eq_none_iff_forall_ne_some,
    Option.eq_none_iff_forall_ne_some]
  simp only [ne_eq, hspells, not_and]
  exact forall_comm

/-- A value that counts as one integer wherever an integer is read: as the code of a kind, as a
namespace, as a limit and as the id in a cursor. -/
structure CountsAs (v : Scalar) (i : Int64) : Prop where
  kind : v.toKind? = ChangeKind.ofCode? i
  namespaceId : v.toNamespace? = namespaceId? i
  limit : v.toLimit = (int i).toLimit
  changeId : ∀ timestamp, Cursor.ofRaw [timestamp, v] = Cursor.ofRaw [timestamp, int i]

theorem countsAs_of_exactInt (h : v.exactInt = some i) : v.CountsAs i := by
  have hcoerce := coerceInt_of_exactInt h
  refine ⟨?_, ?_, ?_, fun timestamp => ?_⟩
  · rw [toKind?, h, Option.bind_some]
  · rw [toNamespace?, hcoerce, Option.bind_some]
  · rw [toLimit, toLimit, hcoerce, coerceInt_int]
  · simp only [Cursor.ofRaw, hcoerce, coerceInt_int]

theorem exactInt_toString (i : Int64) : (text (toString i.toInt)).exactInt = some i :=
  exactInt_eq_some_iff.mpr (Decimal.numeral_toString i.toInt).spells

end Scalar

/-- What the strict reading accepts, the tolerant one takes for the same integer, and so does every
place where integers are read; this holds of every text that spells an integer of 64 bits, whatever
its sign, its leading zeros and the white space around it. The text of an integer is read as that
integer in both ways. The tolerant reading of a text that starts with a numeral is the strict one of
the numeral alone, or the bound on the side of its sign. It takes more than the strict reading only
where a text goes on after its digits with more than white space, or where its number does not fit
into 64 bits. -/
theorem integer_views_agree :
    (∀ v i, Scalar.exactInt v = some i → v.coerceInt = some i ∧ v.CountsAs i) ∧
    (∀ s (i : Int64), Decimal.Spells (String.toList s) i.toInt →
      (Scalar.text s).exactInt = some i ∧ (Scalar.text s).coerceInt = some i) ∧
    (∀ i, ∃ s, (Scalar.int i).render = some s ∧ (Scalar.text s).exactInt = some i ∧
      (Scalar.text s).coerceInt = some i) ∧
    (∀ before core after n, (∀ ch ∈ before, Text.isBlank ch = true) → Decimal.Numeral core n →
      (∀ ch ∈ after.head?, ch.isDigit = false) →
      (Scalar.text (.ofList (before ++ core ++ after))).coerceInt
        = some ((Scalar.text (.ofList core)).exactInt.getD
            (if core.head? = some '-' then Int64.minValue else Int64.maxValue))) ∧
    ∀ s, (∃ i, (Scalar.text s).coerceInt = some i) ∧ (Scalar.text s).exactInt = none ↔
      ∃ n after, Decimal.StartsWith s.toList n after ∧
        ((∃ ch ∈ after, Text.isBlank ch = false) ∨ n < -2 ^ 63 ∨ 2 ^ 63 ≤ n) := by
  refine ⟨?_, ?_, ?_, fun _ _ _ _ => Scalar.coerceInt_eq_exactInt_getD, ?_⟩
  · intro v i hv
    exact ⟨Scalar.coerceInt_of_exactInt hv, Scalar.countsAs_of_exactInt hv⟩
  · intro s i hs
    have hexact : (Scalar.text s).exactInt = some i := Scalar.exactInt_eq_some_iff.mpr hs
    exact ⟨hexact, Scalar.coerceInt_of_exactInt hexact⟩
  · intro i
    have hexact := Scalar.exactInt_toString i
    exact ⟨_, rfl, hexact, Scalar.coerceInt_of_exactInt hexact⟩
  · intro s
    constructor
    · rintro ⟨⟨i, hi⟩, hnone⟩
      obtain ⟨n, ⟨after, hstarts⟩, _⟩ := Scalar.coerceInt_eq_some_iff.mp hi
      exact ⟨n, after, hstarts, (Scalar.exactInt_eq_none_iff hstarts).mp hnone⟩
    · rintro ⟨n, after, hstarts, hmore⟩
      exact ⟨⟨_, Scalar.coerceInt_of_startsWith ⟨after, hstarts⟩⟩,
        (Scalar.exactInt_eq_none_iff hstarts).mpr hmore⟩

/-- An integer with a sign and zeros between wide spaces counts as it does without them. The least
integer of 64 bits is read as itself as it is printed and with zeros in front, and is what a lesser
one before a word is read as. The first integer past the greatest one and text after the digits are
for the tolerant reading only. -/
theorem integer_views_agree_at_ends :
    (Scalar.text "\u2003+003\u00a0").CountsAs 3 ∧
    (Scalar.text "-0009223372036854775808\n").coerceInt = some Int64.minValue ∧
    (∃ s, (Scalar.int Int64.minValue).render = some s ∧ s = "-9223372036854775808" ∧
      (Scalar.text s).exactInt = some Int64.minValue) ∧
    (Scalar.text "-9223372036854775809th").coerceInt = some Int64.minValue ∧
    (Scalar.text "9223372036854775808").exactInt = none ∧
    (Scalar.text "10; DROP").exactInt = none := by
  obtain ⟨hviews, hspelled, hprinted, hnumeral, hmore⟩ := integer_views_agree
  have hpast : Decimal.leadingInt? "9223372036854775808".toList = some 9223372036854775808 := by
    decide
  have hdrop : Decimal.leadingInt? "10; DROP".toList = some 10 := by decide
  refine ⟨?_, ?_, ?_, ?_, ?_, ?_⟩
  · exact (hviews _ 3 (by decide)).2
  · exact (hspelled _ _ (Decimal.wholeInt?_eq_some_iff.mp (by decide))).2
  · obtain ⟨s, hs, hexact, _⟩ := hprinted Int64.minValue
    exact ⟨s, hs, Option.some.inj (hs.symm.trans (by decide)), hexact⟩
  · have hcore : Decimal.Numeral "-9223372036854775809".toList (-9223372036854775809) :=
      .minus ⟨nofun, List.all_eq_true.mp (by decide)⟩
    have hread := hnumeral [] _ "th".toList _ nofun hcore (by simp)
    exact hread.trans (by decide)
  · have hstarts := Decimal.startsWith_iff.mpr ⟨hpast, rfl⟩
    exact ((hmore _).mpr ⟨_, _, hstarts, .inr (.inr (by decide))⟩).2
  · have hstarts := Decimal.startsWith_iff.mpr ⟨hdrop, rfl⟩
    exact ((hmore _).mpr ⟨_, _, hstarts, .inl ⟨';', by decide, by decide⟩⟩).2

end PageWatch
