import PageWatch.Proofs.Checks

/-! Prefixes: which integer a text starts with, and what limits and namespaces make of it. -/
namespace PageWatch

namespace Decimal

variable {cs digits before after : List Char} {n : Int}

/-- A text that starts, after white space, with a numeral whose digits go as far as they can, and
what follows them. -/
def StartsWith (cs : List Char) (n : Int) (after : List Char) : Prop :=
  ∃ before core, cs = before ++ core ++ after ∧ (∀ ch ∈ before, Text.isBlank ch = true) ∧
    Numeral core n ∧ ∀ ch ∈ after.head?, ch.isDigit = false

theorem splitSign_append (h : cs ≠ []) :
    splitSign (cs ++ after) = ((splitSign cs).1, (splitSign cs).2 ++ after) := by
  cases cs with
  | nil => exact absurd rfl h
  | cons c cs =>
    rw [List.cons_append]
    unfold splitSign
    split <;> simp_all

/-- In front of what is left after its sign, a text has that sign. -/
theorem exists_sign (cs : List Char) : ∃ sign, cs = sign ++ (splitSign cs).2 ∧
    ∀ digits, IsDigits digits →
      Numeral (sign ++ digits) (signed (splitSign cs).1 (magnitude digits)) := by
  simp only [magnitude_eq_value]
  unfold splitSign
  split
  next cs => exact ⟨['-'], rfl, fun _ => .minus⟩
  next cs => exact ⟨['+'], rfl, fun _ => .plus⟩
  next => exact ⟨[], rfl, fun _ => .plain⟩

/-- Digits are cut off where they end. -/
theorem cut_digits (h : IsDigits digits) (hafter : ∀ ch ∈ after.head?, ch.isDigit = false) :
    (digits ++ after).takeWhile Char.isDigit = digits ∧
      (digits ++ after).dropWhile Char.isDigit = after := by
  rw [List.takeWhile_append_of_pos h.2, List.dropWhile_append_of_pos h.2]
  cases after with
  | nil => simp
  | cons ch after => simp [hafter ch rfl]

theorem head?_dropWhile_isDigit (cs : List Char) :
    ∀ ch ∈ (cs.dropWhile Char.isDigit).head?, ch.isDigit = false := by
  intro ch hch
  have := List.head?_dropWhile_not Char.isDigit cs
  rw [Option.mem_def.mp hch] at this
  simpa using this

theorem leadingInt?_eq_some_iff : leadingInt? cs = some n ↔
    (splitSign (Text.trimStart cs)).2.takeWhile Char.isDigit ≠ [] ∧
      n = signed (splitSign (Text.trimStart cs)).1
        (magnitude ((splitSign (Text.trimStart cs)).2.takeWhile Char.isDigit)) := by
  unfold leadingInt?
  dsimp only
  split
  next hnil => simp [hnil]
  next hne => rw [and_iff_right hne, Option.some.injEq, eq_comm]

/-- The tolerant reading takes the integer that a text starts with. -/
theorem startsWith_iff : StartsWith cs n after ↔ leadingInt? cs = some n ∧
    (splitSign (Text.trimStart cs)).2.dropWhile Char.isDigit = after := by
  rw [leadingInt?_eq_some_iff]
  constructor
  · rintro ⟨before, core, rfl, hblank, hcore, hafter⟩
    have htrim : Text.trimStart (before ++ core ++ after) = core ++ after := by
      rw [List.append_assoc]
      exact Text.dropWhile_isBlank_append hblank (fun ch hch => hcore.isBlank hch) hcore.ne_nil
    obtain ⟨hdigits, hn⟩ := numeral_iff.mp hcore
    obtain ⟨htake, hdrop⟩ := cut_digits hdigits hafter
    rw [htrim, splitSign_append hcore.ne_nil]
    dsimp only
    rw [htake]
    exact ⟨⟨hdigits.1, hn⟩, hdrop⟩
  · rintro ⟨⟨hne, rfl⟩, rfl⟩
    obtain ⟨sign, hsign, hnumeral⟩ := exists_sign (Text.trimStart cs)
    refine ⟨cs.takeWhile Text.isBlank, _, ?_, fun ch => List.mem_takeWhile_imp,
      hnumeral _ ⟨hne, fun d => List.mem_takeWhile_imp⟩, head?_dropWhile_isDigit _⟩
    rw [List.append_assoc, List.append_assoc, List.takeWhile_append_dropWhile, ← hsign]
    exact List.takeWhile_append_dropWhile.symm

theorem exists_startsWith_iff : (∃ after, StartsWith cs n after) ↔ leadingInt? cs = some n := by
  simp only [startsWith_iff, exists_and_left, exists_eq', and_true]

/-- A sign that no digit follows makes no integer, be it a second sign, white space or a digit of
another script that stands there. -/
theorem leadingInt?_of_sign {sign : Char} (hblank : ∀ ch ∈ before, Text.isBlank ch = true)
    (hsign : sign = '-' ∨ sign = '+') (hafter : ∀ ch ∈ after.head?, ch.isDigit = false) :
    leadingInt? (before ++ sign :: after) = none := by
  have hsplit : (splitSign (sign :: after)).2 = after := by
    rcases hsign with rfl | rfl <;> rfl
  have hvisible : ∀ ch ∈ [sign], Text.isBlank ch = false := by
    rcases hsign with rfl | rfl <;> simp only [List.forall_mem_singleton] <;> decide
  have htrim : Text.trimStart (before ++ sign :: after) = sign :: after :=
    Text.dropWhile_isBlank_append hblank hvisible (List.cons_ne_nil _ _)
  have hdigits : after.takeWhile Char.isDigit = [] := by
    cases after with
    | nil => rfl
    | cons ch after => simp [hafter ch rfl]
  rw [Option.eq_none_iff_forall_ne_some]
  intro n hn
  rw [leadingInt?_eq_some_iff, htrim, hsplit] at hn
  exact hn.1 hdigits

end Decimal

namespace Scalar

variable {v : Scalar} {n : Int} {i : Int64}

/-- The integer, of whatever size, that a value is or that its text starts with. -/
def StartsWith : Scalar → Int → Prop
  | null, _ => False
  | int m, n => m.toInt = n
  | text s, n => ∃ after, Decimal.StartsWith s.toList n after

theorem toInt_ofIntClamp (n : Int) :
    (Int64.ofIntClamp n).toInt = max (-2 ^ 63) (min (2 ^ 63 - 1) n) := by
  have hmin : Int64.minValue.toInt = -2 ^ 63 := Int64.toInt_minValue
  have hmax : Int64.maxValue.toInt = 2 ^ 63 - 1 := Int64.toInt_maxValue
  unfold Int64.ofIntClamp
  split
  · split
    · rw [Int64.toInt_ofIntLE]
      omega
    · omega
  · omega

/-- The tolerant reading is that integer, clamped into 64 bits. -/
theorem coerceInt_eq_some_iff :
    v.coerceInt = some i ↔ ∃ n, v.StartsWith n ∧ .ofIntClamp n = i := by
  cases v with
  | null => simp [coerceInt, StartsWith]
  | int m => simp [coerceInt, StartsWith]
  | text s =>
    simp only [coerceInt, StartsWith, Decimal.exists_startsWith_iff, Option.map_eq_some_iff]

theorem coerceInt_of_startsWith (h : v.StartsWith n) : v.coerceInt = some (.ofIntClamp n) :=
  coerceInt_eq_some_iff.mpr ⟨n, h, rfl⟩

theorem coerceInt_eq_none_iff : v.coerceInt = none ↔ ∀ n, ¬ v.StartsWith n := by
  rw [Option.eq_none_iff_forall_ne_some]
  constructor
  · intro hnone n hn
    exact hnone _ (coerceInt_of_startsWith hn)
  · intro hnone i hi
    obtain ⟨n, hn, _⟩ := coerceInt_eq_some_iff.mp hi
    exact hnone n hn

/-- A limit that a value is taken for: its integer clamped into 32 bits without a sign, or zero if
it has none. -/
structure IsLimit (v : Scalar) (limit : UInt32) : Prop where
  clamped : ∀ n, v.StartsWith n → (limit.toNat : Int) = max 0 (min (2 ^ 32 - 1) n)
  zero : (∀ n, ¬ v.StartsWith n) → limit = 0

theorem isLimit_toLimit (v : Scalar) : v.IsLimit v.toLimit := by
  constructor
  · intro n hn
    rw [toInt_toLimit, coerceInt_of_startsWith hn, Option.getD_some, toInt_ofIntClamp]
    omega
  · intro hnone
    rw [toLimit, coerceInt_eq_none_iff.mpr hnone]
    rfl

/-- Clamping into 64 bits moves no integer into the range of namespaces. -/
theorem isNamespace_iff_startsWith {ns : Int32} :
    v.IsNamespace ns.toInt64 ↔ v.StartsWith ns.toInt := by
  have hmin := ns.minValue_le_toInt
  have hmax := ns.toInt_le
  have hrange : -2 ^ 31 ≤ ns.toInt ∧ ns.toInt ≤ 2 ^ 31 - 1 := ⟨hmin, hmax⟩
  rw [IsNamespace, Int32.toInt_toInt64, and_iff_left ⟨hmin, hmax⟩, coerceInt_eq_some_iff]
  simp only [← Int64.toInt_inj, Int32.toInt_toInt64, toInt_ofIntClamp]
  constructor
  · rintro ⟨n, hn, hclamp⟩
    obtain rfl : n = ns.toInt := by omega
    exact hn
  · intro hn
    exact ⟨_, hn, by omega⟩

theorem mem_readNamespaces_iff_startsWith {raw : List Scalar} {ns : Int32} :
    ns ∈ readNamespaces raw ↔ ∃ v ∈ raw, v.StartsWith ns.toInt := by
  simp only [mem_readNamespaces_iff, isNamespace_iff_startsWith]

end Scalar

/-- The tolerant reading of a raw value is the integer that the value is, or that its text starts
with, clamped into 64 bits. There is none if the value has no integer, as where a sign is followed
by anything but an ASCII digit. Of this integer, a request makes a limit by clamping it into 32 bits
without a sign, with zero for none, and a namespace if it lies within 32 bits; no other namespace
comes in, and no value makes a request invalid. -/
theorem raw_integers_are_clamped_prefixes :
    (∀ (v : Scalar) n, v.StartsWith n →
      ∃ i, v.coerceInt = some i ∧ i.toInt = max (-2 ^ 63) (min (2 ^ 63 - 1) n)) ∧
    (∀ v : Scalar, (∀ n, ¬ v.StartsWith n) → v.coerceInt = none) ∧
    (∀ s before sign after, String.toList s = before ++ sign :: after →
      (∀ ch ∈ before, Text.isBlank ch = true) → sign = '-' ∨ sign = '+' →
      (∀ ch ∈ after.head?, ch.isDigit = false) → (Scalar.text s).coerceInt = none) ∧
    (∀ (r : FeedRequest) user raw o, r.validate user raw = .ok o →
      ∀ v namespaces, ∃ limit read,
        ({ r with limit := some v, namespaces } : FeedRequest).validate user raw
          = .ok { o with limit := some limit, namespaces := read } ∧
        v.IsLimit limit ∧ ∀ ns, ns ∈ read ↔ ∃ w ∈ namespaces, w.StartsWith ns.toInt) ∧
    ∀ (r : WatchlistRequest) o, r.validate = .ok o →
      ∀ v namespaces, ∃ limit read,
        ({ r with limit := some v, namespaces } : WatchlistRequest).validate
          = .ok { o with limit := some limit, namespaces := read } ∧
        v.IsLimit limit ∧ ∀ ns, ns ∈ read ↔ ∃ w ∈ namespaces, w.StartsWith ns.toInt := by
  refine ⟨?_, fun v => Scalar.coerceInt_eq_none_iff.mpr, ?_, ?_, ?_⟩
  · intro v n hn
    exact ⟨_, Scalar.coerceInt_of_startsWith hn, Scalar.toInt_ofIntClamp n⟩
  · intro s before sign after hs hblank hsign hafter
    rw [Scalar.coerceInt, hs, Decimal.leadingInt?_of_sign hblank hsign hafter]
    rfl
  · intro r user raw o ho v namespaces
    have hv := (FeedRequest.validate_eq_ok_iff.mp ho).renumber v namespaces
    exact ⟨v.toLimit, readNamespaces namespaces, FeedRequest.validate_eq_ok_iff.mpr hv,
      v.isLimit_toLimit, fun _ => Scalar.mem_readNamespaces_iff_startsWith⟩
  · intro r o ho v namespaces
    have hv := (WatchlistRequest.validate_eq_ok_iff.mp ho).renumber v namespaces
    exact ⟨v.toLimit, readNamespaces namespaces, WatchlistRequest.validate_eq_ok_iff.mpr hv,
      v.isLimit_toLimit, fun _ => Scalar.mem_readNamespaces_iff_startsWith⟩

/-- An integer below 64 bits after a wide space, a text without an integer, a second sign and a
digit of another script after the sign. A limit above 32 bits is the largest one and a limit of null
is zero; of the namespaces, the least one is read whatever follows it, and the one past the greatest
is dropped, as null is. -/
theorem raw_integers_are_clamped_prefixes_past_ends :
    let least : Scalar := .text " -2147483648;"
    let past : Scalar := .text "+2147483648"
    let feed : FeedRequest := { limit := some (.text "4294967296"), namespaces := [.null, least] }
    let listing : WatchlistRequest := { limit := some .null, namespaces := [least, past] }
    (Scalar.text "\u3000-09223372036854775809 or less").coerceInt = some Int64.minValue ∧
    (Scalar.text "no 5").coerceInt = none ∧
    (Scalar.text "+-5").coerceInt = none ∧ (Scalar.text "-٣").coerceInt = none ∧
    (∃ o, feed.validate InMemory.actingUser none = .ok o ∧ o.limit = some 4294967295 ∧
      ∀ ns, ns ∈ o.namespaces ↔ ns = -2147483648) ∧
    ∃ o, listing.validate = .ok o ∧ o.limit = some 0 ∧
      ∀ ns, ns ∈ o.namespaces ↔ ns = -2147483648 := by
  intro least past feed listing
  obtain ⟨hclamped, hnone, hsign, hfeed, hlisting⟩ := raw_integers_are_clamped_prefixes
  have hreads (s : String) (n : Int) (h : Decimal.leadingInt? s.toList = some n) (m : Int) :
      (Scalar.text s).StartsWith m ↔ m = n := by
    rw [Scalar.StartsWith, Decimal.exists_startsWith_iff, h, Option.some.injEq, eq_comm]
  have hleast := hreads " -2147483648;" (-2147483648) (by decide)
  have hpast := hreads "+2147483648" 2147483648 (by decide)
  have hlow := hreads "\u3000-09223372036854775809 or less" (-9223372036854775809) (by decide)
  have hhigh := hreads "4294967296" 4294967296 (by decide)
  have hword : Decimal.leadingInt? "no 5".toList = none := by decide
  have hns (ns : Int32) : least.StartsWith ns.toInt ↔ ns = -2147483648 := by
    rw [hleast, ← Int32.toInt_inj]
    rfl
  have hbeyond (ns : Int32) : ¬ past.StartsWith ns.toInt := by
    have hmax := ns.toInt_le
    rw [Int32.toInt_maxValue] at hmax
    rw [hpast]
    omega
  have hnull (n : Int) : ¬ Scalar.null.StartsWith n := nofun
  refine ⟨?_, ?_, ?_, ?_, ?_, ?_⟩
  · obtain ⟨i, hi, hmin⟩ := hclamped _ _ ((hlow _).mpr rfl)
    rw [hi, Option.some.injEq, ← Int64.toInt_inj, hmin]
    decide
  · refine hnone _ fun n hn => ?_
    rw [Scalar.StartsWith, Decimal.exists_startsWith_iff, hword] at hn
    cases hn
  · exact hsign "+-5" [] '+' ['-', '5'] rfl nofun (.inr rfl) (by simp)
  · exact hsign "-٣" [] '-' ['٣'] rfl nofun (.inl rfl) (by simp)
  · obtain ⟨limit, read, hvalid, hlimit, hmem⟩ :=
      hfeed {} InMemory.actingUser none _ rfl (.text "4294967296") [.null, least]
    refine ⟨_, hvalid, ?_, fun ns => ?_⟩
    · rw [Option.some.injEq, ← UInt32.toNat_inj]
      exact Int.ofNat_inj.mp (hlimit.clamped _ ((hhigh _).mpr rfl))
    · simp [hmem, hns, hnull]
  · obtain ⟨limit, read, hvalid, hlimit, hmem⟩ := hlisting {} _ rfl .null [least, past]
    refine ⟨_, hvalid, congrArg some (hlimit.zero hnull), fun ns => ?_⟩
    simp [hmem, hns, hbeyond]

end PageWatch
