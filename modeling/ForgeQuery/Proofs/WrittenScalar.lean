import ForgeQuery.Json.Printer
import ForgeQuery.Json.Reader
import ForgeQuery.Proofs.Results
import Mathlib.Tactic.SplitIfs

/-!
# Reading written numbers and strings

An integer that is held exactly is read back from its digits, if nothing follows that would go on
with the number (`readNumber_renderInteger`; for which numerals are read as integers see
`Numeral.value?_eq_integer_iff`), and every string is read back from between its quotes,
whatever it holds (`readText_renderString`).

Digits are read as far as they go, and a zero in front of others is refused, so it matters that
decimal notation has none (`Text.decimal_ne_zero_cons`). In a string each character is written so
that it is read by itself: as it stands, by a short escape, or by four hexadecimal digits.
-/

namespace ForgeQuery

/-! ## Digits -/

namespace Text

theorem isDecimal_digit : ∀ n < 10, isDecimal (Char.ofNat (48 + n)) = true := by decide

theorem isDecimal_of_mem_decimal {n : Nat} {c : Char} (h : c ∈ decimal n) :
    isDecimal c = true := by
  induction n using Nat.strongRecOn with
  | ind n ih =>
    rw [decimal] at h
    split at h
    · next hn =>
      rw [List.mem_singleton.mp h]
      exact isDecimal_digit n hn
    · rcases List.mem_append.mp h with h | h
      · exact ih (n / 10) (by omega) h
      · rw [List.mem_singleton.mp h]
        exact isDecimal_digit (n % 10) (by omega)

theorem decimal_ne_nil (n : Nat) : decimal n ≠ [] := by
  rw [decimal]
  split
  · exact List.cons_ne_nil _ _
  · exact List.append_ne_nil_of_right_ne_nil _ (List.cons_ne_nil _ _)

/-- No zero stands in front of other digits. -/
theorem decimal_ne_zero_cons (n : Nat) (d : Char) (rest : Text) :
    decimal n ≠ '0' :: d :: rest := by
  induction n using Nat.strongRecOn generalizing d rest with
  | ind n ih =>
    rw [decimal]
    split
    · exact fun h => absurd (List.cons.inj h).2 (List.cons_ne_nil d rest).symm
    · next hn =>
      intro h
      cases hfront : decimal (n / 10) with
      | nil => exact decimal_ne_nil _ hfront
      | cons c front =>
        rw [hfront, List.cons_append] at h
        obtain ⟨rfl, htail⟩ := List.cons.inj h
        cases front with
        | cons d' rest' => exact ih (n / 10) (by omega) d' rest' hfront
        | nil =>
          -- the digits in front of the last one would be those of zero
          have hvalue := valueOf_decimal (n / 10)
          rw [hfront, show valueOf ['0'] = 0 from by decide] at hvalue
          omega

theorem hexValue?_hexDigit : ∀ n < 16, hexValue? (hexDigit n) = some n := by decide

end Text

namespace Symbol

@[simp] theorem ofText_nil : ofText [] = [] := rfl

@[simp] theorem ofText_cons (c : Char) (t : Text) : ofText (c :: t) = char c :: ofText t := rfl

@[simp] theorem ofText_append (a b : Text) : ofText (a ++ b) = ofText a ++ ofText b :=
  List.map_append

/-- Inputs that go on in the same way go on with the same character. -/
theorem head_eq {c d : Char} {s t : List Symbol} (h : char c :: s = char d :: t) : c = d :=
  char.inj (List.cons.inj h).1

end Symbol

namespace Json

/-! ## Numbers -/

/-- Whether a number may go on with this character. -/
def continuesNumber (c : Char) : Bool := Text.isDecimal c || c == '.' || c == 'e' || c == 'E'

/-- No number goes on at the start of the input. -/
def IsStopped (s : Input) : Prop := ∀ c rest, s = .char c :: rest → continuesNumber c = false

theorem isStopped_cons {c : Char} (hc : continuesNumber c = false) (s : Input) :
    IsStopped (.char c :: s) := by
  intro d rest h
  rwa [← Symbol.head_eq h]

variable {s : Input}

theorem readDigits_of_isStopped (hs : IsStopped s) : readDigits s = ([], s) := by
  unfold readDigits
  split
  · next c rest =>
    have hc := hs c rest rfl
    simp only [continuesNumber, Bool.or_eq_false_iff] at hc
    rw [if_neg (Bool.eq_false_iff.mp hc.1.1.1)]
  · rfl

/-- Digits are read as far as they go. -/
theorem readDigits_append {digits : Text} (hd : ∀ c ∈ digits, Text.isDecimal c = true)
    (hs : IsStopped s) : readDigits (Symbol.ofText digits ++ s) = (digits, s) := by
  induction digits with
  | nil => exact readDigits_of_isStopped hs
  | cons c digits ih =>
    obtain ⟨hc, hrest⟩ := List.forall_mem_cons.mp hd
    rw [Symbol.ofText_cons, List.cons_append, readDigits, if_pos hc, ih hrest]
    rfl

theorem readWhole_decimal (missing : Fault) (n : Nat) (hs : IsStopped s) :
    readWhole missing (Symbol.ofText (Text.decimal n) ++ s) = .ok (Text.decimal n, s) := by
  have hsome : readSomeDigits missing (Symbol.ofText (Text.decimal n) ++ s)
      = .ok (Text.decimal n, s) := by
    unfold readSomeDigits
    rw [readDigits_append (fun c => Text.isDecimal_of_mem_decimal) hs]
    split
    · next h => exact absurd (Prod.mk.inj h).1 (Text.decimal_ne_nil n)
    · next h => exact absurd (Prod.mk.inj h).1 (Text.decimal_ne_nil n)
    · next h => rw [(Prod.mk.inj h).1, (Prod.mk.inj h).2]
  unfold readWhole
  rw [hsome, bind_ok]
  dsimp only
  split
  · next d rest h => exact absurd h (Text.decimal_ne_zero_cons n d rest)
  · rfl

theorem readFraction_of_isStopped (missing : Fault) (hs : IsStopped s) :
    readFraction missing s = .ok (none, s) := by
  unfold readFraction
  split
  · next rest => exact absurd (hs '.' rest rfl) (by decide)
  · rfl

theorem readPower_of_isStopped (missing : Fault) (hs : IsStopped s) :
    readPower missing s = .ok (none, s) := by
  unfold readPower
  split
  · next c rest =>
    have hc := hs c rest rfl
    simp only [continuesNumber, Bool.or_eq_false_iff, beq_eq_false_iff_ne] at hc
    rw [if_neg fun h => h.elim hc.1.2 hc.2]
  · rfl

/-- The written form of an integer. -/
def integerNumeral : Int → Numeral
  | .ofNat n => ⟨false, Text.decimal n, none, none⟩
  | .negSucc n => ⟨true, Text.decimal (n + 1), none, none⟩

theorem readNumeral_renderInteger (missing : Fault) (n : Int) (hs : IsStopped s) :
    readNumeral missing (Symbol.ofText (renderInteger n) ++ s) = .ok (integerNumeral n, s) := by
  have hrest (negative : Bool) (m : Nat) :
      (readWhole missing (Symbol.ofText (Text.decimal m) ++ s) >>= fun whole =>
        readFraction missing whole.2 >>= fun fraction =>
          readPower missing fraction.2 >>= fun power =>
            .ok ((⟨negative, whole.1, fraction.1, power.1⟩ : Numeral), power.2))
        = .ok (⟨negative, Text.decimal m, none, none⟩, s) := by
    rw [readWhole_decimal missing m hs, bind_ok, readFraction_of_isStopped missing hs, bind_ok,
      readPower_of_isStopped missing hs, bind_ok]
  unfold readNumeral
  cases n with
  | negSucc n =>
    rw [renderInteger, Symbol.ofText_cons, List.cons_append]
    exact hrest true (n + 1)
  | ofNat n =>
    -- the first digit is no minus
    obtain ⟨c, digits, hdigits⟩ := List.exists_cons_of_ne_nil (Text.decimal_ne_nil n)
    have hc : Text.isDecimal c = true :=
      Text.isDecimal_of_mem_decimal (n := n) (hdigits ▸ List.mem_cons_self)
    have hnum := hrest false n
    rw [integerNumeral]
    rw [hdigits, Symbol.ofText_cons, List.cons_append] at hnum
    simp only [renderInteger, hdigits, Symbol.ofText_cons, List.cons_append]
    split
    · next rest h =>
      obtain rfl := Symbol.head_eq h
      exact absurd hc (by decide)
    · exact hnum

/-- The integer that a numeral without a point and a power of ten stands for. -/
def Numeral.exact (n : Numeral) : Int :=
  if n.negative then -(Text.valueOf n.whole : Int) else Text.valueOf n.whole

/-- **The numerals of integers** are those without a point and a power of ten whose value fits into
64 bits, with or without a sign, except for a zero behind a minus. -/
theorem Numeral.value?_eq_integer_iff {n : Numeral} {i : Int} :
    n.value? = some (.integer i) ↔
      n.fraction = none ∧ n.power = none ∧ isExact n.exact = true ∧
        ¬ (n.negative = true ∧ Text.valueOf n.whole = 0) ∧ n.exact = i := by
  have hfloat (x : Option Binary64) : x.map Number.float ≠ some (.integer i) := by
    cases x <;> simp
  have hexact : (if n.negative = true then -(Text.valueOf n.whole : Int) else Text.valueOf n.whole)
      = n.exact := rfl
  have hcond : (isExact n.exact && !(n.negative && (Text.valueOf n.whole : Int) == 0)) = true ↔
      isExact n.exact = true ∧ ¬ (n.negative = true ∧ Text.valueOf n.whole = 0) := by
    rw [Bool.and_eq_true, Bool.not_eq_true', ← Bool.not_eq_true, Bool.and_eq_true, beq_iff_eq,
      Int.natCast_eq_zero]
  unfold Numeral.value?
  dsimp only
  rw [hexact]
  split
  · next hfraction hpower =>
    rw [hfraction, hpower, and_iff_right rfl, and_iff_right rfl]
    split
    · next h =>
      obtain ⟨hfits, hzero⟩ := hcond.mp h
      rw [and_iff_right hfits, and_iff_right hzero, Option.some.injEq, Number.integer.injEq]
    · next h => exact iff_of_false (hfloat _) fun ⟨hfits, hzero, _⟩ => h (hcond.mpr ⟨hfits, hzero⟩)
  · next h => exact iff_of_false (hfloat _) fun ⟨hfraction, hpower, _⟩ => h hfraction hpower

/-- An integer that is held exactly is the value of its written form. -/
theorem value?_integerNumeral {n : Int} (hn : isExact n = true) :
    (integerNumeral n).value? = some (.integer n) := by
  rw [Numeral.value?_eq_integer_iff]
  cases n with
  | ofNat n =>
    have hvalue : (integerNumeral (.ofNat n)).exact = Int.ofNat n := by
      rw [Numeral.exact, integerNumeral, if_neg Bool.false_ne_true, Text.valueOf_decimal]
      rfl
    exact ⟨rfl, rfl, hvalue.symm ▸ hn, fun h => Bool.false_ne_true h.1, hvalue⟩
  | negSucc n =>
    have hvalue : (integerNumeral (.negSucc n)).exact = Int.negSucc n := by
      rw [Numeral.exact, integerNumeral, if_pos rfl, Text.valueOf_decimal]
      rfl
    refine ⟨rfl, rfl, hvalue.symm ▸ hn, fun h => ?_, hvalue⟩
    -- the digits are not those of zero, which has no exact negative
    rw [integerNumeral, Text.valueOf_decimal] at h
    exact Nat.succ_ne_zero n h.2

/-- **An exact integer is read from its digits**, if no number goes on behind them. -/
theorem readNumber_renderInteger {n : Int} (hn : isExact n = true) (hs : IsStopped s) :
    readNumber (Symbol.ofText (renderInteger n) ++ s) = .ok (.integer n, s) := by
  rw [readNumber, readNumeral_renderInteger _ n hs, bind_ok]
  dsimp only
  rw [value?_integerNumeral hn]

/-! ## Strings -/

/-- The four digits of a control character are read as it. -/
theorem readString_unit {c : Char} (hc : c.toNat < 0x20) (clean : Bool) (s : Input) :
    readString (.hex none 4 0) clean (Symbol.ofText
        ['0', '0', Text.hexDigit (c.toNat / 16), Text.hexDigit (c.toNat % 16)] ++ s)
      = (readString .nothing clean s).map fun r => (c :: r.1, r.2) := by
  have hzero : Text.hexValue? '0' = some 0 := by decide
  have hhigh := Text.hexValue?_hexDigit (c.toNat / 16) (by omega)
  have hlow := Text.hexValue?_hexDigit (c.toNat % 16) (by omega)
  have hunit : readUnit none (16 * (c.toNat / 16) + c.toNat % 16) = .ok (.nothing, some c) := by
    rw [Nat.div_add_mod, readUnit, if_neg (by omega), if_neg (by omega), Char.ofNat_toNat]
  simp [readString, hzero, hhigh, hlow, hunit]

/-- Each character is read from its written form. -/
theorem readString_escapeChar (c : Char) (clean : Bool) (s : Input) :
    readString .nothing clean (Symbol.ofText (escapeChar c) ++ s)
      = (readString .nothing clean s).map fun r => (c :: r.1, r.2) := by
  have hshort {letter : Char} (hletter : letter ≠ 'u') (h : escaped? letter = some c) :
      readString .nothing clean (Symbol.ofText ['\\', letter] ++ s)
        = (readString .nothing clean s).map fun r => (c :: r.1, r.2) := by
    simp [readString, hletter, h]
  have heq {n : Nat} (h : c.toNat = n) : c = Char.ofNat n := by rw [← h, Char.ofNat_toNat]
  unfold escapeChar
  split_ifs with hquote hbackslash hplain h8 h9 hA hC hD
  · exact hshort (by decide) (by rw [hquote]; decide)
  · exact hshort (by decide) (by rw [hbackslash]; decide)
  · simp [readString, hquote, hbackslash, Nat.not_lt.mpr hplain]
  · exact hshort (by decide) (by rw [heq h8]; decide)
  · exact hshort (by decide) (by rw [heq h9]; decide)
  · exact hshort (by decide) (by rw [heq hA]; decide)
  · exact hshort (by decide) (by rw [heq hC]; decide)
  · exact hshort (by decide) (by rw [heq hD]; decide)
  · have hunit := readString_unit (Nat.not_le.mp hplain) clean s
    rw [← hunit]
    simp [readString]

/-- **Every string is read from its written form**, whatever it holds; `readText` starts behind the
opening quote. -/
theorem readText_renderString (name : String) (s : Input) :
    readText (Symbol.ofText (name.toList.flatMap escapeChar ++ ['"']) ++ s) = .ok (name, s) := by
  have hchars (t : Text) :
      readString .nothing true (Symbol.ofText (t.flatMap escapeChar ++ ['"']) ++ s)
        = .ok (t, s) := by
    induction t with
    | nil => simp [readString]
    | cons c t ih =>
      rw [List.flatMap_cons, List.append_assoc, Symbol.ofText_append, List.append_assoc,
        readString_escapeChar, ih, map_ok]
  rw [readText, hchars, map_ok, String.ofList_toList]

end Json

end ForgeQuery
