import ForgeQuery.Json.Printer
import ForgeQuery.Text.Symbol

/-!
# Texts as bytes

A text that is encoded in UTF-8 is read as the characters that it holds (`Symbol.ofBytes_utf8`), and
bytes in which no symbol is a stray one are the encoding of the text that is read from them
(`Symbol.text?_ofBytes_eq_some_iff`). Of the four lengths of the encoding each is told from the
others by its first byte, and each byte behind the first holds six bits. Surrogates belong to no
character, so that they are never encoded.
-/

namespace ForgeQuery

namespace Symbol

theorem toNat_ofNat_of_lt {n : Nat} (h : n < 256) : (UInt8.ofNat n).toNat = n := by
  rw [UInt8.toNat_ofNat']
  exact Nat.mod_eq_of_lt h

/-- A continuation byte gives the six bits back that it was made of. -/
theorem continuation?_ofNat (n : Nat) :
    continuation? (UInt8.ofNat (n % 64 + 128)) = some (n % 64) := by
  rw [continuation?, toNat_ofNat_of_lt (by omega)]
  have hrange : 0x80 ≤ n % 64 + 128 ∧ n % 64 + 128 < 0xC0 := by omega
  rw [if_pos hrange, Nat.add_sub_cancel]

/-! ## The four lengths -/

theorem decode?_one {n : Nat} (h : n < 0x80) (rest : List UInt8) :
    decode? (UInt8.ofNat n) rest = some (Char.ofNat n, 0) := by
  have hlead : (UInt8.ofNat n).toNat = n := toNat_ofNat_of_lt (by omega)
  simp only [decode?, hlead, if_pos h]

theorem decode?_two {n : Nat} (h : 0x80 ≤ n ∧ n < 0x800) (rest : List UInt8) :
    decode? (UInt8.ofNat (n / 64 % 32 + 192)) (UInt8.ofNat (n % 64 + 128) :: rest)
      = some (Char.ofNat n, 1) := by
  have hlead : (UInt8.ofNat (n / 64 % 32 + 192)).toNat = n / 64 % 32 + 192 :=
    toNat_ofNat_of_lt (by omega)
  have hone : ¬ n / 64 % 32 + 192 < 0x80 := by omega
  have htwo : 0xC0 ≤ n / 64 % 32 + 192 ∧ n / 64 % 32 + 192 < 0xE0 := by omega
  have hsum : (n / 64 % 32 + 192 - 0xC0) * 64 + n % 64 = n := by omega
  simp only [decode?, hlead, if_neg hone, if_pos htwo, continuation?_ofNat, Option.bind_eq_bind,
    Option.bind_some, hsum, if_pos h.1]

theorem decode?_three {n : Nat} (h : 0x800 ≤ n ∧ n < 0x10000) (hn : n < 0xD800 ∨ 0xE000 ≤ n)
    (rest : List UInt8) :
    decode? (UInt8.ofNat (n / 4096 % 16 + 224))
        (UInt8.ofNat (n / 64 % 64 + 128) :: UInt8.ofNat (n % 64 + 128) :: rest)
      = some (Char.ofNat n, 2) := by
  have hlead : (UInt8.ofNat (n / 4096 % 16 + 224)).toNat = n / 4096 % 16 + 224 :=
    toNat_ofNat_of_lt (by omega)
  have hone : ¬ n / 4096 % 16 + 224 < 0x80 := by omega
  have htwo : ¬ (0xC0 ≤ n / 4096 % 16 + 224 ∧ n / 4096 % 16 + 224 < 0xE0) := by omega
  have hthree : 0xE0 ≤ n / 4096 % 16 + 224 ∧ n / 4096 % 16 + 224 < 0xF0 := by omega
  have hsum : ((n / 4096 % 16 + 224 - 0xE0) * 64 + n / 64 % 64) * 64 + n % 64 = n := by omega
  simp only [decode?, hlead, if_neg hone, if_neg htwo, if_pos hthree, continuation?_ofNat,
    Option.bind_eq_bind, Option.bind_some, hsum]
  exact if_pos ⟨h.1, hn⟩

theorem decode?_four {n : Nat} (h : 0x10000 ≤ n ∧ n < 0x110000) (rest : List UInt8) :
    decode? (UInt8.ofNat (n / 262144 % 8 + 240)) (UInt8.ofNat (n / 4096 % 64 + 128) ::
        UInt8.ofNat (n / 64 % 64 + 128) :: UInt8.ofNat (n % 64 + 128) :: rest)
      = some (Char.ofNat n, 3) := by
  have hlead : (UInt8.ofNat (n / 262144 % 8 + 240)).toNat = n / 262144 % 8 + 240 :=
    toNat_ofNat_of_lt (by omega)
  have hone : ¬ n / 262144 % 8 + 240 < 0x80 := by omega
  have htwo : ¬ (0xC0 ≤ n / 262144 % 8 + 240 ∧ n / 262144 % 8 + 240 < 0xE0) := by omega
  have hthree : ¬ (0xE0 ≤ n / 262144 % 8 + 240 ∧ n / 262144 % 8 + 240 < 0xF0) := by omega
  have hfour : 0xF0 ≤ n / 262144 % 8 + 240 ∧ n / 262144 % 8 + 240 < 0xF8 := by omega
  have hsum : (((n / 262144 % 8 + 240 - 0xF0) * 64 + n / 4096 % 64) * 64 + n / 64 % 64) * 64
      + n % 64 = n := by omega
  simp only [decode?, hlead, if_neg hone, if_neg htwo, if_neg hthree, if_pos hfour,
    continuation?_ofNat, Option.bind_eq_bind, Option.bind_some, hsum]
  exact if_pos h

theorem toNat_char_ofNat {n : Nat} (h : n < 0xD800 ∨ 0xE000 ≤ n ∧ n < 0x110000) :
    (Char.ofNat n).toNat = n := by
  have hvalid : n.isValidChar := h.imp id fun h => ⟨by omega, h.2⟩
  rw [Char.ofNat, dif_pos hvalid]
  rfl

theorem utf8EncodeChar_one {n : Nat} (h : n < 0x80) :
    String.utf8EncodeChar (Char.ofNat n) = [UInt8.ofNat n] := by
  have hval : (Char.ofNat n).val.toNat = n := toNat_char_ofNat (by omega)
  have hone : n ≤ 0x7F := by omega
  simp only [String.utf8EncodeChar, hval, if_pos hone]

theorem utf8EncodeChar_two {n : Nat} (h : 0x80 ≤ n ∧ n < 0x800) :
    String.utf8EncodeChar (Char.ofNat n)
      = [UInt8.ofNat (n / 64 % 32 + 192), UInt8.ofNat (n % 64 + 128)] := by
  have hval : (Char.ofNat n).val.toNat = n := toNat_char_ofNat (by omega)
  have hone : ¬ n ≤ 0x7F := by omega
  have htwo : n ≤ 0x7FF := by omega
  simp only [String.utf8EncodeChar, hval, if_neg hone, if_pos htwo]

theorem utf8EncodeChar_three {n : Nat} (h : 0x800 ≤ n ∧ n < 0x10000)
    (hn : n < 0xD800 ∨ 0xE000 ≤ n) :
    String.utf8EncodeChar (Char.ofNat n) = [UInt8.ofNat (n / 4096 % 16 + 224),
      UInt8.ofNat (n / 64 % 64 + 128), UInt8.ofNat (n % 64 + 128)] := by
  have hval : (Char.ofNat n).val.toNat = n := toNat_char_ofNat (by omega)
  have hone : ¬ n ≤ 0x7F := by omega
  have htwo : ¬ n ≤ 0x7FF := by omega
  have hthree : n ≤ 0xFFFF := by omega
  simp only [String.utf8EncodeChar, hval, if_neg hone, if_neg htwo, if_pos hthree]

theorem utf8EncodeChar_four {n : Nat} (h : 0x10000 ≤ n ∧ n < 0x110000) :
    String.utf8EncodeChar (Char.ofNat n) = [UInt8.ofNat (n / 262144 % 8 + 240),
      UInt8.ofNat (n / 4096 % 64 + 128), UInt8.ofNat (n / 64 % 64 + 128),
      UInt8.ofNat (n % 64 + 128)] := by
  have hval : (Char.ofNat n).val.toNat = n := toNat_char_ofNat (by omega)
  have hone : ¬ n ≤ 0x7F := by omega
  have htwo : ¬ n ≤ 0x7FF := by omega
  have hthree : ¬ n ≤ 0xFFFF := by omega
  simp only [String.utf8EncodeChar, hval, if_neg hone, if_neg htwo, if_neg hthree]

/-! ## Characters and texts -/

/-- A code point is no surrogate. -/
theorem toNat_valid (c : Char) : c.toNat < 0xD800 ∨ 0xE000 ≤ c.toNat ∧ c.toNat < 0x110000 := by
  rcases c.valid with h | h
  · exact Or.inl h
  · exact Or.inr ⟨h.1, h.2⟩

/-- A character is read from the bytes that encode it. -/
theorem ofBytes_utf8EncodeChar (c : Char) (rest : List UInt8) :
    ofBytes (String.utf8EncodeChar c ++ rest) = char c :: ofBytes rest := by
  obtain ⟨n, hn, rfl⟩ : ∃ n, (n < 0xD800 ∨ 0xE000 ≤ n ∧ n < 0x110000) ∧ c = Char.ofNat n :=
    ⟨c.toNat, toNat_valid c, (Char.ofNat_toNat c).symm⟩
  -- behind the first byte as many are dropped as belong to it
  have hdrop {lead : UInt8} {more : List UInt8}
      (h : decode? lead (more ++ rest) = some (Char.ofNat n, more.length)) :
      ofBytes (lead :: (more ++ rest)) = char (Char.ofNat n) :: ofBytes rest := by
    rw [ofBytes, h]
    simp only [List.drop_left]
  by_cases hone : n < 0x80
  · rw [utf8EncodeChar_one hone]
    exact @hdrop _ [] (decode?_one hone rest)
  by_cases htwo : n < 0x800
  · rw [utf8EncodeChar_two (by omega)]
    exact hdrop (decode?_two (by omega) rest)
  by_cases hthree : n < 0x10000
  · rw [utf8EncodeChar_three (by omega) (by omega)]
    exact hdrop (decode?_three (by omega) (by omega) rest)
  · rw [utf8EncodeChar_four (by omega)]
    exact hdrop (decode?_four (by omega) rest)

/-- **An encoded text is read as it was**, character by character. -/
theorem ofBytes_utf8 (t : Text) : ofBytes (t.flatMap String.utf8EncodeChar) = ofText t := by
  induction t with
  | nil => rw [List.flatMap_nil, ofBytes]; rfl
  | cons c t ih =>
    rw [List.flatMap_cons, ofBytes_utf8EncodeChar, ih]
    rfl

/-! ## Bytes that encode a text -/

/-- A byte is told by its value. -/
theorem ofNat_eq_of_toNat {b : UInt8} {n : Nat} (h : b.toNat = n) : UInt8.ofNat n = b := by
  rw [← h, UInt8.ofNat_toNat]

theorem toNat_of_continuation? {b : UInt8} {k : Nat} (h : continuation? b = some k) :
    b.toNat = k + 0x80 ∧ k < 0x40 := by
  rw [continuation?] at h
  split at h
  · obtain rfl := Option.some.inj h
    omega
  · cases h

/-- The bytes that a character is read from are those that encode it. -/
theorem utf8EncodeChar_of_decode? {lead : UInt8} {rest : List UInt8} {c : Char} {more : Nat}
    (h : decode? lead rest = some (c, more)) :
    String.utf8EncodeChar c = lead :: rest.take more := by
  unfold decode? at h
  dsimp only at h
  split at h
  · next hone =>
    obtain ⟨rfl, rfl⟩ := Prod.mk.inj (Option.some.inj h)
    rw [utf8EncodeChar_one hone, UInt8.ofNat_toNat, List.take_zero]
  split at h
  · next htwo =>
    split at h
    · next b₁ rest =>
      simp only [Option.bind_eq_bind, Option.bind_eq_some_iff, Option.ite_none_right_eq_some,
        Option.some.injEq, Prod.mk.injEq] at h
      obtain ⟨k₁, hk₁, hn, rfl, rfl⟩ := h
      have h₁ := toNat_of_continuation? hk₁
      rw [utf8EncodeChar_two (by omega), ofNat_eq_of_toNat (b := lead) (by omega),
        ofNat_eq_of_toNat (b := b₁) (by omega)]
      rfl
    · cases h
  split at h
  · next hthree =>
    split at h
    · next b₁ b₂ rest =>
      simp only [Option.bind_eq_bind, Option.bind_eq_some_iff, Option.ite_none_right_eq_some,
        Option.some.injEq, Prod.mk.injEq] at h
      obtain ⟨k₁, hk₁, k₂, hk₂, hn, rfl, rfl⟩ := h
      have h₁ := toNat_of_continuation? hk₁
      have h₂ := toNat_of_continuation? hk₂
      rw [utf8EncodeChar_three (by omega) hn.2, ofNat_eq_of_toNat (b := lead) (by omega),
        ofNat_eq_of_toNat (b := b₁) (by omega), ofNat_eq_of_toNat (b := b₂) (by omega)]
      rfl
    · cases h
  split at h
  · next hfour =>
    split at h
    · next b₁ b₂ b₃ rest =>
      simp only [Option.bind_eq_bind, Option.bind_eq_some_iff, Option.ite_none_right_eq_some,
        Option.some.injEq, Prod.mk.injEq] at h
      obtain ⟨k₁, hk₁, k₂, hk₂, k₃, hk₃, hn, rfl, rfl⟩ := h
      have h₁ := toNat_of_continuation? hk₁
      have h₂ := toNat_of_continuation? hk₂
      have h₃ := toNat_of_continuation? hk₃
      rw [utf8EncodeChar_four hn, ofNat_eq_of_toNat (b := lead) (by omega),
        ofNat_eq_of_toNat (b := b₁) (by omega), ofNat_eq_of_toNat (b := b₂) (by omega),
        ofNat_eq_of_toNat (b := b₃) (by omega)]
      rfl
    · cases h
  · cases h

/-- Symbols are a text if every one of them is a character. -/
theorem text?_eq_some_iff {symbols : List Symbol} {t : Text} :
    text? symbols = some t ↔ symbols = ofText t := by
  constructor
  · intro h
    induction symbols generalizing t with
    | nil =>
      obtain rfl : [] = t := Option.some.inj h
      rfl
    | cons x symbols ih =>
      rw [text?, List.mapM_cons] at h
      obtain ⟨c, hc, h⟩ := Option.bind_eq_some_iff.mp h
      obtain ⟨t, ht, h⟩ := Option.bind_eq_some_iff.mp h
      obtain rfl : c :: t = _ := Option.some.inj h
      cases x with
      | char d =>
        obtain rfl : d = c := Option.some.inj hc
        rw [ih ht]
        rfl
      | stray b => cases hc
  · rintro rfl
    exact text?_ofText t

/-- **Bytes are a text exactly if they are its encoding.** -/
theorem text?_ofBytes_eq_some_iff {bytes : List UInt8} {t : Text} :
    text? (ofBytes bytes) = some t ↔ bytes = t.flatMap String.utf8EncodeChar := by
  rw [text?_eq_some_iff]
  constructor
  · intro h
    induction bytes using ofBytes.induct generalizing t with
    | case1 =>
      rw [ofBytes] at h
      rw [List.map_eq_nil_iff.mp h.symm]
      rfl
    | case2 b rest c more hdecode ih =>
      rw [ofBytes, hdecode] at h
      cases t with
      | nil => cases h
      | cons d t =>
        obtain ⟨hcd, hrest⟩ := List.cons.inj h
        obtain rfl := char.inj hcd
        rw [List.flatMap_cons, utf8EncodeChar_of_decode? hdecode, List.cons_append, ← ih hrest,
          List.take_append_drop]
    | case3 b rest hdecode ih =>
      rw [ofBytes, hdecode] at h
      cases t with
      | nil => cases h
      | cons d t => cases (List.cons.inj h).1
  · rintro rfl
    exact ofBytes_utf8 t

end Symbol

/-- The bytes of a string. -/
def utf8 (s : String) : List UInt8 := s.toUTF8.data.toList

theorem utf8_ofList (t : Text) : utf8 (String.ofList t) = t.flatMap String.utf8EncodeChar := by
  rw [utf8, String.toUTF8_eq_toByteArray, String.toByteArray_ofList, List.utf8Encode,
    List.data_toByteArray]

namespace Json

/-- The bytes of the compact text of a value. -/
def bytes (v : Json) : List UInt8 := v.compact.toUTF8.data.toList

end Json

end ForgeQuery
