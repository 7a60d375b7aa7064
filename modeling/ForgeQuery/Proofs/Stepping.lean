import ForgeQuery.Proofs.WrittenJson

/-!
# What readers keep and what they step over

The outcome of a reader is a value that it keeps (`IsKept.of_readValue`): integers are exact, names
of an object are distinct, and containers are nested as deep as the reader allows.

A value that nobody wants is stepped over by a reader that is less strict. Whatever is read is also
stepped over, up to the same place (`skipNested_of_readValue`), and allowing more depth changes
nothing (`skipNested_mono`). So the place behind a value does not hang on the reader that comes
there, which `After` says without naming any (`After.eq`).

Both rest on what a round of the loops over items and members can do (`readItems_succ_iff`,
`readMembers_succ_iff`, `skipMembers_succ_iff`).
-/

namespace ForgeQuery

namespace Json

variable {α β σ : Type} {s rest : Input}

/-! ## Rounds of the loops -/

section Rounds

variable {item : Input → Except Fault (α × Input)}
  {member : σ → String → Input → Except Fault (σ × Input)} {skip : Input → Except Fault Input}

/-- A round of the loop over items reads one and closes the array or goes on behind a comma. -/
theorem readItems_succ_iff {n : Nat} {xs : List α} :
    readItems item (n + 1) s = .ok (xs, rest) ↔
      ∃ x s₁, item s = .ok (x, s₁) ∧
        (skipBlanks s₁ = .char ']' :: rest ∧ xs = [x] ∨
          ∃ s₂ ys, skipBlanks s₁ = .char ',' :: s₂ ∧ (∀ t, skipBlanks s₂ ≠ .char ']' :: t) ∧
            readItems item n (skipBlanks s₂) = .ok (ys, rest) ∧ xs = x :: ys) := by
  rw [readItems, bind_eq_ok_iff, Prod.exists]
  refine exists_congr fun x => exists_congr fun s₁ => and_congr_right fun _ => ?_
  dsimp only
  split
  · next h => simp [h]
  · next s₂ h => simp [h, and_comm, eq_comm]
  · next s₂ h =>
    simp only [h]
    split
    · next t ht => simp [ht]
    · next hclose =>
      constructor
      · intro hread
        obtain ⟨⟨ys, t⟩, hys, hresult⟩ := bind_eq_ok_iff.mp hread
        obtain ⟨rfl, rfl⟩ := Prod.mk.inj (Except.ok.inj hresult)
        exact Or.inr ⟨s₂, ys, rfl, fun t ht => hclose t ht, hys, rfl⟩
      · rintro (⟨h, -⟩ | ⟨s₃, ys, h, -, hys, rfl⟩)
        · exact absurd (Symbol.head_eq h) (by decide)
        · obtain rfl := (List.cons.inj h).2
          rw [hys, bind_ok]
  · next hend hclose hcomma =>
    simp only [reduceCtorEq, false_iff, not_or, not_and, not_exists]
    exact ⟨fun h => absurd h (hclose _), fun s₂ ys h => absurd h (hcomma _)⟩

/-- A round of the loop over members takes one and closes the object or goes on behind a comma. -/
theorem readMembers_succ_iff {n : Nat} {a b : σ} :
    readMembers member (n + 1) a s = .ok (b, rest) ↔
      ∃ s₀ name s₁ a' s₂, s = .char '"' :: s₀ ∧ readText s₀ = .ok (name, s₁) ∧
        member a name s₁ = .ok (a', s₂) ∧
        (skipBlanks s₂ = .char '\x7d' :: rest ∧ b = a' ∨
          ∃ s₃, skipBlanks s₂ = .char ',' :: s₃ ∧
            readMembers member n a' (skipBlanks s₃) = .ok (b, rest)) := by
  rw [readMembers.eq_def]
  dsimp only
  split
  · simp
  · next s₀ =>
    rw [bind_eq_ok_iff, Prod.exists]
    simp only [List.cons.injEq, true_and, exists_and_left, exists_eq_left', bind_eq_ok_iff,
      Prod.exists]
    refine exists_congr fun name => exists_congr fun s₁ => and_congr_right fun _ => ?_
    refine exists_congr fun a' => exists_congr fun s₂ => and_congr_right fun _ => ?_
    split
    · next h => simp [h]
    · next s₃ h => simp [h, and_comm, eq_comm (a := a')]
    · next s₃ h => simp [h]
    · next hend hclose hcomma =>
      simp only [reduceCtorEq, false_iff, not_or, not_and, not_exists]
      exact ⟨fun h => absurd h (hclose _), fun s₂ h => absurd h (hcomma _)⟩
  · next hend hquote =>
    simp only [reduceCtorEq, false_iff, not_exists, not_and]
    exact fun s₀ name s₁ a' s₂ h => absurd h (hquote s₀)

/-- A round of the loop that steps over members. -/
theorem skipMembers_succ_iff {n : Nat} :
    skipNested.skipMembers skip (n + 1) s = .ok rest ↔
      ∃ s₀ s₁ s₂ s₃, s = .char '"' :: s₀ ∧ skipString .nothing s₀ = .ok s₁ ∧
        readColon s₁ = .ok s₂ ∧ skip s₂ = .ok s₃ ∧
        (skipBlanks s₃ = .char '\x7d' :: rest ∨
          ∃ s₄, skipBlanks s₃ = .char ',' :: s₄ ∧
            skipNested.skipMembers skip n (skipBlanks s₄) = .ok rest) := by
  rw [skipNested.skipMembers.eq_def]
  dsimp only
  split
  · simp
  · next s₀ =>
    simp only [List.cons.injEq, true_and, exists_and_left, exists_eq_left', bind_eq_ok_iff]
    refine exists_congr fun s₁ => and_congr_right fun _ => ?_
    refine exists_congr fun s₂ => and_congr_right fun _ => ?_
    refine exists_congr fun s₃ => and_congr_right fun _ => ?_
    split
    · next h => simp [h]
    · next s₄ h => simp [h, eq_comm]
    · next s₄ h => simp [h]
    · next hend hclose hcomma =>
      simp only [reduceCtorEq, false_iff, not_or, not_and, not_exists]
      exact ⟨fun h => absurd h (hclose _), fun s₂ h => absurd h (hcomma _)⟩
  · next hend hquote =>
    simp only [reduceCtorEq, false_iff, not_exists, not_and]
    exact fun s₀ s₁ s₂ s₃ h => absurd h (hquote s₀)

end Rounds

/-! ## Strings and numbers -/

/-- Where a reader of a string stands and where one that steps over it does. The latter does not
care for the two halves of a pair, so it is back inside the string when the former waits for the
second half. -/
inductive Pending.Loosens : Pending → Pending → Prop where
  | nothing : Loosens .nothing .nothing
  | escape : Loosens .escape .escape
  | hex (high high' : Option Nat) (missing value value' : Nat) :
      Loosens (.hex high missing value) (.hex high' missing value')
  | low (high : Nat) : Loosens (.low high) .nothing
  | lowMark (high : Nat) : Loosens (.lowMark high) .escape

/-- Behind four digits the string goes on, whatever they mean. -/
theorem Pending.Loosens.of_readUnit {high : Option Nat} {value : Nat} {pending : Pending}
    {c : Option Char} (h : readUnit high value = .ok (pending, c)) :
    Pending.Loosens pending .nothing := by
  unfold readUnit at h
  split at h
  · split at h
    · obtain rfl := (Prod.mk.inj (Except.ok.inj h)).1
      exact .nothing
    · cases h
  · split at h
    · obtain rfl := (Prod.mk.inj (Except.ok.inj h)).1
      exact .low value
    · split at h
      · cases h
      · obtain rfl := (Prod.mk.inj (Except.ok.inj h)).1
        exact .nothing

/-- **A string that is read is stepped over**, whatever the reader expects next. -/
theorem skipString_of_readString {pending pending' : Pending} {clean : Bool} {t : Text}
    (hp : pending.Loosens pending') (h : readString pending clean s = .ok (t, rest)) :
    skipString pending' s = .ok rest := by
  induction s generalizing pending pending' clean t with
  | nil => cases h
  | cons x s ih =>
    -- what is read behind a character is stepped over
    have hmap {p q : Pending} {d : Char} {clean : Bool} (hpq : p.Loosens q)
        (h : ((readString p clean s).map fun r => (d :: r.1, r.2)) = .ok (t, rest)) :
        skipString q s = .ok rest := by
      obtain ⟨t', hr, -⟩ := map_fst_eq_ok h
      exact ih hpq hr
    cases x with
    | stray b =>
      cases hp with
      | nothing => exact ih .nothing h
      | escape => cases h
      | hex => cases h
      | low => cases h
      | lowMark => cases h
    | char c =>
      cases hp with
      | nothing =>
        rw [readString] at h
        rw [skipString]
        split_ifs at h ⊢
        · rw [(Prod.mk.inj (Except.ok.inj h)).2]
        · exact ih .escape h
        · exact hmap .nothing h
      | escape =>
        rw [readString] at h
        rw [skipString]
        split_ifs at h with hu
        · rw [if_pos hu]
          exact ih (.hex none none 4 0 0) h
        · rw [if_neg hu]
          cases hd : escaped? c with
          | none =>
            rw [hd] at h
            cases h
          | some d =>
            rw [hd] at h
            exact hmap .nothing h
      | hex high high' missing value value' =>
        rw [readString] at h
        rw [skipString]
        cases hd : Text.hexValue? c with
        | none =>
          rw [hd] at h
          cases h
        | some d =>
          rw [hd] at h
          dsimp only at h ⊢
          split_ifs at h ⊢ with hm
          · split at h
            · cases h
            · next hunit => exact ih (.of_readUnit hunit) h
            · next hunit => exact hmap (.of_readUnit hunit) h
          · exact ih (.hex ..) h
      | low high =>
        rw [readString] at h
        split_ifs at h with hc
        subst hc
        exact ih (.lowMark high) h
      | lowMark high =>
        rw [readString] at h
        split_ifs at h with hc
        subst hc
        exact ih (.hex ..) h

theorem skipString_of_readText {name : String} (h : readText s = .ok (name, rest)) :
    skipString .nothing s = .ok rest := by
  obtain ⟨t, hr, -⟩ := map_fst_eq_ok h
  exact skipString_of_readString .nothing hr

/-! A number is the same for both readers, which differ in the fault that an early end is. -/

theorem readSomeDigits_keeps (missing missing' : Fault) (s : Input) :
    IsKeptBy (readSomeDigits missing s) (readSomeDigits missing' s) := by
  intro r h
  unfold readSomeDigits at h ⊢
  split at h
  · cases h
  · cases h
  · exact h

theorem readWhole_keeps (missing missing' : Fault) (s : Input) :
    IsKeptBy (readWhole missing s) (readWhole missing' s) :=
  (readSomeDigits_keeps missing missing' s).bind fun _ => .rfl

theorem readFraction_keeps (missing missing' : Fault) (s : Input) :
    IsKeptBy (readFraction missing s) (readFraction missing' s) := by
  unfold readFraction
  split
  · exact (readSomeDigits_keeps missing missing' _).bind fun _ => .rfl
  · exact .rfl

theorem readPower_keeps (missing missing' : Fault) (s : Input) :
    IsKeptBy (readPower missing s) (readPower missing' s) := by
  unfold readPower
  split
  · split_ifs
    · exact (readSomeDigits_keeps missing missing' _).bind fun _ => .rfl
    · exact .rfl
  · exact .rfl

theorem readNumeral_keeps (missing missing' : Fault) (s : Input) :
    IsKeptBy (readNumeral missing s) (readNumeral missing' s) :=
  (readWhole_keeps missing missing' _).bind fun _ =>
    (readFraction_keeps missing missing' _).bind fun _ =>
      (readPower_keeps missing missing' _).bind fun _ => .rfl

/-! ## Containers -/

section Containers

variable {item : Input → Except Fault (α × Input)} {item' : Input → Except Fault (β × Input)}
  {member : σ → String → Input → Except Fault (σ × Input)} {skip skip' : Input → Except Fault Input}

/-- Where the first reader comes to an end, the second one does at the same place. -/
def Follows (item : Input → Except Fault (α × Input)) (item' : Input → Except Fault (β × Input)) :
    Prop :=
  ∀ s x rest, item s = .ok (x, rest) → ∃ y, item' s = .ok (y, rest)

/-- Step over an item whose value is not wanted. -/
theorem follows_step (h : ∀ s x rest, item s = .ok (x, rest) → skip s = .ok rest) :
    Follows item fun s => (skip s).map fun s => ((), s) := by
  intro s x rest hread
  refine ⟨(), ?_⟩
  dsimp only
  rw [h s x rest hread, map_ok]

theorem readItems_follows (h : Follows item item') (n : Nat) :
    Follows (readItems item n) (readItems item' n) := by
  intro s xs rest hread
  induction n generalizing s xs with
  | zero => cases hread
  | succ n ih =>
    obtain ⟨x, s₁, hx, hback⟩ := readItems_succ_iff.mp hread
    obtain ⟨y, hy⟩ := h s x s₁ hx
    rcases hback with ⟨hclose, -⟩ | ⟨s₂, xs', hcomma, hopen, hrest, -⟩
    · exact ⟨[y], readItems_succ_iff.mpr ⟨y, s₁, hy, Or.inl ⟨hclose, rfl⟩⟩⟩
    · obtain ⟨ys, hys⟩ := ih _ _ hrest
      exact ⟨y :: ys,
        readItems_succ_iff.mpr ⟨y, s₁, hy, Or.inr ⟨s₂, ys, hcomma, hopen, hys, rfl⟩⟩⟩

theorem readArray_follows (h : Follows item item') :
    Follows (readArray item) (readArray item') := by
  intro s xs rest hread
  unfold readArray at hread ⊢
  split at hread
  · next s₁ =>
    obtain rfl := (Prod.mk.inj (Except.ok.inj hread)).2
    exact ⟨[], rfl⟩
  · exact readItems_follows h _ _ _ _ hread

/-- Step over the members of an object behind its opening brace. -/
def skipObject (skip : Input → Except Fault Input) (s : Input) : Except Fault Input :=
  match skipBlanks s with
  | .char '\x7d' :: s => .ok s
  | s => skipNested.skipMembers skip (s.length + 1) s

theorem skipMembers_of_readMembers
    (h : ∀ a name s b rest, member a name s = .ok (b, rest) →
      ∃ s', readColon s = .ok s' ∧ skip s' = .ok rest)
    {n : Nat} {a b : σ} (hread : readMembers member n a s = .ok (b, rest)) :
    skipNested.skipMembers skip n s = .ok rest := by
  induction n generalizing a s with
  | zero => cases hread
  | succ n ih =>
    obtain ⟨s₀, name, s₁, a', s₂, rfl, hname, hmember, hback⟩ := readMembers_succ_iff.mp hread
    obtain ⟨s', hcolon, hskip⟩ := h a name s₁ a' s₂ hmember
    refine skipMembers_succ_iff.mpr
      ⟨s₀, s₁, s', s₂, rfl, skipString_of_readText hname, hcolon, hskip, ?_⟩
    rcases hback with ⟨hclose, -⟩ | ⟨s₃, hcomma, hrest⟩
    · exact Or.inl hclose
    · exact Or.inr ⟨s₃, hcomma, ih hrest⟩

theorem skipObject_of_readObject
    (h : ∀ a name s b rest, member a name s = .ok (b, rest) →
      ∃ s', readColon s = .ok s' ∧ skip s' = .ok rest)
    {a b : σ} (hread : readObject member a s = .ok (b, rest)) : skipObject skip s = .ok rest := by
  unfold readObject at hread
  unfold skipObject
  split
  · next s₁ heq =>
    simp only [heq] at hread
    rw [(Prod.mk.inj (Except.ok.inj hread)).2]
  · next hclose =>
    split at hread
    · next s₁ heq => exact absurd heq (hclose s₁)
    · exact skipMembers_of_readMembers h hread

theorem skipMembers_keeps (h : ∀ s, IsKeptBy (skip s) (skip' s)) (n : Nat) (s : Input) :
    IsKeptBy (skipNested.skipMembers skip n s) (skipNested.skipMembers skip' n s) := by
  intro rest hread
  induction n generalizing s with
  | zero => cases hread
  | succ n ih =>
    obtain ⟨s₀, s₁, s₂, s₃, rfl, hname, hcolon, hskip, hback⟩ := skipMembers_succ_iff.mp hread
    refine skipMembers_succ_iff.mpr ⟨s₀, s₁, s₂, s₃, rfl, hname, hcolon, h s₂ s₃ hskip, ?_⟩
    rcases hback with hclose | ⟨s₄, hcomma, hrest⟩
    · exact Or.inl hclose
    · exact Or.inr ⟨s₄, hcomma, ih _ hrest⟩

theorem skipObject_keeps (h : ∀ s, IsKeptBy (skip s) (skip' s)) (s : Input) :
    IsKeptBy (skipObject skip s) (skipObject skip' s) := by
  unfold skipObject
  split
  · exact .rfl
  · exact skipMembers_keeps h _ _

end Containers

/-! ## Values -/

theorem keepMember_eq_ok {value : Input → Except Fault (Json × Input)} {o o' : Object}
    {name : String} (h : keepMember value o name s = .ok (o', rest)) :
    ∃ s' v, readColon s = .ok s' ∧ value s' = .ok (v, rest) ∧ o' = o.insert name v := by
  obtain ⟨s', hcolon, h⟩ := bind_eq_ok_iff.mp h
  obtain ⟨⟨v, r⟩, hv, h⟩ := bind_eq_ok_iff.mp h
  obtain ⟨rfl, rfl⟩ := Prod.mk.inj (Except.ok.inj h)
  exact ⟨s', v, hcolon, hv, rfl⟩

/-- **A value that is read is stepped over**, with the same depth allowed. -/
theorem skipNested_of_readValue {depth : Nat} {v : Json} (h : readValue depth s = .ok (v, rest)) :
    skipNested depth s = .ok rest := by
  induction depth using Nat.strongRecOn generalizing s v rest with
  | ind depth ih =>
    -- both readers tell the cases apart by the same first symbol
    unfold readValue at h
    unfold skipNested
    split at h
    case h_1 => cases h
    case h_2 => exact (map_mk_eq_ok h).1
    case h_3 => exact (map_mk_eq_ok h).1
    case h_4 => exact (map_mk_eq_ok h).1
    case h_5 =>
      obtain ⟨name, hr, -⟩ := map_fst_eq_ok h
      exact skipString_of_readText hr
    case h_6 s₁ _ =>
      split at h
      · cases h
      · next depth =>
        obtain ⟨items, hr, -⟩ := map_fst_eq_ok h
        obtain ⟨us, hus⟩ := readArray_follows
          (follows_step fun s x rest => ih depth (Nat.lt_succ_self depth)) s₁ items rest hr
        rw [hus, map_ok]
    case h_7 =>
      split at h
      · cases h
      · next depth =>
        obtain ⟨o, hr, -⟩ := map_fst_eq_ok h
        refine skipObject_of_readObject (fun a name s b rest hmember => ?_) hr
        obtain ⟨s', v, hcolon, hv, -⟩ := keepMember_eq_ok hmember
        exact ⟨s', hcolon, ih depth (Nat.lt_succ_self depth) hv⟩
    case h_8 =>
      split_ifs at h ⊢
      obtain ⟨n, hr, -⟩ := map_fst_eq_ok h
      obtain ⟨⟨numeral, r⟩, hnumeral, hvalue⟩ := bind_eq_ok_iff.mp hr
      dsimp only at hvalue
      split at hvalue
      · obtain rfl := (Prod.mk.inj (Except.ok.inj hvalue)).2
        rw [readNumeral_keeps _ .malformed _ _ hnumeral, map_ok]
      · cases hvalue
    case h_9 => cases h

/-- Allowing more depth changes nothing for what is stepped over already. -/
theorem skipNested_mono {depth depth' : Nat} (hd : depth ≤ depth') (s : Input) :
    IsKeptBy (skipNested depth s) (skipNested depth' s) := by
  induction depth using Nat.strongRecOn generalizing depth' s with
  | ind depth ih =>
    intro rest h
    unfold skipNested at h ⊢
    split at h
    case h_6 s₁ _ =>
      split at h
      · cases h
      · next depth =>
        obtain ⟨depth', rfl⟩ := Nat.exists_eq_add_one.mpr (Nat.zero_lt_of_lt hd)
        obtain ⟨⟨us, r⟩, hr, rfl⟩ := map_eq_ok_iff.mp h
        have hitem : Follows (fun s => (skipNested depth s).map fun s => ((), s))
            (fun s => (skipNested depth' s).map fun s => ((), s)) := by
          refine follows_step fun s x rest hread => ?_
          have hr := (map_mk_eq_ok hread).1
          exact ih depth (Nat.lt_succ_self depth) (Nat.le_of_succ_le_succ hd) s rest hr
        obtain ⟨us', hus⟩ := readArray_follows hitem s₁ us r hr
        dsimp only
        rw [hus, map_ok]
    case h_7 s₁ _ =>
      split at h
      · cases h
      · next depth =>
        obtain ⟨depth', rfl⟩ := Nat.exists_eq_add_one.mpr (Nat.zero_lt_of_lt hd)
        exact skipObject_keeps
          (ih depth (Nat.lt_succ_self depth) (Nat.le_of_succ_le_succ hd)) s₁ rest h
    all_goals exact h

/-- The input behind the value at the front. -/
def After (s rest : Input) : Prop := ∃ depth, skipNested depth s = .ok rest

/-- There is one place behind a value. -/
theorem After.eq {s rest rest' : Input} (h : After s rest) (h' : After s rest') : rest = rest' := by
  obtain ⟨depth, h⟩ := h
  obtain ⟨depth', h'⟩ := h'
  -- a depth that is enough for both leads to both places
  have hleft := skipNested_mono (Nat.le_max_left depth depth') s rest h
  have hright := skipNested_mono (Nat.le_max_right depth depth') s rest' h'
  exact Except.ok.inj (hleft.symm.trans hright)

/-! ## Values that are kept -/

theorem readItems_all {item : Input → Except Fault (α × Input)} {P : α → Prop}
    (h : ∀ s x rest, item s = .ok (x, rest) → P x) {n : Nat} {xs : List α}
    (hread : readItems item n s = .ok (xs, rest)) : ∀ x ∈ xs, P x := by
  induction n generalizing s xs with
  | zero => cases hread
  | succ n ih =>
    obtain ⟨x, s₁, hx, hback⟩ := readItems_succ_iff.mp hread
    rcases hback with ⟨-, rfl⟩ | ⟨s₂, ys, -, -, hys, rfl⟩
    · exact List.forall_mem_singleton.mpr (h s x s₁ hx)
    · exact List.forall_mem_cons.mpr ⟨h s x s₁ hx, ih hys⟩

/-- What holds of each item that is read holds of every item of an array. -/
theorem readArray_all {item : Input → Except Fault (α × Input)} {P : α → Prop}
    (h : ∀ s x rest, item s = .ok (x, rest) → P x) {xs : List α}
    (hread : readArray item s = .ok (xs, rest)) : ∀ x ∈ xs, P x := by
  unfold readArray at hread
  split at hread
  · obtain rfl := (Prod.mk.inj (Except.ok.inj hread)).1
    exact fun x hx => absurd hx List.not_mem_nil
  · exact readItems_all h hread

theorem readMembers_invariant {member : σ → String → Input → Except Fault (σ × Input)}
    {P : σ → Prop} (h : ∀ a name s b rest, member a name s = .ok (b, rest) → P a → P b) {n : Nat}
    {a b : σ} (hread : readMembers member n a s = .ok (b, rest)) (ha : P a) : P b := by
  induction n generalizing a s with
  | zero => cases hread
  | succ n ih =>
    obtain ⟨s₀, name, s₁, a', s₂, -, -, hmember, hback⟩ := readMembers_succ_iff.mp hread
    have ha' := h a name s₁ a' s₂ hmember ha
    rcases hback with ⟨-, rfl⟩ | ⟨s₃, -, hrest⟩
    · exact ha'
    · exact ih hrest ha'

/-- What each member preserves holds behind an object if it did in front. -/
theorem readObject_invariant {member : σ → String → Input → Except Fault (σ × Input)}
    {P : σ → Prop} (h : ∀ a name s b rest, member a name s = .ok (b, rest) → P a → P b) {a b : σ}
    (hread : readObject member a s = .ok (b, rest)) (ha : P a) : P b := by
  unfold readObject at hread
  split at hread
  · exact (Prod.mk.inj (Except.ok.inj hread)).1 ▸ ha
  · exact readMembers_invariant h hread ha

/-- The members of an object are kept when the values of all of them are. -/
theorem forall_entries_of_readObject {value : Input → Except Fault (Json × Input)}
    {P : Json → Prop} (h : ∀ s v rest, value s = .ok (v, rest) → P v) {o : Object}
    (hread : readObject (keepMember value) ∅ s = .ok (o, rest)) : ∀ m ∈ o.entries, P m.2 := by
  refine readObject_invariant (P := fun o : Object => ∀ m ∈ o.entries, P m.2)
    (fun a name s b rest hmember ha m hm => ?_) hread fun m hm => absurd hm List.not_mem_nil
  obtain ⟨s', v, -, hv, rfl⟩ := keepMember_eq_ok hmember
  rcases Ordered.mem_put hm with rfl | hm
  · exact h s' v rest hv
  · exact ha m hm

theorem IsKept.of_readNumber {depth : Nat} {n : Number} (h : readNumber s = .ok (n, rest)) :
    IsKept depth (.number n) := by
  cases n with
  | float x => exact .float x
  | integer i =>
    obtain ⟨⟨numeral, r⟩, -, h⟩ := bind_eq_ok_iff.mp h
    dsimp only at h
    split at h
    · next hvalue =>
      rw [(Prod.mk.inj (Except.ok.inj h)).1] at hvalue
      obtain ⟨-, -, hexact, -, rfl⟩ := Numeral.value?_eq_integer_iff.mp hvalue
      exact .integer hexact
    · cases h

/-- The outcome of a reader of objects is kept when that of the reader of values is. -/
theorem IsKept.of_readObject {depth : Nat} {value : Input → Except Fault (Json × Input)}
    (h : ∀ s v rest, value s = .ok (v, rest) → IsKept depth v) {o : Object}
    (hread : readObject (keepMember value) ∅ s = .ok (o, rest)) :
    IsKept (depth + 1) (.ofObject o) :=
  .object o.distinct (forall_entries_of_readObject h hread)

/-- **The outcome of a reader is kept by it.** -/
theorem IsKept.of_readValue {depth : Nat} {v : Json} (h : readValue depth s = .ok (v, rest)) :
    IsKept depth v := by
  induction depth using Nat.strongRecOn generalizing s v rest with
  | ind depth ih =>
    unfold readValue at h
    split at h
    case h_1 => cases h
    case h_2 => exact (map_mk_eq_ok h).2 ▸ .null
    case h_3 => exact (map_mk_eq_ok h).2 ▸ .bool true
    case h_4 => exact (map_mk_eq_ok h).2 ▸ .bool false
    case h_5 =>
      obtain ⟨name, -, rfl⟩ := map_fst_eq_ok h
      exact .string name
    case h_6 =>
      split at h
      · cases h
      · next depth =>
        obtain ⟨items, hr, rfl⟩ := map_fst_eq_ok h
        exact .array (readArray_all (fun s v rest => ih depth (Nat.lt_succ_self depth)) hr)
    case h_7 =>
      split at h
      · cases h
      · next depth =>
        obtain ⟨o, hr, rfl⟩ := map_fst_eq_ok h
        exact .of_readObject (fun s v rest => ih depth (Nat.lt_succ_self depth)) hr
    case h_8 =>
      split_ifs at h
      obtain ⟨n, hr, rfl⟩ := map_fst_eq_ok h
      exact .of_readNumber hr
    case h_9 => cases h

/-- Of all values `null` alone starts with its first letter. -/
theorem eq_null_iff_of_readValue {depth : Nat} {v : Json} (h : readValue depth s = .ok (v, rest)) :
    v = .null ↔ ∃ t, skipBlanks s = .char 'n' :: t := by
  have hother {c : Char} {t : Input} (ht : skipBlanks s = .char c :: t) (hc : c ≠ 'n')
      (hv : v ≠ .null) : v = .null ↔ ∃ t, skipBlanks s = .char 'n' :: t := by
    refine iff_of_false hv ?_
    rintro ⟨t', ht'⟩
    exact hc (Symbol.head_eq (ht.symm.trans ht'))
  unfold readValue at h
  split at h
  case h_1 => cases h
  case h_2 t ht => exact iff_of_true (map_mk_eq_ok h).2.symm ⟨t, ht⟩
  case h_3 ht =>
    obtain ⟨-, rfl⟩ := map_mk_eq_ok h
    exact hother ht (by decide) Json.noConfusion
  case h_4 ht =>
    obtain ⟨-, rfl⟩ := map_mk_eq_ok h
    exact hother ht (by decide) Json.noConfusion
  case h_5 ht =>
    obtain ⟨name, -, rfl⟩ := map_fst_eq_ok h
    exact hother ht (by decide) Json.noConfusion
  case h_6 ht =>
    split at h
    · cases h
    · obtain ⟨items, -, rfl⟩ := map_fst_eq_ok h
      exact hother ht (by decide) Json.noConfusion
  case h_7 ht =>
    split at h
    · cases h
    · obtain ⟨o, -, rfl⟩ := map_fst_eq_ok h
      exact hother ht (by decide) Json.noConfusion
  case h_8 hn _ _ _ _ _ ht =>
    split_ifs at h
    obtain ⟨n, -, rfl⟩ := map_fst_eq_ok h
    exact hother ht hn Json.noConfusion
  case h_9 => cases h

end Json

end ForgeQuery
