import ForgeQuery.Json.Record
import ForgeQuery.Proofs.Layout
import ForgeQuery.Proofs.OrderedLaws
import ForgeQuery.Proofs.Utf8
import ForgeQuery.Proofs.WrittenScalar
import Mathlib.Data.List.Forall2

/-!
# Reading written values

A value that is kept by a reader and whose numbers are integers is read back from its text in any
layout, with the members of every object in their order (`readValue_write`).

Containers are read by loops over their items and members. What the loops do with a written
container depends only on what is done with each part, so it is said once for all readers: of an
array by a reader for each of its items (`readArray_write`), of an object by the steps that its
members take (`TakesAll`, `readObject_write`), and of a record by the fields that its members name
(`readRecord_write`).
-/

namespace ForgeQuery

namespace Json

/-! ## Numbers inside a value -/

mutual

/-- The numbers that stand in a value, at any depth. -/
def numbers : Json → List Number
  | .number n => [n]
  | .array items => itemNumbers items
  | .object members => memberNumbers members
  | _ => []

/-- The numbers that stand in items. -/
def itemNumbers : List Json → List Number
  | [] => []
  | v :: rest => numbers v ++ itemNumbers rest

/-- The numbers that stand in the values of members. -/
def memberNumbers : List (String × Json) → List Number
  | [] => []
  | (_, v) :: rest => numbers v ++ memberNumbers rest

end

theorem mem_itemNumbers {n : Number} {items : List Json} :
    n ∈ itemNumbers items ↔ ∃ v ∈ items, n ∈ v.numbers := by
  induction items with
  | nil => simp [itemNumbers]
  | cons v rest ih => simp [itemNumbers, ih]

theorem mem_memberNumbers {n : Number} {members : List (String × Json)} :
    n ∈ memberNumbers members ↔ ∃ m ∈ members, n ∈ m.2.numbers := by
  induction members with
  | nil => simp [memberNumbers]
  | cons m rest ih => simp only [memberNumbers, List.mem_append, ih, List.exists_mem_cons_iff]

instance (n : Number) : Decidable (∃ i, n = .integer i) :=
  match n with
  | .integer i => isTrue ⟨i, rfl⟩
  | .float _ => isFalse fun ⟨_, h⟩ => Number.noConfusion h

/-- Every number that stands in the value is an integer: none of them is a floating point number,
which is what a numeral is read as that does not fit into 64 bits or is a negative zero. -/
def IsIntegral (v : Json) : Prop := ∀ n ∈ v.numbers, ∃ i, n = .integer i

instance (v : Json) : Decidable v.IsIntegral :=
  decidable_of_iff (v.numbers.all (fun n => decide (∃ i, n = .integer i)) = true)
    (by simp [IsIntegral])

theorem isIntegral_array_iff {items : List Json} :
    IsIntegral (.array items) ↔ ∀ v ∈ items, v.IsIntegral := by
  simp only [IsIntegral, numbers, mem_itemNumbers]
  constructor
  · intro h v hv n hn
    exact h n ⟨v, hv, hn⟩
  · rintro h n ⟨v, hv, hn⟩
    exact h v hv n hn

theorem isIntegral_object_iff {members : List (String × Json)} :
    IsIntegral (.object members) ↔ ∀ m ∈ members, m.2.IsIntegral := by
  simp only [IsIntegral, numbers, mem_memberNumbers]
  constructor
  · intro h m hm n hn
    exact h n ⟨m, hm, hn⟩
  · rintro h n ⟨m, hm, hn⟩
    exact h m hm n hn

theorem IsIntegral.item {items : List Json} (h : IsIntegral (.array items)) {v : Json}
    (hv : v ∈ items) : v.IsIntegral :=
  isIntegral_array_iff.mp h v hv

theorem IsIntegral.member {members : List (String × Json)} (h : IsIntegral (.object members))
    {m : String × Json} (hm : m ∈ members) : m.2.IsIntegral :=
  isIntegral_object_iff.mp h m hm

/-! ## Values that a reader keeps -/

/-- The values that can be the outcome of a reader that allows so many containers around each
other: integers are held exactly, and the names of an object are distinct. -/
inductive IsKept : Nat → Json → Prop where
  | null {depth : Nat} : IsKept depth .null
  | bool {depth : Nat} (b : Bool) : IsKept depth (.bool b)
  | integer {depth : Nat} {n : Int} (hn : isExact n = true) : IsKept depth (.integer n)
  | float {depth : Nat} (x : Binary64) : IsKept depth (.number (.float x))
  | string {depth : Nat} (s : String) : IsKept depth (.string s)
  | array {depth : Nat} {items : List Json} (h : ∀ v ∈ items, IsKept depth v) :
      IsKept (depth + 1) (.array items)
  | object {depth : Nat} {members : List (String × Json)}
      (hnames : (members.map Prod.fst).Nodup) (h : ∀ m ∈ members, IsKept depth m.2) :
      IsKept (depth + 1) (.object members)

/-! ## The front of a written value -/

/-- The input goes on at once with a value: its first character is no blank and closes no array. -/
def Opens (s : Input) : Prop := ∃ c rest, s = .char c :: rest ∧ isBlank (.char c) = false ∧ c ≠ ']'

variable {s : Input}

theorem Opens.append (h : Opens s) (more : Input) : Opens (s ++ more) := by
  obtain ⟨c, rest, rfl, hblank, hclose⟩ := h
  exact ⟨c, rest ++ more, rfl, hblank, hclose⟩

theorem Opens.skipBlanks_eq (h : Opens s) : skipBlanks s = s := by
  obtain ⟨c, rest, rfl, hblank, -⟩ := h
  rw [skipBlanks, List.dropWhile_cons_of_neg (Bool.eq_false_iff.mp hblank)]

theorem Opens.skipBlanks_gap (h : Opens s) {gap : Text} (hgap : AllBlank gap) :
    skipBlanks (Symbol.ofText gap ++ s) = s := by
  rw [skipBlanks_append hgap, h.skipBlanks_eq]

theorem isBlank_eq_false_of_startsNumber {c : Char} (hc : startsNumber c = true) :
    isBlank (.char c) = false := by
  refine Bool.eq_false_iff.mpr fun h => ?_
  simp only [isBlank, Bool.or_eq_true, beq_iff_eq, Symbol.char.injEq] at h
  rcases h with ((rfl | rfl) | rfl) | rfl <;> exact absurd hc (by decide)

/-- An integer starts with a digit or with its minus. -/
theorem renderInteger_starts (n : Int) :
    ∃ c t, renderInteger n = c :: t ∧ startsNumber c = true := by
  cases n with
  | ofNat n =>
    obtain ⟨c, t, h⟩ := List.exists_cons_of_ne_nil (Text.decimal_ne_nil n)
    have hc : Text.isDecimal c = true :=
      Text.isDecimal_of_mem_decimal (n := n) (h ▸ List.mem_cons_self)
    exact ⟨c, t, h, by rw [startsNumber, hc, Bool.or_true]⟩
  | negSucc n => exact ⟨'-', _, rfl, rfl⟩

theorem opens_write (L : Layout) (level : Nat) {v : Json} (hv : v.IsIntegral) :
    Opens (Symbol.ofText (L.write level v)) := by
  cases v with
  | null => exact ⟨'n', _, rfl, rfl, by decide⟩
  | bool b =>
    cases b with
    | true => exact ⟨'t', _, rfl, rfl, by decide⟩
    | false => exact ⟨'f', _, rfl, rfl, by decide⟩
  | number n =>
    obtain ⟨i, rfl⟩ := hv n (by rw [numbers]; exact List.mem_singleton.mpr rfl)
    obtain ⟨c, t, h, hc⟩ := renderInteger_starts i
    refine ⟨c, Symbol.ofText t, ?_, isBlank_eq_false_of_startsNumber hc, ?_⟩
    · rw [Layout.write, render, Number.render, h, Symbol.ofText_cons]
    · rintro rfl
      exact absurd hc (by decide)
  | string name => exact ⟨'"', _, by rw [Layout.write, render, renderString]; rfl, rfl, by decide⟩
  | array items => exact ⟨'[', _, by rw [Layout.write]; rfl, rfl, by decide⟩
  | object members => exact ⟨'{', _, by rw [Layout.write]; rfl, rfl, by decide⟩

/-! ## Parts and what follows them -/

theorem continuesNumber_eq_false_of_isBlank {c : Char} (hc : isBlank (.char c) = true) :
    continuesNumber c = false := by
  simp only [isBlank, Bool.or_eq_true, beq_iff_eq, Symbol.char.injEq] at hc
  rcases hc with ((rfl | rfl) | rfl) | rfl <;> decide

section Parts

variable {finish : Text} {close : Char} (hfinish : AllBlank finish)

include hfinish

theorem isStopped_append (hs : IsStopped s) : IsStopped (Symbol.ofText finish ++ s) := by
  cases finish with
  | nil => exact hs
  | cons c finish =>
    exact isStopped_cons (continuesNumber_eq_false_of_isBlank (hfinish c List.mem_cons_self)) _

/-- No number goes on behind a part. -/
theorem isStopped_follow (hclose : continuesNumber close = false) (gap : Text) (parts : List Text)
    (s : Input) :
    IsStopped (Symbol.ofText (follow gap (finish ++ [close]) parts) ++ s) := by
  cases parts with
  | cons part parts => exact isStopped_cons (by decide) _
  | nil =>
    rw [follow, Symbol.ofText_append, List.append_assoc]
    exact isStopped_append hfinish (isStopped_cons hclose s)

theorem skipBlanks_finish (hclose : isBlank (.char close) = false) (s : Input) :
    skipBlanks (Symbol.ofText (finish ++ [close]) ++ s) = .char close :: s := by
  rw [Symbol.ofText_append, List.append_assoc, skipBlanks_append hfinish]
  exact List.dropWhile_cons_of_neg (Bool.eq_false_iff.mp hclose)

end Parts

theorem length_le_follow (gap finish : Text) (parts : List Text) :
    parts.length ≤ (follow gap finish parts).length := by
  induction parts with
  | nil => exact Nat.zero_le _
  | cons part parts ih =>
    simp only [follow, List.length_cons, List.length_append]
    omega

/-! ## Arrays -/

variable {α σ : Type} {L : Layout}

/-- The reader takes the text of `v` off the front of an input and gives `x`. -/
structure Reads (L : Layout) (item : Input → Except Fault (α × Input)) (v : Json) (x : α) :
    Prop where
  /-- the text is seen to begin a value -/
  opens : ∀ level, Opens (Symbol.ofText (L.write level v))
  /-- the text is read, and what follows it is left -/
  reads : ∀ level s, IsStopped s → item (Symbol.ofText (L.write level v) ++ s) = .ok (x, s)

variable {item : Input → Except Fault (α × Input)}

/-- The last round of the loop over items. -/
theorem readItems_close {x : α} {after more : Input} (h : item s = .ok (x, after))
    (hafter : skipBlanks after = .char ']' :: more) (n : Nat) :
    readItems item (n + 1) s = .ok ([x], more) := by
  rw [readItems, h, bind_ok]
  simp only [hafter]

/-- A round of the loop over items that has others behind it. -/
theorem readItems_comma {x : α} {gap : Text} {more : Input} (hgap : AllBlank gap)
    (h : item s = .ok (x, .char ',' :: (Symbol.ofText gap ++ more))) (hmore : Opens more) (n : Nat) :
    readItems item (n + 1) s = (readItems item n more).map fun r => (x :: r.1, r.2) := by
  have hcomma (s : Input) : skipBlanks (.char ',' :: s) = .char ',' :: s := rfl
  rw [readItems, h, bind_ok]
  simp only [hcomma, hmore.skipBlanks_gap hgap]
  obtain ⟨c, rest, rfl, -, hclose⟩ := hmore
  split
  · next heq => exact absurd (Symbol.head_eq heq) hclose
  · cases readItems item n (.char c :: rest) <;> rfl

/-- Items are read one after the other, with a round of the loop for each. -/
theorem readItems_follow {v : Json} {items : List Json} {x : α} {xs : List α}
    (hv : Reads L item v x) (hitems : List.Forall₂ (Reads L item) items xs) {finish : Text}
    (hfinish : AllBlank finish) (level : Nat) {n : Nat} (hn : items.length < n) (s : Input) :
    readItems item n (Symbol.ofText (L.write level v
        ++ follow (L.gap level) (finish ++ [']']) (items.map (L.write level))) ++ s)
      = .ok (x :: xs, s) := by
  obtain ⟨n, rfl⟩ := Nat.exists_eq_add_one.mpr (Nat.zero_lt_of_lt hn)
  rw [Symbol.ofText_append, List.append_assoc]
  induction hitems generalizing n v x with
  | nil =>
    have hround := hv.reads level _
      (isStopped_follow hfinish (by decide : continuesNumber ']' = false) (L.gap level) [] s)
    exact readItems_close hround (skipBlanks_finish hfinish (by decide) s) n
  | @cons w y rest ys hw hrest ih =>
    have hround := hv.reads level _
      (isStopped_follow hfinish (by decide : continuesNumber ']' = false) (L.gap level)
        ((w :: rest).map (L.write level)) s)
    obtain ⟨n, rfl⟩ := Nat.exists_eq_add_one.mpr (Nat.zero_lt_of_lt (Nat.lt_of_succ_lt_succ hn))
    simp only [List.map_cons, follow, Symbol.ofText_cons, Symbol.ofText_append, List.cons_append,
      List.append_assoc] at hround ⊢
    rw [readItems_comma (L.gap_allBlank level) hround ((hw.opens level).append _),
      ih hw n (Nat.lt_of_succ_lt_succ hn), map_ok]

/-- **A written array is read item by item.** -/
theorem readArray_write {items : List Json} {xs : List α}
    (h : List.Forall₂ (Reads L item) items xs) (level : Nat) (s : Input) :
    readArray item (Symbol.ofText (L.enclose level ']' (items.map (L.write (level + 1)))) ++ s)
      = .ok (xs, s) := by
  cases h with
  | nil => rfl
  | @cons v x rest ys hv hrest =>
    let body := L.write (level + 1) v
      ++ follow (L.gap (level + 1)) (L.gap level ++ [']']) (rest.map (L.write (level + 1)))
    have hopen : Opens (Symbol.ofText body ++ s) := by
      rw [Symbol.ofText_append, List.append_assoc]
      exact (hv.opens (level + 1)).append _
    have hlength : rest.length < (Symbol.ofText body ++ s).length := by
      have hfollow := length_le_follow (L.gap (level + 1)) (L.gap level ++ [']'])
        (rest.map (L.write (level + 1)))
      obtain ⟨c, t, hc, -, -⟩ := hv.opens (level + 1)
      have hpos := congrArg List.length hc
      simp only [body, Symbol.ofText, List.length_append, List.length_map, List.length_cons]
        at hfollow hpos ⊢
      omega
    have hitems := readItems_follow hv hrest (L.gap_allBlank level) (level + 1) hlength s
    have hskip : skipBlanks (Symbol.ofText (L.gap (level + 1) ++ body) ++ s)
        = Symbol.ofText body ++ s := by
      rw [Symbol.ofText_append, List.append_assoc, hopen.skipBlanks_gap (L.gap_allBlank _)]
    rw [List.map_cons, Layout.enclose, readArray, hskip]
    split
    · next heq =>
      obtain ⟨c, t, hc, -, hclose⟩ := hopen
      exact absurd (Symbol.head_eq (hc.symm.trans heq)) hclose
    · exact hitems

/-! ## Objects -/

/-- With the members so far at `sofar`, a member of this name and value leads to `next`. -/
def Takes (L : Layout) (member : σ → String → Input → Except Fault (σ × Input)) (sofar : σ)
    (name : String) (v : Json) (next : σ) : Prop :=
  ∀ level s, IsStopped s →
    member sofar name (.char ':' :: (Symbol.ofText (L.colon ++ L.write level v) ++ s))
      = .ok (next, s)

/-- The members one after the other lead from one end to the other. -/
inductive TakesAll (L : Layout) (member : σ → String → Input → Except Fault (σ × Input)) :
    σ → List (String × Json) → σ → Prop where
  | nil {sofar : σ} : TakesAll L member sofar [] sofar
  | cons {sofar next final : σ} {name : String} {v : Json} {rest : List (String × Json)}
      (hmember : Takes L member sofar name v next) (hrest : TakesAll L member next rest final) :
      TakesAll L member sofar ((name, v) :: rest) final

variable {member : σ → String → Input → Except Fault (σ × Input)}

theorem TakesAll.append {a b c : σ} {front behind : List (String × Json)}
    (hfront : TakesAll L member a front b) (hbehind : TakesAll L member b behind c) :
    TakesAll L member a (front ++ behind) c := by
  induction hfront with
  | nil => exact hbehind
  | cons hmember _ ih => exact .cons hmember (ih hbehind)

/-- The last round of the loop over members. -/
theorem readMembers_close {sofar next : σ} {name : String} {after more : Input}
    (h : member sofar name s = .ok (next, after))
    (hafter : skipBlanks after = .char '\x7d' :: more) (n : Nat) :
    readMembers member (n + 1) sofar (Symbol.ofText (renderString name) ++ s)
      = .ok (next, more) := by
  rw [renderString, Symbol.ofText_cons, List.cons_append, readMembers, readText_renderString,
    bind_ok]
  simp only [h, bind_ok, hafter]

/-- A round of the loop over members that has others behind it. -/
theorem readMembers_comma {sofar next : σ} {name : String} {more : Input}
    (h : member sofar name s = .ok (next, .char ',' :: more)) (n : Nat) :
    readMembers member (n + 1) sofar (Symbol.ofText (renderString name) ++ s)
      = readMembers member n next (skipBlanks more) := by
  rw [renderString, Symbol.ofText_cons, List.cons_append, readMembers, readText_renderString,
    bind_ok]
  simp only [h]
  rfl

/-- A written member begins with the quote of its name, so that only the gap in front of it is
passed over. -/
theorem skipBlanks_writeMember (level : Nat) (m : String × Json) (behind : Text) (s : Input) :
    skipBlanks (Symbol.ofText (L.gap level ++ (L.writeMember level m ++ behind)) ++ s)
      = Symbol.ofText (L.writeMember level m ++ behind) ++ s := by
  rw [Symbol.ofText_append, List.append_assoc, skipBlanks_append (L.gap_allBlank level),
    Layout.writeMember, renderString]
  rfl

/-- Members are taken one after the other, with a round of the loop for each. -/
theorem readMembers_follow {start final : σ} {m : String × Json} {members : List (String × Json)}
    (h : TakesAll L member start (m :: members) final) {finish : Text}
    (hfinish : AllBlank finish) (level : Nat) {n : Nat} (hn : members.length < n) (s : Input) :
    readMembers member n start (Symbol.ofText (L.writeMember level m
        ++ follow (L.gap level) (finish ++ ['\x7d']) (members.map (L.writeMember level))) ++ s)
      = .ok (final, s) := by
  obtain ⟨n, rfl⟩ := Nat.exists_eq_add_one.mpr (Nat.zero_lt_of_lt hn)
  induction members generalizing start m n with
  | nil =>
    obtain - | ⟨hmember, - | -⟩ := h
    rename_i name v
    have hround := hmember level _
      (isStopped_follow hfinish (by decide : continuesNumber '\x7d' = false) (L.gap level) [] s)
    have hlast := readMembers_close hround (skipBlanks_finish hfinish (by decide) s) n
    simpa [Layout.writeMember, follow] using hlast
  | cons m' rest ih =>
    obtain - | ⟨hmember, hrest⟩ := h
    rename_i next name v
    have hround := hmember level _
      (isStopped_follow hfinish (by decide : continuesNumber '\x7d' = false) (L.gap level)
        ((m' :: rest).map (L.writeMember level)) s)
    obtain ⟨n, rfl⟩ := Nat.exists_eq_add_one.mpr (Nat.zero_lt_of_lt (Nat.lt_of_succ_lt_succ hn))
    rw [List.map_cons, follow, Symbol.ofText_cons, List.cons_append] at hround
    have hstep := readMembers_comma hround (n + 1)
    have hrounds := ih hrest n (Nat.lt_of_succ_lt_succ hn)
    rw [skipBlanks_writeMember, hrounds] at hstep
    simpa [Layout.writeMember, follow] using hstep

/-- **A written object is read member by member.** -/
theorem readObject_write {start final : σ} {members : List (String × Json)}
    (h : TakesAll L member start members final) (level : Nat) (s : Input) :
    readObject member start
        (Symbol.ofText (L.enclose level '\x7d' (members.map (L.writeMember (level + 1)))) ++ s)
      = .ok (final, s) := by
  cases members with
  | nil =>
    cases h
    rfl
  | cons m rest =>
    let body := L.writeMember (level + 1) m
      ++ follow (L.gap (level + 1)) (L.gap level ++ ['\x7d']) (rest.map (L.writeMember (level + 1)))
    have hlength : rest.length < (Symbol.ofText body ++ s).length + 1 := by
      have hfollow := length_le_follow (L.gap (level + 1)) (L.gap level ++ ['\x7d'])
        (rest.map (L.writeMember (level + 1)))
      simp only [body, Symbol.ofText, List.length_append, List.length_map] at hfollow ⊢
      omega
    have hmembers := readMembers_follow h (L.gap_allBlank level) (level + 1) hlength s
    have hskip : skipBlanks (Symbol.ofText (L.gap (level + 1) ++ body) ++ s)
        = Symbol.ofText body ++ s := skipBlanks_writeMember (level + 1) m _ s
    rw [List.map_cons, Layout.enclose, readObject, hskip]
    split
    · next heq =>
      rw [Symbol.ofText_append, Layout.writeMember, renderString] at heq
      exact absurd (Symbol.head_eq heq) (by decide)
    · exact hmembers

/-! ## Values -/

/-- The reader passes over blanks in front of what it reads. -/
def PassesBlanks (read : Input → Except Fault (α × Input)) : Prop :=
  ∀ s, read (skipBlanks s) = read s

theorem PassesBlanks.append {read : Input → Except Fault (α × Input)} (h : PassesBlanks read)
    {gap : Text} (hgap : AllBlank gap) (s : Input) : read (Symbol.ofText gap ++ s) = read s := by
  rw [← h, skipBlanks_append hgap, h]

theorem passesBlanks_readValue (depth : Nat) : PassesBlanks (readValue depth) := by
  intro s
  unfold readValue
  rw [skipBlanks_skipBlanks]

theorem passesBlanks_readStringValue : PassesBlanks readStringValue := by
  intro s
  unfold readStringValue
  rw [skipBlanks_skipBlanks]

theorem passesBlanks_readArrayValue (item : Input → Except Fault (α × Input)) :
    PassesBlanks (readArrayValue item) := by
  intro s
  unfold readArrayValue
  rw [skipBlanks_skipBlanks]

/-- A member that is kept takes the place and the value that an insertion gives it. -/
theorem Reads.takes {depth : Nat} {v x : Json} (h : Reads L (readValue depth) v x) (o : Object)
    (name : String) : Takes L (keepMember (readValue depth)) o name v (o.insert name x) := by
  intro level s hs
  have hcolon (s : Input) : readColon (.char ':' :: s) = .ok s := rfl
  rw [keepMember, hcolon, bind_ok, Symbol.ofText_append, List.append_assoc,
    (passesBlanks_readValue depth).append L.colon_allBlank, h.reads level s hs, bind_ok]

theorem takesAll_keepMember {depth : Nat} {members : List (String × Json)}
    (h : ∀ m ∈ members, Reads L (readValue depth) m.2 m.2) (o : Object) :
    TakesAll L (keepMember (readValue depth)) o members (o.insertAll members) := by
  induction members generalizing o with
  | nil => exact .nil
  | cons m rest ih =>
    obtain ⟨hm, hrest⟩ := List.forall_mem_cons.mp h
    exact .cons (hm.takes o m.1) (ih hrest _)

/-- Members with distinct names are kept as they are. -/
theorem readObject_keepMember {depth : Nat} {members : List (String × Json)}
    (hnames : (members.map Prod.fst).Nodup)
    (h : ∀ m ∈ members, Reads L (readValue depth) m.2 m.2) :
    ∃ o : Object, o.entries = members ∧ ∀ level s,
      readObject (keepMember (readValue depth)) ∅
          (Symbol.ofText (L.enclose level '\x7d' (members.map (L.writeMember (level + 1)))) ++ s)
        = .ok (o, s) :=
  ⟨Ordered.ofList members, Ordered.entries_ofList hnames,
    fun level s => readObject_write (takesAll_keepMember h ∅) level s⟩

/-- What starts with the first character of a number is read as one. -/
theorem readValue_of_startsNumber {c : Char} (hc : startsNumber c = true) (depth : Nat)
    (s : Input) :
    readValue depth (.char c :: s)
      = (readNumber (.char c :: s)).map fun r => (.number r.1, r.2) := by
  have hskip : skipBlanks (.char c :: s) = .char c :: s := by
    rw [skipBlanks, List.dropWhile_cons_of_neg]
    exact Bool.eq_false_iff.mp (isBlank_eq_false_of_startsNumber hc)
  unfold readValue
  simp only [hskip]
  split
  case h_8 heq =>
    obtain rfl := Symbol.head_eq heq
    rw [if_pos hc, (List.cons.inj heq).2]
  case h_1 heq => exact absurd heq (List.cons_ne_nil _ _)
  case h_9 heq => exact absurd (List.cons.inj heq).1 Symbol.noConfusion
  -- the other characters start no number
  all_goals
    next heq =>
      rw [Symbol.head_eq heq] at hc
      exact absurd hc (by decide)

theorem readValue_quote (depth : Nat) (s : Input) :
    readValue depth (.char '"' :: s) = (readText s).map fun r => (.string r.1, r.2) := by
  unfold readValue
  rfl

theorem readValue_bracket (depth : Nat) (s : Input) :
    readValue (depth + 1) (.char '[' :: s)
      = (readArray (readValue depth) s).map fun r => (.array r.1, r.2) := by
  rw [readValue]
  rfl

theorem readValue_brace (depth : Nat) (s : Input) :
    readValue (depth + 1) (.char '\x7b' :: s)
      = (readObject (keepMember (readValue depth)) ∅ s).map fun r => (ofObject r.1, r.2) := by
  rw [readValue]
  rfl

/-- **A value that is kept is read back from its text in any layout**, as far as its numbers are
integers. -/
theorem readValue_write {depth : Nat} {v : Json} (hk : IsKept depth v) (hv : v.IsIntegral) :
    Reads L (readValue depth) v v := by
  refine ⟨fun level => opens_write L level hv, ?_⟩
  induction hk with
  | null =>
    intro level s hs
    unfold readValue
    rfl
  | bool b =>
    intro level s hs
    unfold readValue
    cases b <;> rfl
  | @integer depth n hn =>
    intro level s hs
    have hnumber := readNumber_renderInteger hn hs
    obtain ⟨c, t, ht, hc⟩ := renderInteger_starts n
    rw [integer, Layout.write, render, Number.render, ht, Symbol.ofText_cons, List.cons_append,
      readValue_of_startsNumber hc]
    rw [ht, Symbol.ofText_cons, List.cons_append] at hnumber
    rw [hnumber, map_ok]
  | float x =>
    obtain ⟨i, hi⟩ := hv (.float x) (by rw [numbers]; exact List.mem_singleton.mpr rfl)
    exact Number.noConfusion hi
  | string name =>
    intro level s hs
    rw [Layout.write, render, renderString, Symbol.ofText_cons, List.cons_append, readValue_quote,
      readText_renderString, map_ok]
  | @array depth items h ih =>
    intro level s hs
    have hitems : List.Forall₂ (Reads L (readValue depth)) items items :=
      List.forall₂_same.mpr fun v hmem =>
        ⟨fun level => opens_write L level (hv.item hmem), ih v hmem (hv.item hmem)⟩
    rw [Layout.write_array, Symbol.ofText_cons, List.cons_append, readValue_bracket,
      readArray_write hitems, map_ok]
  | @object depth members hnames h ih =>
    intro level s hs
    have hmembers : ∀ m ∈ members, Reads L (readValue depth) m.2 m.2 := fun m hmem =>
      ⟨fun level => opens_write L level (hv.member hmem), ih m hmem (hv.member hmem)⟩
    obtain ⟨o, ho, hread⟩ := readObject_keepMember hnames hmembers
    rw [Layout.write_object, Symbol.ofText_cons, List.cons_append, readValue_brace, hread, map_ok,
      ofObject, ho]

/-- A string is read back when nothing but a string is wanted. -/
theorem readStringValue_write (level : Nat) (t : String) (s : Input) :
    readStringValue (Symbol.ofText (L.write level (.string t)) ++ s) = .ok (t, s) := by
  rw [Layout.write, render, renderString, Symbol.ofText_cons, List.cons_append]
  exact readText_renderString t s

/-- An array is read back when nothing but an array is wanted. -/
theorem readArrayValue_write {items : List Json} {xs : List α}
    (h : List.Forall₂ (Reads L item) items xs) (level : Nat) (s : Input) :
    readArrayValue item (Symbol.ofText (L.write level (.array items)) ++ s) = .ok (xs, s) := by
  rw [Layout.write_array, Symbol.ofText_cons, List.cons_append]
  exact readArray_write h level s

/-- An object that is kept is read back when nothing but an object is wanted. -/
theorem readObjectValue_write {depth : Nat} {o : Object} (hk : IsKept depth (.ofObject o))
    (ho : (ofObject o).IsIntegral) (level : Nat) (s : Input) :
    readObjectValue depth (Symbol.ofText (L.write level (.ofObject o)) ++ s) = .ok (o, s) := by
  cases hk with
  | @object depth members hnames h =>
    have hbrace (s : Input) : readObjectValue (depth + 1) (.char '\x7b' :: s)
        = readObject (keepMember (readValue depth)) ∅ s := rfl
    obtain ⟨o', ho', hread⟩ := readObject_keepMember hnames
      (fun m hm => readValue_write (L := L) (h m hm) (ho.member hm))
    rw [ofObject, Layout.write_object, Symbol.ofText_cons, List.cons_append, hbrace, hread,
      Ordered.ext ho']

/-! ## Records -/

/-- A member that names a field which has not come yet is read into the record. -/
theorem takes_readField {fields : List (RecordField σ)} {field : RecordField σ} {name : String}
    (hfield : fields.find? (fun f => f.name == name) = some field) {seen : List String}
    (hseen : name ∉ seen) {record next : σ} {v : Json}
    (hread : ∀ level s, IsStopped s →
      field.read record (Symbol.ofText (L.colon ++ L.write level v) ++ s) = .ok (next, s)) :
    Takes L (readField fields) (seen, record) name v (name :: seen, next) := by
  intro level s hs
  have hcolon (s : Input) : readColon (.char ':' :: s) = .ok s := rfl
  simp only [readField, hfield, if_neg hseen, hcolon, bind_ok, hread level s hs]

/-- **A written record is read field by field.** -/
theorem readRecord_write {fields : List (RecordField σ)} {start final : σ} {seen : List String}
    {members : List (String × Json)}
    (h : TakesAll L (readField fields) ([], start) members (seen, final)) (level : Nat)
    (s : Input) :
    readRecord fields start (Symbol.ofText (L.write level (.object members)) ++ s)
      = .ok (final, s) := by
  have hbrace (s : Input) : readRecord fields start (.char '\x7b' :: s)
      = (readObject (readField fields) ([], start) s).map fun r => (r.1.2, r.2) := rfl
  rw [Layout.write_object, Symbol.ofText_cons, List.cons_append, hbrace, readObject_write h, map_ok]

/-! ## Whole texts -/

theorem readWith_eq_ok_iff {value : Input → Except Fault (α × Input)} {x : α} :
    readWith value s = .ok x ↔ ∃ rest, value s = .ok (x, rest) ∧ readEnd rest = .ok () := by
  constructor
  · intro h
    obtain ⟨⟨x', rest⟩, hvalue, h⟩ := bind_eq_ok_iff.mp h
    obtain ⟨⟨⟩, hend, heq⟩ := bind_eq_ok_iff.mp h
    exact ⟨rest, Except.ok.inj heq ▸ hvalue, hend⟩
  · rintro ⟨rest, hvalue, hend⟩
    rw [readWith, hvalue, bind_ok]
    simp only [hend, bind_ok]

theorem exists_of_readWith {value : Input → Except Fault (α × Input)} {x : α}
    (h : readWith value s = .ok x) : ∃ rest, value s = .ok (x, rest) :=
  (readWith_eq_ok_iff.mp h).imp fun _ => And.left

/-- What takes a text off the front and leaves what follows reads the bytes of the text, with blanks
behind it or not. -/
theorem readWith_utf8 {value : Input → Except Fault (α × Input)} {t finish : Text} {x : α}
    (hfinish : AllBlank finish)
    (h : ∀ s, IsStopped s → value (Symbol.ofText t ++ s) = .ok (x, s)) :
    readWith value (Symbol.ofBytes (utf8 (String.ofList (t ++ finish)))) = .ok x := by
  have hnil : IsStopped [] := by
    rintro c rest ⟨⟩
  have hstop := isStopped_append hfinish hnil
  have hskip := skipBlanks_append hfinish []
  rw [List.append_nil] at hstop hskip
  have hend : readEnd (Symbol.ofText finish) = .ok () := by
    rw [readEnd, hskip]
    rfl
  rw [utf8_ofList, Symbol.ofBytes_utf8, Symbol.ofText_append, readWith_eq_ok_iff]
  exact ⟨_, h _ hstop, hend⟩

/-- What reads the compact text of a value reads the bytes of that text. -/
theorem readWith_bytes {value : Input → Except Fault (α × Input)} {v : Json} {x : α}
    (h : ∀ s, IsStopped s →
      value (Symbol.ofText (Layout.compact.write 0 v) ++ s) = .ok (x, s)) :
    readWith value (Symbol.ofBytes v.bytes) = .ok x := by
  have hread := readWith_utf8 .nil h
  rwa [List.append_nil, ← render_eq_write] at hread

end Json

end ForgeQuery
