import ForgeQuery.Proofs.ArgumentScan
import ForgeQuery.Proofs.OrderedLaws

/-!
# Leftmost arguments

Where the string arguments of a list stand can be told without a scan: an `Occurrence` is a stretch
of the text that is a whole word, a colon and a quoted value. The scan finds the leftmost of them,
then the leftmost that begins behind it, and so on (`LeftmostFrom`), and these are the arguments of
the list (`arguments_are_the_leftmost_occurrences`).

The scan does not look at what is in front of it. When no argument begins with a word, it goes on
inside the word, a character later; but an argument that begins there would make one with the rest of
the word in front of it (`argument?_cons`), so nothing is found before the word ends.
-/

namespace ForgeQuery

/-! ## Occurrences -/

/-- An argument that stands in a text. -/
@[ext] structure Occurrence (t : Text) where
  /-- what is in front of it -/
  before : Text
  /-- its key -/
  key : Text
  /-- its value -/
  value : Text
  /-- what is behind its closing quote -/
  behind : Text
  /-- it is the key, a colon with possibly blanks around it, and the value between quotes -/
  together : ∃ v w, Text.IsBlank v ∧ Text.IsBlank w ∧
    t = before ++ (key ++ (v ++ ':' :: (w ++ '"' :: (value ++ '"' :: behind))))
  /-- the key is a name -/
  named : Text.IsName key
  /-- the value goes up to the first quote -/
  free : '"' ∉ value
  /-- the key does not begin inside a word -/
  whole : ∀ c, before.getLast? = some c → Text.isNameChar c = false

namespace Occurrence

variable {t : Text}

/-- The position at which the key begins. -/
def start (o : Occurrence t) : Nat := o.before.length

/-- The position behind the closing quote. -/
def stop (o : Occurrence t) : Nat := t.length - o.behind.length

/-- The key and the value. -/
def pair (o : Occurrence t) : String × String := (String.ofList o.key, String.ofList o.value)

/-- An occurrence takes up some characters of the text. -/
theorem start_lt_stop (o : Occurrence t) : o.start < o.stop := by
  obtain ⟨v, w, -, -, ht⟩ := o.together
  have hlength := congrArg List.length ht
  simp only [List.length_append, List.length_cons] at hlength
  rw [start, stop]
  omega

theorem stop_le (o : Occurrence t) : o.stop ≤ t.length := Nat.sub_le _ _

/-- Where an argument occurs it is read. -/
theorem argument?_eq (o : Occurrence t) {front rest : Text} (ht : t = front ++ rest)
    (hstart : o.start = front.length) : argument? rest = some (o.key, o.value, o.behind) := by
  obtain ⟨v, w, hv, hw, htogether⟩ := o.together
  obtain ⟨-, hrest⟩ := List.append_inj (ht.symm.trans htogether) hstart.symm
  exact argument?_eq_some_iff.mpr ⟨o.named, o.free, v, w, hv, hw, hrest⟩

/-- At one position there is one occurrence at most. -/
theorem eq_of_start_eq {o o' : Occurrence t} (h : o.start = o'.start) : o = o' := by
  obtain ⟨v, w, -, -, ht⟩ := o.together
  obtain ⟨v', w', -, -, ht'⟩ := o'.together
  have hread := o.argument?_eq ht rfl
  rw [o'.argument?_eq ht h.symm] at hread
  obtain ⟨hkey, hrest⟩ := Prod.mk.inj (Option.some.inj hread)
  obtain ⟨hvalue, hbehind⟩ := Prod.mk.inj hrest
  exact Occurrence.ext (List.append_inj (ht.symm.trans ht') h).1 hkey.symm hvalue.symm hbehind.symm

/-- An argument that is read where no word goes on is one that occurs. -/
theorem exists_of_argument? {front rest key value behind : Text} (ht : t = front ++ rest)
    (hread : argument? rest = some (key, value, behind))
    (hwhole : ∀ c, front.getLast? = some c → Text.isNameChar c = false) :
    ∃ o : Occurrence t, o.before = front ∧ o.key = key ∧ o.value = value ∧ o.behind = behind := by
  obtain ⟨named, free, v, w, hv, hw, rfl⟩ := argument?_eq_some_iff.mp hread
  exact ⟨⟨front, key, value, behind, ⟨v, w, hv, hw, ht⟩, named, free, hwhole⟩, rfl, rfl, rfl, rfl⟩

/-- The text up to the end of an occurrence ends with a quote. -/
theorem exists_eq_append_behind (o : Occurrence t) :
    ∃ front, t = front ++ ['"'] ++ o.behind ∧ (front ++ ['"']).length = o.stop := by
  obtain ⟨v, w, -, -, ht⟩ := o.together
  refine ⟨o.before ++ (o.key ++ (v ++ ':' :: (w ++ '"' :: o.value))), ?_, ?_⟩
  · simpa using ht
  · have hlength := congrArg List.length ht
    simp only [List.length_append, List.length_cons] at hlength
    simp only [List.length_append, List.length_cons, List.length_nil, stop]
    omega

end Occurrence

/-- From a position on, these are the leftmost occurrences, each behind the one before it. -/
inductive LeftmostFrom (t : Text) : Nat → List (Occurrence t) → Prop where
  /-- no occurrence begins there any more -/
  | done {p : Nat} (none : ∀ o : Occurrence t, o.start < p) : LeftmostFrom t p []
  /-- none begins earlier than the first of them, and the others begin behind it -/
  | next {p : Nat} {o : Occurrence t} {rest : List (Occurrence t)} (begins : p ≤ o.start)
      (leftmost : ∀ o' : Occurrence t, p ≤ o'.start → o.start ≤ o'.start)
      (others : LeftmostFrom t o.stop rest) : LeftmostFrom t p (o :: rest)

namespace LeftmostFrom

variable {t : Text} {p : Nat} {found : List (Occurrence t)}

/-- From a position on there is one choice of leftmost occurrences. -/
theorem unique (h : LeftmostFrom t p found) {other : List (Occurrence t)}
    (h' : LeftmostFrom t p other) : found = other := by
  induction h generalizing other with
  | done none =>
    cases h' with
    | done => rfl
    | @next _ o _ begins => exact absurd (none o) (Nat.not_lt.mpr begins)
  | @next p o rest begins leftmost others ih =>
    cases h' with
    | done none => exact absurd (none o) (Nat.not_lt.mpr begins)
    | @next _ o' rest' begins' leftmost' others' =>
      obtain rfl : o = o' :=
        Occurrence.eq_of_start_eq (Nat.le_antisymm (leftmost o' begins') (leftmost' o begins))
      rw [ih others']

/-- A position at which nothing begins may be passed over. -/
theorem earlier (h : LeftmostFrom t (p + 1) found) (hnone : ∀ o : Occurrence t, o.start ≠ p) :
    LeftmostFrom t p found := by
  have hbehind (o : Occurrence t) (ho : p ≤ o.start) : p + 1 ≤ o.start :=
    Nat.lt_of_le_of_ne ho (hnone o).symm
  cases h with
  | done none =>
    refine .done fun o => Nat.lt_of_not_le fun ho => ?_
    exact absurd (none o) (Nat.not_lt.mpr (hbehind o ho))
  | next begins leftmost others =>
    exact .next (Nat.le_of_succ_le begins) (fun o ho => leftmost o (hbehind o ho)) others

/-- They begin at the position or behind it. -/
theorem le_start (h : LeftmostFrom t p found) : ∀ o ∈ found, p ≤ o.start := by
  induction h with
  | done => exact List.forall_mem_nil _
  | @next p o rest begins leftmost others ih =>
    refine List.forall_mem_cons.mpr ⟨begins, fun o' ho' => ?_⟩
    exact Nat.le_trans begins (Nat.le_trans (Nat.le_of_lt o.start_lt_stop) (ih o' ho'))

/-- Each of them ends before the next one begins. -/
theorem pairwise (h : LeftmostFrom t p found) : found.Pairwise fun o o' => o.stop ≤ o'.start := by
  induction h with
  | done => exact .nil
  | next begins leftmost others ih => exact .cons others.le_start ih

end LeftmostFrom

/-! ## The scan -/

/-- An argument is one as well with more of the word in front of it. -/
theorem argument?_cons {c : Char} (hc : Text.isNameChar c = true) {t key value after : Text}
    (h : argument? t = some (key, value, after)) :
    argument? (c :: t) = some (c :: key, value, after) := by
  obtain ⟨named, free, v, w, hv, hw, rfl⟩ := argument?_eq_some_iff.mp h
  refine argument?_eq_some_iff.mpr ⟨⟨List.cons_ne_nil c key, ?_⟩, free, v, w, hv, hw, rfl⟩
  exact List.forall_mem_cons.mpr ⟨hc, named.named⟩

/-- The scan of the rest of a text finds the leftmost occurrences in it. Where it has come into the
middle of a word, no argument begins. -/
theorem exists_leftmostFrom {t front rest : Text} (ht : t = front ++ rest)
    (hinside : ∀ c, front.getLast? = some c → Text.isNameChar c = true → argument? rest = none) :
    ∃ found : List (Occurrence t), LeftmostFrom t front.length found ∧
      found.map (fun o => (o.key, o.value)) = argumentMatches rest := by
  induction rest using argumentMatches.induct generalizing front with
  | case1 =>
    refine ⟨[], .done fun o => ?_, argumentMatches_nil.symm⟩
    have hlength : t.length = front.length := by rw [ht, List.append_nil]
    exact hlength ▸ Nat.lt_of_lt_of_le o.start_lt_stop o.stop_le
  | case2 c rest key value after hread ih =>
    have hwhole (d : Char) (hd : front.getLast? = some d) : Text.isNameChar d = false := by
      by_contra hname
      rw [hinside d hd ((Bool.not_eq_false _).mp hname)] at hread
      cases hread
    obtain ⟨o, hbefore, rfl, rfl, rfl⟩ := Occurrence.exists_of_argument? ht hread hwhole
    obtain ⟨front', ht', hstop⟩ := o.exists_eq_append_behind
    obtain ⟨found, hfound, hmap⟩ := ih ht' (fun d hd hname => by
      -- a quote is in front of the rest
      rw [List.getLast?_concat] at hd
      rw [← Option.some.inj hd] at hname
      cases hname)
    have hstart : o.start = front.length := congrArg List.length hbefore
    refine ⟨o :: found, .next (Nat.le_of_eq hstart.symm) (fun o' ho' => hstart ▸ ho')
      (hstop ▸ hfound), ?_⟩
    rw [List.map_cons, hmap, argumentMatches_of_some hread]
  | case3 c rest hnone ih =>
    have ht' : t = front ++ [c] ++ rest := by rw [ht, List.append_cons]
    obtain ⟨found, hfound, hmap⟩ := ih ht' (fun d hd hname => by
      rw [List.getLast?_concat] at hd
      rw [← Option.some.inj hd] at hname
      cases hread : argument? rest with
      | none => rfl
      | some m =>
        rw [argument?_cons hname hread] at hnone
        cases hnone)
    refine ⟨found, ?_, hmap.trans (argumentMatches_of_none hnone).symm⟩
    rw [List.length_append, List.length_singleton] at hfound
    refine hfound.earlier fun o ho => ?_
    rw [o.argument?_eq ht ho] at hnone
    cases hnone

/-- **Arguments are the leftmost occurrences.** There is one list of leftmost occurrences that
follow one another, and no two of them have a character in common. The string arguments of a text
are their keys and values, inserted in order: the keys stand where they first occur, and under each
of them stands the value of its last occurrence. -/
theorem arguments_are_the_leftmost_occurrences (t : Text) :
    ∃ found : List (Occurrence t),
      (∀ other, LeftmostFrom t 0 other ↔ other = found) ∧
        found.Pairwise (fun o o' => o.stop ≤ o'.start) ∧
        stringArguments t = Ordered.ofList (found.map Occurrence.pair) ∧
        (stringArguments t).keys = (found.map fun o => String.ofList o.key).eraseDups ∧
        ∀ key value, (stringArguments t).get? key = some value ↔
          ∃ earlier o later, found = earlier ++ o :: later ∧ o.pair = (key, value) ∧
            ∀ o' ∈ later, String.ofList o'.key ≠ key := by
  obtain ⟨found, hfound, hmap⟩ := exists_leftmostFrom (List.nil_append t).symm nofun
  have harguments : stringArguments t = Ordered.ofList (found.map Occurrence.pair) := by
    rw [stringArguments, ← hmap, List.map_map]
    rfl
  refine ⟨found, fun other => ⟨fun h => h.unique hfound, fun h => h ▸ hfound⟩, hfound.pairwise,
    harguments, ?_, fun key value => ?_⟩
  · rw [harguments, Ordered.keys_ofList, List.map_map]
    rfl
  · rw [harguments, Ordered.get?_ofList_eq_some_iff]
    constructor
    · rintro ⟨front, back, hpairs, hback⟩
      obtain ⟨earlier, rest, rfl, rfl, hrest⟩ := List.map_eq_append_iff.mp hpairs
      obtain ⟨o, later, rfl, ho, rfl⟩ := List.map_eq_cons_iff.mp hrest
      refine ⟨earlier, o, later, rfl, ho, fun o' ho' hkey => hback ?_⟩
      rw [List.map_map]
      exact List.mem_map.mpr ⟨o', ho', hkey⟩
    · rintro ⟨earlier, o, later, rfl, ho, hlater⟩
      refine ⟨earlier.map Occurrence.pair, later.map Occurrence.pair, ?_, ?_⟩
      · rw [List.map_append, List.map_cons, ho]
      · rw [List.map_map]
        intro hmem
        obtain ⟨o', ho', hkey⟩ := List.mem_map.mp hmem
        exact hlater o' ho' hkey

/-- A hyphen ends a word, a closing quote does so too, and a key that is repeated keeps its place; of
a number and of a key without a colon nothing is found. -/
example :
    stringArguments "user-id: \"a\"b:\"c: \" id\u00a0:\n\"d\" size: 3 key \"x\", b: \"\"".toList
      = Ordered.ofList [("id", "d"), ("b", "")] := by
  decide +kernel

end ForgeQuery
