import ForgeQuery.Proofs.Reading

/-!
# What the argument scanner finds

`argument?` accepts exactly one shape (`argument?_eq_some_iff`): a name, a colon with blanks
around it, and a value between quotes. The scan over a whole list takes an argument where it stands
(`argumentMatches_of_some`) and passes over a stretch in which none begins
(`argumentMatches_skip`).
-/

namespace ForgeQuery

/-- An argument at the start of a text is a name, a colon and a quoted value, with blanks around
the colon. -/
theorem argument?_eq_some_iff {t key value after : Text} :
    argument? t = some (key, value, after) ↔
      Text.IsName key ∧ '"' ∉ value ∧ ∃ v w, Text.IsBlank v ∧ Text.IsBlank w ∧
        t = key ++ (v ++ ':' :: (w ++ '"' :: (value ++ '"' :: after))) := by
  constructor
  · intro h
    unfold argument? at h
    split at h
    · cases h
    · next key' afterKey hne hname =>
      split at h
      · next afterColon hcolon =>
        split at h
        · next quoted hquote =>
          obtain ⟨parts, hsplit, he⟩ := Option.map_eq_some_iff.mp h
          obtain ⟨rfl, rfl⟩ := Prod.mk.inj he
          obtain ⟨hq, hv⟩ := Text.splitFirst?_eq_some_iff.mp hsplit
          have ht := Text.takeName_append t
          rw [hname] at ht
          refine ⟨⟨hne, ?_⟩, hv,
            afterKey.takeWhile Text.isBlank, afterColon.takeWhile Text.isBlank, ?_, ?_, ?_⟩
          · intro c hc
            have hk : key' = t.takeWhile Text.isNameChar := (congrArg Prod.fst hname).symm
            rw [hk] at hc
            exact List.all_eq_true.mp List.all_takeWhile c hc
          · exact fun c hc => List.all_eq_true.mp List.all_takeWhile c hc
          · exact fun c hc => List.all_eq_true.mp List.all_takeWhile c hc
          · rw [← hq, ← hquote, Text.trimStart_append, ← hcolon, Text.trimStart_append]
            exact ht.symm
        · cases h
      · cases h
  · rintro ⟨hname, hv, v, w, hbv, hbw, rfl⟩
    -- the name stops in front of a blank or the colon
    have hstop : ∀ c tail, v ++ ':' :: (w ++ '"' :: (value ++ '"' :: after)) = c :: tail →
        Text.isNameChar c = false := by
      intro c tail he
      cases v with
      | nil =>
        obtain ⟨rfl, -⟩ := List.cons.inj he
        decide
      | cons d v =>
        obtain ⟨rfl, -⟩ := List.cons.inj he
        refine Bool.eq_false_iff.mpr fun hc => ?_
        have := Text.isBlank_of_isNameChar hc
        rw [hbv d List.mem_cons_self] at this
        cases this
    obtain ⟨k, ks, hk⟩ := List.exists_cons_of_ne_nil hname.ne_nil
    rw [argument?, Text.takeName_of_named hname.named hstop, hk]
    simp only [Text.trimStart_append_left hbv,
      Text.trimStart_of_head (show Text.isBlank ':' = false by decide),
      Text.trimStart_append_left hbw,
      Text.trimStart_of_head (show Text.isBlank '"' = false by decide),
      Text.splitFirst?_eq_some_iff.mpr ⟨rfl, hv⟩, Option.map_some]

/-- No argument begins with a character that belongs to no name. -/
theorem argument?_of_head {c : Char} (hc : Text.isNameChar c = false) (t : Text) :
    argument? (c :: t) = none := by
  cases h : argument? (c :: t) with
  | none => rfl
  | some m =>
    obtain ⟨hname, -, v, w, -, -, ht⟩ := argument?_eq_some_iff.mp h
    obtain ⟨k, ks, hk⟩ := List.exists_cons_of_ne_nil hname.ne_nil
    rw [hk] at ht
    obtain ⟨rfl, -⟩ := List.cons.inj ht
    rw [hname.named c (hk ▸ List.mem_cons_self)] at hc
    cases hc

/-! ## The scan -/

@[simp] theorem argumentMatches_nil : argumentMatches [] = [] := by
  rw [argumentMatches]

/-- Where an argument stands it is taken, and the scan goes on behind it. -/
theorem argumentMatches_of_some {t key value after : Text}
    (h : argument? t = some (key, value, after)) :
    argumentMatches t = (key, value) :: argumentMatches after := by
  cases t with
  | nil => cases h
  | cons c t =>
    rw [argumentMatches]
    split
    · next h' =>
      rw [h] at h'
      obtain ⟨rfl, hrest⟩ := Prod.mk.inj (Option.some.inj h')
      obtain ⟨rfl, rfl⟩ := Prod.mk.inj hrest
      rfl
    · next h' =>
      rw [h] at h'
      cases h'

/-- Where no argument stands the scan goes on a character later. -/
theorem argumentMatches_of_none {c : Char} {t : Text} (h : argument? (c :: t) = none) :
    argumentMatches (c :: t) = argumentMatches t := by
  rw [argumentMatches]
  split
  · next h' =>
    rw [h] at h'
    cases h'
  · rfl

/-- A stretch in which no argument begins is passed over. -/
theorem argumentMatches_skip (u : Text) {rest : Text}
    (h : ∀ c s, c :: s <:+ u → argument? (c :: (s ++ rest)) = none) :
    argumentMatches (u ++ rest) = argumentMatches rest := by
  induction u with
  | nil => rfl
  | cons c u ih =>
    rw [List.cons_append, argumentMatches_of_none (h c u (List.suffix_refl _))]
    exact ih fun d s hs => h d s (hs.trans (List.suffix_cons c u))

end ForgeQuery
