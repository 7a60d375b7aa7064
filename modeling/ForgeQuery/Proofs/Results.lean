/-!
# Results that may be errors

What a result comes to that is mapped, or that something else is done with: nothing but a value of
the whole has a value of each part.
-/

namespace ForgeQuery

variable {ε α β γ : Type}

theorem map_eq_error_iff {x : Except ε α} {f : α → β} {e : ε} :
    x.map f = .error e ↔ x = .error e := by
  cases x <;> simp [Except.map]

theorem map_eq_ok_iff {x : Except ε α} {f : α → β} {b : β} :
    x.map f = .ok b ↔ ∃ a, x = .ok a ∧ f a = b := by
  cases x <;> simp [Except.map]

/-- A value whose first part is mapped leaves the second part as it is. -/
theorem map_fst_eq_ok {x : Except ε (α × γ)} {f : α → β} {b : β} {c : γ}
    (h : (x.map fun r => (f r.1, r.2)) = .ok (b, c)) : ∃ a, x = .ok (a, c) ∧ f a = b := by
  obtain ⟨⟨a, c'⟩, hx, heq⟩ := map_eq_ok_iff.mp h
  obtain ⟨hb, rfl⟩ := Prod.mk.inj heq
  exact ⟨a, hx, hb⟩

theorem map_mk_eq_ok {x : Except ε γ} {a b : α} {c : γ}
    (h : (x.map fun c => (a, c)) = .ok (b, c)) : x = .ok c ∧ a = b := by
  obtain ⟨c', hx, heq⟩ := map_eq_ok_iff.mp h
  obtain ⟨hb, rfl⟩ := Prod.mk.inj heq
  exact ⟨hx, hb⟩

theorem map_ok (f : α → β) (a : α) : (Except.ok a : Except ε α).map f = .ok (f a) := rfl

theorem bind_ok (a : α) (f : α → Except ε β) : (Except.ok a >>= f) = f a := rfl

/-- When the one result is a value, the other is the same value. -/
def IsKeptBy (x y : Except ε α) : Prop := ∀ a, x = .ok a → y = .ok a

theorem IsKeptBy.rfl {x : Except ε α} : IsKeptBy x x := fun _ h => h

theorem bind_eq_ok_iff {x : Except ε α} {f : α → Except ε β} {b : β} :
    (x >>= f) = .ok b ↔ ∃ a, x = .ok a ∧ f a = .ok b := by
  cases x <;> simp [bind, Except.bind]

/-- What is done with a value that is kept is kept when each of its own results is. -/
theorem IsKeptBy.bind {x y : Except ε α} {f g : α → Except ε β} (hxy : IsKeptBy x y)
    (hfg : ∀ a, IsKeptBy (f a) (g a)) : IsKeptBy (x >>= f) (y >>= g) := by
  intro b h
  obtain ⟨a, ha, hb⟩ := bind_eq_ok_iff.mp h
  exact bind_eq_ok_iff.mpr ⟨a, hxy a ha, hfg a b hb⟩

end ForgeQuery
