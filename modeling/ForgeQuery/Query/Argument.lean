import ForgeQuery.Ordered
import ForgeQuery.Text.Cut

/-!
# String arguments

An argument list is read for its string arguments alone: a key, a colon and a value between
quotes, blanks allowed around the colon. Everything else in the list is stepped over, so numbers,
variables and lists are silently ignored. Values know no escapes and end at the next quote.

* `argument?` reads one argument at the very start of a text.
* `argumentMatches` finds them all from left to right; after a match the search goes on behind
  its closing quote, and without one a single character later.
* `stringArguments` is the ordered map of the matches.
-/

namespace ForgeQuery

/-- The key and value of an argument at the start of the text, with what follows its closing
quote. -/
def argument? (t : Text) : Option (Text × Text × Text) :=
  match Text.takeName t with
  | ([], _) => none
  | (key, afterKey) =>
    match Text.trimStart afterKey with
    | ':' :: afterColon =>
      match Text.trimStart afterColon with
      | '"' :: quoted => (Text.splitFirst? '"' quoted).map fun parts => (key, parts)
      | _ => none
    | _ => none

theorem trimStart_length_le (t : Text) : (Text.trimStart t).length ≤ t.length :=
  (List.dropWhile_sublist Text.isBlank).length_le

/-- What follows an argument is shorter than the text it was read from. -/
theorem argument?_shortens {t key value after : Text}
    (h : argument? t = some (key, value, after)) : after.length < t.length := by
  unfold argument? at h
  split at h
  · simp at h
  · next key' afterKey _ hname =>
    split at h
    · next afterColon hcolon =>
      split at h
      · next quoted hquote =>
        obtain ⟨parts, hsplit, he⟩ := Option.map_eq_some_iff.1 h
        obtain ⟨-, rfl⟩ := Prod.mk.inj he
        have hdrop : (t.dropWhile Text.isNameChar).length ≤ t.length :=
          (List.dropWhile_sublist Text.isNameChar).length_le
        have hkey : afterKey = t.dropWhile Text.isNameChar := by
          have := congrArg Prod.snd hname
          simpa [Text.takeName] using this.symm
        have h₁ := trimStart_length_le afterKey
        have h₂ := trimStart_length_le afterColon
        have h₃ := congrArg List.length (Text.splitFirst?_eq_some_iff.1 hsplit).1
        rw [hcolon] at h₁
        rw [hquote] at h₂
        simp only [List.length_cons, List.length_append] at h₁ h₂ h₃
        rw [hkey] at h₁
        omega
      · simp at h
    · simp at h

/-- The keys and values of the arguments in a text, from left to right. -/
def argumentMatches (t : Text) : List (Text × Text) :=
  match t with
  | [] => []
  | c :: rest =>
    match _ : argument? (c :: rest) with
    | some (key, value, after) => (key, value) :: argumentMatches after
    | none => argumentMatches rest
termination_by t.length
decreasing_by
  · exact argument?_shortens (by assumption)
  · simp

/-- The string arguments of a list: a repeated key keeps its first place and its last value. -/
def stringArguments (t : Text) : Ordered String String :=
  Ordered.ofList ((argumentMatches t).map fun m => (String.ofList m.1, String.ofList m.2))

end ForgeQuery
