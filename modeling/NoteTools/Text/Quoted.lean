/-!
# Quoted literals

A literal of the search grammar stands between single quotes; inside it a backslash stands before
each quote and each backslash.

Results:

* `unescape_escape`: reading an escaped text up to the closing quote gives the text back and leaves
  what follows the quote.
-/

namespace NoteTools.Text.Quoted

/-- Writes a backslash before each quote and each backslash. -/
def escape : List Char → List Char
  | [] => []
  | c :: cs => if c = '\\' ∨ c = '\'' then '\\' :: c :: escape cs else c :: escape cs

/-- The literal of a text. -/
def quote (s : String) : String :=
  String.ofList ('\'' :: escape s.toList ++ ['\''])

/-- Reads up to the first quote that no backslash precedes: the text meant, and what follows the
quote. There is none when the literal does not end. -/
def unescape : List Char → Option (List Char × List Char)
  | [] => none
  | '\'' :: rest => some ([], rest)
  | '\\' :: c :: rest => (unescape rest).map fun (text, after) => (c :: text, after)
  | c :: rest => (unescape rest).map fun (text, after) => (c :: text, after)

theorem unescape_escape (cs rest : List Char) :
    unescape (escape cs ++ '\'' :: rest) = some (cs, rest) := by
  induction cs with
  | nil => rfl
  | cons c cs ih =>
    by_cases h : c = '\\' ∨ c = '\''
    · rcases h with rfl | rfl <;> simp [escape, unescape, ih]
    · have h₁ : c ≠ '\\' := fun e => h (.inl e)
      have h₂ : c ≠ '\'' := fun e => h (.inr e)
      rw [escape, if_neg h, List.cons_append, unescape, ih]
      · rfl
      · exact h₂
      · intro d ds e
        exact absurd e h₁

end NoteTools.Text.Quoted
