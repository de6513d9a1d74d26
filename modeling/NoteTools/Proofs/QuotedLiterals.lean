import NoteTools.Proofs.AttributeNames
import NoteTools.Proofs.PropertyConditions

/-!
# Quoting is a prefix code

A reader that is given a literal and does not know its length stops at the closing quote of that
literal and at no quote before it, whatever the literal stands for and whatever comes behind it. So
different texts have different literals, and no literal is the front of another one. A comparison of
a label or a relation ends in such a literal; what stands in front of it has nothing of the value.

Main definitions:

* `replaceEach`: a text in the place of each occurrence of a character;
* `unquote?`: the reader of literals;
* `Criterion.ComparesAttribute`: a comparison of a label or a relation with a value;
* `Criterion.Kind.comparedHead`: what stands in front of the literal of such a comparison.

Results:

* `escape_eq_replaceEach`: backslashes are doubled first, then each quote gets one in front;
* `unescape_eq_some_iff`: the reader of literals accepts what the grammar calls one;
* `unquote?_append`: what is read does not depend on what comes behind it;
* `quoting_prefix_code`: literals are read back, and so are the values of comparisons.
-/

namespace NoteTools

open Grammar Text.Quoted

/-! ## Specification -/

namespace Text.Quoted

/-- A text with another one in the place of each occurrence of a character. -/
def replaceEach (old : Char) (new cs : List Char) : List Char :=
  cs.flatMap fun c => if c = old then new else [c]

/-- Reads a literal from its opening quote: the text it stands for, and what follows its closing
quote. -/
def unquote? : List Char → Option (String × List Char)
  | '\'' :: inside => (unescape inside).map fun (text, rest) => (String.ofList text, rest)
  | _ => none

end Text.Quoted

namespace Criterion

/-- A criterion compares a label or a relation with a value. -/
structure ComparesAttribute (c : Criterion) (op : Comparison) (value : String) : Prop where
  kind : c.kind = .label ∨ c.kind = .relation
  compares : Operator.of? c = some (.compare op)
  given : c.value = some value
  not_blank : Text.blank value = false

/-- What a comparison of a label or a relation has in front of its literal: the sigil, the name, the
path to the title for a relation whose name has none, and the token of the operator. -/
def Kind.comparedHead (kind : Kind) (name : String) (op : Comparison) : String :=
  (kind.sigil?.map String.singleton).getD "" ++ name ++
    (if kind = .relation ∧ '.' ∉ name.toList then ".title" else "") ++ " " ++ op.token

end Criterion

/-! ## Escaping by replacements -/

namespace Text.Quoted

/-- **Two replacements, one pass.** The second replacement leaves the backslashes of the first one
alone. -/
theorem escape_eq_replaceEach (cs : List Char) :
    escape cs = replaceEach '\'' ['\\', '\''] (replaceEach '\\' ['\\', '\\'] cs) := by
  induction cs with
  | nil => rfl
  | cons c cs ih =>
    have hsplit : replaceEach '\'' ['\\', '\''] (replaceEach '\\' ['\\', '\\'] (c :: cs)) =
        replaceEach '\'' ['\\', '\''] (if c = '\\' then ['\\', '\\'] else [c]) ++ escape cs := by
      rw [ih, replaceEach, replaceEach, replaceEach, List.flatMap_cons, List.flatMap_append]
      rfl
    rw [hsplit, escape]
    by_cases hslash : c = '\\'
    · subst hslash
      rfl
    · rw [if_neg hslash]
      by_cases hquote : c = '\''
      · subst hquote
        rfl
      · rw [if_neg (not_or.mpr ⟨hslash, hquote⟩)]
        simp [replaceEach, hquote]

/-- A literal, and what comes behind it. -/
theorem toList_quote_append (v : String) (rest : List Char) :
    (quote v).toList ++ rest = '\'' :: (escape v.toList ++ '\'' :: rest) := by
  simp [quote]

theorem toList_quote_eq_replaceEach (v : String) : (quote v).toList =
    '\'' :: replaceEach '\'' ['\\', '\''] (replaceEach '\\' ['\\', '\\'] v.toList) ++ ['\''] := by
  have h := toList_quote_append v []
  rwa [List.append_nil, escape_eq_replaceEach] at h

/-! ## Reading literals -/

theorem unescape_plain {c : Char} (hquote : c ≠ '\'') (hslash : c ≠ '\\') (cs : List Char) :
    unescape (c :: cs) = (unescape cs).map fun (text, rest) => (c :: text, rest) := by
  rw [unescape]
  · exact hquote
  · intro d ds heq
    exact absurd heq hslash

/-- The reader of literals accepts what the grammar calls one. -/
theorem unescape_eq_some_iff {cs text rest : List Char} :
    unescape cs = some (text, rest) ↔ ReadsLiteral cs text rest := by
  constructor
  · intro h
    fun_induction unescape cs generalizing text with
    | case1 => cases h
    | case2 =>
      cases h
      exact .close _
    | case3 c after ih =>
      obtain ⟨⟨inner, _⟩, hread, heq⟩ := Option.map_eq_some_iff.mp h
      cases heq
      exact .escaped (ih hread)
    | case4 c after hquote hescape ih =>
      obtain ⟨⟨inner, _⟩, hread, heq⟩ := Option.map_eq_some_iff.mp h
      cases heq
      -- A backslash with nothing behind it is in no literal.
      have hslash : c ≠ '\\' := by
        intro hc
        cases after with
        | nil => cases hread
        | cons d ds => exact hescape d ds hc rfl
      exact .plain hquote hslash (ih hread)
  · intro h
    induction h with
    | close rest => rfl
    | plain hquote hslash _ ih => rw [unescape_plain hquote hslash, ih, Option.map_some]
    | escaped _ ih => rw [unescape, ih, Option.map_some]

end Text.Quoted

/-- A literal is read in the same way whatever comes behind what is left. -/
theorem Grammar.ReadsLiteral.append {cs text rest : List Char} (h : ReadsLiteral cs text rest)
    (more : List Char) : ReadsLiteral (cs ++ more) text (rest ++ more) := by
  induction h with
  | close rest => exact .close (rest ++ more)
  | plain hquote hslash _ ih => exact .plain hquote hslash ih
  | escaped _ ih => exact .escaped ih

namespace Text.Quoted

theorem unquote?_append {cs rest : List Char} {text : String}
    (h : unquote? cs = some (text, rest)) (more : List Char) :
    unquote? (cs ++ more) = some (text, rest ++ more) := by
  unfold unquote? at h
  split at h
  · next inside =>
    obtain ⟨⟨chars, _⟩, hread, heq⟩ := Option.map_eq_some_iff.mp h
    cases heq
    have hmore := unescape_eq_some_iff.mpr ((unescape_eq_some_iff.mp hread).append more)
    rw [List.cons_append, unquote?, hmore]
    rfl
  · cases h

/-- **A literal is read back** whatever comes behind it. -/
theorem unquote?_quote_append (v : String) (rest : List Char) :
    unquote? ((quote v).toList ++ rest) = some (v, rest) := by
  have hinside : unescape (escape v.toList ++ '\'' :: rest) = some (v.toList, rest) :=
    unescape_escape v.toList rest
  rw [toList_quote_append, unquote?, hinside, Option.map_some]
  simp only [String.ofList_toList]

theorem unquote?_quote (v : String) : unquote? (quote v).toList = some (v, []) := by
  have h := unquote?_quote_append v []
  rwa [List.append_nil] at h

/-- No literal ends before its closing quote. -/
theorem unquote?_of_isPrefix {v : String} {front : List Char}
    (hfront : front <+: (quote v).toList) (hne : front ≠ (quote v).toList) :
    unquote? front = none := by
  obtain ⟨back, hback⟩ := hfront
  rw [Option.eq_none_iff_forall_ne_some]
  rintro ⟨text, rest⟩ hread
  have hwhole := unquote?_append hread back
  rw [hback, unquote?_quote] at hwhole
  -- Nothing is left of the whole literal, so nothing stands behind the front of it.
  have hrest : [] = rest ++ back := congrArg Prod.snd (Option.some.inj hwhole)
  obtain ⟨-, rfl⟩ := List.append_eq_nil_iff.mp hrest.symm
  exact hne (by rw [← hback, List.append_nil])

/-- No literal is the front of another one. -/
theorem quote_isPrefix_iff {v w : String} : (quote v).toList <+: (quote w).toList ↔ v = w := by
  constructor
  · rintro ⟨back, hback⟩
    have hread := unquote?_quote_append v back
    rw [hback, unquote?_quote] at hread
    exact (congrArg Prod.fst (Option.some.inj hread)).symm
  · rintro rfl
    exact List.prefix_rfl

theorem quote_injective : Function.Injective quote := by
  intro v w h
  have hread := unquote?_quote v
  rw [h, unquote?_quote] at hread
  exact (congrArg Prod.fst (Option.some.inj hread)).symm

end Text.Quoted

/-! ## Comparisons of labels and relations -/

/-- **A comparison of a label or a relation.** Without a name it is dropped. With one it becomes its
head, a space and the literal of the value. -/
theorem Criterion.ComparesAttribute.fragment_eq {c : Criterion} {op : Comparison} {value : String}
    (h : c.ComparesAttribute op value) :
    c.fragment = .ok (if Text.trim c.property = "" then .dropped .emptyProperty
      else .condition (c.kind.comparedHead (Text.trim c.property) op ++ " " ++ quote value)) := by
  have hgiven : c.givenValue? = some value := givenValue?_eq_some_iff.mpr ⟨h.given, h.not_blank⟩
  obtain ⟨sigil, hsigil⟩ : ∃ sigil, c.kind.sigil? = some sigil := by
    rcases h.kind with hkind | hkind <;> rw [hkind] <;> exact ⟨_, rfl⟩
  rw [fragment_of_sigil? hsigil, Criterion.attribute, h.compares]
  dsimp only
  rw [hgiven, Kind.comparedHead, hsigil]
  rfl

/-- **Quoting is a prefix code.** In a literal every backslash is doubled and every quote has a
backslash in front. It is read back as its text, up to its own closing quote and no further; the
reader stops at no quote before that. Different texts have different literals, and no literal is the
front of another one. A comparison of a label or a relation that has a name becomes a head, which
is made of the kind, the name and the operator, then a space, and a literal that is read back as the
value; without a name it is dropped. -/
theorem quoting_prefix_code :
    (∀ v : String, (quote v).toList =
      '\'' :: replaceEach '\'' ['\\', '\''] (replaceEach '\\' ['\\', '\\'] v.toList) ++ ['\'']) ∧
    (∀ (v : String) (rest : List Char), unquote? ((quote v).toList ++ rest) = some (v, rest)) ∧
    (∀ (v : String) (front : List Char), front <+: (quote v).toList →
      front ≠ (quote v).toList → unquote? front = none) ∧
    Function.Injective quote ∧
    (∀ v w : String, (quote v).toList <+: (quote w).toList ↔ v = w) ∧
    ∀ (c : Criterion) (op : Comparison) (value : String), c.ComparesAttribute op value →
      (Text.trim c.property ≠ "" → ∃ literal : String,
        c.fragment = .ok (.condition
          (c.kind.comparedHead (Text.trim c.property) op ++ " " ++ literal)) ∧
        ∀ rest, unquote? (literal.toList ++ rest) = some (value, rest)) ∧
      (Text.trim c.property = "" → c.fragment = .ok (.dropped .emptyProperty)) := by
  refine ⟨toList_quote_eq_replaceEach, unquote?_quote_append, fun _ _ => unquote?_of_isPrefix,
    quote_injective, fun _ _ => quote_isPrefix_iff, ?_⟩
  intro c op value h
  refine ⟨fun hname => ?_, fun hname => ?_⟩
  · refine ⟨quote value, ?_, unquote?_quote_append value⟩
    rw [h.fragment_eq, if_neg hname]
  · rw [h.fragment_eq, if_pos hname]

/-- A comparison of a relation with a value that has a backslash in front of a quote, and one at its
end. -/
def shelfCriterion : Criterion where
  property := " shelf "
  kind := .relation
  op := some " STARTS_WITH "
  value := some "a\\'b\\"

/-- A comparison of a label without a name. -/
def namelessCriterion : Criterion where
  property := " "
  kind := .label
  op := some "="
  value := some "x"

theorem quoting_prefix_code_shelf :
    (∃ literal : String,
      shelfCriterion.fragment = .ok (.condition ("~shelf.title =* " ++ literal)) ∧
      ∀ rest, unquote? (literal.toList ++ rest) = some ("a\\'b\\", rest)) ∧
    namelessCriterion.fragment = .ok (.dropped .emptyProperty) ∧
    unquote? "'it\\'".toList = none := by
  have hshelf : shelfCriterion.ComparesAttribute .startsWith "a\\'b\\" :=
    ⟨.inr rfl, by decide, rfl, by decide⟩
  have hnameless : namelessCriterion.ComparesAttribute .eq "x" :=
    ⟨.inl rfl, by decide, rfl, by decide⟩
  have hhead : shelfCriterion.kind.comparedHead (Text.trim shelfCriterion.property) .startsWith ++
      " " = "~shelf.title =* " := by decide
  obtain ⟨-, -, hfront, -, -, hcriteria⟩ := quoting_prefix_code
  refine ⟨?_, (hcriteria _ _ _ hnameless).2 (by decide),
    hfront "it's" "'it\\'".toList (by decide) (by decide)⟩
  rw [← hhead]
  exact (hcriteria _ _ _ hshelf).1 (by decide)

/-- A comparison without a name has no head and no literal. -/
theorem nameless_comparison_dropped :
    namelessCriterion.ComparesAttribute .eq "x" ∧
      namelessCriterion.fragment = .ok (.dropped .emptyProperty) ∧
      ∀ head literal : String,
        namelessCriterion.fragment ≠ .ok (.condition (head ++ " " ++ literal)) := by
  have hfragment : namelessCriterion.fragment = .ok (.dropped .emptyProperty) := by decide
  refine ⟨⟨.inl rfl, by decide, rfl, by decide⟩, hfragment, ?_⟩
  intro head literal
  rw [hfragment]
  nofun

end NoteTools
