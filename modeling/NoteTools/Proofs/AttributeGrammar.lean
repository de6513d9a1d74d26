import NoteTools.Proofs.QueryReading

/-!
# The grammar of conditions on labels and relations

Beside conditions on note properties, a query can have conditions on labels and on relations. Such a
condition is a sigil and a name, and it may go on with an operator and a literal. Read from left to
right, this leaves no choice either.

    tail       ::=  ( SPACE demand )*  [ SPACE limit SPACE numeral ]
    demand     ::=  item  |  ~( item ( SPACE OR SPACE item )+ )
    item       ::=  atom  |  attribute
    attribute  ::=  ( # | ~ ) name [ SPACE operator SPACE literal ]

A name goes on as far as it can: up to white space, a quotation mark, a parenthesis or the end. So
does a condition: an operator and a literal behind its name are part of it.

Main definitions:

* `AttributeTest`, `Item`, `Demand`: what is read;
* `isNameChar`, `IsName`: names;
* `ReadsDemands`: the grammar of what stands behind the lead of a query; the relations of its parts
  also give the rest of the text;
* `Demand.text`: the written forms.

Results:

* `ReadsDemands.unique`: no text has two readings;
* `readsDemands_text`: demands and a limit are read back from their written forms, if the names of
  their items are names;
* `ReadsDemands.readable`: nothing is read whose names are none.
-/

namespace NoteTools.Grammar

/-! ## What is read -/

/-- A condition on a label or a relation. -/
structure AttributeTest where
  /-- The sigil: `#` for a label, `~` for a relation. -/
  sigil : Char
  /-- The name, with the mark of absence in front of it and the path behind it. -/
  name : String
  /-- The comparison, and the text to compare with. -/
  comparison : Option (Comparison × String)
  deriving DecidableEq, Repr

/-- A condition on a note property, or on a label or a relation. -/
inductive Item where
  | ofNote (a : Atom)
  | ofAttribute (t : AttributeTest)
  deriving DecidableEq, Repr

/-- An item, or two and more of which one has to hold. -/
inductive Demand where
  | item (x : Item)
  | anyOf (first second : Item) (others : List Item)
  deriving DecidableEq, Repr

/-- The items of a demand, in order. -/
def Demand.items : Demand → List Item
  | .item x => [x]
  | .anyOf first second others => first :: second :: others

/-! ## The grammar -/

/-- The sigils of labels and relations. -/
def sigils : List Char :=
  ['#', '~']

/-- A character of a name: it is not white, no quotation mark and no parenthesis. -/
def isNameChar (c : Char) : Bool :=
  !(Text.isBlank c || c == '\'' || c == '"' || c == '\x60' || c == '(' || c == ')')

/-- Characters that make up a name. -/
def IsName (w : List Char) : Prop :=
  w ≠ [] ∧ ∀ c ∈ w, isNameChar c = true

instance (w : List Char) : Decidable (IsName w) :=
  decidable_of_iff (w ≠ [] ∧ w.all isNameChar = true) (by rw [IsName, List.all_eq_true])

/-- A text that does not go on with a character of a name. -/
def EndsName (rest : List Char) : Prop :=
  ∀ c ∈ rest.head?, isNameChar c = false

/-- A text that starts with a name; the name is as long as it can be. -/
structure ReadsName (cs : List Char) (name : String) (rest : List Char) : Prop where
  eq : cs = name.toList ++ rest
  isName : IsName name.toList
  ends : EndsName rest

/-- What a comparison with a literal starts with, in front of the inside of the literal. -/
def comparing (op : Comparison) (inside : List Char) : List Char :=
  ' ' :: (op.token.toList ++ ' ' :: '\'' :: inside)

/-- A text that starts with a condition on a label or a relation. -/
inductive ReadsAttribute : List Char → AttributeTest → List Char → Prop
  | plain {sigil : Char} {cs rest : List Char} {name : String} : sigil ∈ sigils →
    ReadsName cs name rest → (∀ op inside, rest ≠ comparing op inside) →
    ReadsAttribute (sigil :: cs) ⟨sigil, name, none⟩ rest
  | compared {sigil : Char} {cs inside text rest : List Char} {name : String} {op : Comparison} :
    sigil ∈ sigils → ReadsName cs name (comparing op inside) → ReadsLiteral inside text rest →
    ReadsAttribute (sigil :: cs) ⟨sigil, name, some (op, String.ofList text)⟩ rest

/-- A text that starts with an item. -/
inductive ReadsItem : List Char → Item → List Char → Prop
  | ofNote {cs rest : List Char} {a : Atom} : ReadsAtom cs a rest → ReadsItem cs (.ofNote a) rest
  | ofAttribute {cs rest : List Char} {t : AttributeTest} : ReadsAttribute cs t rest →
    ReadsItem cs (.ofAttribute t) rest

/-- A text that starts with further alternatives and the parenthesis that ends them. -/
inductive ReadsAlternatives : List Char → List Item → List Char → Prop
  | close (rest : List Char) : ReadsAlternatives (')' :: rest) [] rest
  | cons {cs afterItem rest : List Char} {x : Item} {others : List Item} :
    ReadsItem cs x afterItem → ReadsAlternatives afterItem others rest →
    ReadsAlternatives (' ' :: 'O' :: 'R' :: ' ' :: cs) (x :: others) rest

/-- A text that starts with a demand. -/
inductive ReadsDemand : List Char → Demand → List Char → Prop
  | item {cs rest : List Char} {x : Item} : ReadsItem cs x rest → ReadsDemand cs (.item x) rest
  | anyOf {cs afterFirst rest : List Char} {first second : Item} {others : List Item} :
    ReadsItem cs first afterFirst → ReadsAlternatives afterFirst (second :: others) rest →
    ReadsDemand ('~' :: '(' :: cs) (.anyOf first second others) rest

/-- What stands behind the lead of a query: demands and a limit, up to the end. -/
inductive ReadsDemands : List Char → List Demand → Option Nat → Prop
  | done : ReadsDemands [] [] none
  | limit {digits : List Char} : digits ≠ [] → (∀ c ∈ digits, c.isDigit = true) →
    ReadsDemands (' ' :: 'l' :: 'i' :: 'm' :: 'i' :: 't' :: ' ' :: digits) []
      (some (Numeric.digitsValue digits))
  | cons {cs afterDemand : List Char} {d : Demand} {demands : List Demand} {limit : Option Nat} :
    ReadsDemand cs d afterDemand → ReadsDemands afterDemand demands limit →
    ReadsDemands (' ' :: cs) (d :: demands) limit

/-! ## Uniqueness -/

namespace ReadsName

variable {cs rest rest' : List Char} {name name' : String}

theorem exists_cons (h : ReadsName cs name rest) :
    ∃ c tail, cs = c :: tail ∧ isNameChar c = true := by
  obtain ⟨c, w, hw⟩ := List.exists_cons_of_ne_nil h.isName.1
  exact ⟨c, w ++ rest, by rw [h.eq, hw]; rfl, h.isName.2 c (by simp [hw])⟩

theorem unique (h : ReadsName cs name rest) (h' : ReadsName cs name' rest') :
    name = name' ∧ rest = rest' := by
  obtain ⟨hname, hrest⟩ :=
    append_unique h.isName.2 h.ends h'.isName.2 h'.ends (h.eq.symm.trans h'.eq)
  exact ⟨String.toList_inj.mp hname, hrest⟩

end ReadsName

theorem Comparison.eq_of_token {op op' : Comparison} (h : op.token = op'.token) : op = op' := by
  cases op <;> cases op' <;> first | rfl | exact absurd h (by decide)

theorem comparing_inj {op op' : Comparison} {inside inside' : List Char}
    (h : comparing op inside = comparing op' inside') : op = op' ∧ inside = inside' := by
  have hends (cs : List Char) : EndsWord (' ' :: cs) := endsWord_cons isWordChar_space cs
  obtain ⟨htoken, hrest⟩ := append_unique op.isWord_token.2 (hends _) op'.isWord_token.2 (hends _)
    (List.cons.inj h).2
  cases hrest
  exact ⟨Comparison.eq_of_token (String.toList_inj.mp htoken), rfl⟩

theorem ReadsAttribute.unique {cs rest rest' : List Char} {t t' : AttributeTest}
    (h : ReadsAttribute cs t rest) (h' : ReadsAttribute cs t' rest') : t = t' ∧ rest = rest' := by
  cases h with
  | plain hsigil hname hplain =>
    cases h' with
    | plain hsigil' hname' hplain' =>
      obtain ⟨rfl, rfl⟩ := hname.unique hname'
      exact ⟨rfl, rfl⟩
    | compared hsigil' hname' hliteral' => exact absurd (hname.unique hname').2 (hplain _ _)
  | compared hsigil hname hliteral =>
    cases h' with
    | plain hsigil' hname' hplain' => exact absurd (hname'.unique hname).2 (hplain' _ _)
    | compared hsigil' hname' hliteral' =>
      obtain ⟨rfl, hrest⟩ := hname.unique hname'
      obtain ⟨rfl, rfl⟩ := comparing_inj hrest
      obtain ⟨rfl, rfl⟩ := hliteral.unique hliteral'
      exact ⟨rfl, rfl⟩

/-- A condition on a label or a relation starts with a sigil and a character of its name. -/
theorem ReadsAttribute.exists_cons {cs rest : List Char} {t : AttributeTest}
    (h : ReadsAttribute cs t rest) :
    ∃ sigil c tail, cs = sigil :: c :: tail ∧ sigil ∈ sigils ∧ isNameChar c = true := by
  cases h with
  | plain hsigil hname | compared hsigil hname =>
    obtain ⟨c, tail, rfl, hc⟩ := hname.exists_cons
    exact ⟨_, c, tail, rfl, hsigil, hc⟩

/-- No condition is both on a note property and on a label or a relation. -/
theorem ReadsAtom.not_readsAttribute {cs rest rest' : List Char} {a : Atom} {t : AttributeTest}
    (h : ReadsAtom cs a rest) : ¬ReadsAttribute cs t rest' := by
  intro h'
  obtain ⟨sigil, c, tail, hcs, hsigil, -⟩ := h'.exists_cons
  obtain ⟨-, -, -⟩ := h
  cases hcs
  exact absurd hsigil (by decide)

theorem ReadsItem.unique {cs rest rest' : List Char} {x x' : Item} (h : ReadsItem cs x rest)
    (h' : ReadsItem cs x' rest') : x = x' ∧ rest = rest' := by
  cases h with
  | ofNote h =>
    cases h' with
    | ofNote h' => obtain ⟨rfl, rfl⟩ := h.unique h'; exact ⟨rfl, rfl⟩
    | ofAttribute h' => exact absurd h' h.not_readsAttribute
  | ofAttribute h =>
    cases h' with
    | ofNote h' => exact absurd h h'.not_readsAttribute
    | ofAttribute h' => obtain ⟨rfl, rfl⟩ := h.unique h'; exact ⟨rfl, rfl⟩

/-- What opens alternatives is no item, and neither is a limit. -/
theorem ReadsItem.not_opening {cs rest : List Char} {x : Item} :
    ¬ReadsItem ('~' :: '(' :: cs) x rest ∧ ¬ReadsItem ('l' :: cs) x rest := by
  constructor
  · rintro (⟨⟨⟩⟩ | h)
    obtain ⟨sigil, c, tail, hcs, -, hc⟩ := h.exists_cons
    cases hcs
    exact absurd hc (by decide)
  · rintro (⟨⟨⟩⟩ | h)
    obtain ⟨sigil, c, tail, hcs, hsigil, -⟩ := h.exists_cons
    cases hcs
    exact absurd hsigil (by decide)

theorem ReadsAlternatives.unique {cs rest rest' : List Char} {others others' : List Item}
    (h : ReadsAlternatives cs others rest) (h' : ReadsAlternatives cs others' rest') :
    others = others' ∧ rest = rest' := by
  induction h generalizing others' with
  | close => cases h'; exact ⟨rfl, rfl⟩
  | cons hx _ ih =>
    obtain _ | ⟨hx', h'⟩ := h'
    obtain ⟨rfl, rfl⟩ := hx.unique hx'
    obtain ⟨rfl, rfl⟩ := ih h'
    exact ⟨rfl, rfl⟩

theorem ReadsDemand.unique {cs rest rest' : List Char} {d d' : Demand} (h : ReadsDemand cs d rest)
    (h' : ReadsDemand cs d' rest') : d = d' ∧ rest = rest' := by
  cases h with
  | item hx =>
    cases h' with
    | item hx' => obtain ⟨rfl, rfl⟩ := hx.unique hx'; exact ⟨rfl, rfl⟩
    | anyOf => exact absurd hx ReadsItem.not_opening.1
  | anyOf hx hothers =>
    cases h' with
    | item hx' => exact absurd hx' ReadsItem.not_opening.1
    | anyOf hx' hothers' =>
      obtain ⟨rfl, rfl⟩ := hx.unique hx'
      obtain ⟨heq, rfl⟩ := hothers.unique hothers'
      cases heq
      exact ⟨rfl, rfl⟩

/-- A limit is no demand. -/
theorem not_readsDemand_limit {cs rest : List Char} {d : Demand} :
    ¬ReadsDemand ('l' :: cs) d rest := by
  rintro (h | _)
  exact ReadsItem.not_opening.2 h

/-- **The grammar is unambiguous.** No text has two readings. -/
theorem ReadsDemands.unique {cs : List Char} {demands demands' : List Demand}
    {limit limit' : Option Nat} (h : ReadsDemands cs demands limit)
    (h' : ReadsDemands cs demands' limit') : demands = demands' ∧ limit = limit' := by
  induction h generalizing demands' with
  | done => cases h'; exact ⟨rfl, rfl⟩
  | limit =>
    cases h' with
    | limit => exact ⟨rfl, rfl⟩
    | cons hd => exact absurd hd not_readsDemand_limit
  | cons hd _ ih =>
    cases h' with
    | limit => exact absurd hd not_readsDemand_limit
    | cons hd' h' =>
      obtain ⟨rfl, rfl⟩ := hd.unique hd'
      obtain ⟨rfl, rfl⟩ := ih h'
      exact ⟨rfl, rfl⟩

/-! ## Written forms -/

/-- The written form of a condition on a label or a relation. -/
def AttributeTest.text (t : AttributeTest) : String :=
  match t.comparison with
  | none => String.singleton t.sigil ++ t.name
  | some (op, value) =>
    String.singleton t.sigil ++ t.name ++ " " ++ op.token ++ " " ++ Text.Quoted.quote value

/-- A condition on a label or a relation that can be read back. -/
structure AttributeTest.Readable (t : AttributeTest) : Prop where
  sigil : t.sigil ∈ sigils
  name : IsName t.name.toList

namespace Item

/-- The written form of an item. -/
def text : Item → String
  | .ofNote a => a.text
  | .ofAttribute t => t.text

/-- An item whose written form can be read back. -/
def Readable : Item → Prop
  | .ofNote a => a.Readable
  | .ofAttribute t => t.Readable

end Item

/-- The written form of a demand. -/
def Demand.text : Demand → String
  | .item x => x.text
  | .anyOf first second others =>
    "~(" ++ " OR ".intercalate ((first :: second :: others).map Item.text) ++ ")"

/-- A text in front of which an item can end: the end, a parenthesis, or a space and what starts an
item, an alternative or a limit. -/
inductive EndsItem : List Char → Prop
  | done : EndsItem []
  | close (rest : List Char) : EndsItem (')' :: rest)
  | space {c : Char} (rest : List Char) : c ∈ ['n', '#', '~', 'O', 'l'] →
    EndsItem (' ' :: c :: rest)

/-! ## Written forms are read back -/

namespace EndsItem

variable {rest : List Char}

theorem endsWord (h : EndsItem rest) : EndsWord rest := by
  cases h with
  | done => rintro c ⟨⟩
  | close => exact endsWord_cons rfl _
  | space => exact endsWord_cons isWordChar_space _

theorem endsName (h : EndsItem rest) : EndsName rest := by
  rintro c hc
  cases h with
  | done => cases hc
  | close => cases hc; rfl
  | space => cases hc; rfl

/-- No comparison goes on behind an item. -/
theorem ne_comparing (h : EndsItem rest) (op : Comparison) (inside : List Char) :
    rest ≠ comparing op inside := by
  rintro rfl
  cases op <;> obtain _ | _ | ⟨_, hc⟩ := h <;> exact absurd hc (by decide)

end EndsItem

theorem readsAttribute_text {t : AttributeTest} {rest : List Char} (h : t.Readable)
    (hrest : EndsItem rest) : ReadsAttribute (t.text.toList ++ rest) t rest := by
  obtain ⟨sigil, name, comparison⟩ := t
  obtain ⟨hsigil, hname⟩ := h
  cases comparison with
  | none =>
    have hread := ReadsAttribute.plain hsigil ⟨rfl, hname, hrest.endsName⟩ hrest.ne_comparing
    simpa [AttributeTest.text] using hread
  | some comparison =>
    obtain ⟨op, value⟩ := comparison
    have hends (inside : List Char) : EndsName (comparing op inside) := by
      rintro c ⟨⟩
      rfl
    have hread := ReadsAttribute.compared hsigil ⟨rfl, hname, hends _⟩
      (readsLiteral_escape value.toList rest)
    simpa [AttributeTest.text, comparing, Text.Quoted.quote] using hread

theorem readsItem_text {x : Item} {rest : List Char} (h : x.Readable) (hrest : EndsItem rest) :
    ReadsItem (x.text.toList ++ rest) x rest := by
  cases x with
  | ofNote a => exact .ofNote (readsAtom_text h hrest.endsWord)
  | ofAttribute t => exact .ofAttribute (readsAttribute_text h hrest)

theorem readsAlternatives_text {others : List Item} (h : ∀ x ∈ others, x.Readable)
    (rest : List Char) :
    ReadsAlternatives
      (others.flatMap (fun x => ' ' :: 'O' :: 'R' :: ' ' :: x.text.toList) ++ ')' :: rest)
      others rest := by
  induction others with
  | nil => exact .close rest
  | cons x others ih =>
    obtain ⟨hx, hothers⟩ := List.forall_mem_cons.mp h
    have hends : EndsItem
        (others.flatMap (fun x => ' ' :: 'O' :: 'R' :: ' ' :: x.text.toList) ++ ')' :: rest) := by
      cases others with
      | nil => exact .close _
      | cons y others => exact .space _ (by decide)
    have hcons := ReadsAlternatives.cons (readsItem_text hx hends) (ih hothers)
    simpa using hcons

theorem readsDemand_text {d : Demand} {rest : List Char} (h : ∀ x ∈ d.items, x.Readable)
    (hrest : EndsItem rest) : ReadsDemand (d.text.toList ++ rest) d rest := by
  cases d with
  | item x => exact .item (readsItem_text (h x (by simp [Demand.items])) hrest)
  | anyOf first second others =>
    obtain ⟨hfirst, hothers⟩ := List.forall_mem_cons.mp h
    have hread := readsAlternatives_text hothers rest
    have hany := ReadsDemand.anyOf (readsItem_text hfirst (.space _ (by decide))) hread
    rw [Demand.text, List.map_cons, String.toList_append, String.toList_append,
      toList_intercalate_cons]
    simpa [List.flatMap_def, Function.comp_def] using hany

/-- The written form of a demand starts as an item can start. -/
theorem endsItem_space_text {d : Demand} (h : ∀ x ∈ d.items, x.Readable) (rest : List Char) :
    EndsItem (' ' :: (d.text.toList ++ rest)) := by
  cases d with
  | anyOf first second others =>
    rw [Demand.text, String.toList_append, String.toList_append]
    exact .space _ (by decide)
  | item x =>
    cases x with
    | ofNote a =>
      rw [Demand.text, Item.text, Atom.text, String.toList_append, String.toList_append,
        String.toList_append, String.toList_append, String.toList_append]
      exact .space _ (by decide)
    | ofAttribute t =>
      have hsigil : t.sigil ∈ sigils :=
        AttributeTest.Readable.sigil (h (.ofAttribute t) (List.mem_singleton_self _))
      have htext : ∃ cs, t.text.toList = t.sigil :: cs := by
        unfold AttributeTest.text
        split <;> simp
      obtain ⟨cs, hcs⟩ := htext
      rw [Demand.text, Item.text, hcs]
      refine .space _ ?_
      simp only [sigils, List.mem_cons, List.not_mem_nil, or_false] at hsigil ⊢
      tauto

theorem endsItem_limitText (limit : Option Nat) : EndsItem (limitText limit).toList := by
  cases limit with
  | none => exact .done
  | some n =>
    rw [limitText, String.toList_append]
    exact .space _ (by decide)

theorem readsDemands_limitText (limit : Option Nat) :
    ReadsDemands (limitText limit).toList [] limit := by
  have h := readsTail_limitText limit
  generalize (limitText limit).toList = cs at h
  cases h with
  | done => exact .done
  | limit hne hdigits => exact .limit hne hdigits

/-- **Written forms are read back**: demands, each behind a space, and a limit. -/
theorem readsDemands_text {demands : List Demand} (limit : Option Nat)
    (h : ∀ x ∈ demands.flatMap Demand.items, x.Readable) :
    ReadsDemands (spaced (demands.map Demand.text) ++ (limitText limit).toList) demands limit := by
  induction demands with
  | nil => exact readsDemands_limitText limit
  | cons d demands ih =>
    rw [List.flatMap_cons, List.forall_mem_append] at h
    have hends : EndsItem (spaced (demands.map Demand.text) ++ (limitText limit).toList) := by
      cases demands with
      | nil => exact endsItem_limitText limit
      | cons next demands =>
        have hnext := (List.forall_mem_append.mp (List.flatMap_cons ▸ h.2)).1
        have hspace := endsItem_space_text hnext
          (spaced (demands.map Demand.text) ++ (limitText limit).toList)
        simpa [spaced] using hspace
    have hcons := ReadsDemands.cons (readsDemand_text h.1 hends) (ih h.2)
    simpa [spaced] using hcons

/-! ## What is read has names -/

theorem ReadsAtom.readable {cs rest : List Char} {a : Atom} (h : ReadsAtom cs a rest) :
    a.Readable := by
  obtain ⟨hkey, hop, hoperand⟩ := h
  refine ⟨hkey.isWord, hop.isWord, ?_⟩
  obtain ⟨key, op, operand⟩ := a
  cases hoperand with
  | literal => trivial
  | word hword => exact hword.isWord

theorem ReadsAttribute.readable {cs rest : List Char} {t : AttributeTest}
    (h : ReadsAttribute cs t rest) : t.Readable := by
  cases h with
  | plain hsigil hname | compared hsigil hname => exact ⟨hsigil, hname.isName⟩

theorem ReadsItem.readable {cs rest : List Char} {x : Item} (h : ReadsItem cs x rest) :
    x.Readable := by
  cases h with
  | ofNote h => exact h.readable
  | ofAttribute h => exact h.readable

theorem ReadsAlternatives.readable {cs rest : List Char} {others : List Item}
    (h : ReadsAlternatives cs others rest) : ∀ x ∈ others, x.Readable := by
  induction h with
  | close => simp
  | cons hx _ ih => exact List.forall_mem_cons.mpr ⟨hx.readable, ih⟩

theorem ReadsDemands.readable {cs : List Char} {demands : List Demand} {limit : Option Nat}
    (h : ReadsDemands cs demands limit) :
    ∀ x ∈ demands.flatMap Demand.items, x.Readable := by
  induction h with
  | done => simp
  | limit => simp
  | cons hd _ ih =>
    rw [List.flatMap_cons, List.forall_mem_append]
    refine ⟨?_, ih⟩
    cases hd with
    | item hx => exact List.forall_mem_singleton.mpr hx.readable
    | anyOf hx hothers => exact List.forall_mem_cons.mpr ⟨hx.readable, hothers.readable⟩

end NoteTools.Grammar
