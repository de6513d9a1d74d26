import NoteTools.Proofs.ConfiguredKeys

/-!
# The check of bearers

The guard of tokens looks at the first authorization header of a request. Its octets have to be
text; without the blanks around them they are `Bearer ` and more, and that without the blanks around
it is one of the tokens, octet by octet. Of the blank characters only the space and the tab can
stand in a header, so the blanks can be removed from the octets as well as from the text.

Main definitions:

* `IsTextOctet`, `trimOctets`: the octets of text in a header, and octets without blanks around
  them;
* `Presents`: the headers that present a token;
* `ChecksBearers`: what the guard of tokens does.

Results:

* `encode_trim`: a text without blanks around it, in octets;
* `bears_iff_presents`: the headers that bear a token are those that present it;
* `bearer_check_exact`: the guard of any list of tokens.
-/

namespace NoteTools

open Access Text

namespace Access

/-! ## Specification -/

/-- An octet of text in a header: visible ASCII, a space or a tab. -/
def IsTextOctet (b : UInt8) : Prop :=
  b.toNat = 9 ∨ 0x20 ≤ b.toNat ∧ b.toNat ≤ 0x7E

/-- A space or a tab. -/
def isPad (b : UInt8) : Bool :=
  b == 0x20 || b == 0x09

/-- Octets without the spaces and tabs around them. -/
def trimOctets (bs : List UInt8) : List UInt8 :=
  (bs.dropWhile isPad).rdropWhile isPad

/-- A header presents octets as a token: trimmed, it is `Bearer ` and more, and that, trimmed, is
not empty and has these octets. -/
structure Presents (value token : List UInt8) : Prop where
  text : ∀ b ∈ value, IsTextOctet b
  scheme : ∃ rest, trimOctets value = Utf8.encode "Bearer " ++ rest ∧ trimOctets rest = token
  nonempty : token ≠ []

/-- The guard of tokens lets exactly their bearers through. -/
structure ChecksBearers (tokens : List String) : Prop where
  /-- A request is let through exactly when there is a header and the first one presents the octets
  of a token. -/
  admits_iff : ∀ values, (Guard.staticKeys tokens).refusal? values = none ↔
    ∃ value later, values = value :: later ∧ ∃ token ∈ tokens, Presents value (Utf8.encode token)
  /-- Any other request is refused. -/
  refuses : ∀ values, (Guard.staticKeys tokens).refusal? values ≠ none →
    (Guard.staticKeys tokens).Refuses values
  /-- Later headers do not matter. -/
  later : ∀ value later later', (Guard.staticKeys tokens).refusal? (value :: later) =
    (Guard.staticKeys tokens).refusal? (value :: later')
  /-- A token that is empty or has blanks around it does not matter, wherever it stands. -/
  useless : ∀ front token back, tokens = front ++ token :: back → token = "" ∨ trim token ≠ token →
    ∀ values, (Guard.staticKeys tokens).refusal? values =
      (Guard.staticKeys (front ++ back)).refusal? values
  /-- With more tokens, nobody is refused who was let through. -/
  more : ∀ tokens', tokens ⊆ tokens' → ∀ values, (Guard.staticKeys tokens).refusal? values = none →
    (Guard.staticKeys tokens').refusal? values = none

/-! ## Octets and text -/

/-- The text of octets, one character each. -/
def octetText (bs : List UInt8) : String :=
  String.ofList (bs.map fun b => Char.ofNat b.toNat)

theorem toNat_ofNat_of_isTextOctet {b : UInt8} (h : IsTextOctet b) :
    (Char.ofNat b.toNat).toNat = b.toNat := by
  have hall : ∀ n < 0x80, (Char.ofNat n).toNat = n := by decide
  have hsmall : b.toNat < 0x80 := by
    rcases h with h | h <;> omega
  exact hall b.toNat hsmall

/-- Text in a header is ASCII, so each of its octets is that of its character. -/
theorem encode_octetText {bs : List UInt8} (h : ∀ b ∈ bs, IsTextOctet b) :
    Utf8.encode (octetText bs) = bs := by
  rw [Utf8.encode, octetText, String.toList_ofList, List.flatMap_map]
  induction bs with
  | nil => rfl
  | cons b bs ih =>
    obtain ⟨hb, hbs⟩ := List.forall_mem_cons.mp h
    have htoNat := toNat_ofNat_of_isTextOctet hb
    have hsmall : (Char.ofNat b.toNat).toNat < 0x80 := by
      rw [htoNat]
      rcases hb with hb | hb <;> omega
    rw [List.flatMap_cons, ih hbs, utf8EncodeChar_of_lt hsmall, htoNat, UInt8.ofNat_toNat,
      List.singleton_append]

/-- A text whose octets are text in a header is the text of its octets. -/
theorem octetText_encode {s : String} (h : ∀ b ∈ Utf8.encode s, IsTextOctet b) :
    octetText (Utf8.encode s) = s :=
  Utf8.encode_injective (encode_octetText h)

/-- Text in a header is what the guard reads of it. -/
theorem headerText?_eq_some_iff {value : List UInt8} {text : String} :
    headerText? value = some text ↔ (∀ b ∈ value, IsTextOctet b) ∧ text = octetText value := by
  have hoctets : value.all isHeaderOctet = true ↔ ∀ b ∈ value, IsTextOctet b := by
    rw [List.all_eq_true]
    refine forall₂_congr fun b _ => isHeaderOctet_iff.trans ?_
    rw [IsTextOctet, Nat.lt_succ_iff]
  rw [headerText?, ← hoctets]
  constructor
  · intro h
    split at h
    · next hall => exact ⟨hall, (Option.some.inj h).symm⟩
    · cases h
  · rintro ⟨hall, rfl⟩
    exact if_pos hall

/-! ## Trimming -/

theorem mem_of_mem_trimOctets {bs : List UInt8} {b : UInt8} (h : b ∈ trimOctets bs) : b ∈ bs :=
  (List.dropWhile_sublist isPad).subset ((List.rdropWhile_prefix isPad _).subset h)

theorem isBlank_of_isTextOctet {b : UInt8} (h : IsTextOctet b) :
    isBlank (Char.ofNat b.toNat) = isPad b := by
  have hall : ∀ n < 0x7F, n = 9 ∨ 0x20 ≤ n → isBlank (Char.ofNat n) = (n == 0x20 || n == 9) := by
    decide
  have hpad : isPad b = (b.toNat == 0x20 || b.toNat == 9) := by
    rw [isPad, Bool.eq_iff_iff]
    simp [← UInt8.toNat_inj]
  rw [hpad]
  rcases h with h | h
  · exact hall b.toNat (by omega) (.inl h)
  · exact hall b.toNat (by omega) (.inr h.1)

/-- Blanks are dropped from text in a header as pads are from its octets. -/
theorem dropWhile_octets {bs : List UInt8} (h : ∀ b ∈ bs, IsTextOctet b) :
    (bs.map fun b => Char.ofNat b.toNat).dropWhile isBlank =
      (bs.dropWhile isPad).map fun b => Char.ofNat b.toNat := by
  induction bs with
  | nil => rfl
  | cons b bs ih =>
    obtain ⟨hb, hbs⟩ := List.forall_mem_cons.mp h
    rw [List.map_cons, List.dropWhile_cons, List.dropWhile_cons, isBlank_of_isTextOctet hb]
    split
    · exact ih hbs
    · rfl

theorem trim_octetText {bs : List UInt8} (h : ∀ b ∈ bs, IsTextOctet b) :
    trim (octetText bs) = octetText (trimOctets bs) := by
  have hfront : ∀ b ∈ (bs.dropWhile isPad).reverse, IsTextOctet b := fun b hb =>
    h b ((List.dropWhile_sublist isPad).subset (List.mem_reverse.mp hb))
  rw [trim, octetText, String.toList_ofList, strip, dropWhile_octets h, stripEnd,
    ← List.map_reverse, dropWhile_octets hfront, ← List.map_reverse]
  rfl

/-- A text without blanks around it, in octets. -/
theorem encode_trim {s : String} (h : ∀ b ∈ Utf8.encode s, IsTextOctet b) :
    Utf8.encode (trim s) = trimOctets (Utf8.encode s) := by
  nth_rewrite 1 [← octetText_encode h]
  rw [trim_octetText h, encode_octetText fun b hb => h b (mem_of_mem_trimOctets hb)]

/-! ## Tokens -/

/-- The headers that bear a token are those that present its octets. -/
theorem bears_iff_presents {value : List UInt8} {token : String} :
    Bears value token ∧ token ≠ "" ↔ Presents value (Utf8.encode token) := by
  constructor
  · rintro ⟨⟨text, rest, htext, htrim, rfl⟩, hne⟩
    obtain ⟨hvalue, rfl⟩ := headerText?_eq_some_iff.mp htext
    have hsplit : trimOctets value = Utf8.encode "Bearer " ++ Utf8.encode rest := by
      rw [← Utf8.encode_append, ← htrim, trim_octetText hvalue]
      exact (encode_octetText fun b hb => hvalue b (mem_of_mem_trimOctets hb)).symm
    have hrest : ∀ b ∈ Utf8.encode rest, IsTextOctet b := fun b hb =>
      hvalue b (mem_of_mem_trimOctets (hsplit ▸ List.mem_append_right _ hb))
    exact ⟨hvalue, ⟨_, hsplit, (encode_trim hrest).symm⟩, mt Utf8.encode_eq_nil_iff.mp hne⟩
  · rintro ⟨hvalue, ⟨rest, hsplit, htoken⟩, hne⟩
    have htrimmed : ∀ b ∈ trimOctets value, IsTextOctet b := fun b hb =>
      hvalue b (mem_of_mem_trimOctets hb)
    have hrest : ∀ b ∈ rest, IsTextOctet b := fun b hb =>
      htrimmed b (hsplit ▸ List.mem_append_right _ hb)
    refine ⟨⟨octetText value, octetText rest, headerText?_eq_some_iff.mpr ⟨hvalue, rfl⟩, ?_, ?_⟩,
      mt Utf8.encode_eq_nil_iff.mpr hne⟩
    · apply Utf8.encode_injective
      rw [trim_octetText hvalue, encode_octetText htrimmed, Utf8.encode_append,
        encode_octetText hrest, hsplit]
    · apply Utf8.encode_injective
      rw [trim_octetText hrest, ← htoken]
      exact encode_octetText fun b hb => hrest b (mem_of_mem_trimOctets hb)

/-- The token that a header bears has no blanks around it. -/
theorem Bears.trim_eq {value : List UInt8} {token : String} (h : Bears value token) :
    trim token = token := by
  obtain ⟨_, rest, -, -, rfl⟩ := h
  exact trim_trim rest

/-! ## Guards -/

theorem Guard.refusal?_eq_none_iff {guard : Guard} {values : List (List UInt8)} :
    guard.refusal? values = none ↔ guard.admits values = true := by
  rw [refusal?]
  cases guard.admits values <;> simp

/-- Guards that let the same requests through reply the same. -/
theorem Guard.refusal?_congr {guard guard' : Guard} {values values' : List (List UInt8)}
    (h : guard.admits values = true ↔ guard'.admits values' = true) :
    guard.refusal? values = guard'.refusal? values' := by
  rw [refusal?, refusal?, Bool.eq_iff_iff.mpr h]

/-- The guard of tokens looks at the first header. -/
theorem Guard.admits_staticKeys {tokens : List String} {values : List (List UInt8)} :
    (Guard.staticKeys tokens).admits values = true ↔
      ∃ value ∈ values.head?, ∃ token ∈ tokens, Bears value token ∧ token ≠ "" := by
  cases values with
  | nil => simp [Guard.admits]
  | cons value later =>
    simp only [Guard.admits, Option.any_eq_true, bearerToken?_eq_some_iff, List.contains_iff_mem,
      List.head?_cons, Option.mem_some_iff, exists_eq_left']
    exact exists_congr fun token => and_comm

end Access

/-- **The check of bearers is exact.** Whatever the tokens and whatever the headers, the guard lets
exactly the requests through whose first header presents one of the tokens. Later headers, empty
tokens and tokens with blanks around them do not matter, and more tokens refuse nobody. -/
theorem bearer_check_exact (tokens : List String) : ChecksBearers tokens where
  admits_iff values := by
    rw [Guard.refusal?_eq_none_iff, Guard.admits_staticKeys]
    simp only [bears_iff_presents]
    cases values with
    | nil => simp
    | cons value later => simp
  refuses values h := by
    have hnot : ¬(Guard.staticKeys tokens).admits values = true :=
      mt Guard.refusal?_eq_none_iff.mpr h
    exact ⟨unauthorized, if_neg hnot, rfl⟩
  later value later later' := by
    refine Guard.refusal?_congr ?_
    rw [Guard.admits_staticKeys, Guard.admits_staticKeys]
    rfl
  useless front token back htokens huseless values := by
    refine Guard.refusal?_congr ?_
    rw [Guard.admits_staticKeys, Guard.admits_staticKeys]
    refine exists_congr fun value => and_congr_right fun _ => ?_
    constructor
    · rintro ⟨token', hmem, hbears, hne⟩
      refine ⟨token', ?_, hbears, hne⟩
      rw [htokens, List.mem_append, List.mem_cons] at hmem
      obtain hfront | rfl | hback := hmem
      · exact List.mem_append_left _ hfront
      · exact absurd hbears.trim_eq (huseless.resolve_left hne)
      · exact List.mem_append_right _ hback
    · rintro ⟨token', hmem, hbears⟩
      refine ⟨token', ?_, hbears⟩
      rw [htokens]
      exact (List.mem_append.mp hmem).elim (List.mem_append_left _) fun hback =>
        List.mem_append_right _ (List.mem_cons_of_mem _ hback)
  more tokens' hsubset values h := by
    rw [Guard.refusal?_eq_none_iff, Guard.admits_staticKeys] at h ⊢
    obtain ⟨value, hvalue, token, htoken, hbears⟩ := h
    exact ⟨value, hvalue, token, hsubset htoken, hbears⟩

/-- A token may itself start with the scheme; the scheme alone, with a tab behind it or in small
letters bears nothing. -/
example : (["Bearer Bearer a", "\tBearer \t b ", "Bearer", "Bearer\ta", "bearer a"].map fun value =>
    ((Guard.staticKeys ["Bearer a", " ", "b"]).refusal? [Utf8.encode value]).isNone) =
      [true, true, false, false, false] := by
  decide +kernel

end NoteTools
