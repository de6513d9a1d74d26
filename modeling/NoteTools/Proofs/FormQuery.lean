import NoteTools.Numeric.Digits
import NoteTools.Proofs.Utf8Text
import NoteTools.Text.FormUrl
import NoteTools.Text.Split

/-!
# Form queries can be read back

A query in the `application/x-www-form-urlencoded` format is cut at `&`, and each piece at its first
`=`; in both parts `+` stands for a space, and `%` with two hexadecimal digits for an octet. The
octets are the UTF-8 text of the name or the value.

Main definitions:

* `decode`, `decodePairs`: the text and the pairs that a written form stands for;
* `isFormChar`: the characters of written forms.

Results:

* `isFormChar_of_mem_encode`: a written form has none of the characters that structure a query or an
  address;
* `decode_encode`: a text is read back from its written form;
* `decodePairs_encodePairs`: the pairs are read back from a query.
-/

namespace NoteTools.Text.FormUrl

open Numeric

/-! ## Reading -/

/-- The octets that a written form stands for. A percent sign without two digits behind it stands
for itself. -/
def decodeOctets : List Char → List UInt8
  | [] => []
  | '+' :: cs => 0x20 :: decodeOctets cs
  | '%' :: a :: b :: cs =>
    match digit? 16 a, digit? 16 b with
    | some x, some y => UInt8.ofNat (x * 16 + y) :: decodeOctets cs
    | _, _ => 0x25 :: decodeOctets (a :: b :: cs)
  | c :: cs => String.utf8EncodeChar c ++ decodeOctets cs

/-- The text that a written form stands for. -/
def decode (cs : List Char) : String :=
  Utf8.lossy (decodeOctets cs)

/-- The pairs that a query stands for; an empty piece stands for none. -/
def decodePairs (query : String) : List (String × String) :=
  ((splitOn (· == '&') query.toList).filter (· ≠ [])).map fun piece =>
    let (name, value) := breakAt (· == '=') piece
    (decode name, decode (value.drop 1))

/-! ## The characters of written forms -/

/-- A character of a written form. -/
def isFormChar (c : Char) : Bool :=
  c.isAlphanum || ['*', '-', '.', '_', '+', '%'].contains c

theorem isFormChar_hexDigit : ∀ n < 16, isFormChar (hexDigit n) = true := by decide

theorem isFormChar_of_mem_percent {b : UInt8} {c : Char} (h : c ∈ percent b) :
    isFormChar c = true := by
  have hb : b.toNat < 256 := b.toNat_lt
  simp only [percent, List.mem_cons, List.not_mem_nil, or_false] at h
  obtain rfl | rfl | rfl := h
  · rfl
  · exact isFormChar_hexDigit _ (by omega)
  · exact isFormChar_hexDigit _ (by omega)

theorem isFormChar_of_mem_encodeByte {b : UInt8} {c : Char} (h : c ∈ encodeByte b) :
    isFormChar c = true := by
  unfold encodeByte at h
  split at h
  · next hplain =>
    obtain rfl := List.mem_singleton.mp h
    simp only [isPlain, Bool.and_eq_true, Bool.or_eq_true, beq_iff_eq] at hplain
    obtain ⟨-, (((hc | hc) | hc) | hc) | hc⟩ := hplain
    · rw [isFormChar, hc, Bool.true_or]
    all_goals rw [hc]; rfl
  split at h
  · obtain rfl := List.mem_singleton.mp h
    rfl
  · exact isFormChar_of_mem_percent h

/-- All characters of a written form are of its class. -/
theorem isFormChar_of_mem_encode {s : String} {c : Char} (h : c ∈ (encode s).toList) :
    isFormChar c = true := by
  rw [encode, String.toList_ofList, List.mem_flatMap] at h
  obtain ⟨b, -, hc⟩ := h
  exact isFormChar_of_mem_encodeByte hc

/-! ## Texts -/

theorem digit?_hexDigit : ∀ n < 16, digit? 16 (hexDigit n) = some n := by decide

theorem decodeOctets_percent (b : UInt8) (cs : List Char) :
    decodeOctets (percent b ++ cs) = b :: decodeOctets cs := by
  have hb : b.toNat < 256 := b.toNat_lt
  have hvalue : b.toNat / 16 * 16 + b.toNat % 16 = b.toNat := by omega
  show decodeOctets ('%' :: hexDigit (b.toNat / 16) :: hexDigit (b.toNat % 16) :: cs) = _
  rw [decodeOctets, digit?_hexDigit _ (by omega), digit?_hexDigit _ (by omega)]
  dsimp only
  rw [hvalue, UInt8.ofNat_toNat]

/-- A character that stands for itself is read as its octet. -/
theorem decodeOctets_plain {b : UInt8} (h : isPlain b = true) (cs : List Char) :
    decodeOctets (Char.ofNat b.toNat :: cs) = b :: decodeOctets cs := by
  have hb : b.toNat < 0x80 := by
    simp only [isPlain, Bool.and_eq_true, decide_eq_true_eq, UInt8.lt_iff_toNat_lt] at h
    exact h.1
  have htoNat : (Char.ofNat b.toNat).val.toNat = b.toNat := by
    rw [Char.ofNat, dif_pos (.inl (by omega))]
    rfl
  have hoctet : String.utf8EncodeChar (Char.ofNat b.toNat) = [b] := by
    unfold String.utf8EncodeChar
    rw [htoNat, if_pos (by omega), UInt8.ofNat_toNat]
  have hplus : Char.ofNat b.toNat ≠ '+' := by
    intro hc
    simp [isPlain, hc] at h
  have hpercent : Char.ofNat b.toNat ≠ '%' := by
    intro hc
    simp [isPlain, hc] at h
  rw [decodeOctets, hoctet, List.singleton_append]
  · exact hplus
  · rintro _ _ _ hc
    exact absurd hc hpercent

theorem decodeOctets_encodeByte (b : UInt8) (cs : List Char) :
    decodeOctets (encodeByte b ++ cs) = b :: decodeOctets cs := by
  unfold encodeByte
  split
  · next hplain => exact decodeOctets_plain hplain cs
  split
  · next hspace =>
    subst hspace
    rfl
  · exact decodeOctets_percent b cs

theorem decodeOctets_flatMap (bytes : List UInt8) :
    decodeOctets (bytes.flatMap encodeByte) = bytes := by
  induction bytes with
  | nil => rfl
  | cons b bytes ih => rw [List.flatMap_cons, decodeOctets_encodeByte, ih]

/-- A text is read back from its written form. -/
theorem decode_encode (s : String) : decode (encode s).toList = s := by
  rw [decode, encode, String.toList_ofList, decodeOctets_flatMap, Utf8.lossy_encode]

/-! ## Queries -/

/-- A pair as it is written. -/
def pairText (pair : String × String) : List Char :=
  (encode pair.1).toList ++ '=' :: (encode pair.2).toList

theorem ne_of_mem_encode {s : String} {c d : Char} (hd : isFormChar d = false)
    (hc : c ∈ (encode s).toList) : (c == d) = false := by
  rw [beq_eq_false_iff_ne]
  rintro rfl
  rw [isFormChar_of_mem_encode hc] at hd
  cases hd

/-- No piece of a query is cut within a pair. -/
theorem ne_ampersand_of_mem_pairText {pair : String × String} :
    ∀ c ∈ pairText pair, (c == '&') = false := by
  intro c hc
  obtain hc | rfl | hc : c ∈ (encode pair.1).toList ∨ c = '=' ∨ c ∈ (encode pair.2).toList := by
    simpa [pairText] using hc
  · exact ne_of_mem_encode rfl hc
  · rfl
  · exact ne_of_mem_encode rfl hc

theorem splitOn_encodePairs (pair : String × String) (pairs : List (String × String)) :
    splitOn (· == '&') (encodePairs (pair :: pairs)).toList = (pair :: pairs).map pairText := by
  have hpair (pair : String × String) :
      (encode pair.1 ++ "=" ++ encode pair.2).toList = pairText pair := by
    simp [pairText]
  induction pairs generalizing pair with
  | nil =>
    rw [encodePairs, List.map_singleton, String.intercalate_singleton, hpair]
    exact splitOn_eq_singleton ne_ampersand_of_mem_pairText
  | cons next pairs ih =>
    have htext : (encodePairs (pair :: next :: pairs)).toList =
        pairText pair ++ '&' :: (encodePairs (next :: pairs)).toList := by
      simp [encodePairs, String.intercalate_cons_cons, hpair, pairText]
    rw [htext, splitOn_append_cons ne_ampersand_of_mem_pairText rfl, ih, List.map_cons,
      List.map_cons, List.map_cons]

/-- The pairs are read back from a query. -/
theorem decodePairs_encodePairs (pairs : List (String × String)) :
    decodePairs (encodePairs pairs) = pairs := by
  cases pairs with
  | nil => rfl
  | cons pair pairs =>
    have hne : ((pair :: pairs).map pairText).filter (· ≠ []) = (pair :: pairs).map pairText := by
      apply List.filter_eq_self.mpr
      intro piece hpiece
      obtain ⟨pair, -, rfl⟩ := List.mem_map.mp hpiece
      simp [pairText]
    have hread (pair : String × String) :
        (let (name, value) := breakAt (· == '=') (pairText pair)
        (decode name, decode (value.drop 1))) = pair := by
      rw [pairText, breakAt_append_cons (fun c hc => ne_of_mem_encode rfl hc) rfl]
      simp only [List.drop_succ_cons, List.drop_zero, decode_encode]
    rw [decodePairs, splitOn_encodePairs, hne, List.map_map]
    exact (List.map_congr_left fun pair _ => hread pair).trans (List.map_id _)

end NoteTools.Text.FormUrl
