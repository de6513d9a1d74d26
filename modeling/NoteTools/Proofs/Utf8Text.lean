import NoteTools.Text.Utf8

/-!
# UTF-8 text can be read back

The octets of a character are read as that character, whatever octets follow, so the octets of a
text are read as that text.

Results:

* `pieces_utf8EncodeChar`: the octets of a character are one piece;
* `decode?_encode`, `lossy_encode`: the octets of a text are well formed and spell it;
* `encode_injective`, `encode_append`: the octets of different texts, and of texts behind one
  another.
-/

namespace NoteTools.Text.Utf8

/-! ## One character -/

theorem toNat_ofNat_of_lt {n : Nat} (h : n < 256) : (UInt8.ofNat n).toNat = n := by
  rw [UInt8.toNat_ofNat', Nat.mod_eq_of_lt h]

theorem lt_ofNat_iff (n high : Nat) (hn : n < 256) (hhigh : high < 256) :
    UInt8.ofNat n < UInt8.ofNat high ↔ n < high := by
  rw [UInt8.lt_iff_toNat_lt, toNat_ofNat_of_lt hn, toNat_ofNat_of_lt hhigh]

theorem between_ofNat_iff (low n high : Nat) (hlow : low < 256) (hn : n < 256)
    (hhigh : high < 256) :
    (UInt8.ofNat low ≤ UInt8.ofNat n && UInt8.ofNat n ≤ UInt8.ofNat high) = true ↔
      low ≤ n ∧ n ≤ high := by
  rw [Bool.and_eq_true, decide_eq_true_eq, decide_eq_true_eq, UInt8.le_iff_toNat_le,
    UInt8.le_iff_toNat_le, toNat_ofNat_of_lt hlow, toNat_ofNat_of_lt hn, toNat_ofNat_of_lt hhigh]

theorem beq_ofNat_iff (n k : Nat) (hn : n < 256) (hk : k < 256) :
    (UInt8.ofNat n == UInt8.ofNat k) = true ↔ n = k := by
  rw [beq_iff_eq, ← UInt8.toNat_inj, toNat_ofNat_of_lt hn, toNat_ofNat_of_lt hk]

/-- Six bits behind the mark of a continuing octet. -/
theorem isTail_ofNat (n : Nat) : isTail (UInt8.ofNat (n % 0x40 + 0x80)) = true :=
  (between_ofNat_iff 0x80 (n % 0x40 + 0x80) 0xBF (by decide) (by omega) (by decide)).mpr (by omega)

theorem tailBits_ofNat (n : Nat) : tailBits (UInt8.ofNat (n % 0x40 + 0x80)) = n % 0x40 := by
  rw [tailBits, toNat_ofNat_of_lt (by omega)]
  omega

section
variable {v : Nat} (rest : List UInt8)

/-- A code point of at most seven bits is one octet. -/
theorem pieces_one (h : v ≤ 0x7F) :
    pieces (UInt8.ofNat v :: rest) = some (Char.ofNat v) :: pieces rest := by
  have hone : UInt8.ofNat v < 0x80 := (lt_ofNat_iff v 0x80 (by omega) (by decide)).mpr (by omega)
  rw [pieces.eq_def]
  dsimp only
  rw [if_pos hone, toNat_ofNat_of_lt (by omega)]

/-- A code point of at most eleven bits is two octets. -/
theorem pieces_two (h : 0x7F < v) (h' : v ≤ 0x7FF) :
    pieces (UInt8.ofNat (v / 0x40 % 0x20 + 0xC0) :: UInt8.ofNat (v % 0x40 + 0x80) :: rest) =
      some (Char.ofNat v) :: pieces rest := by
  obtain ⟨a, ha⟩ : ∃ a, a = v / 0x40 % 0x20 + 0xC0 := ⟨_, rfl⟩
  have hsize : a < 256 := by omega
  have hone : ¬UInt8.ofNat a < 0x80 := mt (lt_ofNat_iff a 0x80 hsize (by decide)).mp (by omega)
  have htwo : (0xC2 ≤ UInt8.ofNat a && UInt8.ofNat a ≤ 0xDF) = true :=
    (between_ofNat_iff 0xC2 a 0xDF (by decide) hsize (by decide)).mpr (by omega)
  have hvalue : a % 0x20 * 0x40 + v % 0x40 = v := by omega
  rw [← ha, pieces.eq_def]
  dsimp only
  rw [if_neg hone, if_pos htwo, if_pos (isTail_ofNat v), tailBits_ofNat, toNat_ofNat_of_lt hsize,
    hvalue]

/-- A code point of at most sixteen bits that is no surrogate is three octets. -/
theorem pieces_three (h : 0x7FF < v) (h' : v ≤ 0xFFFF) (hsurrogate : v < 0xD800 ∨ 0xDFFF < v) :
    pieces (UInt8.ofNat (v / 0x1000 % 0x10 + 0xE0) :: UInt8.ofNat (v / 0x40 % 0x40 + 0x80) ::
      UInt8.ofNat (v % 0x40 + 0x80) :: rest) = some (Char.ofNat v) :: pieces rest := by
  obtain ⟨a, ha⟩ : ∃ a, a = v / 0x1000 % 0x10 + 0xE0 := ⟨_, rfl⟩
  obtain ⟨b, hb⟩ : ∃ b, b = v / 0x40 % 0x40 + 0x80 := ⟨_, rfl⟩
  have hsize : a < 256 := by omega
  have hone : ¬UInt8.ofNat a < 0x80 := mt (lt_ofNat_iff a 0x80 hsize (by decide)).mp (by omega)
  have htwo : ¬(0xC2 ≤ UInt8.ofNat a && UInt8.ofNat a ≤ 0xDF) = true :=
    mt (between_ofNat_iff 0xC2 a 0xDF (by decide) hsize (by decide)).mp (by omega)
  have hthree : (0xE0 ≤ UInt8.ofNat a && UInt8.ofNat a ≤ 0xEF) = true :=
    (between_ofNat_iff 0xE0 a 0xEF (by decide) hsize (by decide)).mpr (by omega)
  -- The second octet is restricted after `E0`, as the character would be shorter otherwise, and
  -- after `ED`, as it would be a surrogate.
  have hsecond : isSecondOfThree (UInt8.ofNat a) (UInt8.ofNat b) = true := by
    unfold isSecondOfThree
    split
    · next hE0 =>
      have ha' : a = 0xE0 := (beq_ofNat_iff a 0xE0 hsize (by decide)).mp hE0
      exact (between_ofNat_iff 0xA0 b 0xBF (by decide) (by omega) (by decide)).mpr (by omega)
    split
    · next hED =>
      have ha' : a = 0xED := (beq_ofNat_iff a 0xED hsize (by decide)).mp hED
      exact (between_ofNat_iff 0x80 b 0x9F (by decide) (by omega) (by decide)).mpr (by omega)
    · exact hb ▸ isTail_ofNat (v / 0x40)
  have hvalue : a % 0x10 * 0x1000 + v / 0x40 % 0x40 * 0x40 + v % 0x40 = v := by omega
  rw [← ha, ← hb, pieces.eq_def]
  dsimp only
  rw [if_neg hone, if_neg htwo, if_pos hthree, if_pos hsecond, if_pos (isTail_ofNat v), hb,
    tailBits_ofNat, tailBits_ofNat, toNat_ofNat_of_lt hsize, hvalue]

/-- A larger code point is four octets. -/
theorem pieces_four (h : 0xFFFF < v) (h' : v < 0x110000) :
    pieces (UInt8.ofNat (v / 0x40000 % 0x08 + 0xF0) :: UInt8.ofNat (v / 0x1000 % 0x40 + 0x80) ::
      UInt8.ofNat (v / 0x40 % 0x40 + 0x80) :: UInt8.ofNat (v % 0x40 + 0x80) :: rest) =
        some (Char.ofNat v) :: pieces rest := by
  obtain ⟨a, ha⟩ : ∃ a, a = v / 0x40000 % 0x08 + 0xF0 := ⟨_, rfl⟩
  obtain ⟨b, hb⟩ : ∃ b, b = v / 0x1000 % 0x40 + 0x80 := ⟨_, rfl⟩
  have hsize : a < 256 := by omega
  have hone : ¬UInt8.ofNat a < 0x80 := mt (lt_ofNat_iff a 0x80 hsize (by decide)).mp (by omega)
  have htwo : ¬(0xC2 ≤ UInt8.ofNat a && UInt8.ofNat a ≤ 0xDF) = true :=
    mt (between_ofNat_iff 0xC2 a 0xDF (by decide) hsize (by decide)).mp (by omega)
  have hthree : ¬(0xE0 ≤ UInt8.ofNat a && UInt8.ofNat a ≤ 0xEF) = true :=
    mt (between_ofNat_iff 0xE0 a 0xEF (by decide) hsize (by decide)).mp (by omega)
  have hfour : (0xF0 ≤ UInt8.ofNat a && UInt8.ofNat a ≤ 0xF4) = true :=
    (between_ofNat_iff 0xF0 a 0xF4 (by decide) hsize (by decide)).mpr (by omega)
  -- The second octet is restricted after `F0`, as the character would be shorter otherwise, and
  -- after `F4`, as it would be no code point.
  have hsecond : isSecondOfFour (UInt8.ofNat a) (UInt8.ofNat b) = true := by
    unfold isSecondOfFour
    split
    · next hF0 =>
      have ha' : a = 0xF0 := (beq_ofNat_iff a 0xF0 hsize (by decide)).mp hF0
      exact (between_ofNat_iff 0x90 b 0xBF (by decide) (by omega) (by decide)).mpr (by omega)
    split
    · next hF4 =>
      have ha' : a = 0xF4 := (beq_ofNat_iff a 0xF4 hsize (by decide)).mp hF4
      exact (between_ofNat_iff 0x80 b 0x8F (by decide) (by omega) (by decide)).mpr (by omega)
    · exact hb ▸ isTail_ofNat (v / 0x1000)
  have hvalue : a % 0x08 * 0x40000 + v / 0x1000 % 0x40 * 0x1000 + v / 0x40 % 0x40 * 0x40 +
      v % 0x40 = v := by omega
  rw [← ha, ← hb, pieces.eq_def]
  dsimp only
  rw [if_neg hone, if_neg htwo, if_neg hthree, if_pos hfour, if_pos hsecond,
    if_pos (isTail_ofNat (v / 0x40)), if_pos (isTail_ofNat v), hb, tailBits_ofNat, tailBits_ofNat,
    tailBits_ofNat, toNat_ofNat_of_lt hsize, hvalue]

end

/-- The octets of a character are one piece. -/
theorem pieces_utf8EncodeChar (c : Char) (rest : List UInt8) :
    pieces (String.utf8EncodeChar c ++ rest) = some c :: pieces rest := by
  have hvalid : c.val.toNat < 0xD800 ∨ 0xDFFF < c.val.toNat ∧ c.val.toNat < 0x110000 := c.valid
  have hchar : Char.ofNat c.val.toNat = c := Char.ofNat_toNat c
  unfold String.utf8EncodeChar
  by_cases h1 : c.val.toNat ≤ 0x7F
  · rw [if_pos h1]
    exact (pieces_one rest h1).trans (by rw [hchar])
  by_cases h2 : c.val.toNat ≤ 0x7FF
  · rw [if_neg h1, if_pos h2]
    exact (pieces_two rest (by omega) h2).trans (by rw [hchar])
  by_cases h3 : c.val.toNat ≤ 0xFFFF
  · rw [if_neg h1, if_neg h2, if_pos h3]
    exact (pieces_three rest (by omega) h3 (by omega)).trans (by rw [hchar])
  · rw [if_neg h1, if_neg h2, if_neg h3]
    exact (pieces_four rest (by omega) (by omega)).trans (by rw [hchar])

/-! ## Texts -/

/-- The octets of a text are its characters, piece by piece. -/
theorem pieces_encode (s : String) : pieces (encode s) = s.toList.map some := by
  unfold encode
  induction s.toList with
  | nil => rfl
  | cons c cs ih => rw [List.flatMap_cons, pieces_utf8EncodeChar, ih, List.map_cons]

/-- The octets of a text are well formed and spell it. -/
theorem decode?_encode (s : String) : decode? (encode s) = some s := by
  have hchars (cs : List Char) : (cs.map some).mapM id = some cs := by
    induction cs with
    | nil => rfl
    | cons c cs ih =>
      rw [List.map_cons, List.mapM_cons, ih]
      rfl
  rw [decode?, pieces_encode, hchars, Option.map_some, String.ofList_toList]

/-- A lossy reading of the octets of a text loses nothing. -/
theorem lossy_encode (s : String) : lossy (encode s) = s := by
  have hchars : (s.toList.map some).map (·.getD '\uFFFD') = s.toList := by
    rw [List.map_map]
    exact List.map_id s.toList
  rw [lossy, pieces_encode, hchars, String.ofList_toList]

theorem encode_injective {s s' : String} (h : encode s = encode s') : s = s' := by
  have hdecode := decode?_encode s
  rw [h, decode?_encode] at hdecode
  exact (Option.some.inj hdecode).symm

theorem encode_append (s s' : String) : encode (s ++ s') = encode s ++ encode s' := by
  rw [encode, encode, encode, String.toList_append, List.flatMap_append]

theorem encode_eq_nil_iff {s : String} : encode s = [] ↔ s = "" :=
  ⟨fun h => encode_injective h, fun h => by rw [h]; rfl⟩

end NoteTools.Text.Utf8
