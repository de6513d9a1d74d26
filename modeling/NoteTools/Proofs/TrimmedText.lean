import Mathlib.Data.List.DropRight
import NoteTools.Text.Blank

/-!
# Trimmed texts

Stripping a class of characters from an end of a text leaves it as it is exactly when no character
of the class stands at that end, and does nothing a second time.

Main definitions:

* `Opens`, `Closes`: a list whose first or last character is outside a class;
* `Tight`: a text with no blank at either end.

Results:

* `stripEnd_eq_self_iff`, `closes_stripEnd`: stripping the end of a list;
* `trim_eq_self_iff`, `tight_trim`: trimming a text;
* `trim_append`, `exists_eq_append_trim`: the blanks around a text;
* `tight_lowerAscii`: capitals and small letters are alike to it;
* `lowerAscii_lowerAscii`: a text with small letters stays as it is.
-/

namespace NoteTools.Text

variable {p q : Char → Bool} {cs : List Char} {s : String}

/-- A list that does not start with a character of a class. -/
def Opens (p : Char → Bool) (cs : List Char) : Prop :=
  ∀ c ∈ cs.head?, p c = false

/-- A list that does not end with a character of a class. -/
def Closes (p : Char → Bool) (cs : List Char) : Prop :=
  ∀ c ∈ cs.getLast?, p c = false

/-! ## One end -/

theorem dropWhile_eq_self_iff : cs.dropWhile p = cs ↔ Opens p cs := by
  cases cs with
  | nil => simp [Opens]
  | cons c cs => simp [List.dropWhile_eq_self_iff, Opens]

theorem opens_dropWhile : Opens p (cs.dropWhile p) :=
  dropWhile_eq_self_iff.mp (List.dropWhile_idempotent p cs)

theorem stripEnd_eq_self_iff : stripEnd p cs = cs ↔ Closes p cs := by
  rw [stripEnd, List.reverse_eq_iff, dropWhile_eq_self_iff, Opens, List.head?_reverse, Closes]

theorem closes_stripEnd : Closes p (stripEnd p cs) :=
  stripEnd_eq_self_iff.mp (List.rdropWhile_idempotent p cs)

theorem stripEnd_isPrefix (p : Char → Bool) (cs : List Char) : stripEnd p cs <+: cs :=
  List.rdropWhile_prefix p cs

/-- A character that is not in the class is not stripped. -/
theorem mem_stripEnd_of {c : Char} (hmem : c ∈ cs) (hc : p c = false) : c ∈ stripEnd p cs := by
  rw [← List.rdropWhile_append_rtakeWhile (p := p) (l := cs)] at hmem
  obtain hstays | hstripped := List.mem_append.mp hmem
  · exact hstays
  · rw [List.mem_rtakeWhile_imp hstripped] at hc
    cases hc

/-- What a list starts with stays when its end is stripped. -/
theorem Opens.of_isPrefix {front : List Char} (h : Opens q cs) (hfront : front <+: cs) :
    Opens q front := by
  obtain ⟨rest, rfl⟩ := hfront
  cases front with
  | nil => exact fun c hc => absurd hc (by simp)
  | cons c front => exact h

/-- A start that does not end with a character of the class stays when the end is stripped. -/
theorem isPrefix_stripEnd {front : List Char} (hfront : front <+: cs) (h : Closes p front) :
    front <+: stripEnd p cs := by
  obtain ⟨rest, rfl⟩ := hfront
  rw [stripEnd, List.reverse_append, List.dropWhile_append]
  split
  · have hself : (front.reverse.dropWhile p).reverse = front := stripEnd_eq_self_iff.mpr h
    exact hself.symm ▸ List.prefix_rfl
  · rw [List.reverse_append, List.reverse_reverse]
    exact List.prefix_append _ _

/-! ## Both ends -/

/-- A text with no blank at either end. -/
structure Tight (s : String) : Prop where
  /-- It does not start with a blank. -/
  opens : Opens isBlank s.toList
  /-- It does not end with a blank. -/
  closes : Closes isBlank s.toList

theorem tight_trim (s : String) : Tight (trim s) := by
  constructor
  · rw [trim, String.toList_ofList]
    exact opens_dropWhile.of_isPrefix (stripEnd_isPrefix isBlank _)
  · rw [trim, String.toList_ofList]
    exact closes_stripEnd

theorem trim_eq_self_iff : trim s = s ↔ Tight s := by
  constructor
  · intro h
    rw [← h]
    exact tight_trim s
  · rintro ⟨hopens, hcloses⟩
    rw [trim, strip, dropWhile_eq_self_iff.mpr hopens, stripEnd_eq_self_iff.mpr hcloses,
      String.ofList_toList]

/-- A text without blanks is trimmed. -/
theorem trim_eq_self (h : ∀ c ∈ s.toList, isBlank c = false) : trim s = s :=
  trim_eq_self_iff.mpr
    ⟨fun c hc => h c (List.mem_of_head? hc), fun c hc => h c (List.mem_of_getLast? hc)⟩

theorem trim_trim (s : String) : trim (trim s) = trim s :=
  trim_eq_self_iff.mpr (tight_trim s)

/-- Blanks around a text do not count. -/
theorem trim_append {front back : String} (hfront : blank front = true) (hback : blank back = true)
    (s : String) : trim (front ++ s ++ back) = trim s := by
  have hfront' : ∀ c ∈ front.toList, isBlank c = true := List.all_eq_true.mp hfront
  have hback' : ∀ c ∈ back.toList, isBlank c = true := List.all_eq_true.mp hback
  have hend (cs : List Char) : stripEnd isBlank (cs ++ back.toList) = stripEnd isBlank cs := by
    rw [stripEnd, List.reverse_append,
      List.dropWhile_append_of_pos fun c hc => hback' c (List.mem_reverse.mp hc), ← stripEnd]
  rw [trim, trim, strip, strip, String.toList_append, String.toList_append, List.append_assoc,
    List.dropWhile_append_of_pos hfront', List.dropWhile_append]
  split
  · -- Nothing is left of the text, and the blanks behind it go as well.
    next hnil =>
    rw [List.isEmpty_iff.mp hnil, List.dropWhile_eq_nil_iff.mpr hback']
  · rw [hend]

/-- A text is its trimmed form with blanks around it. -/
theorem exists_eq_append_trim (s : String) :
    ∃ front back, blank front = true ∧ blank back = true ∧ s = front ++ trim s ++ back := by
  let kept := s.toList.dropWhile isBlank
  refine ⟨.ofList (s.toList.takeWhile isBlank), .ofList (kept.rtakeWhile isBlank), ?_, ?_, ?_⟩
  · rw [blank, String.toList_ofList]
    exact List.all_takeWhile
  · rw [blank, String.toList_ofList, List.all_eq_true]
    exact fun c hc => List.mem_rtakeWhile_imp hc
  · have hkept : stripEnd isBlank kept ++ kept.rtakeWhile isBlank = kept :=
      List.rdropWhile_append_rtakeWhile
    rw [← String.toList_inj, String.toList_append, String.toList_append, String.toList_ofList,
      String.toList_ofList, trim, String.toList_ofList, strip, List.append_assoc, hkept,
      List.takeWhile_append_dropWhile]

/-! ## Capitals -/

/-- What holds of the first 128 characters, one by one, holds of every ASCII character. -/
theorem forall_ascii {P : Char → Prop} (h : ∀ n < 0x80, P (Char.ofNat n)) {c : Char}
    (hc : c.toNat < 0x80) : P c := by
  have hsmall := h c.toNat hc
  rwa [Char.ofNat_toNat] at hsmall

theorem toLower_of_not_lt {c : Char} (h : ¬c.toNat < 0x80) : c.toLower = c := by
  have hlarge : ¬(c.val ≥ 'A'.val ∧ c.val ≤ 'Z'.val) := fun hcapital =>
    h (Nat.lt_of_le_of_lt (UInt32.le_iff_toNat_le.mp hcapital.2) (by decide))
  exact dif_neg hlarge

theorem isBlank_toLower (c : Char) : isBlank c.toLower = isBlank c := by
  by_cases hc : c.toNat < 0x80
  · exact forall_ascii (P := fun c => isBlank c.toLower = isBlank c) (by decide) hc
  · rw [toLower_of_not_lt hc]

theorem toLower_toLower (c : Char) : c.toLower.toLower = c.toLower := by
  by_cases hc : c.toNat < 0x80
  · exact forall_ascii (P := fun c => c.toLower.toLower = c.toLower) (by decide) hc
  · rw [toLower_of_not_lt hc, toLower_of_not_lt hc]

theorem lowerAscii_lowerAscii (s : String) : lowerAscii (lowerAscii s) = lowerAscii s := by
  have htwice : Char.toLower ∘ Char.toLower = Char.toLower := funext toLower_toLower
  rw [lowerAscii, lowerAscii, String.toList_ofList, List.map_map, htwice]

theorem tight_lowerAscii (h : Tight s) : Tight (lowerAscii s) := by
  have htoList : (lowerAscii s).toList = s.toList.map Char.toLower := String.toList_ofList
  constructor
  · rw [htoList]
    intro c hc
    rw [List.head?_map] at hc
    obtain ⟨d, hd, rfl⟩ := Option.map_eq_some_iff.mp hc
    exact (isBlank_toLower d).trans (h.opens d hd)
  · rw [htoList]
    intro c hc
    rw [List.getLast?_map] at hc
    obtain ⟨d, hd, rfl⟩ := Option.map_eq_some_iff.mp hc
    exact (isBlank_toLower d).trans (h.closes d hd)

end NoteTools.Text
