/-!
# Blank characters and trimming

Text is trimmed of the characters with Unicode's `White_Space` property: the ASCII blanks, the
next-line and no-break spaces, and the space separators. Zero-width characters and the byte order
mark are not blank.

Results:

* `trim_eq_empty_iff`: a text trims to nothing exactly when all its characters are blank.
-/

namespace NoteTools.Text

/-! ## The class of blank characters -/

/-- The characters with Unicode's `White_Space` property. -/
def isBlank (c : Char) : Bool :=
  let n := c.toNat
  (9 ≤ n && n ≤ 13) || n == 0x20 || n == 0x85 || n == 0xA0 || n == 0x1680
    || (0x2000 ≤ n && n ≤ 0x200A) || n == 0x2028 || n == 0x2029 || n == 0x202F || n == 0x205F
    || n == 0x3000

/-! ## Stripping a class of characters from the ends -/

/-- Removes the characters of a class from the end. -/
def stripEnd (p : Char → Bool) (cs : List Char) : List Char :=
  (cs.reverse.dropWhile p).reverse

/-- Removes the characters of a class from both ends. -/
def strip (p : Char → Bool) (cs : List Char) : List Char :=
  stripEnd p (cs.dropWhile p)

/-- Removes the blank characters from both ends of a text. -/
def trim (s : String) : String :=
  String.ofList (strip isBlank s.toList)

/-- A text with no character that is not blank. -/
def blank (s : String) : Bool :=
  s.toList.all isBlank

/-- A text without the characters of a class at its end. -/
def trimEnd (p : Char → Bool) (s : String) : String :=
  String.ofList (stripEnd p s.toList)

/-- A text with its ASCII capitals made small. -/
def lowerAscii (s : String) : String :=
  String.ofList (s.toList.map Char.toLower)

/-! ## Laws -/

theorem dropWhile_eq_nil_iff {p : Char → Bool} {cs : List Char} :
    cs.dropWhile p = [] ↔ ∀ c ∈ cs, p c = true := by
  induction cs with
  | nil => simp
  | cons c cs ih => by_cases h : p c <;> simp [h, ih]

theorem stripEnd_eq_nil_iff {p : Char → Bool} {cs : List Char} :
    stripEnd p cs = [] ↔ ∀ c ∈ cs, p c = true := by
  rw [stripEnd, List.reverse_eq_nil_iff, dropWhile_eq_nil_iff]
  simp only [List.mem_reverse]

theorem mem_dropWhile_of {p : Char → Bool} {cs : List Char} (h : ∀ c ∈ cs.dropWhile p, p c = true) :
    ∀ c ∈ cs, p c = true := by
  induction cs with
  | nil => simp
  | cons c cs ih =>
    by_cases hc : p c = true
    · simp only [List.dropWhile_cons, hc, if_true] at h
      simpa [hc] using ih h
    · simp only [List.dropWhile_cons, hc] at h
      simpa using h

theorem strip_eq_nil_iff {p : Char → Bool} {cs : List Char} :
    strip p cs = [] ↔ ∀ c ∈ cs, p c = true := by
  rw [strip, stripEnd_eq_nil_iff]
  exact ⟨mem_dropWhile_of, fun h c hc => h c (List.dropWhile_sublist p |>.subset hc)⟩

theorem mem_of_mem_strip {p : Char → Bool} {cs : List Char} {c : Char} (h : c ∈ strip p cs) :
    c ∈ cs := by
  rw [strip, stripEnd, List.mem_reverse] at h
  have hend : c ∈ cs.dropWhile p := List.mem_reverse.mp ((List.dropWhile_sublist p).subset h)
  exact (List.dropWhile_sublist p).subset hend

theorem trim_eq_empty_iff {s : String} : trim s = "" ↔ blank s = true := by
  have h : trim s = "" ↔ strip isBlank s.toList = [] := by
    rw [trim, ← String.toList_inj]; simp
  rw [h, strip_eq_nil_iff]; simp [blank]

end NoteTools.Text
