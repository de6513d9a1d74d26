/-!
# Splitting

A text is cut in two at the first of a class of characters, or into the pieces between them.

Main definitions:

* `breakAt`: the text up to the first of a class, and the rest;
* `splitOn`: the pieces between the characters of a class.

Results:

* `breakAt_append`: nothing is lost;
* `splitOn_ne_nil`: there is always a piece;
* `breakAt_append_cons`, `splitOn_append_cons`: the first cut is at the first of the class;
* `breakAt_append_right`, `splitOn_append`: texts put together.
-/

namespace NoteTools.Text

/-- The text up to the first of a class of characters, and the rest from there. -/
def breakAt (p : Char → Bool) (cs : List Char) : List Char × List Char :=
  (cs.takeWhile fun c => !p c, cs.dropWhile fun c => !p c)

/-- The pieces of a text between the characters of a class. -/
def splitOn (p : Char → Bool) : List Char → List (List Char)
  | [] => [[]]
  | c :: cs =>
    if p c then [] :: splitOn p cs
    else match splitOn p cs with
      | piece :: pieces => (c :: piece) :: pieces
      | [] => [[c]]

theorem breakAt_append (p : Char → Bool) (cs : List Char) :
    (breakAt p cs).1 ++ (breakAt p cs).2 = cs :=
  List.takeWhile_append_dropWhile

/-- The text up to the first of a class has none of the class. -/
theorem of_mem_breakAt_fst {p : Char → Bool} {cs : List Char} {c : Char}
    (h : c ∈ (breakAt p cs).1) : c ∈ cs ∧ p c = false := by
  refine ⟨(List.takeWhile_sublist _).subset h, ?_⟩
  have hall : ((breakAt p cs).1.all fun d => !p d) = true := List.all_takeWhile
  simpa using List.all_eq_true.mp hall c h

/-- The rest begins with one of the class. -/
theorem breakAt_snd_cases (p : Char → Bool) (cs : List Char) :
    (breakAt p cs).2 = [] ∨ ∃ c rest, (breakAt p cs).2 = c :: rest ∧ p c = true := by
  induction cs with
  | nil => exact .inl rfl
  | cons d cs ih =>
    by_cases hd : p d = true
    · exact .inr ⟨d, cs, by simp [breakAt, hd], hd⟩
    · simpa [breakAt, hd] using ih

/-- Text behind the first of a class does not move the cut. -/
theorem breakAt_append_right {p : Char → Bool} {cs : List Char} (h : (breakAt p cs).2 ≠ [])
    (rest : List Char) :
    breakAt p (cs ++ rest) = ((breakAt p cs).1, (breakAt p cs).2 ++ rest) := by
  induction cs with
  | nil => exact absurd rfl h
  | cons d cs ih =>
    by_cases hd : p d = true
    · simp [breakAt, hd]
    · simp only [breakAt, List.cons_append, List.takeWhile_cons, List.dropWhile_cons, hd,
        Bool.not_false, if_true, Prod.mk.injEq] at h ih ⊢
      obtain ⟨hfst, hsnd⟩ := ih h
      exact ⟨congrArg (d :: ·) hfst, hsnd⟩

/-- A text that is not cut has none of the class. -/
theorem of_breakAt_snd_eq_nil {p : Char → Bool} {cs : List Char} (h : (breakAt p cs).2 = []) :
    ∀ c ∈ cs, p c = false := by
  intro c hc
  rw [← breakAt_append p cs, h, List.append_nil] at hc
  exact (of_mem_breakAt_fst hc).2

theorem of_mem_breakAt_snd {p : Char → Bool} {cs : List Char} {c : Char}
    (h : c ∈ (breakAt p cs).2) : c ∈ cs :=
  (List.dropWhile_sublist _).subset h

theorem splitOn_ne_nil (p : Char → Bool) (cs : List Char) : splitOn p cs ≠ [] := by
  induction cs with
  | nil => simp [splitOn]
  | cons c cs ih =>
    rw [splitOn]
    split
    · simp
    · split <;> simp

/-- A piece has none of the class. -/
theorem of_mem_splitOn {p : Char → Bool} {cs piece : List Char} (hpiece : piece ∈ splitOn p cs)
    {c : Char} (hc : c ∈ piece) : c ∈ cs ∧ p c = false := by
  induction cs generalizing piece with
  | nil =>
    obtain rfl := List.mem_singleton.mp hpiece
    cases hc
  | cons d cs ih =>
    rw [splitOn] at hpiece
    split at hpiece
    · obtain rfl | hpiece := List.mem_cons.mp hpiece
      · cases hc
      · obtain ⟨hmem, hp⟩ := ih hpiece hc
        exact ⟨List.mem_cons_of_mem d hmem, hp⟩
    next hd =>
      split at hpiece
      next first pieces hsplit =>
        obtain rfl | hpiece := List.mem_cons.mp hpiece
        · obtain rfl | hc := List.mem_cons.mp hc
          · exact ⟨List.mem_cons_self, Bool.eq_false_iff.mpr hd⟩
          · obtain ⟨hmem, hp⟩ := ih (hsplit ▸ List.mem_cons_self) hc
            exact ⟨List.mem_cons_of_mem d hmem, hp⟩
        · obtain ⟨hmem, hp⟩ := ih (hsplit ▸ List.mem_cons_of_mem first hpiece) hc
          exact ⟨List.mem_cons_of_mem d hmem, hp⟩
      next hsplit => exact absurd hsplit (splitOn_ne_nil p cs)

section
variable {p : Char → Bool} {front : List Char}

theorem breakAt_eq_self (hfront : ∀ d ∈ front, p d = false) : breakAt p front = (front, []) := by
  induction front with
  | nil => rfl
  | cons d front ih =>
    obtain ⟨hd, hfront⟩ := List.forall_mem_cons.mp hfront
    have h := ih hfront
    simp only [breakAt, Prod.mk.injEq] at h ⊢
    simp [hd, h.1, h.2]

theorem breakAt_append_cons {c : Char} (hfront : ∀ d ∈ front, p d = false) (hc : p c = true)
    (rest : List Char) : breakAt p (front ++ c :: rest) = (front, c :: rest) := by
  induction front with
  | nil => simp [breakAt, hc]
  | cons d front ih =>
    obtain ⟨hd, hfront⟩ := List.forall_mem_cons.mp hfront
    have h := ih hfront
    simp only [breakAt, Prod.mk.injEq] at h ⊢
    simp [hd, h.1, h.2]

theorem splitOn_eq_singleton (hfront : ∀ d ∈ front, p d = false) : splitOn p front = [front] := by
  induction front with
  | nil => rfl
  | cons d front ih =>
    obtain ⟨hd, hfront⟩ := List.forall_mem_cons.mp hfront
    simp [splitOn, hd, ih hfront]

/-- The pieces of two texts with one of the class between them. -/
theorem splitOn_append {c : Char} (hc : p c = true) (front rest : List Char) :
    splitOn p (front ++ c :: rest) = splitOn p front ++ splitOn p rest := by
  induction front with
  | nil => simp [splitOn, hc]
  | cons d front ih =>
    by_cases hd : p d = true
    · simp [splitOn, hd, ih]
    · obtain ⟨piece, pieces, hsplit⟩ := List.exists_cons_of_ne_nil (splitOn_ne_nil p front)
      simp [splitOn, hd, ih, hsplit]

theorem splitOn_append_cons {c : Char} (hfront : ∀ d ∈ front, p d = false) (hc : p c = true)
    (rest : List Char) : splitOn p (front ++ c :: rest) = front :: splitOn p rest := by
  rw [splitOn_append hc, splitOn_eq_singleton hfront]
  rfl

end

end NoteTools.Text
