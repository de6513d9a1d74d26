import NoteTools.Proofs.AddressText

/-!
# The texts of socket addresses

The address of a socket is read from exactly the texts of a grammar: a host, which is four octets or
an address in brackets, and a number behind a colon. A scope may stand behind the address in the
brackets.

Main definitions:

* `SpellsScope`, `SpellsHost`, `SpellsSocket`: the texts of scopes, hosts and socket addresses;
* `socketChars`: the characters of these texts.

Results:

* `SocketAddress.read?_host`: what is read behind the text of a host;
* `SocketAddress.read?_eq_some_iff`: what is read as the address of a socket;
* `SpellsSocket.octet_beside_point`: digits beside a point are an octet.
-/

namespace NoteTools.Access

open Numeric Text

/-! ## The grammar -/

/-- A text that spells a scope, or is empty when there is none. -/
inductive SpellsScope : List Char → UInt32 → Prop where
  /-- No scope. -/
  | none : SpellsScope [] 0
  /-- A decimal number behind a percent sign. -/
  | some {cs : List Char} {scope : UInt32} : Spells 10 cs scope.toNat →
    SpellsScope ('%' :: cs) scope

/-- A text that spells a host and a scope. -/
inductive SpellsHost : List Char → HostAddress → UInt32 → Prop where
  /-- Four octets. -/
  | octets (a b c d : UInt8) : SpellsHost (dotted a b c d) (.v4 a b c d) 0
  /-- An address in brackets, with its scope. -/
  | groups {text scope : List Char} {bits : BitVec 128} {n : UInt32} : SpellsBits text bits →
    SpellsScope scope n → SpellsHost ('[' :: (text ++ scope) ++ [']']) (.v6 bits) n

/-- A text that spells the address of a socket: a host, and a number behind a colon. -/
def SpellsSocket (text : List Char) (address : SocketAddress) : Prop :=
  ∃ host number, text = host ++ ':' :: number ∧ SpellsHost host address.host address.scope ∧
    Spells 10 number address.number.toNat

/-! ## Numbers and scopes -/

theorem readNumber?_eq_some_iff {cs : List Char} {n : UInt16} :
    readNumber? cs = some n ↔ Spells 10 cs n.toNat := by
  rw [readNumber?, Option.bind_eq_bind, Option.bind_eq_some_iff]
  simp only [readDecimal?_eq_some_iff]
  constructor
  · rintro ⟨m, hm, hread⟩
    split at hread
    · next hlt =>
      obtain rfl : UInt16.ofNat m = n := Option.some.inj hread
      rwa [UInt16.toNat_ofNat_of_lt' hlt]
    · cases hread
  · intro h
    refine ⟨n.toNat, h, ?_⟩
    rw [if_pos n.toNat_lt]
    exact congrArg some UInt16.ofNat_toNat

theorem readScope?_eq_some_iff {cs : List Char} {scope : UInt32} :
    readScope? cs = some scope ↔ SpellsScope cs scope := by
  constructor
  · intro h
    unfold readScope? at h
    split at h
    · cases h
      exact .none
    · next cs =>
      simp only [Option.bind_eq_bind, Option.bind_eq_some_iff, readDecimal?_eq_some_iff] at h
      obtain ⟨m, hm, hread⟩ := h
      split at hread
      · next hlt =>
        obtain rfl : UInt32.ofNat m = scope := Option.some.inj hread
        exact .some (by rwa [UInt32.toNat_ofNat_of_lt' hlt])
      · cases hread
    · cases h
  · rintro (_ | hspells)
    · rfl
    · simp only [readScope?, Option.bind_eq_bind, Option.bind_eq_some_iff, readDecimal?_eq_some_iff]
      refine ⟨_, hspells, ?_⟩
      rw [if_pos scope.toNat_lt]
      exact congrArg some UInt32.ofNat_toNat

/-! ## Hosts -/

theorem SpellsScope.of_mem {text : List Char} {scope : UInt32} (h : SpellsScope text scope)
    {c : Char} (hc : c ∈ text) : c ∈ hexChars ∨ c = '%' := by
  obtain _ | hspells := h
  · cases hc
  · obtain rfl | hc := List.mem_cons.mp hc
    · exact .inr rfl
    · exact .inl (hspells.mem_hexChars (by decide) (by decide) c hc)

theorem SpellsScope.not_mem {text : List Char} {scope : UInt32} (h : SpellsScope text scope)
    {mark : Char} (hhex : mark ∉ hexChars) (hpercent : mark ≠ '%') : mark ∉ text :=
  fun hmem => (h.of_mem hmem).elim hhex hpercent

/-- Behind the text of an address, what comes up to the closing bracket is its scope. -/
theorem breakAt_inner {text scope : List Char} {bits : BitVec 128} {n : UInt32}
    (hbits : SpellsBits text bits) (hscope : SpellsScope scope n) :
    breakAt (· == '%') (text ++ scope) = (text, scope) := by
  have htext : ∀ c ∈ text, (c == '%') = false :=
    forall_beq_eq_false (hbits.not_mem (by decide) (by decide) (by decide))
  obtain _ | _ := hscope
  · rw [List.append_nil, breakAt_eq_self htext]
  · exact breakAt_append_cons htext rfl _

theorem bracket_not_mem {text scope : List Char} {bits : BitVec 128} {n : UInt32}
    (hbits : SpellsBits text bits) (hscope : SpellsScope scope n) : ']' ∉ text ++ scope := by
  rw [List.mem_append, not_or]
  exact ⟨hbits.not_mem (by decide) (by decide) (by decide), hscope.not_mem (by decide) (by decide)⟩

namespace SocketAddress

theorem read?_plain {cs : List Char} (h : cs.head? ≠ some '[') :
    read? (String.ofList cs) = readPlain? cs := by
  rw [read?, String.toList_ofList]
  split
  · exact absurd rfl h
  · rfl

theorem read?_bracketed (cs : List Char) :
    read? (String.ofList ('[' :: cs)) = readBracketed? cs := by
  rw [read?, String.toList_ofList]
  rfl

theorem readPlain?_dotted (a b c d : UInt8) (number : List Char) :
    readPlain? (dotted a b c d ++ ':' :: number) =
      (readNumber? number).map fun n => ⟨.v4 a b c d, n, 0⟩ := by
  have hcolon : ':' ∉ dotted a b c d := (isWord_dotted a b c d).not_mem (by decide) (by decide)
  rw [readPlain?, breakAt_append_cons (forall_beq_eq_false hcolon) rfl]
  show ((readOctets? (dotted a b c d)).bind fun o => (readNumber? number).bind fun n =>
    some (⟨.v4 o.1 o.2.1 o.2.2.1 o.2.2.2, n, 0⟩ : SocketAddress)) = _
  rw [readOctets?_eq_some_iff.mpr rfl]
  cases readNumber? number <;> rfl

theorem readBracketed?_inner {text scope : List Char} {bits : BitVec 128} {n : UInt32}
    (hbits : SpellsBits text bits) (hscope : SpellsScope scope n) (number : List Char) :
    readBracketed? (text ++ scope ++ ']' :: ':' :: number) =
      (readNumber? number).map fun k => ⟨.v6 bits, k, n⟩ := by
  obtain ⟨gs, hgs, hgroups⟩ := Option.map_eq_some_iff.mp (read_spellsBits.mpr hbits)
  rw [readBracketed?, breakAt_append_cons (forall_beq_eq_false (bracket_not_mem hbits hscope)) rfl]
  dsimp only
  rw [breakAt_inner hbits hscope]
  show ((readAllGroups? text).bind fun gs => (readNumber? number).bind fun k =>
    (readScope? scope).bind fun n => some (⟨.v6 (ofGroups gs), k, n⟩ : SocketAddress)) = _
  rw [hgs, readScope?_eq_some_iff.mpr hscope, ← hgroups]
  cases readNumber? number <;> rfl

/-- **The text of a host is read.** What is read then is the number behind it. -/
theorem read?_host {host : List Char} {address : HostAddress} {scope : UInt32}
    (h : SpellsHost host address scope) (number : List Char) :
    read? (String.ofList (host ++ ':' :: number)) =
      (readNumber? number).map fun n => ⟨address, n, scope⟩ := by
  obtain ⟨a, b, c, d⟩ | ⟨hbits, hscope⟩ := h
  · have hword := isWord_dotted a b c d
    have hhead : (dotted a b c d ++ ':' :: number).head? ≠ some '[' := by
      rw [List.head?_append_of_ne_nil _ hword.1]
      exact fun hhead => hword.not_mem (by decide) (by decide) (List.mem_of_mem_head? hhead)
    rw [read?_plain hhead, readPlain?_dotted]
  · rw [List.cons_append, List.cons_append, List.append_assoc, List.singleton_append,
      read?_bracketed, readBracketed?_inner hbits hscope]

theorem spellsSocket_of_readPlain? {cs : List Char} {address : SocketAddress}
    (h : readPlain? cs = some address) : SpellsSocket cs address := by
  have hsplit := breakAt_append (· == ':') cs
  rw [readPlain?] at h
  generalize breakAt (· == ':') cs = cut at h hsplit
  obtain ⟨host, rest⟩ := cut
  dsimp only at h hsplit
  split at h
  · next number =>
    simp only [Option.bind_eq_bind, Option.bind_eq_some_iff, Prod.exists, Option.pure_def,
      Option.some_inj, readOctets?_eq_some_iff, readNumber?_eq_some_iff] at h
    obtain ⟨a, b, c, d, rfl, n, hn, rfl⟩ := h
    exact ⟨_, number, hsplit.symm, .octets a b c d, hn⟩
  · cases h

theorem spellsSocket_of_readBracketed? {cs : List Char} {address : SocketAddress}
    (h : readBracketed? cs = some address) : SpellsSocket ('[' :: cs) address := by
  have hsplit := breakAt_append (· == ']') cs
  rw [readBracketed?] at h
  generalize breakAt (· == ']') cs = cut at h hsplit
  obtain ⟨inner, rest⟩ := cut
  have hinner := breakAt_append (· == '%') inner
  dsimp only at h hsplit
  generalize breakAt (· == '%') inner = cut at h hinner
  obtain ⟨text, scope⟩ := cut
  dsimp only at h hinner
  split at h
  · next number =>
    simp only [Option.bind_eq_bind, Option.bind_eq_some_iff, Option.pure_def, Option.some_inj,
      readNumber?_eq_some_iff, readScope?_eq_some_iff] at h
    obtain ⟨gs, hgs, n, hn, k, hk, rfl⟩ := h
    have hbits : SpellsBits text (ofGroups gs) :=
      read_spellsBits.mp (Option.map_eq_some_iff.mpr ⟨gs, hgs, rfl⟩)
    refine ⟨_, number, ?_, .groups hbits hk, hn⟩
    rw [← hsplit, hinner]
    simp
  · cases h

/-- **The texts of socket addresses.** Exactly the texts of the grammar are read. -/
theorem read?_eq_some_iff {bind : String} {address : SocketAddress} :
    read? bind = some address ↔ SpellsSocket bind.toList address := by
  constructor
  · intro h
    rw [read?] at h
    split at h
    · next cs hcs =>
      rw [hcs]
      exact spellsSocket_of_readBracketed? h
    · exact spellsSocket_of_readPlain? h
  · rintro ⟨host, number, htext, hhost, hnumber⟩
    rw [← String.ofList_toList (s := bind), htext, read?_host hhost,
      readNumber?_eq_some_iff.mpr hnumber]
    rfl

end SocketAddress

/-! ## Characters -/

/-- The characters of socket addresses. -/
def socketChars : List Char :=
  hexChars ++ ['.', ':', '[', ']', '%']

theorem mem_socketChars_of_hex {c : Char} (h : c ∈ hexChars) : c ∈ socketChars :=
  List.mem_append_left _ h

theorem SpellsHost.of_mem {host : List Char} {address : HostAddress} {scope : UInt32}
    (h : SpellsHost host address scope) {c : Char} (hc : c ∈ host) : c ∈ socketChars := by
  obtain _ | ⟨hbits, hscope⟩ := h
  · obtain hdigit | rfl := of_mem_dotted hc
    · exact mem_socketChars_of_hex (mem_hexChars_of_isDigit hdigit)
    · decide
  · rw [List.mem_append, List.mem_cons, List.mem_append, List.mem_singleton] at hc
    obtain (rfl | hc | hc) | rfl := hc
    · decide
    · obtain hhex | rfl | rfl := hbits.of_mem hc
      · exact mem_socketChars_of_hex hhex
      · decide
      · decide
    · obtain hhex | rfl := hscope.of_mem hc
      · exact mem_socketChars_of_hex hhex
      · decide
    · decide

namespace SpellsSocket

variable {text : List Char} {address : SocketAddress}

/-- The text of a socket address has no other characters. -/
theorem of_mem (h : SpellsSocket text address) {c : Char} (hc : c ∈ text) : c ∈ socketChars := by
  obtain ⟨host, number, rfl, hhost, hnumber⟩ := h
  obtain hc | rfl | hc := List.mem_append.mp hc |>.imp_right List.mem_cons.mp
  · exact hhost.of_mem hc
  · decide
  · exact mem_socketChars_of_hex (hnumber.mem_hexChars (by decide) (by decide) c hc)

/-- The text of a socket address ends in a digit. -/
theorem exists_getLast? (h : SpellsSocket text address) :
    ∃ c, text.getLast? = some c ∧ c.isDigit = true := by
  obtain ⟨host, number, rfl, -, hnumber⟩ := h
  refine ⟨number.getLast hnumber.ne_nil, ?_, hnumber.isDigit _ (List.getLast_mem _)⟩
  rw [List.getLast?_append, List.getLast?_cons, List.getLast?_eq_some_getLast hnumber.ne_nil]
  rfl

end SpellsSocket

/-! ## Octets beside points -/

/-- No digit ends a text. -/
def EndsClear (text : List Char) : Prop :=
  ∀ c ∈ text.getLast?, c.isDigit = false

/-- No digit starts a text. -/
def StartsClear (text : List Char) : Prop :=
  ∀ c ∈ text.head?, c.isDigit = false

theorem EndsClear.append {front text : List Char} (hfront : EndsClear front) (h : EndsClear text) :
    EndsClear (front ++ text) := by
  intro c hc
  rw [List.getLast?_append, Option.mem_def, Option.or_eq_some_iff] at hc
  obtain hc | ⟨-, hc⟩ := hc
  · exact h c hc
  · exact hfront c hc

theorem StartsClear.append {text back : List Char} (h : StartsClear text)
    (hback : StartsClear back) : StartsClear (text ++ back) := by
  intro c hc
  rw [List.head?_append, Option.mem_def, Option.or_eq_some_iff] at hc
  obtain hc | ⟨-, hc⟩ := hc
  · exact h c hc
  · exact hback c hc

theorem endsClear_append_singleton (text : List Char) {c : Char} (hc : c.isDigit = false) :
    EndsClear (text ++ [c]) := by
  intro e he
  rw [List.getLast?_concat] at he
  obtain rfl := Option.some.inj he
  exact hc

theorem startsClear_cons {c : Char} (hc : c.isDigit = false) (text : List Char) :
    StartsClear (c :: text) := by
  rintro e ⟨⟩
  exact hc

/-- The points of a text stand between four octets, and no other digits stand beside these. -/
def HoldsOctets (text : List Char) : Prop :=
  ∃ front a b c d back, text = front ++ dotted a b c d ++ back ∧ '.' ∉ front ∧ '.' ∉ back ∧
    EndsClear front ∧ StartsClear back

namespace HoldsOctets

variable {text : List Char}

theorem append_left (h : HoldsOctets text) {front : List Char} (hpoint : '.' ∉ front)
    (hclear : EndsClear front) : HoldsOctets (front ++ text) := by
  obtain ⟨between, a, b, c, d, back, rfl, hbetween, hback, hends, hstarts⟩ := h
  exact ⟨front ++ between, a, b, c, d, back, by simp only [List.append_assoc],
    by simp [hpoint, hbetween], hback, hclear.append hends, hstarts⟩

theorem append_right (h : HoldsOctets text) {back : List Char} (hpoint : '.' ∉ back)
    (hclear : StartsClear back) : HoldsOctets (text ++ back) := by
  obtain ⟨front, a, b, c, d, between, rfl, hfront, hbetween, hends, hstarts⟩ := h
  exact ⟨front, a, b, c, d, between ++ back, by simp only [List.append_assoc], hfront,
    by simp [hpoint, hbetween], hends, hstarts.append hclear⟩

end HoldsOctets

theorem holdsOctets_dotted (a b c d : UInt8) : HoldsOctets (dotted a b c d) :=
  ⟨[], a, b, c, d, [], by simp, by simp, by simp, by rintro e ⟨⟩, by rintro e ⟨⟩⟩

theorem SpellsGroup.point_not_mem {word : List Char} {g : Nat} (h : SpellsGroup word g) :
    '.' ∉ word := fun hmem =>
  absurd (h.2.mem_hexChars (by decide) (by decide) '.' hmem) (by decide)

theorem point_not_mem_intercalate {words : List (List Char)} {gs : List Nat}
    (h : List.Forall₂ SpellsGroup words gs) : '.' ∉ [':'].intercalate words := by
  have hwords : ∀ word ∈ words, '.' ∉ word := by
    induction h with
    | nil => simp
    | cons hword _ ih => exact List.forall_mem_cons.mpr ⟨hword.point_not_mem, ih⟩
  intro hmem
  obtain heq | ⟨word, hword, hpoint⟩ := of_mem_intercalate hmem
  · exact absurd heq (by decide)
  · exact hwords word hword hpoint

/-- A point in words is a point of the octets at their end. -/
theorem SpellsGroups.holdsOctets {words : List (List Char)} {gs : List Nat}
    (h : SpellsGroups words gs) (hpoint : '.' ∈ [':'].intercalate words) :
    HoldsOctets ([':'].intercalate words) := by
  induction h with
  | nil => cases hpoint
  | octets a b c d =>
    rw [List.intercalate_singleton]
    exact holdsOctets_dotted a b c d
  | @cons word g words gs hword hwords ih =>
    cases words with
    | nil =>
      rw [List.intercalate_singleton] at hpoint
      exact absurd hpoint hword.point_not_mem
    | cons next words =>
      rw [List.intercalate_cons_cons] at hpoint ⊢
      have hfront : '.' ∉ word ++ [':'] := by simp [hword.point_not_mem]
      exact (ih ((List.mem_append.mp hpoint).resolve_left hfront)).append_left hfront
        (endsClear_append_singleton word (by decide))

/-- A point in the text of an address is a point of the octets at its end. -/
theorem SpellsBits.holdsOctets {text : List Char} {bits : BitVec 128} (h : SpellsBits text bits)
    (hpoint : '.' ∈ text) : HoldsOctets text := by
  obtain ⟨gs, ⟨hgroups, -⟩ | ⟨hfs, hbs, -⟩, -⟩ := h
  · exact hgroups.holdsOctets hpoint
  · next front back fs bs =>
    have hsplit : [':'].intercalate front ++ ':' :: ':' :: [':'].intercalate back =
        [':'].intercalate front ++ [':'] ++ [':'] ++ [':'].intercalate back := by simp
    have hfront : '.' ∉ [':'].intercalate front ++ [':'] ++ [':'] := by
      simp [point_not_mem_intercalate hfs]
    rw [hsplit] at hpoint ⊢
    exact (hbs.holdsOctets ((List.mem_append.mp hpoint).resolve_left hfront)).append_left hfront
      (endsClear_append_singleton _ (by decide))

/-- The first place of a mark in a text and any place of it: they are the same one, or the first one
comes before the other. -/
theorem mark_cases {mark : Char} {front back front' back' : List Char} (hmark : mark ∉ front)
    (h : front ++ mark :: back = front' ++ mark :: back') :
    front' = front ∧ back' = back ∨
      ∃ between, front' = front ++ mark :: between ∧ back = between ++ mark :: back' := by
  induction front generalizing front' with
  | nil =>
    cases front' with
    | nil => exact .inl ⟨rfl, (List.cons.inj h).2.symm⟩
    | cons c front' =>
      obtain ⟨rfl, hback⟩ := List.cons.inj h
      exact .inr ⟨front', rfl, hback⟩
  | cons e front ih =>
    rw [List.mem_cons, not_or] at hmark
    cases front' with
    | nil => exact absurd (List.cons.inj h).1.symm hmark.1
    | cons c front' =>
      obtain ⟨rfl, hrest⟩ := List.cons.inj h
      obtain ⟨rfl, rfl⟩ | ⟨between, rfl, rfl⟩ := ih hmark.2 hrest
      · exact .inl ⟨rfl, rfl⟩
      · exact .inr ⟨between, rfl, rfl⟩

/-- A point of such a text stands between two octets. -/
theorem HoldsOctets.beside {left right : List Char} (h : HoldsOctets (left ++ '.' :: right)) :
    ∃ (x y : UInt8) (front back : List Char), left = front ++ Nat.toDigits 10 x.toNat ∧
      right = Nat.toDigits 10 y.toNat ++ back ∧ EndsClear front ∧ StartsClear back := by
  obtain ⟨front, a, b, c, d, back, heq, hfront, hback, hends, hstarts⟩ := h
  have hpoint {n : Nat} : '.' ∉ Nat.toDigits 10 n := not_mem_toDigits (by decide)
  have hclear (text : List Char) : EndsClear (text ++ ['.']) :=
    endsClear_append_singleton text (by decide)
  have hclear' (text : List Char) : StartsClear ('.' :: text) := startsClear_cons (by decide) text
  have hfirst : (front ++ Nat.toDigits 10 a.toNat) ++ '.' :: (Nat.toDigits 10 b.toNat ++ '.' ::
      (Nat.toDigits 10 c.toNat ++ '.' :: (Nat.toDigits 10 d.toNat ++ back))) =
        left ++ '.' :: right := by
    rw [heq, dotted_eq]
    simp only [List.append_assoc, List.cons_append]
  -- The point is one of the three, or it comes behind the last octet, where there is none.
  obtain ⟨rfl, rfl⟩ | ⟨left, rfl, hsecond⟩ := mark_cases (by simp [hfront, hpoint]) hfirst
  · exact ⟨a, b, front, _, rfl, rfl, hends, hclear' _⟩
  obtain ⟨rfl, rfl⟩ | ⟨left, rfl, hthird⟩ := mark_cases hpoint hsecond
  · exact ⟨b, c, front ++ Nat.toDigits 10 a.toNat ++ ['.'], _, by simp, rfl, hclear _, hclear' _⟩
  obtain ⟨rfl, rfl⟩ | ⟨left, rfl, hlast⟩ := mark_cases hpoint hthird
  · exact ⟨c, d, front ++ Nat.toDigits 10 a.toNat ++ '.' :: Nat.toDigits 10 b.toNat ++ ['.'], _,
      by simp, rfl, hclear _, hstarts⟩
  · have hmem : '.' ∈ Nat.toDigits 10 d.toNat ++ back := hlast ▸ by simp
    exact absurd hmem (by simp [hpoint, hback])

/-! ## Digits beside points -/

/-- Digits at the start of a text, up to the first character that is none. -/
theorem digits_front_eq {ds ds' back back' : List Char} (hds : ∀ c ∈ ds, c.isDigit = true)
    (hds' : ∀ c ∈ ds', c.isDigit = true) (hback : StartsClear back) (hback' : StartsClear back')
    (h : ds ++ back = ds' ++ back') : ds = ds' := by
  have htake {ds back : List Char} (hds : ∀ c ∈ ds, c.isDigit = true) (hback : StartsClear back) :
      (ds ++ back).takeWhile Char.isDigit = ds := by
    rw [List.takeWhile_append_of_pos hds]
    cases back with
    | nil => simp
    | cons c back => simp [hback c rfl]
  rw [← htake hds hback, h, htake hds' hback']

/-- Digits at the end of a text, from behind the last character that is none. -/
theorem digits_back_eq {ds ds' front front' : List Char} (hds : ∀ c ∈ ds, c.isDigit = true)
    (hds' : ∀ c ∈ ds', c.isDigit = true) (hfront : EndsClear front) (hfront' : EndsClear front')
    (h : front ++ ds = front' ++ ds') : ds = ds' := by
  have hreverse := congrArg List.reverse h
  rw [List.reverse_append, List.reverse_append] at hreverse
  have hclear {text : List Char} (h : EndsClear text) : StartsClear text.reverse := by
    rwa [StartsClear, List.head?_reverse]
  exact List.reverse_injective (digits_front_eq (by simpa using hds) (by simpa using hds')
    (hclear hfront) (hclear hfront') hreverse)

theorem SpellsSocket.holdsOctets {text : List Char} {address : SocketAddress}
    (h : SpellsSocket text address) (hpoint : '.' ∈ text) : HoldsOctets text := by
  obtain ⟨host, number, rfl, hhost, hnumber⟩ := h
  have hdigits : '.' ∉ number := fun hmem => absurd (hnumber.isDigit '.' hmem) (by decide)
  generalize address.host = host', address.scope = scope' at hhost
  obtain ⟨a, b, c, d⟩ | @⟨inner, scope, bits, n, hbits, hscope⟩ := hhost
  · exact (holdsOctets_dotted a b c d).append_right (by simp [hdigits])
      (startsClear_cons (by decide) number)
  · have hplain : '.' ∉ scope := hscope.not_mem (by decide) (by decide)
    have hinner : '.' ∈ inner := by simpa [hdigits, hplain] using hpoint
    have hparts : '[' :: (inner ++ scope) ++ [']'] ++ ':' :: number =
        ['['] ++ inner ++ (scope ++ ']' :: ':' :: number) := by simp
    have hclear : StartsClear (scope ++ ']' :: ':' :: number) := by
      obtain _ | _ := hscope
      · exact startsClear_cons (by decide) _
      · exact startsClear_cons (by decide) _
    rw [hparts]
    refine ((hbits.holdsOctets hinner).append_left (by decide) ?_).append_right ?_ hclear
    · exact endsClear_append_singleton [] (by decide)
    · simp [hdigits, hplain]

/-- Digits beside a point of a socket address, and no others beside them, are an octet. -/
theorem SpellsSocket.octet_beside_point {front digits back : List Char} {address : SocketAddress}
    (h : SpellsSocket (front ++ digits ++ back) address) (hdigits : ∀ c ∈ digits, c.isDigit = true)
    (hfront : EndsClear front) (hback : StartsClear back)
    (hpoint : front.getLast? = some '.' ∨ back.head? = some '.') :
    ∃ octet : UInt8, digits = Nat.toDigits 10 octet.toNat := by
  have hoctet (octet : UInt8) : ∀ c ∈ Nat.toDigits 10 octet.toNat, c.isDigit = true := fun c hc =>
    Nat.isDigit_of_mem_toDigits (by decide) (by decide) hc
  have hmem : '.' ∈ front ++ digits ++ back := by
    obtain hlast | hhead := hpoint
    · simp [List.mem_of_getLast? hlast]
    · simp [List.mem_of_mem_head? hhead]
  have hholds := h.holdsOctets hmem
  obtain hlast | hhead := hpoint
  · obtain ⟨front, rfl⟩ := List.getLast?_eq_some_iff.mp hlast
    rw [List.append_assoc, List.append_assoc, List.singleton_append] at hholds
    obtain ⟨-, octet, -, rest, -, heq, -, hclear⟩ := hholds.beside
    exact ⟨octet, digits_front_eq hdigits (hoctet octet) hback hclear heq⟩
  · obtain ⟨back, rfl⟩ := List.head?_eq_some_iff.mp hhead
    obtain ⟨octet, -, rest, -, heq, -, hclear, -⟩ := hholds.beside
    exact ⟨octet, digits_back_eq hdigits (hoctet octet) hfront hclear heq⟩

end NoteTools.Access
