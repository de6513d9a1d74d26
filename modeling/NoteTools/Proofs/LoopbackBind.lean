import NoteTools.Access.Guard
import NoteTools.Proofs.SocketText

/-!
# Open on this machine only

When everybody may use the tools, the address to listen on has to be one that never leaves the
machine. The guard admits exactly the texts of such addresses. Every other text is refused, as an
address that can be reached from elsewhere or as none at all; host names are none.

Main definitions:

* `HostAddress.Local`: the hosts that are this machine;
* `openGuard`: the guard that lets everybody in, if there is one;
* `mapped`: the address of groups that stands for four octets;
* `OpenOnLoopback`: the texts that such a guard admits.

Results:

* `openGuard_of_spells`, `openGuard_of_not_spells`: what becomes of the texts of addresses, and of
  all other texts;
* `openGuard_host`: what becomes of the text of a host and a text behind it;
* `openGuard_onLoopback`: exactly the texts of addresses on this machine are admitted.
-/

namespace NoteTools.Access

open Numeric Text

/-! ## Specification -/

/-- The hosts that are this machine: octets of which the first one is 127, and the address 1. -/
def HostAddress.Local : HostAddress → Prop
  | .v4 a _ _ _ => a = 127
  | .v6 bits => bits = 1

/-- The guard that lets everybody in, with a text as the address to listen on. -/
def openGuard (keys : List AccessKey) (bind : String) : Except GuardError Guard :=
  Guard.build ⟨AccessSettings.off, keys⟩ bind

/-- A decimal number of at most 16 bits. -/
def IsSocketNumber (number : List Char) : Prop :=
  ∃ n < 2 ^ 16, Spells 10 number n

/-- The address of groups that stands for four octets. -/
def mapped (a b c d : UInt8) : BitVec 128 :=
  .ofNat 128 (0xFFFF * 2 ^ 32 + a.toNat * 2 ^ 24 + b.toNat * 2 ^ 16 + c.toNat * 2 ^ 8 + d.toNat)

/-- Digits that are no octet: their number is too large, or a zero stands in front of others. -/
def NoOctet (digits : List Char) : Prop :=
  (∃ n, 255 < n ∧ Spells 10 digits n) ∨ ∃ rest, rest ≠ [] ∧ digits = '0' :: rest

/-- The guard that lets everybody in is there for the texts of addresses on this machine, and for
no other texts. -/
structure OpenOnLoopback (keys : List AccessKey) : Prop where
  /-- A text is admitted exactly when it spells the address of a socket on this machine. -/
  admits_iff : ∀ bind : String, openGuard keys bind = .ok .off ↔
    ∃ address, SpellsSocket bind.toList address ∧ address.host.Local
  /-- The text of any other address is refused because of the address. -/
  elsewhere : ∀ (bind : String) (address : SocketAddress), SpellsSocket bind.toList address →
    ¬address.host.Local → openGuard keys bind = .error .notLoopback
  /-- The text of no address is refused because of the text. -/
  notAnAddress : ∀ bind : String, (∀ address, ¬SpellsSocket bind.toList address) →
    openGuard keys bind = .error .notAnAddress
  /-- Octets, with any text behind the colon. -/
  octets : ∀ (a b c d : UInt8) (number : List Char),
    openGuard keys (.ofList (dotted a b c d ++ ':' :: number)) = .ok .off ↔
      a = 127 ∧ IsSocketNumber number
  /-- An address of 128 bits in any of its spellings, with any scope and any text behind the
  colon. -/
  groups : ∀ (bits : BitVec 128) (text scope : List Char) (n : UInt32) (number : List Char),
    SpellsBits text bits → SpellsScope scope n →
      (openGuard keys (.ofList ('[' :: (text ++ scope) ++ [']'] ++ ':' :: number)) = .ok .off ↔
        bits = 1 ∧ IsSocketNumber number)
  /-- Every address of 128 bits has a spelling. -/
  spelled : ∀ bits : BitVec 128, ∃ text, SpellsBits text bits
  /-- An address of groups that stands for octets is spelled with them. -/
  mappedText : ∀ a b c d : UInt8, SpellsBits ("::ffff:".toList ++ dotted a b c d) (mapped a b c d)
  /-- An address of groups that stands for octets can be reached from elsewhere, even if the octets
  are this machine. -/
  mapped : ∀ (a b c d : UInt8) (text scope : List Char) (n : UInt32) (number : List Char),
    SpellsBits text (mapped a b c d) → SpellsScope scope n → IsSocketNumber number →
      openGuard keys (.ofList ('[' :: (text ++ scope) ++ [']'] ++ ':' :: number)) =
        .error .notLoopback
  /-- The name of a host is no address, with or without anything behind a colon. -/
  name : ∀ name rest : List Char, ':' ∉ name → name.head? ≠ some '[' →
    (∃ c ∈ name, c.isDigit = false ∧ c ≠ '.') →
      openGuard keys (.ofList name) = .error .notAnAddress ∧
        openGuard keys (.ofList (name ++ ':' :: rest)) = .error .notAnAddress
  /-- A host without a number is no address. -/
  missing : ∀ (host : List Char) (address : HostAddress) (scope : UInt32),
    SpellsHost host address scope →
      openGuard keys (.ofList host) = .error .notAnAddress ∧
        openGuard keys (.ofList (host ++ [':'])) = .error .notAnAddress
  /-- A host with a number of more than 16 bits is no address. -/
  above : ∀ (host : List Char) (address : HostAddress) (scope : UInt32) (number : List Char)
    (n : Nat), SpellsHost host address scope → Spells 10 number n → 65535 < n →
      openGuard keys (.ofList (host ++ ':' :: number)) = .error .notAnAddress
  /-- A text with a character that no address has is no address. -/
  character : ∀ (bind : String) (c : Char), c ∈ bind.toList → c ∉ socketChars →
    openGuard keys bind = .error .notAnAddress
  /-- A text with a blank, wherever that is, is no address. -/
  blank : ∀ (bind : String) (c : Char), c ∈ bind.toList → isBlank c = true →
    openGuard keys bind = .error .notAnAddress
  /-- A text with digits beside a point that are no octet is no address. -/
  noOctet : ∀ front digits back : List Char, (∀ c ∈ digits, c.isDigit = true) → EndsClear front →
    StartsClear back → front.getLast? = some '.' ∨ back.head? = some '.' → NoOctet digits →
      openGuard keys (.ofList (front ++ digits ++ back)) = .error .notAnAddress
  /-- What is not only digits cannot stand behind an address. -/
  trailing : ∀ (bind : List Char) (address : SocketAddress) (rest : List Char),
    SpellsSocket bind address → (∃ c ∈ rest, c.isDigit = false) →
      openGuard keys (.ofList (bind ++ rest)) = .error .notAnAddress

/-! ## Building the guard -/

theorem HostAddress.isLoopback_iff {address : HostAddress} :
    address.isLoopback = true ↔ address.Local := by
  cases address with
  | v4 a b c d => exact beq_iff_eq
  | v6 bits => exact beq_iff_eq

section
variable {keys : List AccessKey}

theorem openGuard_eq (bind : String) : openGuard keys bind =
    match SocketAddress.read? bind with
    | none => .error .notAnAddress
    | some address => if address.host.isLoopback then .ok .off else .error .notLoopback := by
  rw [openGuard, Guard.build, if_pos rfl, checkLoopback]
  cases SocketAddress.read? bind with
  | none => rfl
  | some address =>
    dsimp only
    split <;> rfl

/-- What becomes of the text of an address. -/
theorem openGuard_of_spells {bind : String} {address : SocketAddress}
    (h : SpellsSocket bind.toList address) : openGuard keys bind =
      if address.host.isLoopback then .ok .off else .error .notLoopback := by
  rw [openGuard_eq, SocketAddress.read?_eq_some_iff.mpr h]

/-- What becomes of the text of no address. -/
theorem openGuard_of_not_spells {bind : String}
    (h : ∀ address, ¬SpellsSocket bind.toList address) :
    openGuard keys bind = .error .notAnAddress := by
  have hread : SocketAddress.read? bind = none := by
    rw [Option.eq_none_iff_forall_ne_some]
    exact fun address hread => h address (SocketAddress.read?_eq_some_iff.mp hread)
  rw [openGuard_eq, hread]

theorem admits_iff (bind : String) : openGuard keys bind = .ok .off ↔
    ∃ address, SpellsSocket bind.toList address ∧ address.host.Local := by
  rw [openGuard_eq]
  constructor
  · intro h
    split at h
    · cases h
    · next address hread =>
      split at h
      · next hloopback =>
        exact ⟨address, SocketAddress.read?_eq_some_iff.mp hread,
          HostAddress.isLoopback_iff.mp hloopback⟩
      · cases h
  · rintro ⟨address, hspells, hlocal⟩
    rw [SocketAddress.read?_eq_some_iff.mpr hspells]
    exact if_pos (HostAddress.isLoopback_iff.mpr hlocal)

/-- What becomes of the text of a host and a text behind it. -/
theorem openGuard_host {host : List Char} {address : HostAddress} {scope : UInt32}
    (h : SpellsHost host address scope) (number : List Char) :
    openGuard keys (.ofList (host ++ ':' :: number)) =
      match readNumber? number with
      | none => .error .notAnAddress
      | some _ => if address.isLoopback then .ok .off else .error .notLoopback := by
  rw [openGuard_eq, SocketAddress.read?_host h]
  cases readNumber? number <;> rfl

theorem isSocketNumber_iff {number : List Char} :
    IsSocketNumber number ↔ ∃ n, readNumber? number = some n := by
  simp only [readNumber?_eq_some_iff]
  constructor
  · rintro ⟨n, hlt, hspells⟩
    exact ⟨.ofNat n, by rwa [UInt16.toNat_ofNat_of_lt' hlt]⟩
  · rintro ⟨n, hspells⟩
    exact ⟨n.toNat, n.toNat_lt, hspells⟩

theorem openGuard_host_of_not {host : List Char} {address : HostAddress} {scope : UInt32}
    (h : SpellsHost host address scope) {number : List Char} (hnumber : ¬IsSocketNumber number) :
    openGuard keys (.ofList (host ++ ':' :: number)) = .error .notAnAddress := by
  rw [openGuard_host h]
  cases hread : readNumber? number with
  | none => rfl
  | some n => exact absurd (isSocketNumber_iff.mpr ⟨n, hread⟩) hnumber

theorem admits_host_iff {host : List Char} {address : HostAddress} {scope : UInt32}
    (h : SpellsHost host address scope) (number : List Char) :
    openGuard keys (.ofList (host ++ ':' :: number)) = .ok .off ↔
      address.Local ∧ IsSocketNumber number := by
  rw [openGuard_host h, isSocketNumber_iff, ← HostAddress.isLoopback_iff]
  cases readNumber? number <;> cases address.isLoopback <;> simp

end

/-! ## Texts of no address -/

theorem toNat_mapped (a b c d : UInt8) : (mapped a b c d).toNat =
    0xFFFF * 2 ^ 32 + a.toNat * 2 ^ 24 + b.toNat * 2 ^ 16 + c.toNat * 2 ^ 8 + d.toNat := by
  have ha := a.toNat_lt
  have hb := b.toNat_lt
  have hc := c.toNat_lt
  have hd := d.toNat_lt
  rw [mapped, BitVec.toNat_ofNat, Nat.mod_eq_of_lt (by omega)]

theorem spellsBits_mapped (a b c d : UInt8) :
    SpellsBits ("::ffff:".toList ++ dotted a b c d) (mapped a b c d) := by
  have hgroup : SpellsGroup "ffff".toList 0xFFFF := ⟨by decide, 0, by decide⟩
  have htext : "::ffff:".toList ++ dotted a b c d = [':'].intercalate [] ++
      ':' :: ':' :: [':'].intercalate ["ffff".toList, dotted a b c d] := by
    simp [List.intercalate_cons_cons, List.intercalate_singleton]
  rw [htext]
  refine ⟨_, .gap .nil (.cons hgroup (.octets a b c d)) (by simp [octetGroups]), ?_⟩
  rw [toNat_mapped]
  show _ = Nat.ofDigits (2 ^ 16) [c.toNat * 256 + d.toNat, a.toNat * 256 + b.toNat, 0xFFFF,
    0, 0, 0, 0, 0]
  simp only [Nat.ofDigits_cons, Nat.ofDigits_nil]
  omega

theorem mapped_ne_one (a b c d : UInt8) : mapped a b c d ≠ 1 := by
  intro heq
  have hnat := congrArg BitVec.toNat heq
  have hone : (1 : BitVec 128).toNat = 1 := rfl
  rw [toNat_mapped, hone] at hnat
  omega

theorem not_isSocketNumber_nil : ¬IsSocketNumber [] := by
  rintro ⟨n, -, hspells⟩
  exact hspells.ne_nil rfl

theorem not_isSocketNumber_of_above {number : List Char} {n : Nat} (h : Spells 10 number n)
    (hlarge : 65535 < n) : ¬IsSocketNumber number := by
  rintro ⟨m, hlt, hspells⟩
  have heq := h.unique (by decide) (by decide) hspells
  omega

/-- The text of an octet is not one of those digits. -/
theorem not_noOctet (octet : UInt8) : ¬NoOctet (Nat.toDigits 10 octet.toNat) := by
  rintro (⟨n, hlarge, hspells⟩ | ⟨rest, hne, heq⟩)
  · have hn := hspells.unique (by decide) (by decide)
      (spells_toDigits (by decide) (by decide) octet.toNat)
    have hlt := octet.toNat_lt
    omega
  · exact hne (toDigits_eq_zero_cons heq)

/-- A text without a colon is no address. -/
theorem not_spells_of_not_colon {text : List Char} (h : ':' ∉ text) (address : SocketAddress) :
    ¬SpellsSocket text address := by
  rintro ⟨host, number, rfl, -, -⟩
  exact h (by simp)

/-- The name of a host is no address. -/
theorem not_spells_name {name : List Char} (hcolon : ':' ∉ name) (hbracket : name.head? ≠ some '[')
    (hname : ∃ c ∈ name, c.isDigit = false ∧ c ≠ '.') (rest : List Char)
    (address : SocketAddress) : ¬SpellsSocket (name ++ ':' :: rest) address := by
  obtain ⟨c, hc, hdigit, hpoint⟩ := hname
  rintro ⟨host, number, heq, hhost, -⟩
  generalize address.host = host', address.scope = scope' at hhost
  obtain ⟨x, y, z, w⟩ | _ := hhost
  · have hcolon' : ':' ∉ dotted x y z w := (isWord_dotted x y z w).not_mem (by decide) (by decide)
    obtain ⟨hname, -⟩ | ⟨between, hname, -⟩ := mark_cases hcolon heq
    · obtain hmem | heq := of_mem_dotted (hname ▸ hc)
      · rw [hmem] at hdigit
        cases hdigit
      · exact hpoint heq
    · exact hcolon' (by simp [hname])
  · obtain ⟨first, others, rfl⟩ := List.exists_cons_of_ne_nil (List.ne_nil_of_mem hc)
    exact hbracket (congrArg some (List.cons.inj heq).1)

/-- A host alone is no address. -/
theorem not_spells_host {host : List Char} {address : HostAddress} {scope : UInt32}
    (h : SpellsHost host address scope) (address' : SocketAddress) :
    ¬SpellsSocket host address' := by
  intro hspells
  obtain ⟨a, b, c, d⟩ | _ := h
  · have hcolon : ':' ∉ dotted a b c d := (isWord_dotted a b c d).not_mem (by decide) (by decide)
    exact not_spells_of_not_colon hcolon _ hspells
  · obtain ⟨c, hlast, hdigit⟩ := hspells.exists_getLast?
    rw [List.getLast?_concat] at hlast
    obtain rfl := Option.some.inj hlast
    cases hdigit

/-- **Open on this machine only.** The guard that lets everybody in is there for the texts of
addresses on this machine, and for no other texts. -/
theorem openGuard_onLoopback (keys : List AccessKey) : OpenOnLoopback keys where
  admits_iff := admits_iff
  elsewhere bind address hspells hlocal := by
    rw [openGuard_of_spells hspells, if_neg (mt HostAddress.isLoopback_iff.mp hlocal)]
  notAnAddress bind h := openGuard_of_not_spells h
  octets a b c d number := admits_host_iff (.octets a b c d) number
  groups bits text scope n number hbits hscope := admits_host_iff (.groups hbits hscope) number
  spelled := exists_spellsBits
  mappedText := spellsBits_mapped
  mapped a b c d text scope n number hbits hscope hnumber := by
    have hlocal : ¬(HostAddress.v6 (Access.mapped a b c d)).Local := mapped_ne_one a b c d
    obtain ⟨k, hread⟩ := isSocketNumber_iff.mp hnumber
    rw [openGuard_host (.groups hbits hscope), hread]
    exact if_neg (mt HostAddress.isLoopback_iff.mp hlocal)
  name name rest hcolon hbracket hname := by
    refine ⟨openGuard_of_not_spells ?_, openGuard_of_not_spells ?_⟩ <;> rw [String.toList_ofList]
    · exact not_spells_of_not_colon hcolon
    · exact not_spells_name hcolon hbracket hname rest
  missing host address scope h := by
    refine ⟨openGuard_of_not_spells ?_, openGuard_host_of_not h not_isSocketNumber_nil⟩
    rw [String.toList_ofList]
    exact not_spells_host h
  above host address scope number n h hspells hlarge :=
    openGuard_host_of_not h (not_isSocketNumber_of_above hspells hlarge)
  character bind c hc hother := openGuard_of_not_spells fun _ hspells => hother (hspells.of_mem hc)
  blank bind c hc hblank := by
    have hchars : (socketChars.all fun c => !isBlank c) = true := by decide
    refine openGuard_of_not_spells fun address hspells => ?_
    have hnot := List.all_eq_true.mp hchars c (hspells.of_mem hc)
    rw [hblank] at hnot
    cases hnot
  noOctet front digits back hdigits hfront hback hpoint hno := by
    refine openGuard_of_not_spells fun address hspells => ?_
    rw [String.toList_ofList] at hspells
    obtain ⟨octet, rfl⟩ := hspells.octet_beside_point hdigits hfront hback hpoint
    exact not_noOctet octet hno
  trailing bind address rest h hrest := by
    obtain ⟨host, number, rfl, hhost, -⟩ := h
    rw [List.append_assoc, List.cons_append]
    refine openGuard_host_of_not hhost ?_
    rintro ⟨n, -, hspells⟩
    obtain ⟨c, hc, hdigit⟩ := hrest
    rw [hspells.isDigit c (List.mem_append_right _ hc)] at hdigit
    cases hdigit

/-- A scope and zeros in front of digits are admitted; octets in an address of groups are not, and
zeros in front of octets are none. -/
example : openGuard [] "[0:00::0.0.0.1%07]:08931" = .ok .off ∧
    openGuard [] "[::ffff:127.0.0.1]:8931" = .error .notLoopback ∧
    openGuard [] "127.0.0.01:8931" = .error .notAnAddress := by
  decide +kernel

end NoteTools.Access
