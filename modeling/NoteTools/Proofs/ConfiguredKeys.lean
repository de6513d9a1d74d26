import NoteTools.Proofs.Admission
import NoteTools.Proofs.TrimmedText

/-!
# Which keys work

The check of settings lets any text be a token that is not blank, and the guard reads the text of a
header only if all its octets are visible ASCII, spaces and tabs. A character that is not ASCII has
other octets, in any header. So of the keys whose tokens can stand in a header exactly those work
whose tokens are ASCII, and nobody can bear another one.

Main definitions:

* `IsAscii`: the texts that the guard can read.

Results:

* `headerText?_encode`, `headerText?_encode_of_not_isAscii`: the text of a header that is the UTF-8
  of a text;
* `bears_encode`, `Bears.isAscii`: the tokens that headers bear;
* `configured_key_admitted_iff`: the keys that work.
-/

namespace NoteTools

open Access Http Text

/-- A text of ASCII characters. -/
def Text.IsAscii (s : String) : Prop :=
  ∀ c ∈ s.toList, c.toNat < 0x80

instance (s : String) : Decidable (IsAscii s) :=
  List.decidableBAll (fun c : Char => c.toNat < 0x80) s.toList

namespace Access

/-! ## The octets of characters -/

theorem isHeaderOctet_iff {b : UInt8} :
    isHeaderOctet b = true ↔ b.toNat = 9 ∨ 0x20 ≤ b.toNat ∧ b.toNat < 0x7F := by
  simp [isHeaderOctet, UInt8.le_iff_toNat_le, UInt8.lt_iff_toNat_lt, ← UInt8.toNat_inj]

theorem utf8EncodeChar_of_lt {c : Char} (h : c.toNat < 0x80) :
    String.utf8EncodeChar c = [UInt8.ofNat c.toNat] := by
  have hone : c.val.toNat ≤ 0x7F := Nat.le_of_lt_succ h
  rw [String.utf8EncodeChar, if_pos hone]
  rfl

/-- A character that is not ASCII starts with an octet that is not. -/
theorem utf8EncodeChar_of_not_lt {c : Char} (h : ¬c.toNat < 0x80) :
    ∃ n rest, String.utf8EncodeChar c = UInt8.ofNat n :: rest ∧ 0x80 ≤ n ∧ n < 256 := by
  have hone : ¬c.val.toNat ≤ 0x7F := fun hle => h (Nat.lt_succ_of_le hle)
  unfold String.utf8EncodeChar
  rw [if_neg hone]
  split
  · exact ⟨_, _, rfl, by omega, by omega⟩
  split
  · exact ⟨_, _, rfl, by omega, by omega⟩
  · exact ⟨_, _, rfl, by omega, by omega⟩

/-! ## The text of octets -/

/-- The text of a header that is an ASCII text is that text. -/
theorem headerText?_encode {s : String} (hascii : IsAscii s) (htext : isHeaderText s = true) :
    headerText? (Utf8.encode s) = some s := by
  have hencode : Utf8.encode s = s.toList.map fun c => UInt8.ofNat c.toNat := by
    rw [Utf8.encode, List.map_eq_flatMap]
    exact List.flatMap_congr fun c hc => utf8EncodeChar_of_lt (hascii c hc)
  have htoNat {c : Char} (hc : c ∈ s.toList) : (UInt8.ofNat c.toNat).toNat = c.toNat :=
    Utf8.toNat_ofNat_of_lt (Nat.lt_trans (hascii c hc) (by decide))
  have hall : ((s.toList.map fun c => UInt8.ofNat c.toNat).all isHeaderOctet) = true := by
    rw [List.all_map, List.all_eq_true]
    intro c hc
    have hchar := List.all_eq_true.mp htext c hc
    rw [Function.comp_apply, isHeaderOctet_iff, htoNat hc]
    simp only [Bool.or_eq_true, Bool.and_eq_true, beq_iff_eq, bne_iff_ne, decide_eq_true_eq]
      at hchar
    obtain rfl | ⟨hlow, hdel⟩ := hchar
    · exact .inl rfl
    · have hsmall := hascii c hc
      exact .inr ⟨hlow, by omega⟩
  have hback : ((s.toList.map fun c => UInt8.ofNat c.toNat).map fun b => Char.ofNat b.toNat) =
      s.toList := by
    rw [List.map_map]
    refine (List.map_congr_left fun c hc => ?_).trans (List.map_id s.toList)
    rw [Function.comp_apply, htoNat hc, Char.ofNat_toNat, id]
  rw [headerText?, hencode, if_pos hall, hback, String.ofList_toList]

/-- A header with other characters has no text. -/
theorem headerText?_encode_of_not_isAscii {s : String} (h : ¬IsAscii s) :
    headerText? (Utf8.encode s) = none := by
  obtain ⟨c, hc, hlarge⟩ : ∃ c ∈ s.toList, ¬c.toNat < 0x80 := by simpa [IsAscii] using h
  obtain ⟨n, rest, hoctets, hlow, hhigh⟩ := utf8EncodeChar_of_not_lt hlarge
  have hmem : UInt8.ofNat n ∈ Utf8.encode s :=
    List.mem_flatMap.mpr ⟨c, hc, by rw [hoctets]; exact List.mem_cons_self⟩
  rw [headerText?, if_neg]
  intro hall
  have hoctet := isHeaderOctet_iff.mp (List.all_eq_true.mp hall _ hmem)
  rw [Utf8.toNat_ofNat_of_lt hhigh] at hoctet
  omega

/-- The characters of the text of a header are ASCII. -/
theorem isAscii_of_headerText? {value : List UInt8} {text : String}
    (h : headerText? value = some text) : IsAscii text := by
  unfold headerText? at h
  split at h
  · next hall =>
    obtain rfl := Option.some.inj h
    intro c hc
    rw [String.toList_ofList] at hc
    obtain ⟨b, hb, rfl⟩ := List.mem_map.mp hc
    have hoctet := isHeaderOctet_iff.mp (List.all_eq_true.mp hall b hb)
    have hascii : ∀ n < 0x80, (Char.ofNat n).toNat < 0x80 := by decide
    exact hascii b.toNat (by omega)
  · cases h

/-! ## The tokens of headers -/

/-- Only ASCII texts are the texts of headers. -/
theorem bears_encode_isAscii {s token : String} (h : Bears (Utf8.encode s) token) : IsAscii s := by
  obtain ⟨text, rest, htext, -, -⟩ := h
  by_contra hnot
  rw [headerText?_encode_of_not_isAscii hnot] at htext
  cases htext

theorem isAscii_trim {s : String} (h : IsAscii s) : IsAscii (trim s) := by
  intro c hc
  rw [trim, String.toList_ofList] at hc
  exact h c (mem_of_mem_strip hc)

/-- Only ASCII tokens can be borne. -/
theorem Bears.isAscii {value : List UInt8} {token : String} (h : Bears value token) :
    IsAscii token := by
  obtain ⟨text, rest, htext, htrim, rfl⟩ := h
  have hascii := isAscii_trim (isAscii_of_headerText? htext)
  rw [htrim] at hascii
  refine isAscii_trim fun c hc => hascii c ?_
  rw [String.toList_append]
  exact List.mem_append_right _ hc

theorem isAscii_append_iff {s t : String} : IsAscii (s ++ t) ↔ IsAscii s ∧ IsAscii t := by
  simp only [IsAscii, String.toList_append, List.forall_mem_append]

/-- The header of a token without blanks around it bears the token if that is ASCII. -/
theorem bears_encode {token : String} (htight : Tight token) (hne : token ≠ "")
    (htext : isHeaderText ("Bearer " ++ token) = true) (hascii : IsAscii token) :
    Bears (Utf8.encode ("Bearer " ++ token)) token := by
  have hchars : ("Bearer " ++ token).toList = "Bearer ".toList ++ token.toList :=
    String.toList_append
  have hwhole : IsAscii ("Bearer " ++ token) := isAscii_append_iff.mpr ⟨by decide, hascii⟩
  have htrim : Tight ("Bearer " ++ token) := by
    refine ⟨?_, ?_⟩
    · rw [hchars]
      intro c hc
      obtain rfl : 'B' = c := Option.some.inj hc
      decide
    · intro c hc
      rw [hchars, List.getLast?_append_of_ne_nil _ (by simpa using hne)] at hc
      exact htight.closes c hc
  exact ⟨_, token, headerText?_encode hwhole htext, trim_eq_self_iff.mpr htrim,
    trim_eq_self_iff.mpr htight⟩

end Access

/-! ## The keys of settings -/

/-- Settings that ask for tokens and have passed the check have a guard. -/
theorem build_of_check {access : AccessSettings} (h : access.check = .ok ())
    (hmode : access.mode = AccessSettings.staticKeys) (bind : String) :
    Guard.build access bind = .ok (.staticKeys (access.keys.map AccessKey.token)) := by
  have hkeys : access.keys ≠ [] := by
    intro hnil
    rw [AccessSettings.check, hmode, hnil] at h
    cases h
  rw [Guard.build, hmode, if_neg (by decide), if_pos rfl]
  exact if_neg (by rwa [List.map_eq_nil_iff])

/-- The tokens of loaded settings have no blanks around them. -/
theorem tight_token_of_load {path : String} {octets : Option (List UInt8)} {settings : Settings}
    (h : Settings.load path octets = .ok settings) : ∀ k ∈ settings.access.keys, Tight k.token := by
  obtain ⟨text, written, -, -, rfl, -⟩ := Settings.load_eq_ok h
  intro k hk
  obtain ⟨k', -, rfl⟩ := List.mem_map.mp hk
  exact tight_trim k'.token

/-- **The keys that work.** With settings that ask for tokens there is a guard. A request whose only
header is `Bearer` and the token of a key, if that can stand in a header, is let through exactly
when the token is ASCII; a token that is not is borne by no header. -/
theorem configured_key_admitted_iff {path : String} {octets : Option (List UInt8)}
    {settings : Settings} (hload : Settings.load path octets = .ok settings)
    (hmode : settings.access.mode = AccessSettings.staticKeys) :
    ∃ guard, Guard.build settings.access settings.listen.bind = .ok guard ∧
      ∀ k ∈ settings.access.keys,
        (isHeaderText ("Bearer " ++ k.token) = true →
          (guard.refusal? [Utf8.encode ("Bearer " ++ k.token)] = none ↔ IsAscii k.token)) ∧
        (¬IsAscii k.token → (∀ value, ¬Bears value k.token) ∧
          guard.Refuses [Utf8.encode ("Bearer " ++ k.token)]) := by
  have hcheck : settings.access.check = .ok () := by
    obtain ⟨-, -, -, -, -, hcheck⟩ := Settings.load_eq_ok hload
    exact Settings.access_check_of_check hcheck
  have hnonempty := token_ne_empty_of_check hcheck hmode
  have hprotects : (Guard.staticKeys (settings.access.keys.map AccessKey.token)).Protects
      (settings.access.keys.map AccessKey.token) := by
    refine Guard.protects_staticKeys fun hmem => ?_
    obtain ⟨k, hk, htoken⟩ := List.mem_map.mp hmem
    exact hnonempty k hk htoken
  refine ⟨_, build_of_check hcheck hmode _, fun k hk => ⟨fun htext => ?_, fun hnot => ?_⟩⟩
  · rw [hprotects.admits_iff]
    constructor
    · rintro ⟨_, _, token, ⟨⟩, hbears, -⟩
      exact (isAscii_append_iff.mp (bears_encode_isAscii hbears)).2
    · intro hascii
      have htight := tight_token_of_load hload k hk
      exact ⟨_, [], k.token, rfl, bears_encode htight (hnonempty k hk) htext hascii,
        List.mem_map.mpr ⟨k, hk, rfl⟩⟩
  · refine ⟨fun value hbears => hnot hbears.isAscii, hprotects.otherScheme _ _ ?_⟩
    exact fun token hbears => hnot (isAscii_append_iff.mp (bears_encode_isAscii hbears)).2

/-- The file of a program with two keys, one of which is not ASCII. -/
def lockFile : String :=
  "service=\x7bmcp_bind='127.0.0.1:1'\x7d\n" ++
  "trilium=\x7bapi_base='http://h',token='t'\x7d\n" ++
  "security=\x7bauth_mode='static_keys',auth_keys=[" ++
    "\x7btoken_id='pilot',token='clé'\x7d,\x7btoken_id='crew',token=' key '\x7d]\x7d\n"

/-- The settings in that file, in normal form. -/
def lockSettings : Settings where
  listen := { bind := "127.0.0.1:1" }
  noteServer := { base := "http://h", token := "t" }
  access := { mode := "static_keys", keys := [⟨"pilot", "clé"⟩, ⟨"crew", "key"⟩] }

theorem load_lockFile :
    Settings.load "lock.toml" (some (Utf8.encode lockFile)) = .ok lockSettings :=
  Settings.load_of_check (by decide +kernel) (by decide +kernel)

theorem configured_key_admitted_iff_lock :
    Settings.load "lock.toml" (some (Utf8.encode lockFile)) = .ok lockSettings ∧
      lockSettings.access.mode = AccessSettings.staticKeys ∧
      ∃ guard, Guard.build lockSettings.access lockSettings.listen.bind = .ok guard ∧
        ∀ k ∈ lockSettings.access.keys,
          (isHeaderText ("Bearer " ++ k.token) = true →
            (guard.refusal? [Utf8.encode ("Bearer " ++ k.token)] = none ↔ IsAscii k.token)) ∧
          (¬IsAscii k.token → (∀ value, ¬Bears value k.token) ∧
            guard.Refuses [Utf8.encode ("Bearer " ++ k.token)]) :=
  ⟨load_lockFile, rfl, configured_key_admitted_iff load_lockFile rfl⟩

/-- A key of accepted settings that never works. -/
theorem configured_key_refused :
    Settings.load "lock.toml" (some (Utf8.encode lockFile)) = .ok lockSettings ∧
      lockSettings.access.mode = AccessSettings.staticKeys ∧
      ⟨"pilot", "clé"⟩ ∈ lockSettings.access.keys ∧
      isHeaderText ("Bearer " ++ "clé") = true ∧
      (Guard.build lockSettings.access lockSettings.listen.bind).map
        (fun guard => guard.refusal? [Utf8.encode ("Bearer " ++ "clé")]) =
          .ok (some unauthorized) :=
  ⟨load_lockFile, rfl, by decide, by decide, by decide +kernel⟩

end NoteTools
