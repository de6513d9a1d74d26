import NoteTools.Proofs.Admission
import NoteTools.Proofs.SettingsText
import NoteTools.Proofs.TrimmedText

/-!
# Loading settings a second time

Loaded settings are in normal form. Written to a file, whichever way they are written, and loaded
from there, they are brought to the normal form once more; this changes nothing but the address of
the note server. The blanks around the address go first, then the slashes at its end, and a blank
in front of those slashes stays: an address that ends in a blank does not survive the second time.
It is the text without blanks that is checked, so such an address passes the check, and what the
second time makes of it may be too short for a scheme.

Main definitions:

* `Settings.Trimmed`: settings as they are after the first time;
* `Settings.rebase`: what the second time does.

Results:

* `Settings.normalize_normalize`: the normal form of a normal form;
* `Settings.rebase_eq_self_iff`: the settings that do not change;
* `Settings.load_again`: settings that were loaded are written to a file and loaded from it.
-/

namespace NoteTools

open Text

/-! ## Normal form -/

/-- Settings without blanks around their texts, apart from the end of the note server's address,
where there is no slash. -/
structure Settings.Trimmed (s : Settings) : Prop where
  /-- There are no blanks around the address to listen on. -/
  bind : Tight s.listen.bind
  /-- The note server's address does not start with a blank. -/
  base_opens : Opens isBlank s.noteServer.base.toList
  /-- The note server's address does not end with a slash. -/
  base_closes : Closes (· == '/') s.noteServer.base.toList
  /-- There are no blanks around the token for the note server. -/
  token : Tight s.noteServer.token
  /-- There are no blanks around the mode. -/
  mode : Tight s.access.mode
  /-- There are no blanks around the name and the token of a key. -/
  keys : ∀ k ∈ s.access.keys, Tight k.id ∧ Tight k.token

/-- Settings whose note server's address has been brought to the normal form. -/
def Settings.rebase (s : Settings) : Settings :=
  { s with noteServer := { s.noteServer with
    base := trimEnd (· == '/') (trim s.noteServer.base) } }

namespace Settings

variable {s : Settings}

theorem rebase_base (s : Settings) :
    s.rebase.noteServer.base = trimEnd (· == '/') (trim s.noteServer.base) :=
  rfl

theorem trimmed_normalize (s : Settings) : s.normalize.Trimmed where
  bind := tight_trim _
  base_opens := by
    show Opens isBlank (String.ofList (stripEnd _ (trim s.noteServer.base).toList)).toList
    rw [String.toList_ofList]
    exact (tight_trim _).opens.of_isPrefix (stripEnd_isPrefix _ _)
  base_closes := by
    show Closes _ (String.ofList (stripEnd _ (trim s.noteServer.base).toList)).toList
    rw [String.toList_ofList]
    exact closes_stripEnd
  token := tight_trim _
  mode := tight_lowerAscii (tight_trim _)
  keys := by
    intro k hk
    obtain ⟨written, -, rfl⟩ := List.mem_map.mp hk
    exact ⟨tight_trim written.id, tight_trim written.token⟩

/-- The normal form of a normal form has another address of the note server at most. -/
theorem normalize_normalize (s : Settings) : s.normalize.normalize = s.normalize.rebase := by
  have h := s.trimmed_normalize
  have hbind : trim s.normalize.listen.bind = s.normalize.listen.bind := trim_eq_self_iff.mpr h.bind
  have htoken : trim s.normalize.noteServer.token = s.normalize.noteServer.token :=
    trim_eq_self_iff.mpr h.token
  have hmode : lowerAscii (trim s.normalize.access.mode) = s.normalize.access.mode := by
    rw [trim_eq_self_iff.mpr h.mode]
    exact lowerAscii_lowerAscii _
  have hkeys : s.normalize.access.keys.map AccessKey.normalize = s.normalize.access.keys := by
    refine (List.map_congr_left fun k hk => ?_).trans (List.map_id _)
    obtain ⟨hid, htoken⟩ := h.keys k hk
    rw [AccessKey.normalize, trim_eq_self_iff.mpr hid, trim_eq_self_iff.mpr htoken]
    rfl
  rw [normalize, rebase, hbind, htoken, hmode, hkeys]

/-- Settings stay as they are exactly when the note server's address does not end with a blank. -/
theorem rebase_eq_self_iff (h : s.Trimmed) :
    s.rebase = s ↔ Closes isBlank s.noteServer.base.toList := by
  constructor
  · intro heq
    -- Each of the two steps leaves a prefix; a prefix that is the whole has lost nothing.
    have hbase : trimEnd (· == '/') (trim s.noteServer.base) = s.noteServer.base := by
      rw [← rebase_base, heq]
    have htrim : (trim s.noteServer.base).toList = stripEnd isBlank s.noteServer.base.toList := by
      rw [trim, strip, dropWhile_eq_self_iff.mpr h.base_opens, String.toList_ofList]
    have hprefix : s.noteServer.base.toList <+: stripEnd isBlank s.noteServer.base.toList := by
      rw [← htrim]
      nth_rewrite 1 [← hbase]
      rw [trimEnd, String.toList_ofList]
      exact stripEnd_isPrefix _ _
    have hfull :=
      (stripEnd_isPrefix isBlank s.noteServer.base.toList).eq_of_length_le hprefix.length_le
    exact stripEnd_eq_self_iff.mp hfull
  · intro hcloses
    have htrim : trim s.noteServer.base = s.noteServer.base :=
      trim_eq_self_iff.mpr ⟨h.base_opens, hcloses⟩
    rw [rebase, htrim, trimEnd, stripEnd_eq_self_iff.mpr h.base_closes, String.ofList_toList]

/-! ## Checks -/

/-- Settings are acceptable exactly when each of their parts is. -/
theorem check_eq_ok_iff : s.check = .ok () ↔
    blank s.listen.bind = false ∧ hasHttpScheme (trim s.noteServer.base) = true ∧
      blank s.noteServer.token = false ∧ s.noteServer.timeout ≠ 0 ∧ s.search.maxLimit ≠ 0 ∧
      s.access.check = .ok () := by
  have hempty (h : trim s.noteServer.base = "") :
      hasHttpScheme (trim s.noteServer.base) = false := by
    rw [h]
    rfl
  unfold check
  dsimp only
  split_ifs <;> simp_all

/-- The first character of an address with a scheme. -/
theorem exists_eq_cons_of_hasHttpScheme {base : String} (h : hasHttpScheme base = true) :
    ∃ cs, base.toList = 'h' :: cs := by
  rw [hasHttpScheme, Bool.or_eq_true, List.isPrefixOf_iff_prefix, List.isPrefixOf_iff_prefix] at h
  obtain ⟨rest, hrest⟩ | ⟨rest, hrest⟩ := h
  all_goals exact ⟨_, hrest.symm⟩

/-- Settings that were acceptable are refused the second time only for their scheme. -/
theorem check_rebase (h : s.check = .ok ()) :
    s.rebase.check = if hasHttpScheme (trim s.rebase.noteServer.base) then .ok ()
      else .error .foreignScheme := by
  obtain ⟨hbind, hscheme, htoken, htimeout, hlimit, haccess⟩ := check_eq_ok_iff.mp h
  obtain ⟨cs, hcs⟩ := exists_eq_cons_of_hasHttpScheme hscheme
  have hmem : 'h' ∈ s.rebase.noteServer.base.toList := by
    rw [rebase_base, trimEnd, String.toList_ofList]
    exact mem_stripEnd_of (hcs ▸ List.mem_cons_self) (by decide)
  have hbase : trim s.rebase.noteServer.base ≠ "" := by
    rw [Ne, trim_eq_empty_iff, blank, List.all_eq_true]
    intro hall
    exact absurd (hall _ hmem) (by decide)
  by_cases hkept : hasHttpScheme (trim s.rebase.noteServer.base) = true
  · rw [if_pos hkept, check_eq_ok_iff, rebase]
    exact ⟨hbind, hkept, htoken, htimeout, hlimit, haccess⟩
  · have hbind' : ¬blank s.rebase.listen.bind = true := by simpa [rebase] using hbind
    rw [if_neg hkept, check, if_neg hbind', if_neg hbase, if_pos (by simpa using hkept)]

/-- An address that is accepted once, and has no scheme the second time. -/
example : hasHttpScheme (trim "https:// ") = true ∧
    hasHttpScheme (trim (trimEnd (· == '/') (trim "https:// "))) = false := by
  decide +kernel

/-! ## The second time -/

/-- **Loading a second time.** Loaded settings are trimmed, up to the end of the note server's
address, and they can be read back from their file. However they are written to a file, loading that
file brings the address to the normal form again, and gives the settings with this address, or
refuses it for want of a scheme. It gives the settings as they were exactly when their address does
not end with a blank. -/
theorem load_again {path : String} {octets : Option (List UInt8)}
    (h : Settings.load path octets = .ok s) :
    s.Trimmed ∧ Settings.parse? s.fileText = some s ∧
      ∀ path' text, Settings.parse? text = some s →
        Settings.load path' (some (Utf8.encode text)) =
          (if hasHttpScheme (trim s.rebase.noteServer.base) then .ok s.rebase
            else .error (.violation .foreignScheme)) ∧
        (Settings.load path' (some (Utf8.encode text)) = .ok s ↔
          Closes isBlank s.noteServer.base.toList) := by
  obtain ⟨-, written, -, -, hnormal, hcheck⟩ := Settings.load_eq_ok h
  have htrimmed : s.Trimmed := hnormal ▸ written.trimmed_normalize
  have hagain : s.normalize = s.rebase := by
    rw [hnormal]
    exact written.normalize_normalize
  refine ⟨htrimmed, s.parse?_fileText, fun path' text htext => ?_⟩
  have hload : Settings.load path' (some (Utf8.encode text)) =
      if hasHttpScheme (trim s.rebase.noteServer.base) then .ok s.rebase
        else .error (.violation .foreignScheme) := by
    have hnext := check_rebase hcheck
    rw [← hagain] at hnext ⊢
    by_cases hscheme : hasHttpScheme (trim s.normalize.noteServer.base) = true
    · rw [if_pos hscheme] at hnext ⊢
      exact Settings.load_encode htext hnext
    · rw [if_neg hscheme] at hnext ⊢
      exact Settings.load_violation htext hnext
  refine ⟨hload, ?_⟩
  rw [hload, ← rebase_eq_self_iff htrimmed]
  constructor
  · intro hsame
    split at hsame
    · exact Except.ok.inj hsame
    · cases hsame
  · intro hsame
    have hscheme := (check_eq_ok_iff.mp hcheck).2.1
    rw [hsame, if_pos hscheme]

end Settings

/-- A file whose address of the note server ends with a blank and a slash. -/
def slackFile : String :=
  "service=\x7bmcp_bind=' 127.0.0.1:1'\x7d\n" ++
  "trilium=\x7bapi_base=' http://h /',token='rope '\x7d\n" ++
  "security=\x7bauth_mode=' OFF'\x7d\n"

/-- The settings in that file, in normal form. -/
def slackSettings : Settings where
  listen := { bind := "127.0.0.1:1" }
  noteServer := { base := "http://h ", token := "rope" }
  access := { mode := "off" }

theorem load_slackFile :
    Settings.load "slack.toml" (some (Utf8.encode slackFile)) = .ok slackSettings :=
  Settings.load_of_check (by decide +kernel) (by decide +kernel)

theorem load_again_slack :
    Settings.load "slack.toml" (some (Utf8.encode slackFile)) = .ok slackSettings ∧
      slackSettings.Trimmed ∧ Settings.parse? slackSettings.fileText = some slackSettings ∧
      ∀ path text, Settings.parse? text = some slackSettings →
        Settings.load path (some (Utf8.encode text)) =
          (if hasHttpScheme (trim slackSettings.rebase.noteServer.base) then
            .ok slackSettings.rebase
            else .error (.violation .foreignScheme)) ∧
        (Settings.load path (some (Utf8.encode text)) = .ok slackSettings ↔
          Closes isBlank slackSettings.noteServer.base.toList) :=
  ⟨load_slackFile, Settings.load_again load_slackFile⟩

/-- Settings that do not survive the second time: their address, which still ends with a blank, is
another one then. -/
theorem load_again_differs :
    Settings.load "slack.toml" (some (Utf8.encode slackFile)) = .ok slackSettings ∧
      slackSettings.noteServer.base = "http://h " ∧
      Settings.load "again.toml" (some (Utf8.encode slackSettings.fileText)) =
        .ok { slackSettings with noteServer := { base := "http://h", token := "rope" } } := by
  have hcheck : slackSettings.normalize.check = .ok () := by decide +kernel
  have hnormal : slackSettings.normalize =
      { slackSettings with noteServer := { base := "http://h", token := "rope" } } := by
    decide +kernel
  refine ⟨load_slackFile, rfl, ?_⟩
  rw [Settings.load_encode slackSettings.parse?_fileText hcheck, hnormal]

end NoteTools
