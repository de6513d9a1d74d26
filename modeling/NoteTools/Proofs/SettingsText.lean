import NoteTools.Proofs.RequestForms
import NoteTools.Proofs.TomlFile
import NoteTools.Settings.Load
import NoteTools.Settings.Save

/-!
# Settings can be read back from their file

A file that holds settings is read back as the settings that were written, whatever their texts hold
and for all their numbers. To the decoders such a file looks like the object of the settings, so
that only the layout of each section counts.

Main definitions:

* `ListenSettings.layout`, `NoteServerSettings.layout` and so on: the layouts of the sections;
* `Settings.layout`: the layout of settings.

Results:

* `Settings.decode_toJson`: the object of settings is decoded, however it is scanned;
* `scan_fileText`: a file looks like the object;
* `Settings.parse?_fileText`: settings are read back from their file.
-/

namespace NoteTools

open Json

/-! ## Layouts -/

/-- The layout of the section on listening. -/
def ListenSettings.layout : Layout ListenSettings where
  title := "Service"
  filled s := [
    ⟨⟨_, Field.required "mcp_bind" Decoder.text⟩, s.bind⟩,
    ⟨⟨_, Field.withDefault "log_level" Decoder.text "info"⟩, s.logLevel⟩]
  decode := ListenSettings.decode

/-- The layout of the section on the note server. -/
def NoteServerSettings.layout : Layout NoteServerSettings where
  title := "Trilium"
  filled s := [
    ⟨⟨_, Field.required "api_base" Decoder.text⟩, s.base⟩,
    ⟨⟨_, Field.required "token" Decoder.text⟩, s.token⟩,
    ⟨⟨_, Field.withDefault "timeout_ms" Decoder.nat64 30000⟩, s.timeout⟩]
  decode := NoteServerSettings.decode

/-- The layout of the section on searches. -/
def SearchSettings.layout : Layout SearchSettings where
  title := "Search"
  filled s := [
    ⟨⟨_, Field.withDefault "max_limit" Decoder.nat32 200⟩, s.maxLimit⟩,
    ⟨⟨_, Field.withDefault "trace_queries" Decoder.bool false⟩, s.traceQueries⟩]
  decode := SearchSettings.decode

/-- The layout of keys. -/
def AccessKey.layout : Layout AccessKey where
  title := "SecurityAuthKey"
  filled k := [
    ⟨⟨_, Field.required "token_id" Decoder.text⟩, k.id⟩,
    ⟨⟨_, Field.required "token" Decoder.text⟩, k.token⟩]
  decode := AccessKey.decode

/-- The layout of the section on access. -/
def AccessSettings.layout : Layout AccessSettings where
  title := "Security"
  filled s := [
    ⟨⟨_, Field.required "auth_mode" Decoder.text⟩, s.mode⟩,
    ⟨⟨_, Field.withDefault "auth_keys" (Decoder.list AccessKey.decode) []⟩, s.keys⟩]
  decode := AccessSettings.decode

/-- The layout of settings. -/
def Settings.layout : Layout Settings where
  title := "Config"
  filled s := [
    ⟨⟨_, Field.required "service" ListenSettings.decode⟩, s.listen⟩,
    ⟨⟨_, Field.required "trilium" NoteServerSettings.decode⟩, s.noteServer⟩,
    ⟨⟨_, Field.withDefault "search" SearchSettings.decode {}⟩, s.search⟩,
    ⟨⟨_, Field.required "security" AccessSettings.decode⟩, s.access⟩]
  decode := Settings.decode

/-! ## Objects are decoded -/

section
variable {view : Json → Scan} (hview : Faithful view)
include hview

/-- A natural number of 64 bits is decoded as itself. -/
theorem Json.Faithful.nat64 (n : UInt64) : Decoder.nat64 (view (nat n.toNat)) = .ok n := by
  have hbounds : (0 : Int) ≤ n.toNat ∧ (n.toNat : Int) ≤ 0xFFFFFFFFFFFFFFFF := by
    have hlt := n.toNat_lt
    omega
  rw [nat, hview.num, Decoder.nat64, Decoder.whole, if_pos hbounds]
  show Except.ok (UInt64.ofNat (n.toNat : Int).toNat) = _
  rw [Int.toNat_natCast, UInt64.ofNat_toNat]

theorem AccessKey.decode_toJson (k : AccessKey) : AccessKey.decode (view k.toJson) = .ok k := by
  apply AccessKey.layout.decode_obj hview
  exact .given (hview.text _) <| .given (hview.text _) .nil

theorem Settings.decode_toJson (s : Settings) : Settings.decode (view s.toJson) = .ok s := by
  have hlisten : ListenSettings.decode (view (.obj [("mcp_bind", .str s.listen.bind),
      ("log_level", .str s.listen.logLevel)])) = .ok s.listen := by
    apply ListenSettings.layout.decode_obj hview
    exact .given (hview.text _) <| .given (hview.text _) .nil
  have hnoteServer : NoteServerSettings.decode (view (.obj [("api_base", .str s.noteServer.base),
      ("token", .str s.noteServer.token), ("timeout_ms", .nat s.noteServer.timeout.toNat)])) =
        .ok s.noteServer := by
    apply NoteServerSettings.layout.decode_obj hview
    exact .given (hview.text _) <| .given (hview.text _) <| .given (hview.nat64 _) .nil
  have hsearch : SearchSettings.decode (view (.obj [("max_limit", .nat s.search.maxLimit.toNat),
      ("trace_queries", .bool s.search.traceQueries)])) = .ok s.search := by
    apply SearchSettings.layout.decode_obj hview
    exact .given (hview.nat32 _) <| .given (hview.truth _) .nil
  have hkeys := hview.list_map s.access.keys fun k _ => k.decode_toJson hview
  have haccess : AccessSettings.decode (view (.obj [("auth_mode", .str s.access.mode),
      ("auth_keys", .arr (s.access.keys.map AccessKey.toJson))])) = .ok s.access := by
    apply AccessSettings.layout.decode_obj hview
    exact .given (hview.text _) <| .given hkeys .nil
  apply Settings.layout.decode_obj hview
  exact .given hlisten <| .given hnoteServer <| .given hsearch <| .given haccess .nil

end

/-! ## A file looks like the object -/

namespace Toml

/-- A number of at most 64 bits is seen as itself. -/
theorem scanInt_natCast {n : Nat} (h : n ≤ 0xFFFFFFFFFFFFFFFF) :
    scanInt n = Scan.asIs .loose (.nat n) := by
  rw [scanInt, if_pos (by omega)]
  rfl

/-- The keys of a file look like the array of their objects. -/
theorem scanItems_keys (keys : List AccessKey) :
    scanItems (keys.map AccessKey.toToml) = Items.asIs .loose (keys.map AccessKey.toJson) := by
  induction keys with
  | nil => rfl
  | cons k keys ih =>
    rw [List.map_cons, List.map_cons, scanItems, Items.asIs, ih]
    rfl

theorem printableItems_keys (keys : List AccessKey) :
    PrintableItems (keys.map AccessKey.toToml) := by
  induction keys with
  | nil => trivial
  | cons k keys ih =>
    refine ⟨⟨rfl, ⟨trivial, trivial, trivial⟩, ?_⟩, ih⟩
    show ["token_id", "token"].Nodup
    decide

/-- The sections of settings have a written form. -/
theorem printableSections (s : Settings) : PrintableSections s.sections where
  names := by
    show ["service", "trilium", "search", "security"].Nodup
    decide
  entries := by
    have hkeys : PrintableItems (s.access.keys.map AccessKey.toToml) := printableItems_keys _
    simp [Settings.sections, PrintableEntries, Printable, Entries.keys, hkeys]

/-- The file of settings looks like their object. -/
theorem scan_fileText (s : Settings) :
    scan s.fileText = some (Scan.asIs .loose s.toJson) := by
  have htimeout : scanInt s.noteServer.timeout.toNat =
      Scan.asIs .loose (.nat s.noteServer.timeout.toNat) := by
    have hlt := s.noteServer.timeout.toNat_lt
    exact scanInt_natCast (by omega)
  have hlimit : scanInt s.search.maxLimit.toNat =
      Scan.asIs .loose (.nat s.search.maxLimit.toNat) := by
    have hlt := s.search.maxLimit.toNat_lt
    exact scanInt_natCast (by omega)
  rw [scan, Settings.fileText, parse_fileText (printableSections s), Option.map_some]
  simp only [Settings.sections, sectionTable, List.map_cons, List.map_nil, scanEntries, Value.scan,
    htimeout, hlimit, scanItems_keys]
  rfl

end Toml

/-! ## Settings are read back -/

/-- **Settings are read back from their file.** -/
theorem Settings.parse?_fileText (s : Settings) : Settings.parse? s.fileText = some s := by
  have hview : Faithful (Scan.asIs .loose) := faithful_asIs trivial
  rw [Settings.parse?, Toml.scan_fileText]
  show (Settings.decode (Scan.asIs .loose s.toJson)).toOption = some s
  rw [Settings.decode_toJson hview s]
  rfl

end NoteTools
