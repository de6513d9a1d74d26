import Mathlib.Data.List.Basic
import NoteTools.Access.Guard
import NoteTools.Proofs.Utf8Text
import NoteTools.Settings.Load

/-!
# Who is admitted

The settings of a file are brought to a normal form and checked, and the guard is built from what
has passed the check. Each of these steps relies on the one before it: the builder of the guard does
not look at blank tokens, since the check has refused them. Put together, the tools are open to
everybody only on an address that never leaves the machine; anywhere else a request has to bear one
of the tokens that stand in the file.

Main definitions:

* `OnLoopback`: the addresses that never leave the machine;
* `Bears`: a header that bears a token;
* `Guard.Protects`: a guard that lets only the bearers of tokens through.

Results:

* `bearerToken?_eq_some_iff`: the token of a header;
* `Guard.protects_staticKeys`: what the guard of tokens does with every request;
* `guard_of_accepted_settings`: the guard of settings that were accepted.
-/

namespace NoteTools

open Access Text

namespace Access

/-! ## The tokens of headers -/

/-- A header whose text is `Bearer` and a token, with blanks around the text and the token. -/
def Bears (value : List UInt8) (token : String) : Prop :=
  ∃ text rest, headerText? value = some text ∧ trim text = "Bearer " ++ rest ∧ trim rest = token

theorem bearerToken?_eq_some_iff {value : List UInt8} {token : String} :
    bearerToken? value = some token ↔ Bears value token ∧ token ≠ "" := by
  have hscheme (rest : String) : ("Bearer " ++ rest).toList =
      'B' :: 'e' :: 'a' :: 'r' :: 'e' :: 'r' :: ' ' :: rest.toList := by
    rw [String.toList_append]
    rfl
  rw [bearerToken?, Bears, Option.bind_eq_bind, Option.bind_eq_some_iff]
  constructor
  · rintro ⟨text, htext, hmatch⟩
    split at hmatch
    · next rest hrest =>
      have htrim : trim text = "Bearer " ++ String.ofList rest := by
        rw [← String.toList_inj, hscheme, String.toList_ofList, hrest]
      dsimp only at hmatch
      split at hmatch
      · cases hmatch
      · next hne =>
        obtain rfl := Option.some.inj hmatch
        exact ⟨⟨text, _, htext, htrim, rfl⟩, hne⟩
    · cases hmatch
  · rintro ⟨⟨text, rest, htext, htrim, rfl⟩, hne⟩
    refine ⟨text, htext, ?_⟩
    rw [htrim, hscheme]
    show (if trim (String.ofList rest.toList) = "" then none else some _) = _
    rw [String.ofList_toList, if_neg hne]

/-! ## Guards -/

/-- The reply of a guard to a request is a refusal for want of authorization. -/
def Guard.Refuses (guard : Guard) (values : List (List UInt8)) : Prop :=
  ∃ reply, guard.refusal? values = some reply ∧ reply.status = 401

/-- A guard that lets only the bearers of tokens through. -/
structure Guard.Protects (guard : Guard) (tokens : List String) : Prop where
  /-- A request is let through exactly when its first header bears one of the tokens. -/
  admits_iff : ∀ values, guard.refusal? values = none ↔
    ∃ value others token, values = value :: others ∧ Bears value token ∧ token ∈ tokens
  /-- Any other request is refused. -/
  refuses : ∀ values, guard.refusal? values ≠ none → guard.Refuses values
  /-- A request without a header is refused. -/
  noHeader : guard.Refuses []
  /-- A request with an empty token is refused. -/
  emptyToken : ∀ value others, Bears value "" → guard.Refuses (value :: others)
  /-- A request whose first header has another scheme, or is no text, is refused. -/
  otherScheme : ∀ value others, (∀ token, ¬Bears value token) → guard.Refuses (value :: others)

theorem Bears.unique {value : List UInt8} {token token' : String} (h : Bears value token)
    (h' : Bears value token') : token = token' := by
  obtain ⟨text, rest, htext, htrim, rfl⟩ := h
  obtain ⟨text', rest', htext', htrim', rfl⟩ := h'
  obtain rfl : text = text' := Option.some.inj (htext.symm.trans htext')
  rw [(String.append_right_inj _).mp (htrim.symm.trans htrim')]

/-- The guard of tokens lets exactly their bearers through. -/
theorem Guard.admits_staticKeys_iff {tokens : List String} (hempty : "" ∉ tokens)
    (values : List (List UInt8)) : (Guard.staticKeys tokens).admits values = true ↔
      ∃ value others token, values = value :: others ∧ Bears value token ∧ token ∈ tokens := by
  cases values with
  | nil =>
    rw [Guard.admits]
    constructor
    · rintro ⟨⟩
    · rintro ⟨value, others, token, ⟨⟩, -⟩
  | cons value others =>
    rw [Guard.admits, Option.any_eq_true]
    constructor
    · rintro ⟨token, htoken, hmem⟩
      exact ⟨value, others, token, rfl, (bearerToken?_eq_some_iff.mp htoken).1,
        List.contains_iff_mem.mp hmem⟩
    · rintro ⟨_, _, token, ⟨⟩, hbears, hmem⟩
      have hne : token ≠ "" := fun heq => hempty (heq ▸ hmem)
      exact ⟨token, bearerToken?_eq_some_iff.mpr ⟨hbears, hne⟩, List.contains_iff_mem.mpr hmem⟩

/-- The guard of tokens protects the tools. -/
theorem Guard.protects_staticKeys {tokens : List String} (hempty : "" ∉ tokens) :
    (Guard.staticKeys tokens).Protects tokens := by
  have hadmits (values : List (List UInt8)) : (Guard.staticKeys tokens).refusal? values = none ↔
      ∃ value others token, values = value :: others ∧ Bears value token ∧ token ∈ tokens := by
    rw [← admits_staticKeys_iff hempty, refusal?]
    cases (Guard.staticKeys tokens).admits values <;> simp
  have hrefuses (values : List (List UInt8))
      (h : (Guard.staticKeys tokens).refusal? values ≠ none) :
      (Guard.staticKeys tokens).Refuses values := by
    rw [refusal?] at h
    refine ⟨unauthorized, ?_, rfl⟩
    rw [refusal?]
    split at h
    · exact absurd rfl h
    · next hnot => rw [if_neg hnot]
  refine ⟨hadmits, hrefuses, ⟨unauthorized, rfl, rfl⟩, ?_, ?_⟩
  · intro value others hbears
    apply hrefuses
    rw [Ne, hadmits]
    rintro ⟨_, _, token, ⟨⟩, hbears', hmem⟩
    exact hempty (hbears.unique hbears' ▸ hmem)
  · intro value others hnone
    apply hrefuses
    rw [Ne, hadmits]
    rintro ⟨_, _, token, ⟨⟩, hbears, -⟩
    exact hnone token hbears

/-! ## Addresses -/

/-- A text that is the address of a socket on this machine only. -/
def OnLoopback (bind : String) : Prop :=
  ∃ address, SocketAddress.read? bind = some address ∧
    ((∃ b c d, address.host = .v4 127 b c d) ∨ address.host = .v6 1)

theorem onLoopback_of_checkLoopback {bind : String} (h : checkLoopback bind = .ok ()) :
    OnLoopback bind := by
  unfold checkLoopback at h
  split at h
  · cases h
  next address hread =>
    refine ⟨address, hread, ?_⟩
    split at h
    · next hloopback =>
      cases hhost : address.host with
      | v4 a b c d =>
        rw [hhost, HostAddress.isLoopback, beq_iff_eq] at hloopback
        exact .inl ⟨b, c, d, by rw [hloopback]⟩
      | v6 bits =>
        rw [hhost, HostAddress.isLoopback, beq_iff_eq] at hloopback
        exact .inr (by rw [hloopback])
    · cases h

/-- The guards that can be built. -/
theorem build_cases {access : AccessSettings} {bind : String} {guard : Guard}
    (h : Guard.build access bind = .ok guard) :
    (access.mode = AccessSettings.off ∧ guard = .off ∧ OnLoopback bind) ∨
      (access.mode = AccessSettings.staticKeys ∧
        guard = .staticKeys (access.keys.map AccessKey.token) ∧ access.keys ≠ []) := by
  unfold Guard.build at h
  split at h
  · next hmode =>
    cases hcheck : checkLoopback bind with
    | error e =>
      rw [hcheck] at h
      cases h
    | ok u =>
      rw [hcheck] at h
      cases h
      exact .inl ⟨hmode, rfl, onLoopback_of_checkLoopback hcheck⟩
  split at h
  · next hmode =>
    dsimp only at h
    split at h
    · cases h
    · next hne =>
      cases h
      exact .inr ⟨hmode, rfl, fun hnil => hne (by rw [hnil]; rfl)⟩
  · cases h

end Access

/-! ## Settings that were accepted -/

/-- Keys that have passed the check have tokens. -/
theorem token_ne_empty_of_checkKeysAfter {seen : List String} {keys : List AccessKey}
    (h : checkKeysAfter seen keys = .ok ()) : ∀ k ∈ keys, k.token ≠ "" := by
  induction keys generalizing seen with
  | nil => simp
  | cons k keys ih =>
    rw [checkKeysAfter] at h
    split at h
    · cases h
    next hcomplete =>
      split at h
      · cases h
      · refine List.forall_mem_cons.mpr ⟨?_, ih h⟩
        exact fun hempty => hcomplete (.inr hempty)

theorem token_ne_empty_of_check {access : AccessSettings} (h : access.check = .ok ())
    (hmode : access.mode = AccessSettings.staticKeys) : ∀ k ∈ access.keys, k.token ≠ "" := by
  rw [AccessSettings.check, hmode, if_neg (by decide), if_pos rfl, checkKeys] at h
  split at h
  · cases h
  · exact token_ne_empty_of_checkKeysAfter h

/-- Settings that have passed the check have passed the check of who may use the tools. -/
theorem Settings.access_check_of_check {s : Settings} (h : s.check = .ok ()) :
    s.access.check = .ok () := by
  unfold Settings.check at h
  dsimp only at h
  repeat'
    split at h
    · cases h
  exact h

/-- Loaded settings are the normal form of those in the file, and have passed the check. -/
theorem Settings.load_eq_ok {path : String} {octets : Option (List UInt8)} {settings : Settings}
    (h : Settings.load path octets = .ok settings) :
    ∃ text written, octets.bind Utf8.decode? = some text ∧ Settings.parse? text = some written ∧
      settings = written.normalize ∧ settings.check = .ok () := by
  unfold Settings.load at h
  split at h
  · cases h
  next text htext =>
    split at h
    · cases h
    next written hwritten =>
      split at h
      · next hcheck =>
        cases h
        exact ⟨text, written, htext, hwritten, rfl, hcheck⟩
      · cases h

/-- Settings in a text that pass the check in normal form are loaded. -/
theorem Settings.load_encode {path text : String} {written : Settings}
    (hwritten : Settings.parse? text = some written) (hcheck : written.normalize.check = .ok ()) :
    Settings.load path (some (Utf8.encode text)) = .ok written.normalize := by
  rw [Settings.load, Option.bind_some, Utf8.decode?_encode]
  dsimp only
  rw [hwritten]
  dsimp only
  rw [hcheck]

/-- Settings in a text that do not pass the check in normal form are refused. -/
theorem Settings.load_violation {path text : String} {written : Settings} {v : Violation}
    (hwritten : Settings.parse? text = some written) (hcheck : written.normalize.check = .error v) :
    Settings.load path (some (Utf8.encode text)) = .error (.violation v) := by
  rw [Settings.load, Option.bind_some, Utf8.decode?_encode]
  dsimp only
  rw [hwritten]
  dsimp only
  rw [hcheck]

/-- Acceptable settings that are the normal form of those in a text are loaded. -/
theorem Settings.load_of_check {path text : String} {settings : Settings}
    (hnormal : (Settings.parse? text).map Settings.normalize = some settings)
    (hcheck : settings.check = .ok ()) :
    Settings.load path (some (Utf8.encode text)) = .ok settings := by
  obtain ⟨written, hwritten, rfl⟩ := Option.map_eq_some_iff.mp hnormal
  exact Settings.load_encode hwritten hcheck

/-- The tokens that stand in settings, without the blanks around them. -/
def Settings.tokens (written : Settings) : List String :=
  written.access.keys.map fun k => trim k.token

theorem Settings.tokens_normalize (written : Settings) :
    written.normalize.access.keys.map AccessKey.token = written.tokens := by
  show (written.access.keys.map AccessKey.normalize).map AccessKey.token = _
  rw [List.map_map]
  rfl

/-- **No access from elsewhere without a token.** The guard of accepted settings is open to
everybody, and then the program listens on an address that never leaves the machine; or it has the
tokens in the file, trimmed and in order, at least one and none empty. So on any other address only
the bearers of these tokens are let through. -/
theorem guard_of_accepted_settings {path : String} {octets : Option (List UInt8)}
    {settings : Settings} {guard : Guard} (hload : Settings.load path octets = .ok settings)
    (hguard : Guard.build settings.access settings.listen.bind = .ok guard) :
    ∃ text written, octets.bind Utf8.decode? = some text ∧ Settings.parse? text = some written ∧
      settings = written.normalize ∧
      ((guard = .off ∧ OnLoopback settings.listen.bind) ∨
        (guard = .staticKeys written.tokens ∧ written.tokens ≠ [] ∧ "" ∉ written.tokens)) ∧
      (¬OnLoopback settings.listen.bind → guard.Protects written.tokens) := by
  obtain ⟨text, written, htext, hwritten, rfl, hcheck⟩ := Settings.load_eq_ok hload
  refine ⟨text, written, htext, hwritten, rfl, ?_⟩
  obtain ⟨-, rfl, hbind⟩ | ⟨hmode, rfl, hne⟩ := build_cases hguard
  · exact ⟨.inl ⟨rfl, hbind⟩, fun hnot => absurd hbind hnot⟩
  · have htokens := token_ne_empty_of_check (Settings.access_check_of_check hcheck) hmode
    have hempty : "" ∉ written.tokens := by
      rw [← Settings.tokens_normalize]
      intro hmem
      obtain ⟨k, hk, htoken⟩ := List.mem_map.mp hmem
      exact htokens k hk htoken
    rw [Settings.tokens_normalize]
    refine ⟨.inr ⟨rfl, ?_, hempty⟩, fun _ => Guard.protects_staticKeys hempty⟩
    rw [← Settings.tokens_normalize, Ne, List.map_eq_nil_iff]
    exact hne

/-- The file of a program that listens on all addresses of its machine. -/
def harborFile : String :=
  "service=\x7bmcp_bind='0.0.0.0:1'\x7d\n" ++
  "trilium=\x7bapi_base='http://h/',token='buoy'\x7d\n" ++
  "security=\x7bauth_mode='Static_Keys',auth_keys=[\x7btoken_id='pilot',token=' anchor '\x7d]\x7d\n"

/-- The settings in that file, in normal form. -/
def harborSettings : Settings where
  listen := { bind := "0.0.0.0:1" }
  noteServer := { base := "http://h", token := "buoy" }
  access := { mode := "static_keys", keys := [⟨"pilot", "anchor"⟩] }

theorem guard_of_accepted_settings_harbor :
    Settings.load "harbor.toml" (some (Utf8.encode harborFile)) = .ok harborSettings ∧
      Guard.build harborSettings.access harborSettings.listen.bind =
        .ok (.staticKeys ["anchor"]) ∧
      ¬OnLoopback harborSettings.listen.bind ∧
      ∃ text written, (some (Utf8.encode harborFile)).bind Utf8.decode? = some text ∧
        Settings.parse? text = some written ∧ harborSettings = written.normalize ∧
        ((Guard.staticKeys ["anchor"] = .off ∧ OnLoopback harborSettings.listen.bind) ∨
          (Guard.staticKeys ["anchor"] = .staticKeys written.tokens ∧ written.tokens ≠ [] ∧
            "" ∉ written.tokens)) ∧
        (¬OnLoopback harborSettings.listen.bind →
          (Guard.staticKeys ["anchor"]).Protects written.tokens) := by
  have hparse : (Settings.parse? harborFile).map Settings.normalize = some harborSettings := by
    decide +kernel
  have hcheck : harborSettings.check = .ok () := by decide +kernel
  have hload :
      Settings.load "harbor.toml" (some (Utf8.encode harborFile)) = .ok harborSettings := by
    obtain ⟨written, hwritten, hnormal⟩ := Option.map_eq_some_iff.mp hparse
    rw [← hnormal]
    exact Settings.load_encode hwritten (hnormal ▸ hcheck)
  have hguard : Guard.build harborSettings.access harborSettings.listen.bind =
      .ok (.staticKeys ["anchor"]) := by
    decide +kernel
  have hbind : SocketAddress.read? harborSettings.listen.bind = some ⟨.v4 0 0 0 0, 1, 0⟩ := by
    decide +kernel
  have hnot : ¬OnLoopback harborSettings.listen.bind := by
    rintro ⟨address, hread, hhost⟩
    obtain rfl := Option.some.inj (hbind.symm.trans hread)
    obtain ⟨b, c, d, hhost⟩ | hhost := hhost
    · cases hhost
    · cases hhost
  exact ⟨hload, hguard, hnot, guard_of_accepted_settings hload hguard⟩

end NoteTools
