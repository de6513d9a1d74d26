import NoteTools.Proofs.Reloading

/-!
# Which settings are accepted

Settings are brought to the normal form before they are checked, so what is asked of them is asked
of their texts without the blanks around them. The demands are made in a fixed order, and the first
one that is not met gives the message. Behind the demands on all settings stand those on the keys,
two for each place of their list, when the mode uses keys at all.

Main definitions:

* `FirstUnmet`: the fault of the first demand of a list that is not met;
* `Settings.Acceptable`: the settings that are accepted;
* `Settings.demands`: what is asked of settings, in order, with the message about each demand;
* `Settings.LoadsAs`: how settings in a file are loaded.

Results:

* `Verdict.guarded`: the verdict on a demand in front of others;
* `verdict_keys`, `Settings.verdict_check`: the checks are verdicts on the demands;
* `Settings.forall_demands_iff`: settings that meet all demands are acceptable;
* `Settings.loadsAs_of_parse`: which settings are loaded, and what is said about the others.
-/

namespace NoteTools

open Text

/-! ## Specification -/

/-- The fault of the first demand of a list that is not met. -/
def FirstUnmet {F : Type} (demands : List (Prop × F)) (fault : F) : Prop :=
  ∃ front demand back, demands = front ++ (demand, fault) :: back ∧ (∀ d ∈ front, d.1) ∧ ¬demand

/-- An address with a scheme that the client speaks. -/
def HasScheme (base : String) : Prop :=
  ∃ rest, base = "http://" ++ rest ∨ base = "https://" ++ rest

/-- The name and the token of a key are not blank. -/
def AccessKey.Complete (k : AccessKey) : Prop :=
  trim k.id ≠ "" ∧ trim k.token ≠ ""

/-- What is asked of the key at a place of a list: it is complete, and it has another name than each
key in front of it. -/
def AccessKey.demandsAt (keys : List AccessKey) (place : AccessKey × Nat) :
    List (Prop × String) := [
  (place.1.Complete, "security.auth_keys entries require non-empty token_id and token."),
  (∀ earlier ∈ keys.take place.2, trim earlier.id ≠ trim place.1.id,
    "security.auth_keys token_id " ++ trim place.1.id ++ " is duplicated.")]

/-- What is asked of keys: there is one, and all places are as they should be, one after another. -/
def keyDemands (keys : List AccessKey) : List (Prop × String) :=
  (keys ≠ [], "security.auth_keys must be non-empty when security.auth_mode=static_keys.") ::
    keys.zipIdx.flatMap (AccessKey.demandsAt keys)

/-- What is asked of who may use the tools. Only one mode has keys that matter. -/
def AccessSettings.demands (a : AccessSettings) : List (Prop × String) :=
  let mode := lowerAscii (trim a.mode)
  (mode = "off" ∨ mode = "static_keys",
    "security.auth_mode must be one of off or static_keys, got " ++ mode ++ ".") ::
    if mode = "static_keys" then keyDemands a.keys else []

namespace Settings

/-- The address of the note server, trimmed, and without the slashes at its end. -/
def trimmedBase (s : Settings) : String :=
  trimEnd (· == '/') (trim s.noteServer.base)

/-- What is asked of settings, in order, and what is said when it is not met. -/
def demands (s : Settings) : List (Prop × String) := [
  (trim s.listen.bind ≠ "", "service.mcp_bind must be non-empty."),
  (s.trimmedBase ≠ "", "trilium.api_base must be non-empty."),
  (HasScheme s.trimmedBase, "trilium.api_base must start with http:// or https://."),
  (trim s.noteServer.token ≠ "", "trilium.token must be non-empty."),
  (0 < s.noteServer.timeout, "trilium.timeout_ms must be greater than zero."),
  (0 < s.search.maxLimit, "search.max_limit must be greater than zero.")] ++ s.access.demands

/-- Settings that are accepted. -/
structure Acceptable (s : Settings) : Prop where
  bind : trim s.listen.bind ≠ ""
  base : HasScheme s.trimmedBase
  token : trim s.noteServer.token ≠ ""
  timeout : 0 < s.noteServer.timeout
  limit : 0 < s.search.maxLimit
  /-- Everybody may use the tools, or the holders of keys, which are complete and have different
  names. -/
  access : lowerAscii (trim s.access.mode) = "off" ∨
    lowerAscii (trim s.access.mode) = "static_keys" ∧ s.access.keys ≠ [] ∧
      (∀ k ∈ s.access.keys, k.Complete) ∧ (s.access.keys.map fun k => trim k.id).Nodup

/-- How settings that stand in a file are loaded. -/
structure LoadsAs (s : Settings) (outcome : Except LoadError Settings) : Prop where
  /-- They are loaded, in normal form, exactly when they are acceptable. -/
  accepted_iff : outcome = .ok s.normalize ↔ s.Acceptable
  /-- No other settings are loaded. -/
  accepted : ∀ loaded, outcome = .ok loaded → loaded = s.normalize
  /-- They are refused with a message exactly when that is the message about the first demand that
  they do not meet. -/
  refused_iff : ∀ message,
    outcome.mapError LoadError.message = .error message ↔ FirstUnmet s.demands message
  /-- Settings that are not acceptable do not meet some demand first. -/
  refused : ¬s.Acceptable → ∃ message, FirstUnmet s.demands message

end Settings

/-! ## Verdicts on demands -/

section
variable {F : Type} {demand : Prop} {fault fault' : F} {demands demands' : List (Prop × F)}

theorem firstUnmet_cons : FirstUnmet ((demand, fault) :: demands) fault' ↔
    ¬demand ∧ fault = fault' ∨ demand ∧ FirstUnmet demands fault' := by
  constructor
  · rintro ⟨front, demand', back, heq, hmet, hnot⟩
    cases front with
    | nil =>
      cases heq
      exact .inl ⟨hnot, rfl⟩
    | cons first front =>
      obtain ⟨rfl, rfl⟩ := List.cons.inj heq
      obtain ⟨hfirst, hmet⟩ := List.forall_mem_cons.mp hmet
      exact .inr ⟨hfirst, front, demand', back, rfl, hmet, hnot⟩
  · rintro (⟨hnot, rfl⟩ | ⟨hfirst, front, demand', back, rfl, hmet, hnot⟩)
    · exact ⟨[], demand, demands, rfl, by simp, hnot⟩
    · exact ⟨_ :: front, demand', back, rfl, List.forall_mem_cons.mpr ⟨hfirst, hmet⟩, hnot⟩

theorem not_firstUnmet_nil : ¬FirstUnmet [] fault := by
  rintro ⟨front, demand, back, heq, -⟩
  exact absurd heq (by simp)

/-- A verdict on demands: all are met, or the fault is that of the first one that is not. -/
structure Verdict (verdict : Except F Unit) (demands : List (Prop × F)) : Prop where
  ok_iff : verdict = .ok () ↔ ∀ d ∈ demands, d.1
  error_iff : ∀ fault, verdict = .error fault ↔ FirstUnmet demands fault

theorem verdict_nil : Verdict (.ok () : Except F Unit) [] where
  ok_iff := by simp
  error_iff fault := iff_of_false (by simp) not_firstUnmet_nil

section
variable {verdict : Except F Unit}

/-- A demand that is met does not count. -/
theorem Verdict.met (h : Verdict verdict demands) (hmet : demand) :
    Verdict verdict ((demand, fault) :: demands) where
  ok_iff := by
    rw [h.ok_iff, List.forall_mem_cons]
    exact (and_iff_right hmet).symm
  error_iff fault' := by
    rw [h.error_iff, firstUnmet_cons]
    simp [hmet]

/-- A demand that is not met decides. -/
theorem Verdict.unmet (hnot : ¬demand) :
    Verdict (.error fault : Except F Unit) ((demand, fault) :: demands) where
  ok_iff := iff_of_false (by simp) fun hmet => hnot (hmet _ List.mem_cons_self)
  error_iff fault' := by
    rw [Except.error.injEq, firstUnmet_cons]
    simp [hnot]

/-- The verdict on a demand that is checked in front of others. -/
theorem Verdict.guarded {c : Prop} [Decidable c] (h : Verdict verdict demands)
    (hc : c ↔ ¬demand) :
    Verdict (if c then .error fault else verdict) ((demand, fault) :: demands) := by
  by_cases hdemand : demand
  · rw [if_neg fun hcond => hc.mp hcond hdemand]
    exact h.met hdemand
  · rw [if_pos (hc.mpr hdemand)]
    exact .unmet hdemand

end

end

/-! ## Keys -/

/-- The keys behind others are judged place by place. -/
theorem verdict_keysAfter {seen : List String} {front keys : List AccessKey}
    (hseen : ∀ id, id ∈ seen ↔ ∃ k ∈ front, trim k.id = id) :
    Verdict ((checkKeysAfter seen (keys.map AccessKey.normalize)).mapError Violation.message)
      ((keys.zipIdx front.length).flatMap (AccessKey.demandsAt (front ++ keys))) := by
  induction keys generalizing seen front with
  | nil => exact verdict_nil
  | cons k keys ih =>
    have hnext := @ih (trim k.id :: seen) (front ++ [k]) (by
      intro id
      simp [hseen, or_comm, eq_comm])
    rw [List.length_append, List.length_singleton, List.append_assoc,
      List.singleton_append] at hnext
    have htake : (front ++ k :: keys).take front.length = front := by simp
    rw [List.zipIdx_cons, List.flatMap_cons, AccessKey.demandsAt, htake, List.map_cons,
      checkKeysAfter, apply_ite (Except.mapError Violation.message),
      apply_ite (Except.mapError Violation.message)]
    refine (hnext.guarded ?_).guarded ?_
    · show trim k.id ∈ seen ↔ _
      rw [hseen]
      simp
    · show trim k.id = "" ∨ trim k.token = "" ↔ _
      rw [AccessKey.Complete]
      tauto

/-- The check of keys is the verdict on the demands on them. -/
theorem verdict_keys (keys : List AccessKey) :
    Verdict ((checkKeys (keys.map AccessKey.normalize)).mapError Violation.message)
      (keyDemands keys) := by
  have hplaces := @verdict_keysAfter [] [] keys (by simp)
  rw [checkKeys, apply_ite (Except.mapError Violation.message)]
  refine hplaces.guarded ?_
  rw [List.map_eq_nil_iff, ne_eq, not_not]

/-- The keys that are asked for are complete and have different names. -/
theorem forall_keyDemands_iff {keys : List AccessKey} :
    (∀ d ∈ keyDemands keys, d.1) ↔ keys ≠ [] ∧ (∀ k ∈ keys, k.Complete) ∧
      (keys.map fun k => trim k.id).Nodup := by
  rw [keyDemands, List.forall_mem_cons, List.forall_mem_flatMap, List.Nodup, List.pairwise_map,
    List.pairwise_iff_getElem]
  refine and_congr_right fun _ => ?_
  constructor
  · intro hplaces
    have hat (i : Nat) (hi : i < keys.length) : keys[i].Complete ∧
        ∀ earlier ∈ keys.take i, trim earlier.id ≠ trim keys[i].id := by
      have hplace := hplaces (keys[i], i) (List.mk_mem_zipIdx_iff_getElem?.mpr (by simp [hi]))
      simpa [AccessKey.demandsAt] using hplace
    refine ⟨fun k hk => ?_, fun i j hi hj hij => ?_⟩
    · obtain ⟨i, hi, rfl⟩ := List.getElem_of_mem hk
      exact (hat i hi).1
    · exact (hat j hj).2 keys[i] (List.mem_take_iff_getElem.mpr ⟨i, by omega, rfl⟩)
  · rintro ⟨hcomplete, hnames⟩ ⟨k, i⟩ hplace
    obtain ⟨hi, rfl⟩ := List.getElem?_eq_some_iff.mp (List.mk_mem_zipIdx_iff_getElem?.mp hplace)
    have hearlier : ∀ earlier ∈ keys.take i, trim earlier.id ≠ trim keys[i].id := by
      intro earlier hmem
      obtain ⟨j, hj, rfl⟩ := List.mem_take_iff_getElem.mp hmem
      exact hnames j i (by omega) hi (by omega)
    simpa [AccessKey.demandsAt] using ⟨hcomplete _ (List.getElem_mem hi), hearlier⟩

/-! ## Settings -/

/-- The verdict on who may use the tools. -/
theorem verdict_access (s : Settings) :
    Verdict (s.normalize.access.check.mapError Violation.message) s.access.demands := by
  have hmode : s.normalize.access.mode = lowerAscii (trim s.access.mode) := rfl
  have hkeys : s.normalize.access.keys = s.access.keys.map AccessKey.normalize := rfl
  rw [AccessSettings.check, AccessSettings.demands, hmode, hkeys]
  generalize lowerAscii (trim s.access.mode) = mode
  by_cases hoff : mode = AccessSettings.off
  · subst hoff
    exact verdict_nil.met (.inl rfl)
  by_cases hstatic : mode = AccessSettings.staticKeys
  · subst hstatic
    exact (verdict_keys s.access.keys).met (.inr rfl)
  · have hkeyless : ¬mode = "static_keys" := hstatic
    rw [if_neg hoff, if_neg hstatic, if_neg hkeyless]
    exact .unmet (not_or.mpr ⟨hoff, hstatic⟩)

/-- The mode is known, and the keys are as they should be if they matter. -/
theorem forall_accessDemands_iff {a : AccessSettings} :
    (∀ d ∈ a.demands, d.1) ↔ lowerAscii (trim a.mode) = "off" ∨
      lowerAscii (trim a.mode) = "static_keys" ∧ a.keys ≠ [] ∧ (∀ k ∈ a.keys, k.Complete) ∧
        (a.keys.map fun k => trim k.id).Nodup := by
  rw [AccessSettings.demands, List.forall_mem_cons]
  generalize lowerAscii (trim a.mode) = mode
  by_cases hstatic : mode = "static_keys"
  · subst hstatic
    rw [if_pos rfl, forall_keyDemands_iff]
    simp
  · rw [if_neg hstatic]
    simp [hstatic]

/-! ### The address of the note server -/

theorem hasScheme_iff {base : String} : HasScheme base ↔
    "http://".toList <+: base.toList ∨ "https://".toList <+: base.toList := by
  have hprefix (scheme : String) :
      (∃ rest, base = scheme ++ rest) ↔ scheme.toList <+: base.toList := by
    constructor
    · rintro ⟨rest, rfl⟩
      exact ⟨rest.toList, String.toList_append.symm⟩
    · rintro ⟨rest, hrest⟩
      refine ⟨String.ofList rest, ?_⟩
      rw [← String.toList_inj, String.toList_append, String.toList_ofList, hrest]
  rw [HasScheme, exists_or, hprefix, hprefix]

theorem hasHttpScheme_iff {base : String} : hasHttpScheme base = true ↔ HasScheme base := by
  rw [hasHttpScheme, Bool.or_eq_true, List.isPrefixOf_iff_prefix, List.isPrefixOf_iff_prefix,
    hasScheme_iff]

theorem HasScheme.ne_empty {base : String} (h : HasScheme base) : base ≠ "" := by
  rintro rfl
  rw [hasScheme_iff] at h
  revert h
  decide

section
variable {base : String} (hopens : Opens isBlank base.toList)
include hopens

theorem toList_trim_of_opens : (trim base).toList = stripEnd isBlank base.toList := by
  rw [trim, strip, dropWhile_eq_self_iff.mpr hopens, String.toList_ofList]

theorem trim_eq_empty_of_opens : trim base = "" ↔ base = "" := by
  constructor
  · intro h
    rw [trim_eq_empty_iff, blank, List.all_eq_true] at h
    rw [← String.toList_inj]
    cases hchars : base.toList with
    | nil => rfl
    | cons c cs =>
      rw [hchars] at hopens h
      have hc := hopens c rfl
      rw [h c List.mem_cons_self] at hc
      cases hc
  · rintro rfl
    rfl

/-- The blanks behind an address with a scheme are not those of the scheme. -/
theorem hasScheme_trim_of_opens : HasScheme (trim base) ↔ HasScheme base := by
  have hscheme {scheme : List Char} (hslash : scheme.getLast? = some '/') :
      scheme <+: stripEnd isBlank base.toList ↔ scheme <+: base.toList := by
    have hcloses : Closes isBlank scheme := by
      intro c hc
      rw [hslash] at hc
      obtain rfl := Option.some.inj hc
      decide
    exact ⟨fun h => h.trans (stripEnd_isPrefix _ _), fun h => isPrefix_stripEnd h hcloses⟩
  rw [hasScheme_iff, hasScheme_iff, toList_trim_of_opens hopens, hscheme (by decide),
    hscheme (by decide)]

end

namespace Settings

variable {s : Settings}

/-- The check of the normal form is the verdict on the demands. -/
theorem verdict_check (s : Settings) :
    Verdict (s.normalize.check.mapError Violation.message) s.demands := by
  have hblank (text : String) : blank (trim text) = true ↔ ¬trim text ≠ "" := by
    rw [← trim_eq_empty_iff, trim_trim, not_not]
  have hopens : Opens isBlank s.trimmedBase.toList := s.trimmed_normalize.base_opens
  have hpositive64 (n : UInt64) : n = 0 ↔ ¬0 < n := by
    rw [UInt64.not_lt, UInt64.le_zero_iff]
  have hpositive32 (n : UInt32) : n = 0 ↔ ¬0 < n := by
    rw [UInt32.not_lt, UInt32.le_zero_iff]
  unfold check
  simp only [apply_ite (Except.mapError Violation.message)]
  have haccess := verdict_access s
  refine ((((((haccess.guarded ?limit).guarded ?timeout).guarded ?token).guarded ?scheme).guarded
    ?base).guarded ?bind)
  case bind => exact hblank s.listen.bind
  case base => exact (trim_eq_empty_of_opens hopens).trans not_not.symm
  case scheme =>
    rw [← hasScheme_trim_of_opens hopens, ← hasHttpScheme_iff, Bool.not_eq_true', Bool.not_eq_true]
    rfl
  case token => exact hblank s.noteServer.token
  case timeout =>
    unfold normalize
    exact hpositive64 s.noteServer.timeout
  case limit => exact hpositive32 s.search.maxLimit

/-- Settings that meet all demands are acceptable. -/
theorem forall_demands_iff : (∀ d ∈ s.demands, d.1) ↔ s.Acceptable := by
  rw [demands, List.forall_mem_append, forall_accessDemands_iff]
  simp only [List.forall_mem_cons, List.not_mem_nil, false_implies, implies_true, and_true]
  constructor
  · rintro ⟨⟨hbind, -, hbase, htoken, htimeout, hlimit⟩, haccess⟩
    exact ⟨hbind, hbase, htoken, htimeout, hlimit, haccess⟩
  · rintro ⟨hbind, hbase, htoken, htimeout, hlimit, haccess⟩
    exact ⟨⟨hbind, hbase.ne_empty, hbase, htoken, htimeout, hlimit⟩, haccess⟩

theorem check_eq_ok_iff_acceptable : s.normalize.check = .ok () ↔ s.Acceptable := by
  rw [← forall_demands_iff, ← s.verdict_check.ok_iff]
  cases s.normalize.check <;> simp [Except.mapError]

/-! ## Files -/

/-- Settings in a file are loaded in normal form, unless that does not pass the check. -/
theorem load_of_parse {path text : String} {octets : Option (List UInt8)}
    (htext : octets.bind Utf8.decode? = some text) (hparse : parse? text = some s) :
    load path octets =
      (s.normalize.check.mapError LoadError.violation).map fun _ => s.normalize := by
  rw [load, htext]
  dsimp only
  rw [hparse]
  dsimp only
  cases s.normalize.check <;> rfl

/-- **Which settings are accepted.** Settings in a file are loaded exactly when they are acceptable.
Others are refused, with the message about the first demand that they do not meet. -/
theorem loadsAs_of_parse {path text : String} {octets : Option (List UInt8)}
    (htext : octets.bind Utf8.decode? = some text) (hparse : parse? text = some s) :
    s.LoadsAs (load path octets) := by
  have hverdict := s.verdict_check
  rw [load_of_parse htext hparse]
  refine ⟨?_, fun loaded hloaded => ?_, fun message => ?_, fun hnot => ?_⟩
  · rw [← check_eq_ok_iff_acceptable]
    cases s.normalize.check with
    | error v => exact iff_of_false (by rintro ⟨⟩) (by rintro ⟨⟩)
    | ok u => exact iff_of_true rfl rfl
  · cases hcheck : s.normalize.check with
    | error v =>
      rw [hcheck] at hloaded
      cases hloaded
    | ok u =>
      rw [hcheck] at hloaded
      exact (Except.ok.inj hloaded).symm
  · rw [← hverdict.error_iff]
    cases s.normalize.check with
    | error v =>
      show (Except.error v.message : Except String Settings) = .error message ↔
        (Except.error v.message : Except String Unit) = .error message
      rw [Except.error.injEq, Except.error.injEq]
    | ok u => exact iff_of_false (by rintro ⟨⟩) (by rintro ⟨⟩)
  · cases hcheck : s.normalize.check with
    | error v => exact ⟨v.message, (hverdict.error_iff _).mp (by rw [hcheck]; rfl)⟩
    | ok u => exact absurd (check_eq_ok_iff_acceptable.mp hcheck) hnot

end Settings

/-- Settings with two keys whose names differ in blanks only, in front of one without a token. -/
def ferrySettings : Settings where
  listen := { bind := " 0.0.0.0:1" }
  noteServer := { base := "https://h//", token := "rope" }
  access := { mode := " Static_Keys", keys := [⟨"crew", "a"⟩, ⟨" crew\t", "b"⟩, ⟨"pilot", " "⟩] }

theorem loadsAs_of_parse_ferry :
    (some (Utf8.encode ferrySettings.fileText)).bind Utf8.decode? = some ferrySettings.fileText ∧
      Settings.parse? ferrySettings.fileText = some ferrySettings ∧
      ferrySettings.LoadsAs
        (Settings.load "ferry.toml" (some (Utf8.encode ferrySettings.fileText))) ∧
      (Settings.load "ferry.toml" (some (Utf8.encode ferrySettings.fileText))).mapError
        LoadError.message = .error "security.auth_keys token_id crew is duplicated." := by
  have htext : (some (Utf8.encode ferrySettings.fileText)).bind Utf8.decode? =
      some ferrySettings.fileText := by
    rw [Option.bind_some, Utf8.decode?_encode]
  have hparse := ferrySettings.parse?_fileText
  refine ⟨htext, hparse, Settings.loadsAs_of_parse htext hparse, ?_⟩
  rw [Settings.load_of_parse htext hparse]
  decide +kernel

end NoteTools
