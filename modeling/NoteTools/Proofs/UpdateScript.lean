import NoteTools.Proofs.JsonText
import NoteTools.Proofs.UpdatePlay

/-!
# The script of a change

Whatever is asked and whatever the server replies, a change to a note follows its script: nothing is
sent that the script does not have, nothing is sent after a reply that is not as it has to be, and
what comes of the change is what the replies say.

Main definitions:

* `UpdateRun`: what a change does to a session.

Results:

* `script_cases`: the stages that a script can have;
* `served_iff`: when a script is played to its end;
* `update_follows_script`: every change is an `UpdateRun`.
-/

namespace NoteTools

open Http

/-! ## Specification -/

/-- What a change does to a session, with the stages that were played. -/
structure UpdateRun (c : Client) (r : UpdateRequest) (t : Session)
    (outcome : Except ServiceError UpdateResponse) (t' : Session) (played : List Played) : Prop
    extends Follows c r.script t t' played where
  /-- The body of the patch has the given fields and no others. -/
  patched : ∀ x ∈ played, x.request.method = .patch →
    Json.parse x.request.body = .ok (.obj (Json.textMember? "title" (r.title.map Text.trim) ++
      Json.textMember? "type" (r.kind.map Text.trim) ++
      Json.textMember? "mime" (givenMime? r.mime)))
  /-- The body of the replacement is the content. -/
  replaced : ∀ x ∈ played, x.request.method = .put → r.content = some x.request.body
  /-- A reply that is not as it has to be decides the error. -/
  decides : ∀ x ∈ played.getLast?, ∀ error, x.failure? = some error →
    outcome = .error (.ofApi error)
  /-- An error comes of such a reply, or of the request, or no reply can be had: the request to send
  cannot be built, or the server cannot be reached. -/
  fails : ∀ error, outcome = .error error →
    (∃ x ∈ played.getLast?, ∃ e, x.failure? = some e ∧ error = .ofApi e) ∨
      (∃ fault, error = .invalidRequest fault) ∨
      (c.ready? = none ∨ t'.server.answer = none) ∧
        (error = .serverFailure .unbuildable ∨ ∃ url, error = .serverFailure (.unreachable url))
  /-- A request at fault changes nothing. -/
  harmless : ∀ fault, outcome = .error (.invalidRequest fault) →
    ∀ x ∈ played, x.request.method = .get
  /-- A change succeeds exactly when the request is acceptable, the client can send its requests,
  the server gives the right replies to all of them, and the new type passes its check. -/
  succeeds : (∃ response, outcome = .ok response) ↔ r.Acceptable ∧ c.ready?.isSome ∧
    ∃ replies server, t.server.Gives replies server ∧ replies.length = r.script.length ∧
      (∀ x ∈ r.script.zip replies, x.1.failure? x.2 = none) ∧
      r.typeCheck (replies.head?.bind mimeOf) = .ok ()
  /-- Then all of the script has been played, and the answer reports it. -/
  reports : ∀ response, outcome = .ok response →
    played.map Played.stage = r.script ∧ response = r.response

/-! ## Stages of the script -/

/-- The text of a patch is read back. -/
theorem parse_patch (p : NotePatch) : Json.parse p.toJson.text = .ok p.toJson := by
  have hmember (key : String) (text : Option String) := Json.exactMembers_textMember? key text
  apply Json.parse_text
  exact Json.exactMembers_append (Json.exactMembers_append (hmember _ _) (hmember _ _))
    (hmember _ _)

section
variable {r : UpdateRequest} {stage : Stage}

theorem eq_fetch_of_mem_inquiry (h : stage ∈ r.inquiry) : stage = .fetch r.trimmedId := by
  unfold UpdateRequest.inquiry at h
  split at h
  · exact List.mem_singleton.mp h
  · cases h

/-- The stages that a script can have. -/
theorem script_cases (h : stage ∈ r.script) :
    stage = .fetch r.trimmedId ∨ stage = .patch r.trimmedId r.fields ∨
      stage = .revision r.trimmedId ∨
      ∃ text, r.content = some text ∧ stage = .content r.trimmedId text := by
  rw [UpdateRequest.script, UpdateRequest.changes, List.mem_append, List.mem_append,
    List.mem_append] at h
  obtain h | (h | h) | h := h
  · exact .inl (eq_fetch_of_mem_inquiry h)
  · split at h
    · exact .inr (.inl (List.mem_singleton.mp h))
    · cases h
  · split at h
    · exact .inr (.inr (.inl (List.mem_singleton.mp h)))
    · cases h
  · obtain ⟨text, htext, rfl⟩ := List.mem_map.mp h
    exact .inr (.inr (.inr ⟨text, Option.mem_toList.mp htext, rfl⟩))

/-- The script of an acceptable request is not empty. -/
theorem script_ne_nil (h : r.Acceptable) : r.script ≠ [] := by
  rw [UpdateRequest.script, UpdateRequest.changes]
  cases hcontent : r.content with
  | some text => simp
  | none =>
    have hgiven : r.title.isSome ∨ r.kind.isSome ∨ r.fields.mime.isSome := by
      simpa only [hcontent, Option.isSome_none, Bool.false_eq_true, or_false] using h.given
    simp [hgiven]

/-- A success is rejected only because it holds no note. -/
theorem undecodable_of_reject? (h : stage ∈ r.script) {reply : Reply} {error : ApiError}
    (herror : stage.reject? reply = some error) : ∃ e, error = .undecodable e := by
  have hnote : noteFault? reply = some error → ∃ e, error = .undecodable e := by
    unfold noteFault?
    split
    · rintro ⟨⟩
    · rintro ⟨⟩
      exact ⟨_, rfl⟩
  obtain rfl | rfl | rfl | ⟨text, -, rfl⟩ := script_cases h
  · exact hnote herror
  · exact hnote herror
  · cases herror
  · cases herror

variable {c : Client} {t t' : Session} {played : List Played}

/-- A patch has the given fields. -/
theorem parse_body_of_patch (h : Follows c r.script t t' played) :
    ∀ x ∈ played, x.request.method = .patch →
      Json.parse x.request.body = .ok r.fields.toJson := by
  intro x hx hmethod
  obtain ⟨hstage, hbody⟩ := Call.method_body_of_request? (h.built x hx)
  rw [hstage] at hmethod
  rw [hbody]
  obtain hcase | hcase | hcase | ⟨text, -, hcase⟩ := script_cases (h.mem_script hx)
  · rw [hcase] at hmethod
    cases hmethod
  · rw [hcase]
    exact parse_patch r.fields
  · rw [hcase] at hmethod
    cases hmethod
  · rw [hcase] at hmethod
    cases hmethod

/-- A replacement has the content. -/
theorem body_of_put (h : Follows c r.script t t' played) :
    ∀ x ∈ played, x.request.method = .put → r.content = some x.request.body := by
  intro x hx hmethod
  obtain ⟨hstage, hbody⟩ := Call.method_body_of_request? (h.built x hx)
  rw [hstage] at hmethod
  rw [hbody]
  obtain hcase | hcase | hcase | ⟨text, hcontent, hcase⟩ := script_cases (h.mem_script hx)
  · rw [hcase] at hmethod
    cases hmethod
  · rw [hcase] at hmethod
    cases hmethod
  · rw [hcase] at hmethod
    cases hmethod
  · rw [hcase]
    exact hcontent

end

/-! ## Errors -/

/-- A call that has failed is no fault of the request, unless it was made with a text that is no
id. -/
theorem ofApi_ne_invalidRequest {error : ApiError} (h : ∀ text, error ≠ .badNoteId text)
    (fault : RequestFault) : ServiceError.ofApi error ≠ .invalidRequest fault := by
  unfold ServiceError.ofApi
  split
  · exact absurd rfl (h _)
  · rintro ⟨⟩
  · rintro ⟨⟩

theorem ne_badNoteId_of_failure? {r : UpdateRequest} {stage : Stage} (hstage : stage ∈ r.script)
    {reply : Reply} {error : ApiError} (h : stage.failure? reply = some error) (text : String) :
    error ≠ .badNoteId text := by
  unfold Stage.failure? at h
  split at h
  · obtain ⟨e, rfl⟩ := undecodable_of_reject? hstage h
    rintro ⟨⟩
  · obtain ⟨code, message, hrefusal⟩ := refusal_eq_refused reply
    rw [hrefusal] at h
    cases h
    rintro ⟨⟩

theorem ne_badNoteId_of_play {c : Client} {r : UpdateRequest} {t : Session} {error : ApiError}
    (h : (play c t.server r.script).error? = some error) (text : String) :
    error ≠ .badNoteId text := by
  obtain ⟨x, hx, hfailure⟩ | ⟨-, rfl | ⟨url, rfl⟩⟩ := play_fails t.server r.script error h
  · have hstage := (play_follows t r.script).mem_script (List.mem_of_getLast? hx)
    exact ne_badNoteId_of_failure? hstage hfailure text
  · rintro ⟨⟩
  · rintro ⟨⟩

/-! ## When the script is played to its end -/

/-- Without an inquiry, the check of the type needs no fetched note. -/
theorem typeCheck_of_inquiry_eq_nil {r : UpdateRequest} (h : r.inquiry = [])
    (fetched fetched' : Option String) : r.typeCheck fetched = r.typeCheck fetched' := by
  unfold UpdateRequest.typeCheck
  cases hkind : r.fields.kind with
  | none => rfl
  | some kind =>
    cases hmime : r.fields.mime with
    | some mime => rfl
    | none =>
      have hgiven : r.kind.isSome := by
        rw [← Option.isSome_map (f := Text.trim)]
        exact Option.isSome_of_eq_some hkind
      rw [UpdateRequest.inquiry, if_pos ⟨hgiven, hmime⟩] at h
      cases h

section
variable {c : Client} {r : UpdateRequest}

/-- The check of the type uses the first reply of a play that starts with the inquiry. -/
theorem typeCheck_play {server : Server} {back : List Stage}
    (h : (play c server (r.inquiry ++ back)).error? = none) :
    r.typeCheck (((play c server (r.inquiry ++ back)).played.map Played.reply).head?.bind mimeOf) =
      r.typeCheck (play c server r.inquiry).fetchedMime := by
  by_cases hinquiry : r.inquiry = []
  · exact typeCheck_of_inquiry_eq_nil hinquiry _ _
  · cases herror : (play c server r.inquiry).error? with
    | some error =>
      rw [play_append_of_error herror, herror] at h
      cases h
    | none =>
      have hstages := (play_complete server r.inquiry herror).1
      rw [play_append_of_none herror, Play.fetchedMime]
      dsimp only
      cases hplayed : (play c server r.inquiry).played with
      | nil =>
        rw [hplayed] at hstages
        exact absurd hstages.symm hinquiry
      | cons x played => rfl

/-- The script is played to its end exactly when the client can send its requests and the server
gives the right replies. -/
theorem served_iff (h : r.Acceptable) (server : Server) :
    (c.ready?.isSome ∧ ∃ replies after, server.Gives replies after ∧
        replies.length = r.script.length ∧
        (∀ x ∈ r.script.zip replies, x.1.failure? x.2 = none) ∧
        r.typeCheck (replies.head?.bind mimeOf) = .ok ()) ↔
      (play c server r.script).error? = none ∧
        r.typeCheck (play c server r.inquiry).fetchedMime = .ok () := by
  constructor
  · rintro ⟨hready, replies, after, hgives, hlength, hok, htype⟩
    obtain ⟨e, he⟩ := Option.isSome_iff_exists.mp hready
    obtain ⟨hnone, hreplies⟩ := play_of_gives he hgives hlength hok
    refine ⟨hnone, ?_⟩
    rw [UpdateRequest.script] at hnone hreplies
    rw [← typeCheck_play hnone, hreplies]
    exact htype
  · rintro ⟨hnone, htype⟩
    obtain ⟨hlength, hok⟩ := play_serves server r.script hnone
    exact ⟨ready_of_play (script_ne_nil h) hnone, _, _, play_gives server r.script, hlength, hok,
      (typeCheck_play hnone).trans htype⟩

end

/-! ## Every change follows its script -/

section
variable {s : Service} {r : UpdateRequest}

/-- A request at fault sends nothing. -/
theorem updateRun_of_not_acceptable (h : ¬r.Acceptable) (t : Session) (fault : RequestFault) :
    UpdateRun s.client r t (.error (.invalidRequest fault)) t [] where
  toFollows := follows_nil s.client r.script t
  patched := by simp
  replaced := by simp
  decides := by simp
  fails := by
    rintro error ⟨⟩
    exact .inr (.inl ⟨fault, rfl⟩)
  harmless := by simp
  succeeds := by
    constructor
    · rintro ⟨response, ⟨⟩⟩
    · rintro ⟨hacceptable, -⟩
      exact absurd hacceptable h
  reports := by rintro response ⟨⟩

/-- A request whose new type fails the check has sent the inquiry at most. -/
theorem updateRun_of_typeCheck {t : Session} {fault : RequestFault}
    (hnone : (play s.client t.server r.inquiry).error? = none)
    (htype : r.typeCheck (play s.client t.server r.inquiry).fetchedMime =
      .error (.invalidRequest fault)) :
    UpdateRun s.client r t (.error (.invalidRequest fault))
      ((play s.client t.server r.inquiry).after t) (play s.client t.server r.inquiry).played := by
  have hinquiry : Follows s.client r.inquiry t _ _ := play_follows t r.inquiry
  have hfollows := hinquiry.of_prefix (List.prefix_append r.inquiry r.changes)
  exact {
    toFollows := hfollows
    patched := parse_body_of_patch hfollows
    replaced := body_of_put hfollows
    decides := by
      intro x hx error herror
      have hplay := play_decides t.server r.inquiry x hx error herror
      rw [hnone] at hplay
      cases hplay
    fails := by
      rintro error ⟨⟩
      exact .inr (.inl ⟨fault, rfl⟩)
    harmless := by
      intro _ _ x hx
      rw [(Call.method_body_of_request? (hfollows.built x hx)).1,
        eq_fetch_of_mem_inquiry (hinquiry.mem_script hx)]
      rfl
    succeeds := by
      constructor
      · rintro ⟨response, ⟨⟩⟩
      · rintro ⟨hacceptable, hserved⟩
        have hok := ((served_iff hacceptable t.server).mp hserved).2
        rw [htype] at hok
        cases hok
    reports := by rintro response ⟨⟩ }

/-- A change whose script an error has ended fails with that error. -/
theorem updateRun_of_error {t : Session} {error : ApiError}
    (herror : (play s.client t.server r.script).error? = some error) :
    UpdateRun s.client r t (.error (.ofApi error))
      ((play s.client t.server r.script).after t) (play s.client t.server r.script).played := by
  have hfollows : Follows s.client r.script t _ _ := play_follows t r.script
  exact {
    toFollows := hfollows
    patched := parse_body_of_patch hfollows
    replaced := body_of_put hfollows
    decides := by
      intro x hx error' herror'
      have hplay := play_decides t.server r.script x hx error' herror'
      rw [herror] at hplay
      cases hplay
      rfl
    fails := by
      rintro _ ⟨⟩
      obtain ⟨x, hx, hfailure⟩ | ⟨hcause, rfl | ⟨url, rfl⟩⟩ :=
        play_fails t.server r.script error herror
      · exact .inl ⟨x, hx, error, hfailure, rfl⟩
      · exact .inr (.inr ⟨hcause, .inl rfl⟩)
      · exact .inr (.inr ⟨hcause, .inr ⟨url, rfl⟩⟩)
    harmless := by
      intro fault hfault
      exact absurd (Except.error.inj hfault)
        (ofApi_ne_invalidRequest (ne_badNoteId_of_play herror) fault)
    succeeds := by
      constructor
      · rintro ⟨response, ⟨⟩⟩
      · rintro ⟨hacceptable, hserved⟩
        have hnone := ((served_iff hacceptable t.server).mp hserved).1
        rw [herror] at hnone
        cases hnone
    reports := by rintro response ⟨⟩ }

/-- A change whose script is played to its end succeeds. -/
theorem updateRun_of_play {t : Session} (h : r.Acceptable)
    (hnone : (play s.client t.server r.script).error? = none)
    (htype : r.typeCheck (play s.client t.server r.inquiry).fetchedMime = .ok ()) (event : Event) :
    UpdateRun s.client r t (.ok r.response)
      { (play s.client t.server r.script).after t with events := t.events ++ [event] }
      (play s.client t.server r.script).played := by
  have hfollows : Follows s.client r.script t _ _ := play_follows t r.script
  exact {
    requests := hfollows.requests
    built := hfollows.built
    replies := hfollows.replies
    stages := hfollows.stages
    stops := hfollows.stops
    patched := parse_body_of_patch hfollows
    replaced := body_of_put hfollows
    decides := by
      intro x hx error herror
      have hplay := play_decides t.server r.script x hx error herror
      rw [hnone] at hplay
      cases hplay
    fails := by rintro error ⟨⟩
    harmless := by rintro fault ⟨⟩
    succeeds := by
      refine ⟨fun _ => ⟨h, ?_⟩, fun _ => ⟨r.response, rfl⟩⟩
      exact (served_iff h t.server).mpr ⟨hnone, htype⟩
    reports := by
      rintro response ⟨⟩
      exact ⟨(play_complete t.server r.script hnone).1, rfl⟩ }

end

/-- **Every change follows its script.** The requests are the first ones of the script, for the
trimmed id; they stop at the first reply that is not as it has to be, and that reply decides the
error. A request at fault changes nothing. The body of the patch has the given fields and no others,
and that of the replacement is the content. -/
theorem update_follows_script (s : Service) (r : UpdateRequest) (t : Session) :
    ∃ played, UpdateRun s.client r t (Action.run (s.update r) t).1 (Action.run (s.update r) t).2
      played := by
  by_cases h : r.Acceptable
  · obtain ⟨fault, hnone, htype, hrun⟩ | ⟨error, herror, hrun⟩ | ⟨event, hnone, htype, hrun⟩ :=
      run_update_of_acceptable s h t
    · rw [hrun]
      exact ⟨_, updateRun_of_typeCheck hnone htype⟩
    · rw [hrun]
      exact ⟨_, updateRun_of_error herror⟩
    · rw [hrun]
      exact ⟨_, updateRun_of_play h hnone htype event⟩
  · obtain ⟨fault, hrun⟩ := run_update_of_not_acceptable s h t
    rw [hrun]
    exact ⟨_, updateRun_of_not_acceptable h t fault⟩

/-- A service whose server is at a local address. -/
def deskService : Service :=
  ⟨⟨"http://desk:8080/etapi/", "etapi-token"⟩, 200, false⟩

/-- A change of the type and the content of a note; the type of content is that of the note. -/
def deskUpdate : UpdateRequest where
  noteId := " n1 "
  kind := some "code"
  content := some "print(\"hi\")"

/-- A server that has the note, takes the patch, and cannot save a revision. -/
def deskServer : Server :=
  ⟨[⟨200, none, Text.Utf8.encode "\x7b\"mime\":\"text/x-lua\"\x7d"⟩,
    ⟨200, none, Text.Utf8.encode "\x7b\x7d"⟩, ⟨404, none, []⟩], none⟩

theorem update_follows_script_desk :
    deskUpdate.script.map (fun stage => stage.method) = [.get, .patch, .post, .put] ∧
      ((Action.run (deskService.update deskUpdate) (.start deskServer)).1 matches
        .error (.notFound _)) ∧
      (Action.run (deskService.update deskUpdate) (.start deskServer)).2.requests.map
        Request.target = ["/etapi/notes/n1", "/etapi/notes/n1", "/etapi/notes/n1/revision"] ∧
      ∃ played, UpdateRun deskService.client deskUpdate (.start deskServer)
        (Action.run (deskService.update deskUpdate) (.start deskServer)).1
        (Action.run (deskService.update deskUpdate) (.start deskServer)).2 played :=
  ⟨by decide +kernel, by decide +kernel, by decide +kernel,
    update_follows_script deskService deskUpdate (.start deskServer)⟩

end NoteTools
