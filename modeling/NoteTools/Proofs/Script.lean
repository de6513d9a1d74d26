import NoteTools.Proofs.Exchange

/-!
# Scripts

What the service does with the note server is a script of stages. A stage is one exchange: its call
is fixed beforehand, and its reply has to be a success and may have to hold something. The stages
are played in order up to the first reply that is not as it has to be.

Main definitions:

* `Stage`: a call, and what may be wrong with a reply to it;
* `play`: the stages played, and the error that has ended the play;
* `Follows`: what following a script does to a session;
* `CarriesOut`, `Plays`: an action that carries out a stage, and one that plays stages.

Results:

* `play_follows`: a play follows its script;
* `play_decides`, `play_fails`: how a play ends;
* `play_serves`, `play_of_gives`: a play is complete when the server gives the right replies;
* `Plays.bind`, `CarriesOut.bind`: actions after one another play their stages after one another.
-/

namespace NoteTools

open Http

/-! ## Stages -/

/-- A stage of a script. -/
structure Stage extends Call where
  /-- What is wrong with a reply that is a success. -/
  reject? : Reply → Option ApiError := fun _ => none

/-- What is wrong with a reply to a stage. -/
def Stage.failure? (stage : Stage) (reply : Reply) : Option ApiError :=
  if reply.isSuccess then stage.reject? reply else some (refusal reply)

/-- A stage that was played, with its exchange. -/
structure Played where
  /-- The stage. -/
  stage : Stage
  /-- What was sent and received. -/
  exchange : Exchange

namespace Played

/-- The request that was sent. -/
def request (x : Played) : Request := x.exchange.request

/-- The reply to it. -/
def reply (x : Played) : Reply := x.exchange.reply

/-- What is wrong with the reply. -/
def failure? (x : Played) : Option ApiError := x.stage.failure? x.reply

end Played

/-- What following a script does to a session, with the stages that were played. -/
structure Follows (c : Client) (script : List Stage) (t t' : Session) (played : List Played) :
    Prop where
  /-- The requests sent are those of the stages played. -/
  requests : t'.requests = t.requests ++ played.map Played.request
  /-- Each of them is the request of its stage. -/
  built : ∀ x ∈ played, x.stage.request? c = some x.request
  /-- The replies are those of the server, in order. -/
  replies : t.server.Gives (played.map Played.reply) t'.server
  /-- The stages played are the first ones of the script. -/
  stages : played.map Played.stage <+: script
  /-- Nothing is sent after a reply that is not as it has to be. -/
  stops : ∀ x ∈ played.dropLast, x.failure? = none

namespace Follows

variable {c : Client} {script script' : List Stage} {t t' : Session} {played : List Played}

theorem mem_script (h : Follows c script t t' played) {x : Played} (hx : x ∈ played) :
    x.stage ∈ script :=
  h.stages.subset (List.mem_map_of_mem hx)

theorem of_prefix (h : Follows c script t t' played) (hscript : script <+: script') :
    Follows c script' t t' played :=
  { h with stages := h.stages.trans hscript }

end Follows

theorem follows_nil (c : Client) (script : List Stage) (t : Session) : Follows c script t t [] where
  requests := (List.append_nil t.requests).symm
  built := by simp
  replies := rfl
  stages := List.nil_prefix
  stops := by simp

/-! ## Playing stages -/

/-- What playing stages comes to: the stages played, the error that has ended the play, and the
server after it. -/
structure Play where
  /-- The stages played. -/
  played : List Played
  /-- The error that has ended the play early. -/
  error? : Option ApiError
  /-- The server after the play. -/
  server : Server

/-- Plays stages up to the first reply that is not as it has to be. -/
def play (c : Client) (server : Server) : List Stage → Play
  | [] => ⟨[], none, server⟩
  | stage :: stages =>
    match stage.exchange c server with
    | .error error => ⟨[], some error, server⟩
    | .ok (x, next) =>
      match stage.failure? x.reply with
      | some error => ⟨[⟨stage, x⟩], some error, next⟩
      | none =>
        let rest := play c next stages
        ⟨⟨stage, x⟩ :: rest.played, rest.error?, rest.server⟩

namespace Play

/-- A value, unless an error has ended the play. -/
def result {α : Type} (p : Play) (x : α) : Except ServiceError α :=
  match p.error? with
  | some error => .error (.ofApi error)
  | none => .ok x

/-- The session after a play that has started in a session. -/
def after (t : Session) (p : Play) : Session :=
  t.after p.server (p.played.map Played.exchange)

end Play

section
variable {c : Client}

theorem play_gives (server : Server) (script : List Stage) :
    server.Gives ((play c server script).played.map Played.reply)
      (play c server script).server := by
  fun_induction play c server script with
  | case1 server => rfl
  | case2 server stage stages error h => rfl
  | case3 server stage stages x next h error herror =>
    exact ⟨next, (Call.exchange_eq_ok h).2, rfl⟩
  | case4 server stage stages x next h hok rest ih =>
    exact ⟨next, (Call.exchange_eq_ok h).2, ih⟩

theorem play_built (server : Server) (script : List Stage) :
    ∀ x ∈ (play c server script).played, x.stage.request? c = some x.request := by
  fun_induction play c server script with
  | case1 server => simp
  | case2 server stage stages error h => simp
  | case3 server stage stages x next h error herror =>
    rintro y hy
    obtain rfl := List.mem_singleton.mp hy
    exact (Call.exchange_eq_ok h).1
  | case4 server stage stages x next h hok rest ih =>
    rw [List.forall_mem_cons]
    exact ⟨(Call.exchange_eq_ok h).1, ih⟩

theorem play_stages (server : Server) (script : List Stage) :
    (play c server script).played.map Played.stage <+: script := by
  fun_induction play c server script with
  | case1 server => exact List.prefix_rfl
  | case2 server stage stages error h => exact List.nil_prefix
  | case3 server stage stages x next h error herror => exact ⟨stages, rfl⟩
  | case4 server stage stages x next h hok rest ih => exact (List.prefix_cons_inj stage).mpr ih

/-- Only the last reply of a play can be other than it has to be. -/
theorem play_stops (server : Server) (script : List Stage) :
    ∀ x ∈ (play c server script).played.dropLast, x.failure? = none := by
  fun_induction play c server script with
  | case1 server => simp
  | case2 server stage stages error h => simp
  | case3 server stage stages x next h error herror => simp
  | case4 server stage stages x next h hok rest ih =>
    intro y hy
    -- This stage is the last one played only when none is played behind it.
    rcases hplayed : rest.played with _ | ⟨second, others⟩
    · rw [hplayed] at hy
      cases hy
    · rw [hplayed] at ih hy
      obtain rfl | hy := List.mem_cons.mp hy
      · exact hok
      · exact ih y hy

/-- A play follows its script. -/
theorem play_follows (t : Session) (script : List Stage) :
    Follows c script t ((play c t.server script).after t) (play c t.server script).played where
  requests := congrArg (t.requests ++ ·) (List.map_map ..)
  built := play_built t.server script
  replies := play_gives t.server script
  stages := play_stages t.server script
  stops := play_stops t.server script

/-- A reply that is not as it has to be ends the play. -/
theorem play_decides (server : Server) (script : List Stage) :
    ∀ x ∈ (play c server script).played.getLast?, ∀ error, x.failure? = some error →
      (play c server script).error? = some error := by
  fun_induction play c server script with
  | case1 server => rintro x ⟨⟩
  | case2 server stage stages error h => rintro x ⟨⟩
  | case3 server stage stages x next h error herror =>
    rintro y ⟨⟩ error' herror'
    exact herror.symm.trans herror'
  | case4 server stage stages x next h hok rest ih =>
    intro y hy error herror
    rcases hplayed : rest.played with _ | ⟨second, others⟩
    · rw [hplayed, List.getLast?_singleton, Option.mem_some_iff] at hy
      subst hy
      cases hok.symm.trans herror
    · rw [hplayed] at ih hy
      exact ih y hy error herror

/-- An error that has ended a play comes of its last reply, or the request to send next cannot be
built, or the server cannot be reached. -/
theorem play_fails (server : Server) (script : List Stage) :
    ∀ error, (play c server script).error? = some error →
      (∃ x ∈ (play c server script).played.getLast?, x.failure? = some error) ∨
        (c.ready? = none ∨ (play c server script).server.answer = none) ∧
          (error = .unbuildable ∨ ∃ url, error = .unreachable url) := by
  fun_induction play c server script with
  | case1 server => rintro error ⟨⟩
  | case2 server stage stages error h =>
    rintro error' ⟨⟩
    exact .inr (Call.exchange_eq_error h)
  | case3 server stage stages x next h error herror =>
    rintro error' ⟨⟩
    exact .inl ⟨_, rfl, herror⟩
  | case4 server stage stages x next h hok rest ih =>
    intro error herror
    obtain ⟨y, hy, hfailure⟩ | hnothing := ih error herror
    · refine .inl ⟨y, ?_, hfailure⟩
      rcases hplayed : rest.played with _ | ⟨second, others⟩
      · rw [hplayed] at hy
        cases hy
      · rw [hplayed] at hy
        exact hy
    · exact .inr hnothing

/-- A play that no error has ended has played all stages. -/
theorem play_complete (server : Server) (script : List Stage)
    (h : (play c server script).error? = none) :
    (play c server script).played.map Played.stage = script ∧
      ∀ x ∈ (play c server script).played, x.failure? = none := by
  fun_induction play c server script with
  | case1 server => simp
  | case2 server stage stages error hexchange => cases h
  | case3 server stage stages x next hexchange error herror => cases h
  | case4 server stage stages x next hexchange hok rest ih =>
    obtain ⟨hstages, hall⟩ := ih h
    refine ⟨congrArg (stage :: ·) hstages, ?_⟩
    rw [List.forall_mem_cons]
    exact ⟨hok, hall⟩

/-- The replies of a complete play are right. -/
theorem play_serves (server : Server) (script : List Stage)
    (h : (play c server script).error? = none) :
    ((play c server script).played.map Played.reply).length = script.length ∧
      ∀ x ∈ script.zip ((play c server script).played.map Played.reply),
        x.1.failure? x.2 = none := by
  obtain ⟨hstages, hok⟩ := play_complete server script h
  generalize (play c server script).played = played at hstages hok ⊢
  subst hstages
  rw [List.length_map, List.length_map, List.zip_map', List.forall_mem_map]
  exact ⟨rfl, hok⟩

/-- The requests of a complete play could be built. -/
theorem ready_of_play {server : Server} {script : List Stage} (hne : script ≠ [])
    (h : (play c server script).error? = none) : c.ready?.isSome := by
  obtain ⟨hstages, -⟩ := play_complete server script h
  have hbuilt := play_built (c := c) server script
  cases hplayed : (play c server script).played with
  | nil =>
    rw [hplayed] at hstages
    exact absurd hstages.symm hne
  | cons x played =>
    have hx := Option.isSome_of_eq_some (hbuilt x (hplayed ▸ List.mem_cons_self))
    rwa [Call.request?, Option.isSome_map] at hx

/-- A server that gives the right replies to all stages lets them all be played. -/
theorem play_of_gives {e : Endpoint} (he : c.ready? = some e) {server after : Server}
    {script : List Stage} {replies : List Reply} (hgives : server.Gives replies after)
    (hlength : replies.length = script.length)
    (hok : ∀ x ∈ script.zip replies, x.1.failure? x.2 = none) :
    (play c server script).error? = none ∧
      (play c server script).played.map Played.reply = replies := by
  induction script generalizing server replies with
  | nil =>
    obtain rfl := List.eq_nil_of_length_eq_zero hlength
    exact ⟨rfl, rfl⟩
  | cons stage script ih =>
    obtain ⟨reply, replies, rfl⟩ := List.exists_cons_of_length_eq_add_one hlength
    obtain ⟨next, hanswer, hnext⟩ := hgives
    rw [List.zip_cons_cons, List.forall_mem_cons] at hok
    obtain ⟨herror, hreplies⟩ := ih hnext (Nat.succ.inj hlength) hok.2
    simp only [play, Call.exchange_of_answer he hanswer, hok.1]
    exact ⟨herror, congrArg (reply :: ·) hreplies⟩

/-- Stages behind a play that an error has ended are not played. -/
theorem play_append_of_error {server : Server} {front back : List Stage} {error : ApiError}
    (h : (play c server front).error? = some error) :
    play c server (front ++ back) = play c server front := by
  induction front generalizing server with
  | nil => cases h
  | cons stage front ih =>
    rw [List.cons_append, play]
    rw [play] at h ⊢
    cases hexchange : stage.exchange c server with
    | error error => rfl
    | ok answer =>
      obtain ⟨x, next⟩ := answer
      simp only [hexchange] at h ⊢
      cases hfailure : stage.failure? x.reply with
      | some error => rfl
      | none =>
        simp only [hfailure] at h ⊢
        rw [ih h]

/-- Stages behind a complete play are played with the server after it. -/
theorem play_append_of_none {server : Server} {front back : List Stage}
    (h : (play c server front).error? = none) :
    play c server (front ++ back) =
      let p := play c server front
      let q := play c p.server back
      ⟨p.played ++ q.played, q.error?, q.server⟩ := by
  induction front generalizing server with
  | nil => rfl
  | cons stage front ih =>
    rw [List.cons_append, play]
    rw [play] at h ⊢
    cases hexchange : stage.exchange c server with
    | error error => simp only [hexchange] at h; cases h
    | ok answer =>
      obtain ⟨x, next⟩ := answer
      simp only [hexchange] at h ⊢
      cases hfailure : stage.failure? x.reply with
      | some error => simp only [hfailure] at h; cases h
      | none =>
        simp only [hfailure] at h ⊢
        rw [ih h]
        rfl

end

/-! ## Actions that carry out a stage -/

/-- An action that carries out one stage: it is the stage's exchange, and it fails where the reply
is not as it has to be. -/
structure CarriesOut (c : Client) (stage : Stage) {α : Type} (a : ServiceAction α)
    (value : Reply → Except ApiError α) : Prop where
  run (t : Session) : Action.run a t =
    match stage.exchange c t.server with
    | .error error => (.error (.ofApi error), t)
    | .ok (x, server) => ((value x.reply).mapError .ofApi, t.after server [x])
  error_iff (reply : Reply) (error : ApiError) :
    value reply = .error error ↔ stage.failure? reply = some error

/-- A stage is carried out by its call when its reply is read as it has to be. -/
theorem carriesOut_call (c : Client) (stage : Stage) (h : IsPlain stage.segments) {α : Type}
    {read : Reply → Action ApiError α} {value : Reply → Except ApiError α}
    (hread : ∀ reply u, Action.run (read reply) u = (value reply, u))
    (hreject : ∀ reply error, value reply = .error error ↔ stage.reject? reply = some error) :
    CarriesOut c stage
      (ServiceAction.call
        (c.send stage.method stage.segments stage.query stage.body >>= read))
      (fun reply => (Client.accept reply).bind value) where
  run t := Client.run_call c stage.toCall h hread t
  error_iff reply error := by
    rw [Client.accept, Stage.failure?]
    cases reply.isSuccess with
    | false => simp [Except.bind]
    | true => exact hreject reply error

/-! ## Actions that play stages -/

/-- An action that plays stages and gives a value, unless an error ends the play. -/
def Plays (c : Client) (script : List Stage) {α : Type} (a : ServiceAction α) (x : α) : Prop :=
  ∀ t, Action.run a t = ((play c t.server script).result x, (play c t.server script).after t)

section
variable {c : Client} {α β : Type}

theorem after_play_nil (t : Session) : (play c t.server []).after t = t := by
  rw [play, Play.after, Session.after, List.map_nil, List.map_nil, List.append_nil]

theorem plays_pure (x : α) : Plays c [] (pure x) x := by
  intro t
  rw [after_play_nil]
  rfl

theorem Play.server_after (t : Session) (p : Play) : (p.after t).server = p.server := rfl

theorem Play.after_append {t : Session} {p q : Play} :
    q.after (p.after t) = Play.after t ⟨p.played ++ q.played, q.error?, q.server⟩ := by
  rw [after, after, Session.after_append, after, List.map_append]

theorem Plays.bind {front back : List Stage} {a : ServiceAction α} {f : α → ServiceAction β}
    {x : α} {y : β} (ha : Plays c front a x) (hf : Plays c back (f x) y) :
    Plays c (front ++ back) (a >>= f) y := by
  intro t
  rw [Action.run_bind, ha t]
  cases h : (play c t.server front).error? with
  | some error =>
    rw [play_append_of_error h, Play.result, Play.result, h]
  | none =>
    rw [play_append_of_none h, Play.result, h]
    dsimp only
    rw [hf, Play.after_append]
    rfl

/-- A stage is carried out with an error, or with the value of its one reply. -/
theorem CarriesOut.cases {stage : Stage} {a : ServiceAction α}
    {value : Reply → Except ApiError α} (h : CarriesOut c stage a value) (t : Session) :
    (∃ error, (play c t.server [stage]).error? = some error ∧
        Action.run a t = (.error (.ofApi error), (play c t.server [stage]).after t)) ∨
      ∃ exchange x, (play c t.server [stage]).error? = none ∧
        (play c t.server [stage]).played = [⟨stage, exchange⟩] ∧ value exchange.reply = .ok x ∧
        Action.run a t = (.ok x, (play c t.server [stage]).after t) := by
  rw [h.run t, play]
  cases hexchange : stage.exchange c t.server with
  | error error =>
    refine .inl ⟨_, rfl, ?_⟩
    simp only [Play.after, Session.after, List.map_nil, List.append_nil]
  | ok answer =>
    obtain ⟨exchange, next⟩ := answer
    dsimp only
    cases hvalue : value exchange.reply with
    | error error =>
      rw [(h.error_iff exchange.reply error).mp hvalue]
      exact .inl ⟨error, rfl, rfl⟩
    | ok x =>
      have hfailure : stage.failure? exchange.reply = none := by
        rw [Option.eq_none_iff_forall_ne_some]
        intro error herror
        rw [(h.error_iff exchange.reply error).mpr herror] at hvalue
        cases hvalue
      rw [hfailure]
      exact .inr ⟨exchange, x, rfl, rfl, hvalue, rfl⟩

theorem CarriesOut.bind {stage : Stage} {stages : List Stage} {a : ServiceAction α}
    {value : Reply → Except ApiError α} {f : α → ServiceAction β} {y : β}
    (h : CarriesOut c stage a value) (hf : ∀ x, Plays c stages (f x) y) :
    Plays c (stage :: stages) (a >>= f) y := by
  intro t
  rw [Action.run_bind, ← List.singleton_append]
  obtain ⟨error, herror, hrun⟩ | ⟨exchange, x, hnone, -, -, hrun⟩ := h.cases t
  · rw [hrun, play_append_of_error herror, Play.result, herror]
  · rw [hrun, play_append_of_none hnone]
    dsimp only
    rw [hf, Play.after_append]
    rfl

end

end NoteTools
