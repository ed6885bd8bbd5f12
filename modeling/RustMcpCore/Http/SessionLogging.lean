import RustMcpCore.Library.Runs
import RustMcpCore.Plugins.Logging

/-! # Sessions and their log messages

Every session of the server is served by a clone of one engine, and the calls of its
plugins get contexts with a clone of what the engine holds. The requests of the sessions
and the messages of their calls come in any order.
-/
namespace RustMcpCore.Logging
open Library

structure Server where
  cells : Cells
  engine : Engine
  sessions : Session → Option Engine
  calls : ℕ → Option PluginContext

inductive Label
  | connect (session : Session)
  | setLevel (session : Session) (isCancelled : Bool) (level : LoggingLevel)
  /-- A session calls a plugin. -/
  | call (session : Session) (c : ℕ)
  /-- The plugin of a call logs, and the peer answers like this if it is told. -/
  | logEvent (c : ℕ) (params : LogEventParams) (sent : Except String Unit)

inductive Output
  | silent
  | answered (result : Except McpError Unit)
  | logged (session : Option Session) (result : Except McpError LogResult)
      (notification : Option LoggingMessageNotificationParam)

abbrev Event := Label × Output

def next (s : Server) : Label → Option (Server × Output)
  | .connect session =>
    match s.sessions session with
    | some _ => none
    | none =>
      let handler := engineHandlerFactory s.engine
      some ({ s with sessions := Function.update s.sessions session (some handler) }, .silent)
  | .setLevel session isCancelled level =>
    (s.sessions session).map fun handler =>
      let answer := handler.handleSetLevelRequest isCancelled level s.cells
      ({ s with cells := answer.2 }, .answered answer.1)
  | .call session c =>
    match s.sessions session, s.calls c with
    | some handler, none =>
      let ctx := handler.buildPluginContext (some session)
      some ({ s with calls := Function.update s.calls c (some ctx) }, .silent)
    | _, _ => none
  | .logEvent c params sent =>
    (s.calls c).map fun ctx =>
      let message := ctx.logEvent s.cells params sent
      (s, .logged ctx.request message.1 message.2)

variable (clientLogging : Option ClientLoggingConfig)

/-- The engine's threshold is in the first cell. -/
def Server.init : Server :=
  let (engine, cells) := Engine.new clientLogging (fun _ => 0) 0
  { cells, engine, sessions := fun _ => none, calls := fun _ => none }

def machine : Machine Server Label Output := ⟨.init clientLogging, next⟩

/-- What the plugin of a call of the session and its client get. -/
def Output.heard (i : Session) :
    Output → Option (Except McpError LogResult × Option LoggingMessageNotificationParam)
  | .logged session result notification =>
    if session = some i then some (result, notification) else none
  | _ => none

/-- What comes of the messages of a session's calls, one after another. -/
def heard (i : Session) (es : List Event) :
    List (Except McpError LogResult × Option LoggingMessageNotificationParam) :=
  es.filterMap fun e => e.2.heard i

/-- The level last set by one of the sessions, or else the one given. -/
def levelAfter (sessions : Session → Bool) (level : LoggingLevel) (labels : List Label) :
    LoggingLevel :=
  labels.foldl (fun level label =>
    match label with
    | .setLevel session false set => if sessions session then set else level
    | _ => level) level

/-- Everything but the settings of other sessions. -/
def keeps (i : Session) : Label → Bool
  | .setLevel session _ _ => session = i
  | _ => true

def initialLevel : LoggingLevel := (clientLogging.map (·.level)).getD .info

/-- A message of the session, if it may be sent, reaches the level that any session has last set
exactly if it reaches the one that the session itself has last set. -/
def Unaffected (i : Session) (past : List Event) (e : Event) : Prop :=
  ∀ c params sent result notification,
    e = (.logEvent c params sent, .logged (some i) result notification) →
    clientLogging.isSome = true → .client ∈ params.channels →
    (loggingLevelRank (levelAfter (fun _ => true) (initialLevel clientLogging)
        (past.map Prod.fst)) ≤ loggingLevelRank params.level ↔
      loggingLevelRank (levelAfter (· = i) (initialLevel clientLogging)
        (past.map Prod.fst)) ≤ loggingLevelRank params.level)

/-! ## One threshold for all -/

variable {clientLogging}
variable {s t : Server} {e : Event} {es : List Event}

/-- All sessions and calls have the state of the engine, and its level is the one last set. -/
structure Shared (clientLogging : Option ClientLoggingConfig) (es : List Event) (s : Server) :
    Prop where
  engine : s.engine.clientLogging = ⟨clientLogging.isSome, 0⟩
  sessions : ∀ session handler, s.sessions session = some handler →
    handler.clientLogging = ⟨clientLogging.isSome, 0⟩
  calls : ∀ c ctx, s.calls c = some ctx → ctx.clientLogging = ⟨clientLogging.isSome, 0⟩ ∧
    ∃ session, ctx.request = some session
  level : clientLogging.isSome = true → u8ToLoggingLevel (s.cells 0) =
    levelAfter (fun _ => true) (initialLevel clientLogging) (es.map Prod.fst)

theorem init_shared : Shared clientLogging [] (machine clientLogging).init where
  engine := rfl
  sessions _ _ h := by cases h
  calls _ _ h := by cases h
  level _ := u8ToLoggingLevel_rank _

theorem levelAfter_append {sessions : Session → Bool} {level : LoggingLevel} {labels : List Label}
    {label : Label} (h : ∀ session set, label ≠ .setLevel session false set) :
    levelAfter sessions level (labels ++ [label]) = levelAfter sessions level labels := by
  rw [levelAfter, List.foldl_append, levelAfter]
  cases label with
  | setLevel session isCancelled set =>
    cases isCancelled with
    | false => exact absurd rfl (h session set)
    | true => rfl
  | _ => rfl

theorem levelAfter_set {sessions : Session → Bool} {level set : LoggingLevel}
    {labels : List Label} {session : Session} (h : sessions session = true) :
    levelAfter sessions level (labels ++ [.setLevel session false set]) = set := by
  rw [levelAfter, List.foldl_append]
  exact if_pos h

theorem levelAfter_keeps (i : Session) (level : LoggingLevel) (labels : List Label) :
    levelAfter (fun _ => true) level (labels.filter (keeps i)) =
      levelAfter (· = i) level labels := by
  induction labels generalizing level with
  | nil => rfl
  | cons label labels ih =>
    cases label with
    | setLevel session isCancelled set =>
      by_cases hi : session = i
      · have hkeeps : keeps i (.setLevel session isCancelled set) = true := by simp [keeps, hi]
        rw [List.filter_cons_of_pos hkeeps]
        cases isCancelled with
        | false =>
          have hstep : levelAfter (· = i) level (.setLevel session false set :: labels) =
              levelAfter (· = i) set labels := by simp [levelAfter, hi]
          rw [hstep]
          exact ih set
        | true => exact ih level
      · have hkeeps : ¬ keeps i (.setLevel session isCancelled set) = true := by simp [keeps, hi]
        rw [List.filter_cons_of_neg hkeeps, ih level]
        cases isCancelled with
        | false => simp [levelAfter, hi]
        | true => rfl
    | _ => exact ih level

/-- Only a setting changes the level, and no step changes who points to it. -/
theorem step_shared (es : List Event) (s : Server) (e : Event) (t : Server)
    (hs : Shared clientLogging es s) (he : (machine clientLogging).Step s e t) :
    Shared clientLogging (es ++ [e]) t := by
  obtain ⟨l, o⟩ := e
  change next s l = some (t, o) at he
  have hlevel : (∀ session set, l ≠ .setLevel session false set) → t.cells = s.cells →
      clientLogging.isSome = true → u8ToLoggingLevel (t.cells 0) =
        levelAfter (fun _ => true) (initialLevel clientLogging)
          ((es ++ [(l, o)]).map Prod.fst) := by
    intro hl hcells hactive
    rw [List.map_append, List.map_singleton, levelAfter_append hl, hcells]
    exact hs.level hactive
  cases l with
  | connect session =>
    simp only [next] at he
    split at he
    · cases he
    · cases he
      refine ⟨hs.engine, fun other handler h => ?_, hs.calls, hlevel (by simp) rfl⟩
      change Function.update s.sessions session (some (engineHandlerFactory s.engine)) other =
        some handler at h
      by_cases hother : other = session
      · rw [hother, Function.update_self] at h
        cases h
        exact hs.engine
      · rw [Function.update_of_ne hother] at h
        exact hs.sessions other handler h
  | setLevel session isCancelled level =>
    obtain ⟨handler, hhandler, heq⟩ := Option.map_eq_some_iff.mp he
    have hstate := hs.sessions session handler hhandler
    cases heq
    refine ⟨hs.engine, hs.sessions, hs.calls, ?_⟩
    cases isCancelled with
    | true => exact hlevel (by simp) rfl
    | false =>
      intro hactive
      have henabled : handler.clientLogging.enabled = true := by rw [hstate, hactive]
      have hread := ClientLoggingState.loadMinLevel_setMinLevel handler.clientLogging s.cells level
      rw [List.map_append, List.map_singleton, levelAfter_set rfl]
      simpa only [Engine.handleSetLevelRequest_of_enabled henabled,
        ClientLoggingState.loadMinLevel, hstate] using hread
  | call session c =>
    simp only [next] at he
    split at he
    · rename_i handler hhandler _
      cases he
      refine ⟨hs.engine, hs.sessions, fun other ctx h => ?_, hlevel (by simp) rfl⟩
      change Function.update s.calls c (some (handler.buildPluginContext (some session))) other =
        some ctx at h
      by_cases hother : other = c
      · rw [hother, Function.update_self] at h
        cases h
        exact ⟨hs.sessions session handler hhandler, session, rfl⟩
      · rw [Function.update_of_ne hother] at h
        exact hs.calls other ctx h
    · cases he
  | logEvent c params sent =>
    obtain ⟨ctx, hctx, heq⟩ := Option.map_eq_some_iff.mp he
    cases heq
    exact ⟨hs.engine, hs.sessions, hs.calls, hlevel (by simp) rfl⟩

theorem shared_of_runs
    (hr : Runs (machine clientLogging).Step (machine clientLogging).init es s) :
    Shared clientLogging es s :=
  hr.history (Shared clientLogging) step_shared init_shared

theorem Shared.shouldNotify (hs : Shared clientLogging es s) {c : ℕ} {ctx : PluginContext}
    (hctx : s.calls c = some ctx) (level : LoggingLevel) :
    ctx.clientLogging.shouldNotify s.cells level = (clientLogging.isSome &&
      decide (loggingLevelRank (levelAfter (fun _ => true) (initialLevel clientLogging)
        (es.map Prod.fst)) ≤ loggingLevelRank level)) := by
  rw [ClientLoggingState.shouldNotify, ClientLoggingState.loadMinLevel, (hs.calls c ctx hctx).1]
  cases hactive : clientLogging.isSome with
  | false => rfl
  | true => rw [hs.level hactive]

/-! ## The run without the other sessions' settings -/

/-- Two servers with the same sessions and calls, whatever their thresholds. -/
structure Agree (s t : Server) : Prop where
  engine : t.engine = s.engine
  sessions : t.sessions = s.sessions
  calls : t.calls = s.calls

theorem agree_of_not_keeps {i : Session} {l : Label} {o : Output} (hl : keeps i l = false)
    (he : next s l = some (t, o)) : Agree t s ∧ o.heard i = none := by
  cases l with
  | setLevel session isCancelled level =>
    obtain ⟨handler, _, heq⟩ := Option.map_eq_some_iff.mp he
    cases heq
    exact ⟨⟨rfl, rfl, rfl⟩, rfl⟩
  | _ => cases hl

/-- What is enabled does not depend on the thresholds, nor whose call a message is of. -/
theorem step_agree {s' : Server} {l : Label} {o : Output} (hs : Agree s s')
    (he : next s l = some (t, o)) : ∃ t' o', next s' l = some (t', o') ∧ Agree t t' ∧
      ∀ i, (o'.heard i).isSome = (o.heard i).isSome := by
  cases l with
  | connect session =>
    simp only [next] at he ⊢
    rw [hs.sessions, hs.engine]
    split at he
    · cases he
    · cases he
      exact ⟨_, _, rfl, ⟨rfl, rfl, hs.calls⟩, fun _ => rfl⟩
  | setLevel session isCancelled level =>
    obtain ⟨handler, hhandler, heq⟩ := Option.map_eq_some_iff.mp he
    cases heq
    simp only [next, hs.sessions, hhandler, Option.map_some]
    exact ⟨_, _, rfl, ⟨hs.engine, rfl, hs.calls⟩, fun _ => rfl⟩
  | call session c =>
    simp only [next] at he ⊢
    rw [hs.sessions, hs.calls]
    split at he
    · cases he
      exact ⟨_, _, rfl, ⟨hs.engine, rfl, rfl⟩, fun _ => rfl⟩
    · cases he
  | logEvent c params sent =>
    obtain ⟨ctx, hctx, heq⟩ := Option.map_eq_some_iff.mp he
    cases heq
    simp only [next, hs.calls, hctx, Option.map_some]
    refine ⟨_, _, rfl, hs, fun i => ?_⟩
    by_cases hi : ctx.request = some i
    · simp [Output.heard, hi]
    · simp [Output.heard, hi]

theorem unaffected_of_heard_eq_none {i : Session} {l : Label} {o : Output}
    (ho : o.heard i = none) : Unaffected clientLogging i es (l, o) := by
  intro c params sent result notification heq
  obtain ⟨-, rfl⟩ := Prod.mk.inj heq
  simp [Output.heard] at ho

theorem logEvent_of_heard {i : Session} {l : Label} {o : Output} (he : next s l = some (t, o))
    (ho : o.heard i ≠ none) : ∃ c params sent ctx, l = .logEvent c params sent ∧
      s.calls c = some ctx ∧ ctx.request = some i ∧ t = s ∧
      o = .logged (some i) (ctx.logEvent s.cells params sent).1
        (ctx.logEvent s.cells params sent).2 := by
  cases l with
  | connect session =>
    simp only [next] at he
    split at he
    · cases he
    · cases he
      exact absurd rfl ho
  | setLevel session isCancelled level =>
    obtain ⟨handler, _, heq⟩ := Option.map_eq_some_iff.mp he
    cases heq
    exact absurd rfl ho
  | call session c =>
    simp only [next] at he
    split at he
    · cases he
      exact absurd rfl ho
    · cases he
  | logEvent c params sent =>
    obtain ⟨ctx, hctx, heq⟩ := Option.map_eq_some_iff.mp he
    cases heq
    have hi : ctx.request = some i := by
      by_contra hi
      simp [Output.heard, hi] at ho
    exact ⟨c, params, sent, ctx, rfl, hctx, hi, rfl, by rw [← hi]⟩

/-- The two servers answer a step alike to a session exactly if the settings that one of them
has not seen make no difference to the message. -/
theorem heard_eq_iff_unaffected {i : Session} {es' : List Event} {s' t' : Server} {l : Label}
    {o o' : Output} (hs : Shared clientLogging es s) (hs' : Shared clientLogging es' s')
    (hlabels : es'.map Prod.fst = (es.map Prod.fst).filter (keeps i)) (hagree : Agree s s')
    (he : next s l = some (t, o)) (he' : next s' l = some (t', o'))
    (hsome : (o'.heard i).isSome = (o.heard i).isSome) :
    o'.heard i = o.heard i ↔ Unaffected clientLogging i es (l, o) := by
  by_cases ho : o.heard i = none
  · have ho' : o'.heard i = none := by simpa [ho] using hsome
    rw [ho, ho']
    exact iff_of_true rfl (unaffected_of_heard_eq_none ho)
  · have ho' : o'.heard i ≠ none := by
      intro hnone
      rw [hnone, Option.isSome_none, eq_comm, Option.isSome_eq_false_iff] at hsome
      exact ho (Option.isNone_iff_eq_none.mp hsome)
    obtain ⟨c, params, sent, ctx, rfl, hctx, hi, rfl, rfl⟩ := logEvent_of_heard he ho
    obtain ⟨_, _, _, ctx', hl, hctx', _, rfl, rfl⟩ := logEvent_of_heard he' ho'
    cases hl
    obtain rfl : ctx = ctx' := by
      rw [hagree.calls, hctx] at hctx'
      exact Option.some.inj hctx'
    have hall := hs.shouldNotify hctx params.level
    have hown := hs'.shouldNotify hctx' params.level
    rw [hlabels, levelAfter_keeps] at hown
    have hmessage := @logEvent_eq_iff ctx i t'.cells t.cells params sent hi
    rw [hall, hown] at hmessage
    simp only [Output.heard, if_true, Option.some.injEq]
    rw [hmessage]
    constructor
    · intro h _ _ _ _ _ heq hactive hclient
      cases heq
      have hsame := h hclient
      rw [hactive, Bool.true_and, Bool.true_and, decide_eq_decide] at hsame
      exact hsame.symm
    · intro h hclient
      cases hactive : clientLogging.isSome with
      | false => rfl
      | true =>
        have hsame := h _ _ _ _ _ rfl hactive hclient
        rw [Bool.true_and, Bool.true_and, decide_eq_decide]
        exact hsame.symm

/-- The run of the labels but the settings of the other sessions. -/
structure Twin (clientLogging : Option ClientLoggingConfig) (i : Session) (es : List Event)
    (s : Server) (es' : List Event) (s' : Server) : Prop where
  runs : Runs (machine clientLogging).Step (machine clientLogging).init es' s'
  labels : es'.map Prod.fst = (es.map Prod.fst).filter (keeps i)
  agree : Agree s s'
  heard : heard i es' = heard i es ↔ Each (Unaffected clientLogging i) es

theorem init_twin (i : Session) : Twin clientLogging i [] (machine clientLogging).init []
    (machine clientLogging).init where
  runs := .refl _
  labels := rfl
  agree := ⟨rfl, rfl, rfl⟩
  heard := iff_of_true rfl each_nil

theorem heard_append (i : Session) (es : List Event) (e : Event) :
    heard i (es ++ [e]) = heard i es ++ (e.2.heard i).toList := by
  rw [heard, List.filterMap_append, heard]
  cases h : e.2.heard i <;> simp [h]

theorem step_twin {i : Session} {es' : List Event} {s' : Server}
    (hs : Shared clientLogging es s) (htwin : Twin clientLogging i es s es' s')
    (he : (machine clientLogging).Step s e t) :
    ∃ es'' s'', Twin clientLogging i (es ++ [e]) t es'' s'' := by
  obtain ⟨l, o⟩ := e
  cases hl : keeps i l with
  | false =>
    obtain ⟨hagree, ho⟩ := agree_of_not_keeps hl he
    refine ⟨es', s', htwin.runs, ?_, ?_, ?_⟩
    · rw [htwin.labels, List.map_append, List.filter_append]
      simp [hl]
    · exact ⟨htwin.agree.engine.trans hagree.engine, htwin.agree.sessions.trans hagree.sessions,
        htwin.agree.calls.trans hagree.calls⟩
    · rw [heard_append, ho, Option.toList_none, List.append_nil, each_append, htwin.heard]
      exact (and_iff_left (unaffected_of_heard_eq_none ho)).symm
  | true =>
    obtain ⟨t', o', he', hagree, hsome⟩ := step_agree htwin.agree he
    have hsame := heard_eq_iff_unaffected hs (shared_of_runs htwin.runs) htwin.labels htwin.agree
      he he' (hsome i)
    refine ⟨es' ++ [(l, o')], t', htwin.runs.append (.single he'), ?_, hagree, ?_⟩
    · rw [List.map_append, htwin.labels, List.map_append, List.filter_append]
      simp [hl]
    · rw [heard_append, heard_append, each_append, ← htwin.heard, ← hsame]
      constructor
      · intro h
        have hlength : (o'.heard i).toList.length = (o.heard i).toList.length := by
          rw [Option.length_toList, Option.length_toList, hsome i]
        obtain ⟨hpast, hlast⟩ := List.append_inj' h hlength
        exact ⟨hpast, by simpa using congrArg List.head? hlast⟩
      · rintro ⟨hpast, hlast⟩
        rw [hpast, hlast]

theorem twin_of_runs (i : Session)
    (hr : Runs (machine clientLogging).Step (machine clientLogging).init es s) :
    ∃ es' s', Twin clientLogging i es s es' s' := by
  let I := fun es s => Shared clientLogging es s ∧ ∃ es' s', Twin clientLogging i es s es' s'
  refine (hr.history I ?_ ⟨init_shared, [], _, init_twin i⟩).2
  rintro es s e t ⟨hs, es', s', htwin⟩ he
  exact ⟨step_shared es s e t hs he, step_twin hs htwin he⟩

/-- Without the settings of the other sessions a session's messages come out the same exactly if
none of them is on the other side of the level that the session has set itself. -/
theorem heard_eq_iff {i : Session}
    (hr : Runs (machine clientLogging).Step (machine clientLogging).init es s) :
    (∃ es' s', Runs (machine clientLogging).Step (machine clientLogging).init es' s' ∧
      es'.map Prod.fst = (es.map Prod.fst).filter (keeps i) ∧ heard i es' = heard i es) ↔
    Each (Unaffected clientLogging i) es := by
  obtain ⟨twinEvents, twin, htwin⟩ := twin_of_runs i hr
  constructor
  · rintro ⟨es', s', hr', hlabels, hheard⟩
    have hunique := Machine.runs_unique hr' htwin.runs (hlabels.trans htwin.labels.symm)
    rw [hunique.1] at hheard
    exact htwin.heard.mp hheard
  · intro h
    exact ⟨twinEvents, twin, htwin.runs, htwin.labels, htwin.heard.mpr h⟩

def connected : List Label := [.connect 0, .connect 1]

def warn : List Label := [.call 0 0, .logEvent 0 ⟨.warning, "slow", none, [.client]⟩ (.ok ())]

abbrev sampleMachine : Machine Server Label Output := machine (some ⟨.info⟩)

theorem heard_kept : ∃ es s, es.map Prod.fst = connected ++ [.setLevel 1 false .debug] ++ warn ∧
    Runs sampleMachine.Step sampleMachine.init es s ∧
    Each (Unaffected (some ⟨.info⟩) 0) es ∧
    (heard 0 es).map Prod.snd = [some ⟨.warning, none, .string "slow"⟩] := by
  have hr := @Machine.runs_of_execute _ _ _ sampleMachine sampleMachine.init _
    (connected ++ [.setLevel 1 false .debug] ++ warn) _ rfl
  have hr' := @Machine.runs_of_execute _ _ _ sampleMachine sampleMachine.init _
    (connected ++ warn) _ rfl
  exact ⟨_, _, rfl, hr, (heard_eq_iff hr).mp ⟨_, _, hr', rfl, rfl⟩, rfl⟩

/-- The other session wants errors only, and this one gets no warning any more. -/
theorem heard_lost : ∃ es s es' s',
    es.map Prod.fst = connected ++ [.setLevel 1 false .error] ++ warn ∧
    Runs sampleMachine.Step sampleMachine.init es s ∧
    es'.map Prod.fst = (es.map Prod.fst).filter (keeps 0) ∧
    Runs sampleMachine.Step sampleMachine.init es' s' ∧
    (heard 0 es).map Prod.snd = [none] ∧
    (heard 0 es').map Prod.snd = [some ⟨.warning, none, .string "slow"⟩] := by
  have hr := @Machine.runs_of_execute _ _ _ sampleMachine sampleMachine.init _
    (connected ++ [.setLevel 1 false .error] ++ warn) _ rfl
  have hr' := @Machine.runs_of_execute _ _ _ sampleMachine sampleMachine.init _
    (connected ++ warn) _ rfl
  exact ⟨_, _, _, _, rfl, hr, rfl, hr', rfl, rfl⟩

end RustMcpCore.Logging
