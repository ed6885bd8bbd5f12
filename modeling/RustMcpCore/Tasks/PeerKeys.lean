import RustMcpCore.Auth.Inbound.Token
import RustMcpCore.Http.Router
import RustMcpCore.Notifications.Hub
import RustMcpCore.Runtime.Checks
import RustMcpCore.Tasks.Views

/-! # Who a task belongs to

A task belongs to the key of the request that created it. Where the key comes from
depends on the transport: without sessions there is nothing but a header that the
client may or may not send.
-/
namespace RustMcpCore
open Library ClientNotificationHub

/-! ## Keys in the store -/

/-- Nothing that is stored under one key is seen or touched under the other. -/
def Hidden (env : Platform) (owner other : String) : Prop :=
  ∀ (inner : TaskStoreInner) (taskId : String) (entry : TaskEntry) (swept now : DateTime),
    inner.entries.lookup taskId = some entry → entry.peerKey = owner →
    (TaskStore.getTask inner taskId other swept).value = none ∧
    (TaskStore.checkResult inner taskId other swept).value = .inl (.error .notFound) ∧
    (TaskStore.cancel env inner taskId other swept now).value = .error .notFound ∧
    (TaskStore.cancel env inner taskId other swept now).inner = inner.cleanupExpired swept ∧
    ∀ task ∈ (TaskStore.listTasks inner other swept).value,
      ∃ otherId ownEntry, inner.entries.lookup otherId = some ownEntry ∧
        ownEntry.peerKey = other ∧ ownEntry.task = task

def workingEntry (peerKey : String) : TaskEntry where
  task := ⟨"task", .working, none, "", "", none, none⟩
  createdAt := 0
  terminalResult := none
  cancellation := 0
  notify := 0
  handle := none
  peer := 0
  peerKey

theorem listTasks_own {inner : TaskStoreInner} {peerKey : String} {swept : DateTime} {task : Task}
    (h : task ∈ (TaskStore.listTasks inner peerKey swept).value) :
    ∃ taskId entry, (inner.cleanupExpired swept).entries.lookup taskId = some entry ∧
      entry.peerKey = peerKey ∧ entry.task = task := by
  obtain ⟨entry, hentry, rfl⟩ := List.mem_map.mp h
  obtain ⟨hvalue, hkey⟩ := List.mem_filter.mp hentry
  obtain ⟨pair, hpair, rfl⟩ := List.mem_map.mp hvalue
  exact ⟨pair.1, pair.2, HashMap.lookup_eq_some_iff.mpr hpair, of_decide_eq_true hkey, rfl⟩

/-- Tasks are hidden from all other keys, and from no key of their own. -/
theorem hidden_iff {env : Platform} {owner other : String} :
    Hidden env owner other ↔ owner ≠ other := by
  constructor
  · rintro h rfl
    obtain ⟨hget, _⟩ := h ⟨(∅ : HashMap String TaskEntry).insert "task" (workingEntry owner)⟩ "task"
      (workingEntry owner) 0 0 (AList.lookup_insert _) rfl
    rw [TaskStore.getTask, Option.map_eq_none_iff, Option.filter_eq_none_iff] at hget
    exact hget (workingEntry owner) (TaskStoreInner.lookup_cleanupExpired.mpr
      ⟨AList.lookup_insert _, rfl⟩) (decide_eq_true rfl)
  · rintro hne inner taskId entry swept now hentry rfl
    have hnone : TaskStore.visible other swept inner taskId = none := by
      refine TaskStore.visible_foreign fun found hfound => ?_
      cases hentry.symm.trans hfound
      exact hne
    rw [TaskStore.getTask_of_none hnone, TaskStore.checkResult_of_none hnone,
      TaskStore.cancel_of_none hnone]
    refine ⟨rfl, rfl, rfl, rfl, ?_⟩
    intro task htask
    obtain ⟨otherId, ownEntry, hown, hkey, heq⟩ := listTasks_own htask
    exact ⟨otherId, ownEntry, (TaskStoreInner.lookup_cleanupExpired.mp hown).1, hkey, heq⟩

/-! ## Keys of requests -/

/-- What a client sends over its connection. -/
structure ClientRequest where
  connection : ℕ
  headers : HeaderMap

/-- The session a request names, as `peer_key` reads it. -/
def sessionHeader (headers : HeaderMap) : Option String :=
  (headers.lookup "mcp-session-id").bind headerToStr

/-- The library that serves the connections. -/
structure Rmcp where
  /-- What a request is handled with, if it is handled. -/
  context : TransportConfig → ClientRequest → Option RequestContext
  sessionId : ℕ → String

/-- What the library documents. -/
structure Rmcp.Documented (rmcp : Rmcp) : Prop where
  /-- There is one standard input. -/
  stdio : ∀ transport request request' context context', transport.mode = .stdio →
    rmcp.context transport request = some context →
    rmcp.context transport request' = some context' → request.connection = request'.connection
  /-- Sessions get ids of their own, and a request is served in the session that it names. -/
  sessionId : Function.Injective rmcp.sessionId
  stateful : ∀ transport request context, transport.mode = .streamableHttp →
    (buildStreamableHttpConfig transport).statefulMode = true →
    rmcp.context transport request = some context →
    context.sessionId = some (rmcp.sessionId request.connection)
  /-- Without sessions nothing is known about the client. -/
  stateless : ∀ transport request context, transport.mode = .streamableHttp →
    (buildStreamableHttpConfig transport).statefulMode = false →
    rmcp.context transport request = some context →
    context.sessionId = sessionHeader request.headers ∧ context.peerInfo = none

theorem peerKey_inj {context context' : RequestContext} (h : context.peerInfo = none)
    (h' : context'.peerInfo = none) :
    peerKey context = peerKey context' ↔ context.sessionId = context'.sessionId := by
  have hnamed : ∀ sessionId, "session:" ++ sessionId ≠ "peer:uninitialized" := by
    intro sessionId heq
    have hhead := congrArg (fun key : String => key.toList.head?) heq
    have hsession : ("session:".toList ++ sessionId.toList).head? = some 's' := rfl
    rw [String.toList_append, hsession] at hhead
    exact absurd hhead (by decide)
  unfold peerKey
  rw [h, h']
  cases context.sessionId with
  | none =>
    cases context'.sessionId with
    | none => exact iff_of_true rfl rfl
    | some sessionId => exact iff_of_false (hnamed sessionId).symm nofun
  | some sessionId =>
    cases context'.sessionId with
    | none => exact iff_of_false (hnamed sessionId) nofun
    | some other => exact (String.append_right_inj _).trans Option.some_inj.symm

/-- Two connections have keys of their own, and so tasks of their own, unless there are no
sessions and both requests name the same one, or none. -/
theorem peerKey_separates {env : Platform} {rmcp : Rmcp} (documented : rmcp.Documented)
    {transport : TransportConfig} {request request' : ClientRequest}
    {context context' : RequestContext} (served : rmcp.context transport request = some context)
    (served' : rmcp.context transport request' = some context')
    (others : request.connection ≠ request'.connection) :
    (peerKey context ≠ peerKey context' ∧ Hidden env (peerKey context) (peerKey context') ∧
      Hidden env (peerKey context') (peerKey context)) ↔
    ¬ (transport.mode = .streamableHttp ∧ transport.streamableHttp.sessionMode = .none ∧
      sessionHeader request.headers = sessionHeader request'.headers) := by
  have hkeys : (peerKey context ≠ peerKey context' ∧
      Hidden env (peerKey context) (peerKey context') ∧
      Hidden env (peerKey context') (peerKey context)) ↔ peerKey context ≠ peerKey context' := by
    rw [hidden_iff, hidden_iff, ne_comm (a := peerKey context')]
    simp only [and_self]
  rw [hkeys]
  refine not_congr ?_
  cases hmode : transport.mode with
  | stdio => exact absurd (documented.stdio _ _ _ _ _ hmode served served') others
  | streamableHttp =>
    rw [eq_self, true_and]
    by_cases hnone : transport.streamableHttp.sessionMode = .none
    · have hstateless : (buildStreamableHttpConfig transport).statefulMode = false :=
        decide_eq_false (not_not.mpr hnone)
      obtain ⟨hsession, hinfo⟩ := documented.stateless _ _ _ hmode hstateless served
      obtain ⟨hsession', hinfo'⟩ := documented.stateless _ _ _ hmode hstateless served'
      rw [peerKey_inj hinfo hinfo', hsession, hsession', and_iff_right hnone]
    · have hstateful : (buildStreamableHttpConfig transport).statefulMode = true :=
        decide_eq_true hnone
      refine iff_of_false (fun heq => ?_) fun h => hnone h.1
      unfold peerKey at heq
      rw [documented.stateful _ _ _ hmode hstateful served,
        documented.stateful _ _ _ hmode hstateful served'] at heq
      exact others (documented.sessionId ((String.append_right_inj _).mp heq))

/-- The least that serves connections. -/
def sampleRmcp : Rmcp where
  sessionId connection := .ofList (List.replicate connection 'a')
  context transport request :=
    match transport.mode with
    | .stdio => if request.connection = 0 then some ⟨0, none, some "0x1"⟩ else none
    | .streamableHttp =>
      if (buildStreamableHttpConfig transport).statefulMode then
        if sessionHeader request.headers =
            some (.ofList (List.replicate request.connection 'a')) then
          some ⟨request.connection, sessionHeader request.headers, none⟩
        else none
      else some ⟨request.connection, sessionHeader request.headers, none⟩

theorem sampleRmcp_documented : sampleRmcp.Documented where
  stdio transport request request' context context' hmode h h' := by
    simp only [sampleRmcp, hmode] at h h'
    split at h
    · split at h'
      · rename_i hconnection hconnection'
        rw [hconnection, hconnection']
      · cases h'
    · cases h
  sessionId connection connection' h := by
    have hlength := congrArg (fun sessionId : String => sessionId.toList.length) h
    simpa [sampleRmcp] using hlength
  stateful transport request context hmode hstateful h := by
    simp only [sampleRmcp, hmode, hstateful, if_true] at h
    split at h
    · rename_i hsession
      cases h
      exact hsession
    · cases h
  stateless transport request context hmode hstateless h := by
    simp only [sampleRmcp, hmode, hstateless, Bool.false_eq_true, if_false] at h
    cases h
    exact ⟨rfl, rfl⟩

def withoutSessions : TransportConfig :=
  { TransportConfig.default with streamableHttp :=
      { TransportConfig.default.streamableHttp with sessionMode := .none } }

/-- One client names a session, the other does not. -/
theorem peerKey_separates_named :
    Hidden ⟨fun _ => "", fun _ => ""⟩ "session:a" "peer:uninitialized" :=
  ((@peerKey_separates _ _ sampleRmcp_documented withoutSessions ⟨1, [("mcp-session-id", [97])]⟩
    ⟨2, []⟩ _ _ rfl rfl (by decide)).mpr (by decide)).2.1

/-- Two clients without sessions see each other's tasks. -/
theorem peerKey_shared : ∃ context context',
    validateTransport .full { McpConfig.empty with server :=
      { ServerSection.default with transport := withoutSessions } } = .ok .streamableHttp ∧
    sampleRmcp.context withoutSessions ⟨1, []⟩ = some context ∧
    sampleRmcp.context withoutSessions ⟨2, []⟩ = some context' ∧
    peerKey context = peerKey context' ∧
    ∀ env, ¬ Hidden env (peerKey context) (peerKey context') := by
  refine ⟨_, _, rfl, rfl, rfl, rfl, fun env h => ?_⟩
  exact hidden_iff.mp h rfl

end RustMcpCore
