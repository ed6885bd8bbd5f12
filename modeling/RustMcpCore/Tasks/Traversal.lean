import RustMcpCore.Engine.Pagination
import RustMcpCore.Library.Pages
import RustMcpCore.Tasks.Lifecycle
import RustMcpCore.Tasks.Views

/-! # Turning the pages of `tasks/list`

A cursor is an offset into a list that the store makes anew for each page, in the order
its map then has. A client reads every page in turn, and the store goes on in between.
-/
namespace RustMcpCore.TaskStore
open Library

structure ListTasksResult where
  tasks : List Task
  nextCursor : Option String

/-- The handler of `tasks/list`, with the tasks that the store gives it. -/
def handleListTasksRequest (base64 : Base64) (config : McpConfig) (isCancelled : Bool)
    (cursor : Option String) (tasks : List Task) : Except McpError ListTasksResult :=
  if isCancelled then .error cancelledError
  else if !config.tasksListActive then .error (.methodNotFound "tasks/list")
  else (pageOf base64 tasks cursor (pageSize none config)).map fun (tasks, nextCursor) =>
    { tasks, nextCursor }

/-- A client on its way through the pages: the cursor of its next request, if there is
one, and the pages it has. -/
structure Walk where
  cursor : Option (Option String)
  pages : List (List Task)

def Walk.start : Walk := ⟨some none, []⟩

inductive WalkEvent
  | page (order : List Task)
  | other (e : Event)

/-- The lists that the pages are taken from. -/
def listings (es : List WalkEvent) : List (List String) :=
  es.filterMap fun e =>
    match e with
    | .page order => some (order.map (·.taskId))
    | .other _ => none

/-- The next page of one client, or anything else that happens to the store. The map is
iterated in any order. -/
inductive WalkStep (env : Platform) (base64 : Base64) (config : McpConfig) (key : String) :
    State × Walk → WalkEvent → State × Walk → Prop
  | page {s t : State} {walk : Walk} {swept : DateTime} {cursor : Option String}
      {value order : List Task} {result : ListTasksResult} (next : walk.cursor = some cursor)
      (list : (machine env).Step s (.listTasks key swept, .listed value) t)
      (iterated : order.Perm value)
      (answer : handleListTasksRequest base64 config false cursor order = .ok result) :
      WalkStep env base64 config key (s, walk) (.page order)
        (t, ⟨result.nextCursor.map some, walk.pages ++ [result.tasks]⟩)
  | other {s t : State} {walk : Walk} {e : Event} (step : (machine env).Step s e t) :
      WalkStep env base64 config key (s, walk) (.other e) (t, walk)

/-! ## What is listed -/

variable {env : Platform} {s t : State} {e : Event}

theorem Reachable.keyed (hs : (machine env).Reachable s) : Keyed s :=
  hs.invariant Keyed (fun _ _ h => by cases h) fun _ _ _ => step_keyed

/-- The task exists and belongs to the client. -/
def Owns (key taskId : String) (s : State) : Prop :=
  ∃ entry, s.stored taskId = some entry ∧ entry.peerKey = key

/-- Each task of the client is listed once, after the expired ones are gone. -/
theorem step_listing {key : String} {swept : DateTime} {value : List Task} (hs : Keyed s)
    (he : (machine env).Step s (.listTasks key swept, .listed value) t) :
    (value.map (·.taskId)).Nodup ∧ ∀ taskId, Owns key taskId t → taskId ∈ value.map (·.taskId) := by
  have ht : Keyed t := step_keyed hs he
  obtain ⟨_, rfl, hvalue⟩ := step_listTasks.mp he
  have hvalue : value = (listed key (s.inner.cleanupExpired swept)).map Prod.snd :=
    (Output.listed.inj hvalue).trans listTasks_listed
  have hids : value.map (·.taskId) = (listed key (s.inner.cleanupExpired swept)).map Prod.fst := by
    rw [hvalue, List.map_map]
    refine List.map_congr_left fun shown hshown => ?_
    obtain ⟨pair, hpair, rfl⟩ := List.mem_map.mp hshown
    exact ht pair.1 pair.2 (HashMap.lookup_eq_some_iff.mpr (List.mem_of_mem_filter hpair))
  rw [hids]
  refine ⟨nodup_listed_ids, fun taskId howns => ?_⟩
  obtain ⟨entry, hentry, hkey⟩ := howns
  have hmem := HashMap.lookup_eq_some_iff.mp hentry
  exact List.mem_map.mpr ⟨(taskId, entry.task), List.mem_map.mpr
    ⟨⟨taskId, entry⟩, List.mem_filter.mpr ⟨hmem, decide_eq_true hkey⟩, rfl⟩, rfl⟩

/-! ## A whole traversal -/

variable {base64 : Base64} {config : McpConfig} {key : String} {p q : State × Walk}
  {es : List WalkEvent}

theorem handleListTasksRequest_eq_ok {cursor : Option String} {tasks : List Task}
    {result : ListTasksResult}
    (h : handleListTasksRequest base64 config false cursor tasks = .ok result) :
    pageOf base64 tasks cursor (pageSize none config) = .ok (result.tasks, result.nextCursor) := by
  unfold handleListTasksRequest at h
  split at h
  · cases h
  · split at h
    · cases h
    · cases hpage : pageOf base64 tasks cursor (pageSize none config) with
      | error error =>
        rw [hpage] at h
        cases h
      | ok page =>
        rw [hpage] at h
        cases h
        rfl

/-- Nothing more is read after the last page. -/
theorem Runs.complete (hr : Runs (WalkStep env base64 config key) p es q)
    (hp : p.2.cursor = none) : listings es = [] ∧ q.2 = p.2 := by
  induction hr with
  | refl => exact ⟨rfl, rfl⟩
  | cons he _ ih =>
    cases he with
    | page next =>
      rw [hp] at next
      cases next
    | other => exact ih hp

/-- The pages are taken from the lists one after another, each from where the last one ended. -/
theorem Runs.paging {size : ℕ} {cursor : Option String} {start : ℕ}
    (hbase64 : ∀ text, base64.decode (base64.encode text) = some text)
    (hsize : pageSize none config = some size)
    (hr : Runs (WalkStep env base64 config key) p es q) (hcursor : p.2.cursor = some cursor)
    (hstart : ∀ m, startOf base64 cursor = .ok m → m = start) (hdone : q.2.cursor = none) :
    ∃ pages, q.2.pages = p.2.pages ++ pages ∧
      Paging size start (listings es) (pages.map fun page => page.map (·.taskId)) := by
  induction hr generalizing cursor start with
  | refl =>
    rw [hcursor] at hdone
    cases hdone
  | cons he hrest ih =>
    cases he with
    | other => exact ih hcursor hstart hdone
    | @page s t walk swept cursor' value order result next list iterated answer =>
      obtain rfl : cursor' = cursor := Option.some.inj (next.symm.trans hcursor)
      have hpage := handleListTasksRequest_eq_ok answer
      rw [hsize] at hpage
      obtain ⟨start', hstart', hwithin, htasks, hnext⟩ := paginateItems_eq_ok base64 hpage
      obtain rfl := hstart start' hstart'
      by_cases hmore : start' + size < order.length
      · rw [if_pos hmore] at hnext
        have hback : ∀ m, startOf base64 (some (encodePaginationCursor base64 (start' + size))) =
            .ok m → m = start' + size := by
          intro m hm
          rw [startOf, decodePaginationCursor_encode base64 _ hbase64] at hm
          split at hm
          · cases hm
            rfl
          · cases hm
        obtain ⟨pages, hpages, hpaging⟩ := ih (by rw [hnext]; rfl) hback hdone
        refine ⟨result.tasks :: pages, by rw [hpages, List.append_assoc, List.singleton_append], ?_⟩
        have hlong : start' + size < (order.map (·.taskId)).length := by
          rw [List.length_map]
          exact hmore
        have hpages := Paging.next hlong hpaging
        rw [← List.map_take, ← List.map_drop, ← htasks] at hpages
        exact hpages
      · rw [if_neg hmore] at hnext
        obtain ⟨hlistings, hwalk⟩ := Runs.complete hrest (by rw [hnext]; rfl)
        refine ⟨[result.tasks], by rw [hwalk], ?_⟩
        have hends : order.length ≤ start' + size := Nat.le_of_not_lt hmore
        rw [List.take_of_length_le hends] at htasks
        have hlast : Paging size start' [order.map (·.taskId)]
            [(order.map (·.taskId)).drop start'] :=
          .last (by rw [List.length_map]; exact hwithin) (by rw [List.length_map]; exact hends)
        rw [← List.map_drop, ← htasks] at hlast
        simp only [listings] at hlistings ⊢
        rw [List.filterMap_cons, hlistings]
        exact hlast

theorem Runs.single_page {cursor : Option String} (hsize : pageSize none config = none)
    (hr : Runs (WalkStep env base64 config key) p es q) (hcursor : p.2.cursor = some cursor)
    (hdone : q.2.cursor = none) :
    ∃ page, q.2.pages = p.2.pages ++ [page] ∧ listings es = [page.map (·.taskId)] := by
  induction hr generalizing cursor with
  | refl =>
    rw [hcursor] at hdone
    cases hdone
  | cons he hrest ih =>
    cases he with
    | other => exact ih hcursor hdone
    | @page s t walk swept cursor' value order result next list iterated answer =>
      have hpage := handleListTasksRequest_eq_ok answer
      rw [hsize] at hpage
      obtain ⟨htasks, hnext⟩ := Prod.mk.inj (Except.ok.inj hpage)
      obtain ⟨hlistings, hwalk⟩ := Runs.complete hrest (by rw [← hnext]; rfl)
      refine ⟨result.tasks, by rw [hwalk], ?_⟩
      simp only [listings] at hlistings ⊢
      rw [List.filterMap_cons, hlistings, htasks]

/-- Every list shows each task of the client once. -/
theorem Runs.listings {taskId : String} (hs : Keyed p.1)
    (hr : Runs (fun p e q => WalkStep env base64 config key p e q ∧ Owns key taskId q.1) p es q) :
    ∀ ids ∈ listings es, ids.Nodup ∧ taskId ∈ ids := by
  induction hr with
  | refl => exact fun _ h => absurd h List.not_mem_nil
  | cons he _ ih =>
    obtain ⟨hstep, howns⟩ := he
    cases hstep with
    | other step => exact ih (step_keyed hs step)
    | page next list iterated answer =>
      obtain ⟨hnodup, hmem⟩ := step_listing hs list
      have hperm := iterated.map (·.taskId)
      intro ids hids
      rcases List.mem_cons.mp hids with rfl | hids
      · exact ⟨hperm.nodup_iff.mpr hnodup, hperm.mem_iff.mpr (hmem taskId howns)⟩
      · exact ih (step_keyed hs list) ids hids

/-- Between its pages the task moves past the offset of the next page as often in one
direction as in the other. -/
def Balanced (config : McpConfig) (taskId : String) (es : List WalkEvent) : Prop :=
  ∀ size, pageSize none config = some size →
    Paging.skips size taskId 0 (TaskStore.listings es) =
      Paging.repeats size taskId 0 (TaskStore.listings es)

/-- A task that exists during a whole traversal is returned exactly once if and only if it
moves past the offsets as often in one direction as in the other. -/
theorem returned_once_iff {walk : Walk} {taskId : String}
    (hbase64 : ∀ text, base64.decode (base64.encode text) = some text)
    (hs : (machine env).Reachable s)
    (hr : Runs (fun p e q => WalkStep env base64 config key p e q ∧ Owns key taskId q.1)
      (s, .start) es (t, walk)) (hdone : walk.cursor = none) :
    (walk.pages.flatten.map (·.taskId)).count taskId = 1 ↔ Balanced config taskId es := by
  have hlisted := Runs.listings (Reachable.keyed hs) hr
  have hwalk : Runs (WalkStep env base64 config key) (s, .start) es (t, walk) :=
    hr.mono fun _ _ _ h => h.1
  cases hsize : pageSize none config with
  | none =>
    obtain ⟨page, hpages, hlistings⟩ := Runs.single_page hsize hwalk rfl hdone
    obtain ⟨hnodup, hmem⟩ := hlisted _ (hlistings ▸ List.mem_singleton_self _)
    have hcount : (walk.pages.flatten.map (·.taskId)).count taskId = 1 := by
      rw [show walk.pages = [page] from hpages, List.flatten_singleton]
      exact List.count_eq_one_of_mem hnodup hmem
    refine ⟨fun _ size hsome => ?_, fun _ => hcount⟩
    rw [hsize] at hsome
    cases hsome
  | some size =>
    obtain ⟨pages, hpages, hpaging⟩ := Runs.paging hbase64 hsize hwalk rfl
      (fun m hm => (Except.ok.inj hm).symm) hdone
    rw [show walk.pages = pages from hpages, List.map_flatten,
      hpaging.count_eq_one_iff (fun ids h => (hlisted ids h).1) fun ids h => (hlisted ids h).2]
    constructor
    · intro h size' hsize'
      obtain rfl : size = size' := Option.some.inj (hsize.symm.trans hsize')
      exact h
    · exact fun h => h size hsize

/-- As long as the map is not modified, every task is returned exactly once. -/
theorem balanced_of_unchanged {taskId : String} {ids : List String}
    (hsame : ∀ ids' ∈ listings es, ids' = ids) : Balanced config taskId es :=
  fun _ _ => Paging.skips_eq_repeats hsame

/-! ## A task that expires -/

/-- The standard encoding of the one cursor below. -/
def sampleBase64 : Base64 where
  encode := Equiv.swap "v1:1" "djE6MQ=="
  decode text := some ((Equiv.swap "v1:1" "djE6MQ==").symm text)

theorem sampleBase64_decode (text : String) :
    sampleBase64.decode (sampleBase64.encode text) = some text :=
  congrArg some (Equiv.symm_apply_apply _ text)

def pagedConfig : McpConfig :=
  { McpConfig.empty with tasks := some (.switch (some true)), pagination := some ⟨1⟩ }

/-- A task that stays, and one that is kept for a millisecond. -/
def creations : List Label :=
  [.create 0 "peer" none 0 0, .create 0 "peer" (some 1) 0 0]

def twoTasks : State := (((machine samplePlatform).execute .init creations).map Prod.fst).getD .init

theorem twoTasks_reachable : (machine samplePlatform).Reachable twoTasks := by
  obtain ⟨os, hos⟩ : ∃ os, (machine samplePlatform).execute .init creations = some (twoTasks, os) :=
    ⟨_, rfl⟩
  exact Machine.reachable_of_runs (Machine.runs_of_execute hos)

def tasksAt (s : State) (swept : DateTime) : List Task := (listTasks s.inner "peer" swept).value

def afterList (s : State) (swept : DateTime) : State :=
  { s with
    inner := (listTasks s.inner "peer" swept).inner
    pending := (listTasks s.inner "peer" swept).effects }

theorem step_tasksAt (hs : s.pending = []) (swept : DateTime) :
    (machine env).Step s (.listTasks "peer" swept, .listed (tasksAt s swept)) (afterList s swept) :=
  step_listTasks.mpr ⟨hs, rfl, rfl⟩

/-- Two pages of one task each, the second one from the list at the given time. -/
theorem two_pages {swept : DateTime} {rest : List Task}
    (hrest : (tasksAt (afterList twoTasks 0) swept).drop 1 = rest)
    (hlength : (tasksAt (afterList twoTasks 0) swept).length = rest.length + 1)
    (hshort : rest.length ≤ 1)
    (howns : Owns "peer" "task-0" (afterList (afterList twoTasks 0) swept)) :
    Runs (fun p e q => WalkStep samplePlatform sampleBase64 pagedConfig "peer" p e q ∧
        Owns "peer" "task-0" q.1) (twoTasks, .start)
      [.page (tasksAt twoTasks 0), .page (tasksAt (afterList twoTasks 0) swept)]
      (afterList (afterList twoTasks 0) swept, ⟨none, [(tasksAt twoTasks 0).take 1, rest]⟩) := by
  have hfirst : handleListTasksRequest sampleBase64 pagedConfig false none (tasksAt twoTasks 0) =
      .ok ⟨(tasksAt twoTasks 0).take 1, some (encodePaginationCursor sampleBase64 1)⟩ := rfl
  have hstart : startOf sampleBase64 (some (encodePaginationCursor sampleBase64 1)) = .ok 1 :=
    decodePaginationCursor_encode sampleBase64 1 sampleBase64_decode
  have hsecond : handleListTasksRequest sampleBase64 pagedConfig false
      (some (encodePaginationCursor sampleBase64 1)) (tasksAt (afterList twoTasks 0) swept) =
        .ok ⟨rest, none⟩ := by
    have hpage := @paginateItems_of_start sampleBase64 _ (tasksAt (afterList twoTasks 0) swept)
      _ 1 _ hstart (by omega)
    rw [List.take_of_length_le (by omega), hrest, if_neg (by omega)] at hpage
    rw [handleListTasksRequest, if_neg (by decide), if_neg (by decide),
      show pageSize none pagedConfig = some 1 from rfl, pageOf, hpage]
    rfl
  exact .cons ⟨.page rfl (step_tasksAt rfl 0) (.refl _) hfirst, ⟨_, rfl, rfl⟩⟩
    (.single ⟨.page rfl (step_tasksAt rfl swept) (.refl _) hsecond, howns⟩)

theorem returned_once_kept : ∃ s es t walk, (machine samplePlatform).Reachable s ∧
    Runs (fun p e q => WalkStep samplePlatform sampleBase64 pagedConfig "peer" p e q ∧
      Owns "peer" "task-0" q.1) (s, .start) es (t, walk) ∧ walk.cursor = none ∧
    (walk.pages.flatten.map (·.taskId)).count "task-0" = 1 := by
  have hr := @two_pages 0 _ rfl rfl (le_refl 1) ⟨_, rfl, rfl⟩
  refine ⟨_, _, _, _, twoTasks_reachable, hr, rfl, ?_⟩
  refine (returned_once_iff sampleBase64_decode twoTasks_reachable hr rfl).mpr ?_
  exact @balanced_of_unchanged _ _ _ ["task-1", "task-0"] (by decide)

/-- The task on the first page expires, and the other one moves up before the second page. -/
theorem returned_once_skipped : ∃ s es t walk, (machine samplePlatform).Reachable s ∧
    Runs (fun p e q => WalkStep samplePlatform sampleBase64 pagedConfig "peer" p e q ∧
      Owns "peer" "task-0" q.1) (s, .start) es (t, walk) ∧ walk.cursor = none ∧
    (walk.pages.flatten.map (·.taskId)).count "task-0" = 0 := by
  have hr := @two_pages 2000000 _ rfl rfl (Nat.zero_le 1) ⟨_, rfl, rfl⟩
  exact ⟨_, _, _, _, twoTasks_reachable, hr, rfl, rfl⟩

end RustMcpCore.TaskStore
