import RustMcpCore.Tasks.Entries

/-! # What one client sees of the store

The entries of a key that have not expired are all that the operations of its client
look at, whatever else is stored. Two stores that agree on them answer alike.
-/
namespace RustMcpCore.TaskStore
open Library

/-- The entry of a task, if it has the key and is not expired. -/
def visible (key : String) (now : DateTime) (inner : TaskStoreInner) (taskId : String) :
    Option TaskEntry :=
  (inner.entries.lookup taskId).filter fun entry => !entry.isExpired now && entry.peerKey = key

/-- Entries that differ in what no client sees. -/
structure SameEntry (entry other : TaskEntry) : Prop where
  task : entry.task = other.task
  createdAt : entry.createdAt = other.createdAt
  terminalResult : entry.terminalResult = other.terminalResult
  peer : entry.peer = other.peer
  peerKey : entry.peerKey = other.peerKey

/-- Two stores show a client the same. -/
def SameView (key : String) (now : DateTime) (inner other : TaskStoreInner) : Prop :=
  ∀ taskId, Option.Rel SameEntry (visible key now inner taskId) (visible key now other taskId)

section Expiry
variable {key : String} {now later : DateTime} {inner other : TaskStoreInner} {taskId : String}

theorem isExpired_later {entry : TaskEntry} (hle : now ≤ later)
    (h : entry.isExpired now = true) : entry.isExpired later = true := by
  unfold TaskEntry.isExpired at h ⊢
  cases httl : entry.task.ttl with
  | none =>
    rw [httl] at h
    cases h
  | some ttlMs =>
    simp only [httl, decide_eq_true_eq] at h ⊢
    have hsince : now - entry.createdAt ≤ later - entry.createdAt := Int.sub_le_sub_right hle _
    exact h.trans (Int.tdiv_le_tdiv (by decide) hsince)

theorem SameEntry.isExpired {entry other : TaskEntry} (h : SameEntry entry other) :
    entry.isExpired now = other.isExpired now := by
  unfold TaskEntry.isExpired
  rw [h.task, h.createdAt]

theorem lookup_kept : (inner.cleanupExpired now).entries.lookup taskId =
    (inner.entries.lookup taskId).filter fun entry => !entry.isExpired now := by
  refine Option.ext fun entry => ?_
  rw [TaskStoreInner.lookup_cleanupExpired, Option.filter_eq_some_iff, Bool.not_eq_true']

theorem visible_kept : visible key now inner taskId =
    ((inner.cleanupExpired now).entries.lookup taskId).filter fun entry => entry.peerKey = key := by
  rw [lookup_kept, visible, Option.filter_filter]

theorem lookup_of_visible {entry : TaskEntry} (h : visible key now inner taskId = some entry) :
    inner.entries.lookup taskId = some entry ∧ entry.isExpired now = false ∧
      entry.peerKey = key := by
  obtain ⟨hlookup, hkeep⟩ := Option.filter_eq_some_iff.mp h
  simp only [Bool.and_eq_true, Bool.not_eq_true', decide_eq_true_eq] at hkeep
  exact ⟨hlookup, hkeep⟩

/-- A task of another key is as little visible as one that does not exist. -/
theorem visible_foreign (h : ∀ entry, inner.entries.lookup taskId = some entry →
    entry.peerKey ≠ key) : visible key now inner taskId = none := by
  cases hvisible : visible key now inner taskId with
  | none => rfl
  | some entry =>
    obtain ⟨hlookup, _, hkey⟩ := lookup_of_visible hvisible
    exact absurd hkey (h entry hlookup)

theorem visible_later (hle : now ≤ later) : visible key later inner taskId =
    (visible key now inner taskId).filter fun entry => !entry.isExpired later := by
  unfold visible
  rw [Option.filter_filter]
  congr 1
  funext entry
  cases hnow : entry.isExpired now with
  | false => simp [Bool.and_comm]
  | true => simp [isExpired_later hle hnow]

/-- A clean-up drops nothing that is visible later. -/
theorem visible_cleanupExpired (hle : now ≤ later) :
    visible key later (inner.cleanupExpired now) taskId = visible key later inner taskId := by
  unfold visible
  rw [lookup_kept, Option.filter_filter]
  congr 1
  funext entry
  cases hnow : entry.isExpired now with
  | false => simp
  | true => simp [isExpired_later hle hnow]

theorem rel_filter {shown shown' : Option TaskEntry} {keep : TaskEntry → Bool}
    (h : Option.Rel SameEntry shown shown')
    (hkeep : ∀ entry other, SameEntry entry other → keep entry = keep other) :
    Option.Rel SameEntry (shown.filter keep) (shown'.filter keep) := by
  cases h with
  | none => exact .none
  | some hsame =>
    rw [Option.filter_some, Option.filter_some, hkeep _ _ hsame]
    split
    · exact .some hsame
    · exact .none

theorem SameView.mono (h : SameView key now inner other) (hle : now ≤ later) :
    SameView key later inner other := by
  intro taskId
  rw [visible_later hle, visible_later hle]
  refine rel_filter (h taskId) fun entry other hsame => ?_
  rw [hsame.isExpired]

/-- Both entries are there and alike, or there is none. -/
theorem SameView.cases (h : SameView key now inner other) (taskId : String) :
    (visible key now inner taskId = none ∧ visible key now other taskId = none) ∨
    ∃ entry entry', visible key now inner taskId = some entry ∧
      visible key now other taskId = some entry' ∧ SameEntry entry entry' := by
  have hrel := h taskId
  generalize visible key now inner taskId = shown at hrel ⊢
  generalize visible key now other taskId = shown' at hrel ⊢
  cases hrel with
  | none => exact .inl ⟨rfl, rfl⟩
  | some hsame => exact .inr ⟨_, _, rfl, rfl, hsame⟩

theorem SameView.congr {inner' other' : TaskStoreInner} (h : SameView key now inner other)
    (hinner : ∀ taskId, visible key now inner' taskId = visible key now inner taskId)
    (hother : ∀ taskId, visible key now other' taskId = visible key now other taskId) :
    SameView key now inner' other' := by
  intro taskId
  rw [hinner, hother]
  exact h taskId

end Expiry

/-! ## What the operations answer -/

section Answers
variable {env : Platform} {key : String} {swept now : DateTime} {inner : TaskStoreInner}
  {taskId : String}

theorem getTask_visible : (getTask inner taskId key swept).value =
    (visible key swept inner taskId).map TaskEntry.task := by
  rw [visible_kept]
  rfl

theorem checkResult_visible : (checkResult inner taskId key swept).value =
    match visible key swept inner taskId with
    | none => .inl (.error .notFound)
    | some entry =>
      match entry.terminalResult with
      | some result => .inl (.ok result)
      | none => .inr entry.notify := by
  rw [visible_kept]
  unfold checkResult
  simp only
  cases (inner.cleanupExpired swept).entries.lookup taskId with
  | none => rfl
  | some entry =>
    by_cases hkey : entry.peerKey = key
    · rw [Option.filter_some, if_pos (decide_eq_true hkey)]
      exact if_neg (not_not.mpr hkey)
    · rw [Option.filter_some, if_neg (by simpa using hkey)]
      exact if_pos hkey

/-- A finish as seen through what is visible. -/
theorem finish_visible {result : TerminalResult}
    (hown : ∀ entry, inner.entries.lookup taskId = some entry → entry.peerKey = key) :
    finish env inner taskId result swept now =
    match visible key swept inner taskId with
    | none => ⟨inner.cleanupExpired swept, inner.cleanupDrops swept, none⟩
    | some entry =>
      if isTerminal entry.task.status then
        ⟨inner.cleanupExpired swept, inner.cleanupDrops swept, none⟩
      else
        ⟨⟨(inner.cleanupExpired swept).entries.replace taskId (finishedEntry env entry result now)⟩,
          inner.cleanupDrops swept ++ (entry.handle.map .abort).toList ++
            [.notifyWaiters entry.notify],
          some ((finishedEntry env entry result now).task, entry.peer)⟩ := by
  rw [visible_kept]
  unfold finish
  simp only
  cases hkept : (inner.cleanupExpired swept).entries.lookup taskId with
  | none => rfl
  | some entry =>
    have hkey := hown entry (TaskStoreInner.lookup_cleanupExpired.mp hkept).1
    rw [Option.filter_some, if_pos (decide_eq_true hkey)]

theorem cancel_visible : cancel env inner taskId key swept now =
    match visible key swept inner taskId with
    | none => ⟨inner.cleanupExpired swept, inner.cleanupDrops swept, .error .notFound⟩
    | some entry =>
      if isTerminal entry.task.status then
        ⟨inner.cleanupExpired swept, inner.cleanupDrops swept, .error (.terminal entry.task.status)⟩
      else
        ⟨⟨(inner.cleanupExpired swept).entries.replace taskId (cancelledEntry env entry now)⟩,
          inner.cleanupDrops swept ++ .cancelToken entry.cancellation ::
            (entry.handle.map .abort).toList ++ [.notifyWaiters entry.notify],
          .ok ((cancelledEntry env entry now).task, entry.peer)⟩ := by
  rw [visible_kept]
  unfold cancel
  simp only
  cases (inner.cleanupExpired swept).entries.lookup taskId with
  | none => rfl
  | some entry =>
    by_cases hkey : entry.peerKey = key
    · rw [Option.filter_some, if_pos (decide_eq_true hkey)]
      exact if_neg (not_not.mpr hkey)
    · rw [Option.filter_some, if_neg (by simpa using hkey)]
      exact if_pos hkey

theorem getTask_of_none (h : visible key swept inner taskId = none) :
    getTask inner taskId key swept = ⟨inner.cleanupExpired swept, inner.cleanupDrops swept, none⟩ := by
  have hvalue : (getTask inner taskId key swept).value = _ := getTask_visible
  rw [h] at hvalue
  exact congrArg (Section.mk _ _) hvalue

theorem checkResult_of_none (h : visible key swept inner taskId = none) :
    checkResult inner taskId key swept =
      ⟨inner.cleanupExpired swept, inner.cleanupDrops swept, .inl (.error .notFound)⟩ := by
  have hvalue : (checkResult inner taskId key swept).value = _ := checkResult_visible
  rw [h] at hvalue
  exact congrArg (Section.mk _ _) hvalue

theorem cancel_of_none (h : visible key swept inner taskId = none) :
    cancel env inner taskId key swept now =
      ⟨inner.cleanupExpired swept, inner.cleanupDrops swept, .error .notFound⟩ := by
  rw [cancel_visible, h]

theorem cancel_of_terminal {entry : TaskEntry} (h : visible key swept inner taskId = some entry)
    (hterminal : isTerminal entry.task.status = true) : cancel env inner taskId key swept now =
      ⟨inner.cleanupExpired swept, inner.cleanupDrops swept,
        .error (.terminal entry.task.status)⟩ := by
  rw [cancel_visible, h]
  exact if_pos hterminal

theorem cancel_of_open {entry : TaskEntry} (h : visible key swept inner taskId = some entry)
    (hopen : ¬ isTerminal entry.task.status = true) : cancel env inner taskId key swept now =
      ⟨⟨(inner.cleanupExpired swept).entries.replace taskId (cancelledEntry env entry now)⟩,
        inner.cleanupDrops swept ++ .cancelToken entry.cancellation ::
          (entry.handle.map .abort).toList ++ [.notifyWaiters entry.notify],
        .ok ((cancelledEntry env entry now).task, entry.peer)⟩ := by
  rw [cancel_visible, h]
  exact if_neg hopen

theorem finish_of_none {result : TerminalResult}
    (hown : ∀ entry, inner.entries.lookup taskId = some entry → entry.peerKey = key)
    (h : visible key swept inner taskId = none) : finish env inner taskId result swept now =
      ⟨inner.cleanupExpired swept, inner.cleanupDrops swept, none⟩ := by
  rw [finish_visible hown, h]

theorem finish_of_terminal {result : TerminalResult} {entry : TaskEntry}
    (hown : ∀ entry, inner.entries.lookup taskId = some entry → entry.peerKey = key)
    (h : visible key swept inner taskId = some entry)
    (hterminal : isTerminal entry.task.status = true) :
    finish env inner taskId result swept now =
      ⟨inner.cleanupExpired swept, inner.cleanupDrops swept, none⟩ := by
  rw [finish_visible hown, h]
  exact if_pos hterminal

theorem finish_of_open {result : TerminalResult} {entry : TaskEntry}
    (hown : ∀ entry, inner.entries.lookup taskId = some entry → entry.peerKey = key)
    (h : visible key swept inner taskId = some entry)
    (hopen : ¬ isTerminal entry.task.status = true) : finish env inner taskId result swept now =
      ⟨⟨(inner.cleanupExpired swept).entries.replace taskId (finishedEntry env entry result now)⟩,
        inner.cleanupDrops swept ++ (entry.handle.map .abort).toList ++
          [.notifyWaiters entry.notify],
        some ((finishedEntry env entry result now).task, entry.peer)⟩ := by
  rw [finish_visible hown, h]
  exact if_neg hopen

theorem visible_replace {entry : TaskEntry} {otherId : String} {later : DateTime} :
    visible key later ⟨inner.entries.replace taskId entry⟩ otherId =
      if otherId = taskId then ((inner.entries.lookup taskId).map fun _ => entry).filter fun entry =>
        !entry.isExpired later && entry.peerKey = key
      else visible key later inner otherId := by
  unfold visible
  rw [HashMap.lookup_replace]
  split <;> rfl

theorem visible_insert {entry : TaskEntry} {otherId : String} {later : DateTime} :
    visible key later ⟨inner.entries.insert taskId entry⟩ otherId =
      if otherId = taskId then (some entry).filter fun entry =>
        !entry.isExpired later && entry.peerKey = key
      else visible key later inner otherId := by
  unfold visible
  split
  · rename_i heq
    rw [heq, AList.lookup_insert]
  · rename_i hne
    rw [AList.lookup_insert_ne hne]

end Answers

/-! ## Lists -/

/-- The tasks that are listed, each with its id. -/
def listed (key : String) (inner : TaskStoreInner) : List (String × Task) :=
  (inner.entries.entries.filter fun pair => pair.2.peerKey = key).map fun pair =>
    (pair.1, pair.2.task)

theorem listTasks_listed {inner : TaskStoreInner} {key : String} {swept : DateTime} :
    (listTasks inner key swept).value =
      (listed key (inner.cleanupExpired swept)).map Prod.snd := by
  unfold listTasks listed HashMap.values
  simp only [List.filter_map, List.map_map]
  rfl

theorem mem_listed {inner : TaskStoreInner} {key : String} {now : DateTime} {shown : String × Task} :
    shown ∈ listed key (inner.cleanupExpired now) ↔
      ∃ entry, visible key now inner shown.1 = some entry ∧ entry.task = shown.2 := by
  rw [visible_kept]
  constructor
  · intro h
    obtain ⟨pair, hpair, rfl⟩ := List.mem_map.mp h
    obtain ⟨hmem, hkey⟩ := List.mem_filter.mp hpair
    refine ⟨pair.2, ?_, rfl⟩
    rw [HashMap.lookup_eq_some_iff.mpr hmem, Option.filter_some, if_pos hkey]
  · rintro ⟨entry, hentry, htask⟩
    obtain ⟨hlookup, hkey⟩ := Option.filter_eq_some_iff.mp hentry
    refine List.mem_map.mpr ⟨⟨shown.1, entry⟩, List.mem_filter.mpr
      ⟨HashMap.lookup_eq_some_iff.mp hlookup, hkey⟩, ?_⟩
    exact Prod.ext rfl htask

theorem nodup_listed_ids {inner : TaskStoreInner} {key : String} :
    ((listed key inner).map Prod.fst).Nodup := by
  have hfst : (listed key inner).map Prod.fst =
      (inner.entries.entries.filter fun pair => pair.2.peerKey = key).map Sigma.fst := by
    rw [listed, List.map_map]
    rfl
  rw [hfst]
  exact inner.entries.nodupKeys.sublist List.filter_sublist

theorem nodup_listed {inner : TaskStoreInner} {key : String} : (listed key inner).Nodup :=
  nodup_listed_ids.of_map

/-- The same tasks are listed, in some order. -/
theorem listTasks_perm {inner other : TaskStoreInner} {key : String} {swept : DateTime}
    (h : SameView key swept inner other) :
    (listTasks inner key swept).value.Perm (listTasks other key swept).value := by
  rw [listTasks_listed, listTasks_listed]
  refine List.Perm.map _ ((List.perm_ext_iff_of_nodup nodup_listed nodup_listed).mpr ?_)
  intro shown
  rw [mem_listed, mem_listed]
  rcases h.cases shown.1 with ⟨hnone, hnone'⟩ | ⟨entry, entry', hsome, hsome', hsame⟩
  · simp [hnone, hnone']
  · simp [hsome, hsome', hsame.task]

end RustMcpCore.TaskStore
