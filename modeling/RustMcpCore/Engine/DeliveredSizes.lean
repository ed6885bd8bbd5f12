import RustMcpCore.Engine.Handlers
import RustMcpCore.Engine.ToolFailures
import RustMcpCore.Tasks.Lifecycle

/-! # The sizes of what is delivered

A tool result is checked against the limits once, when the tool has run. What the store
puts in place of it and what is added to it on the way to a client is not checked again.
-/
namespace RustMcpCore
open Library

/-- No limit, or one that is not exceeded. -/
def AtMost (size : ℕ) : Option UInt64 → Prop
  | none => True
  | some limit => size ≤ limit.toNat

section Limits
variable (serde : ResultSerde)

/-- The class and the bytes of a content block. -/
def IsBlock (content : Content) (block : ContentClass × ℕ) : Prop :=
  ∃ value, serde.contentValue content = .ok value ∧ serde.valueLen value = .ok block.2 ∧
    block.1 = classifyContentBlock value

def IsStructured (structured : Option Value) (size : ℕ) : Prop :=
  match structured with
  | none => size = 0
  | some value => serde.valueLen value = .ok size

def bytesOf (blockClass : ContentClass) (blocks : List (ContentClass × ℕ)) : ℕ :=
  ((blocks.filter fun block => block.1 = blockClass).map Prod.snd).sum

/-- Every configured limit is kept: for the blocks of each class together, for the
structured content and for the whole result. -/
structure Within (limits : ResponseLimitsConfig) (result : CallToolResult) : Prop where
  blocks : ∃ blocks, List.Forall₂ (IsBlock serde) result.content blocks ∧
    AtMost (bytesOf .text blocks) limits.textBytes ∧
    AtMost (bytesOf .binary blocks) limits.binaryBytes ∧
    AtMost (bytesOf .other blocks) limits.otherBytes
  structured : ∃ size, IsStructured serde result.structuredContent size ∧
    AtMost size limits.structuredBytes
  total : ∃ size, serde.resultLen result = .ok size ∧ AtMost size limits.totalBytes

def WithinLimits (limits : Option ResponseLimitsConfig) (result : CallToolResult) : Prop :=
  ∀ config, limits = some config → Within serde config result

end Limits

section Enforce
variable {serde : ResultSerde}

theorem checkLimit_ok {size : ℕ} {limit : Option UInt64} {label : String} :
    checkLimit size limit label = .ok () ↔ AtMost size limit := by
  unfold checkLimit AtMost
  cases limit with
  | none => exact iff_of_true rfl trivial
  | some limit =>
    simp only
    split
    · exact iff_of_true rfl ‹_›
    · exact iff_of_false nofun ‹_›

def addBlocks (bytes : ResponseBytes) (blocks : List (ContentClass × ℕ)) : ResponseBytes :=
  blocks.foldl (fun bytes block => bytes.add block.2 block.1) bytes

theorem measureBlock_ok {bytes bytes' : ResponseBytes} {content : Content} :
    measureBlock serde bytes content = .ok bytes' ↔
      ∃ block, IsBlock serde content block ∧ bytes' = bytes.add block.2 block.1 := by
  constructor
  · intro h
    obtain ⟨value, hvalue, h⟩ := bind_eq_ok h
    obtain ⟨size, hsize, h⟩ := bind_eq_ok h
    cases h
    exact ⟨(classifyContentBlock value, size),
      ⟨value, mapError_eq_ok.mp hvalue, mapError_eq_ok.mp hsize, rfl⟩, rfl⟩
  · rintro ⟨⟨blockClass, size⟩, ⟨value, hvalue, hsize, rfl⟩, rfl⟩
    unfold measureBlock
    rw [hvalue]
    simp only at hsize
    change ((serde.valueLen value).mapError _ >>= _) = _
    rw [hsize]
    rfl

theorem measureBlocks_ok {bytes bytes' : ResponseBytes} {content : List Content} :
    content.foldlM (measureBlock serde) bytes = .ok bytes' ↔
      ∃ blocks, List.Forall₂ (IsBlock serde) content blocks ∧ bytes' = addBlocks bytes blocks := by
  induction content generalizing bytes with
  | nil =>
    constructor
    · intro h
      cases h
      exact ⟨[], .nil, rfl⟩
    · rintro ⟨blocks, hblocks, rfl⟩
      cases hblocks
      rfl
  | cons content rest ih =>
    rw [List.foldlM_cons]
    constructor
    · intro h
      obtain ⟨next, hnext, h⟩ := bind_eq_ok h
      obtain ⟨block, hblock, rfl⟩ := measureBlock_ok.mp hnext
      obtain ⟨blocks, hblocks, rfl⟩ := ih.mp h
      exact ⟨block :: blocks, .cons hblock hblocks, rfl⟩
    · rintro ⟨blocks, hblocks, rfl⟩
      cases hblocks with
      | @cons _ block _ blocks hblock hblocks =>
        have hnext : measureBlock serde bytes content = .ok (bytes.add block.2 block.1) :=
          measureBlock_ok.mpr ⟨block, hblock, rfl⟩
        rw [hnext]
        exact ih.mpr ⟨blocks, hblocks, rfl⟩

theorem bytesOf_cons (blockClass : ContentClass) (block : ContentClass × ℕ)
    (blocks : List (ContentClass × ℕ)) : bytesOf blockClass (block :: blocks) =
      (if block.1 = blockClass then block.2 else 0) + bytesOf blockClass blocks := by
  unfold bytesOf
  rw [List.filter_cons]
  by_cases h : block.1 = blockClass
  · simp [h]
  · simp [h]

theorem addBlocks_eq (bytes : ResponseBytes) (blocks : List (ContentClass × ℕ)) :
    addBlocks bytes blocks =
      { bytes with
        text := bytes.text + bytesOf .text blocks
        binary := bytes.binary + bytesOf .binary blocks
        other := bytes.other + bytesOf .other blocks } := by
  induction blocks generalizing bytes with
  | nil => rfl
  | cons block rest ih =>
    obtain ⟨blockClass, size⟩ := block
    have hcons : addBlocks bytes ((blockClass, size) :: rest) =
        addBlocks (bytes.add size blockClass) rest := rfl
    rw [hcons, ih, bytesOf_cons, bytesOf_cons, bytesOf_cons]
    cases blockClass with
    | text => simp [ResponseBytes.add, Nat.add_assoc]
    | binary => simp [ResponseBytes.add, Nat.add_assoc]
    | other => simp [ResponseBytes.add, Nat.add_assoc]

theorem measureStructured_ok {structured : Option Value} {size : ℕ} :
    measureStructured serde structured = .ok size ↔ IsStructured serde structured size := by
  unfold measureStructured IsStructured
  cases structured with
  | none => exact ⟨fun h => (Except.ok.inj h).symm, fun h => congrArg _ h.symm⟩
  | some value => exact mapError_eq_ok

/-- What passes the check is within the limits. -/
theorem enforceResponseLimits_ok {limits : Option ResponseLimitsConfig} {result : CallToolResult} :
    enforceResponseLimits serde result limits = .ok () ↔ WithinLimits serde limits result := by
  cases limits with
  | none => exact iff_of_true rfl nofun
  | some config =>
    unfold WithinLimits
    simp only [Option.some.injEq, forall_eq']
    constructor
    · intro h
      obtain ⟨bytes, hbytes, h⟩ := bind_eq_ok h
      obtain ⟨total, htotal, hbytes⟩ := bind_eq_ok hbytes
      obtain ⟨structured, hstructured, hbytes⟩ := bind_eq_ok hbytes
      obtain ⟨blocks, hblocks, rfl⟩ := measureBlocks_ok.mp hbytes
      obtain ⟨⟨⟩, htext, h⟩ := bind_eq_ok h
      obtain ⟨⟨⟩, hstructuredLimit, h⟩ := bind_eq_ok h
      obtain ⟨⟨⟩, hbinary, h⟩ := bind_eq_ok h
      obtain ⟨⟨⟩, hother, htotalLimit⟩ := bind_eq_ok h
      rw [checkLimit_ok, addBlocks_eq] at htext hstructuredLimit hbinary hother htotalLimit
      simp only [Nat.zero_add] at htext hstructuredLimit hbinary hother htotalLimit
      exact ⟨⟨blocks, hblocks, htext, hbinary, hother⟩,
        ⟨structured, measureStructured_ok.mp hstructured, hstructuredLimit⟩,
        ⟨total, mapError_eq_ok.mp htotal, htotalLimit⟩⟩
    · rintro ⟨⟨blocks, hblocks, htext, hbinary, hother⟩, ⟨structured, hstructured, hlimit⟩,
        ⟨total, htotal, htotalLimit⟩⟩
      have hmeasure : measureResultBytes serde result =
          .ok (addBlocks { text := 0, structured, binary := 0, other := 0, total } blocks) := by
        unfold measureResultBytes
        rw [htotal, measureStructured_ok.mpr hstructured]
        exact measureBlocks_ok.mpr ⟨blocks, hblocks, rfl⟩
      unfold enforceResponseLimits
      simp only
      rw [hmeasure, addBlocks_eq]
      simp only [Nat.zero_add]
      change (checkLimit _ _ _ >>= fun _ => _) = _
      rw [checkLimit_ok.mpr htext]
      change (checkLimit _ _ _ >>= fun _ => _) = _
      rw [checkLimit_ok.mpr hlimit]
      change (checkLimit _ _ _ >>= fun _ => _) = _
      rw [checkLimit_ok.mpr hbinary]
      change (checkLimit _ _ _ >>= fun _ => _) = _
      rw [checkLimit_ok.mpr hother]
      exact checkLimit_ok.mpr htotalLimit

end Enforce

end RustMcpCore

namespace RustMcpCore.Dispatch
open Library Outbound

/-! ## Results of tasks -/

/-- `tasks/result` names the task in the result. -/
def annotated (taskId : String) (callResult : CallToolResult) : CallToolResult :=
  { callResult with metaValue := addRelatedTaskMeta taskId callResult.metaValue }

def limitOf (limits : ResponseLimitsConfig) : ContentClass → Option UInt64
  | .text => limits.textBytes
  | .binary => limits.binaryBytes
  | .other => limits.otherBytes

/-- There is room for the name of the task, and for the text of a cancellation. -/
structure LeavesRoom (serde : ResultSerde) (limits : ResponseLimitsConfig) (taskId : String)
    (callResult : CallToolResult) : Prop where
  total : ∃ size, serde.resultLen (annotated taskId callResult) = .ok size ∧
    AtMost size limits.totalBytes
  cancelled : callResult = cancelledToolResult →
    ∃ block, IsBlock serde (Content.text CANCELLED_ERROR_MESSAGE) block ∧
      AtMost block.2 (limitOf limits block.1)

section Delivered
variable (engine : Engine) (crates : Crates)

/-- What `execute_tool_with_context` returns. -/
def Executed (result : TerminalResult) : Prop :=
  ∃ (W : Type) (outside : EngineOutside W) (name : String) (args : Value)
    (request : Option RequestContext) (traffic : Traffic W),
    (engine.executeToolWithContext crates outside name args request traffic).1 = result

/-- The executions of tasks hand over what they have got from a tool. -/
def Handing (_ : TaskStore.State) (e : TaskStore.Event) : Prop :=
  ∀ taskId result swept now, e.1 = .finish taskId result swept now →
    Executed engine crates result

/-- What is stored has been checked, or it stands for a cancellation. -/
def Checked (s : TaskStore.State) : Prop :=
  ∀ taskId entry result, s.stored taskId = some entry → entry.terminalResult = some result →
    Executed engine crates result ∨ result = .ok cancelledToolResult

variable {engine crates} {limits : ResponseLimitsConfig} {taskId : String}
  {callResult : CallToolResult} {platform : Platform} {s t : TaskStore.State}
  {e : TaskStore.Event} {es : List TaskStore.Event}

theorem executed_within (h : Executed engine crates (.ok callResult)) :
    WithinLimits crates.results engine.config.responseLimits callResult := by
  obtain ⟨W, outside, name, args, request, traffic, h⟩ := h
  unfold Engine.executeToolWithContext at h
  split at h
  · cases h
  · obtain ⟨result, -, h⟩ := bind_eq_ok (mapError_eq_ok.mp h)
    obtain ⟨⟨⟩, henforce, h⟩ := bind_eq_ok h
    cases h
    exact enforceResponseLimits_ok.mp henforce

/-- The name of the task counts for nothing but the whole result. -/
theorem within_annotated (h : Within crates.results limits callResult) :
    Within crates.results limits (annotated taskId callResult) ↔
      ∃ size, crates.results.resultLen (annotated taskId callResult) = .ok size ∧
        AtMost size limits.totalBytes :=
  ⟨fun hwithin => hwithin.total, fun htotal => ⟨h.blocks, h.structured, htotal⟩⟩

theorem forall₂_singleton {serde : ResultSerde} {content : Content}
    {blocks : List (ContentClass × ℕ)} :
    List.Forall₂ (IsBlock serde) [content] blocks ↔
      ∃ block, IsBlock serde content block ∧ blocks = [block] := by
  constructor
  · intro h
    cases h with
    | cons hblock hrest =>
      cases hrest
      exact ⟨_, hblock, rfl⟩
  · rintro ⟨block, hblock, rfl⟩
    exact .cons hblock .nil

theorem bytesOf_singleton (blockClass : ContentClass) (block : ContentClass × ℕ) :
    bytesOf blockClass [block] = if block.1 = blockClass then block.2 else 0 := by
  rw [bytesOf_cons]
  rfl

theorem atMost_zero (limit : Option UInt64) : AtMost 0 limit := by
  cases limit with
  | none => trivial
  | some limit => exact Nat.zero_le _

/-- One block is within the limits if it is within the one of its class. -/
theorem block_within (block : ContentClass × ℕ) :
    (AtMost (bytesOf .text [block]) limits.textBytes ∧
      AtMost (bytesOf .binary [block]) limits.binaryBytes ∧
        AtMost (bytesOf .other [block]) limits.otherBytes) ↔
      AtMost block.2 (limitOf limits block.1) := by
  obtain ⟨blockClass, size⟩ := block
  simp only [bytesOf_singleton]
  cases blockClass with
  | text => simp [limitOf, atMost_zero]
  | binary => simp [limitOf, atMost_zero]
  | other => simp [limitOf, atMost_zero]

theorem within_cancelled (serde : ResultSerde) :
    Within serde limits (annotated taskId cancelledToolResult) ↔
      LeavesRoom serde limits taskId cancelledToolResult := by
  have hblocks : (∃ blocks,
      List.Forall₂ (IsBlock serde) (annotated taskId cancelledToolResult).content blocks ∧
      AtMost (bytesOf .text blocks) limits.textBytes ∧
      AtMost (bytesOf .binary blocks) limits.binaryBytes ∧
      AtMost (bytesOf .other blocks) limits.otherBytes) ↔
        ∃ block, IsBlock serde (Content.text CANCELLED_ERROR_MESSAGE) block ∧
          AtMost block.2 (limitOf limits block.1) := by
    have hcontent : (annotated taskId cancelledToolResult).content =
        [Content.text CANCELLED_ERROR_MESSAGE] := rfl
    simp only [hcontent, forall₂_singleton, ← block_within]
    constructor
    · rintro ⟨blocks, ⟨block, hblock, rfl⟩, hwithin⟩
      exact ⟨block, hblock, hwithin⟩
    · rintro ⟨block, hblock, hwithin⟩
      exact ⟨[block], ⟨block, hblock, rfl⟩, hwithin⟩
  constructor
  · intro h
    exact ⟨h.total, fun _ => hblocks.mp h.blocks⟩
  · intro h
    exact ⟨hblocks.mpr (h.cancelled rfl), ⟨0, rfl, atMost_zero _⟩, h.total⟩

theorem settles_cases {status : TaskStatus} {result : TerminalResult}
    (h : TaskStore.settles taskId e = some (status, result)) :
    (∃ swept now, e.1 = .finish taskId result swept now) ∨ result = .ok cancelledToolResult := by
  unfold TaskStore.settles at h
  split at h
  · split at h
    · rename_i hid
      cases h
      exact .inl ⟨_, _, by rw [hid]⟩
    · cases h
  · split at h
    · cases h
      exact .inr rfl
    · cases h
  · cases h

theorem init_checked : Checked engine crates (TaskStore.machine platform).init := by
  intro taskId entry result hstored
  cases hstored

theorem step_checked (hs : Checked engine crates s)
    (he : Guarded (TaskStore.machine platform).Step (Handing engine crates) s e t) :
    Checked engine crates t := by
  obtain ⟨hstep, hguard⟩ := he
  intro taskId entry result hstored hresult
  cases TaskStore.step_entry taskId hstep with
  | gone _ after =>
    rw [after] at hstored
    cases hstored
  | kept _ before after =>
    rw [after] at hstored
    cases hstored
    exact hs taskId _ result before hresult
  | created _ _ _ after _ noResult =>
    rw [after] at hstored
    cases hstored
    rw [noResult] at hresult
    cases hresult
  | settled entry' _ _ after stores settle =>
    rw [after] at hstored
    cases hstored
    rw [stores] at hresult
    cases hresult
    refine (settles_cases (TaskStore.cellEvent_eq_settle.mp settle)).imp_left ?_
    rintro ⟨swept, now, hfinish⟩
    exact hguard taskId _ swept now hfinish

/-- What waiters are shown was checked, or stands for a cancellation. -/
theorem runs_shown_checked
    (hr : Runs (Guarded (TaskStore.machine platform).Step (Handing engine crates))
      (TaskStore.machine platform).init es s) :
    ∀ e ∈ es, ∀ taskId result, TaskStore.shows taskId e = some result →
      Executed engine crates result ∨ result = .ok cancelledToolResult := by
  have hboth : Checked engine crates s ∧ ∀ e ∈ es, ∀ taskId result,
      TaskStore.shows taskId e = some result →
        Executed engine crates result ∨ result = .ok cancelledToolResult := by
    refine hr.history (fun es s => Checked engine crates s ∧ ∀ e ∈ es, ∀ taskId result,
      TaskStore.shows taskId e = some result →
        Executed engine crates result ∨ result = .ok cancelledToolResult) ?_
      ⟨init_checked, fun _ h => absurd h List.not_mem_nil⟩
    rintro past s e t ⟨hchecked, hpast⟩ he
    refine ⟨step_checked hchecked he, fun f hf taskId result hshows => ?_⟩
    rcases List.mem_append.mp hf with hf | hf
    · exact hpast f hf taskId result hshows
    · rw [List.mem_singleton.mp hf] at hshows
      obtain ⟨entry, hstored, hresult⟩ := TaskStore.shown_stored he.1 hshows
      exact hchecked taskId entry result hstored hresult
  exact hboth.2

/-- Tool calls deliver what is within the limits, and tasks deliver it exactly if there is
room for what is added after the check. -/
theorem delivered_within_limits
    (hr : Runs (Guarded (TaskStore.machine platform).Step (Handing engine crates))
      (TaskStore.machine platform).init es s) :
    (∀ callResult, Executed engine crates (.ok callResult) →
      WithinLimits crates.results engine.config.responseLimits callResult) ∧
    ∀ e ∈ es, ∀ taskId callResult, TaskStore.shows taskId e = some (.ok callResult) →
      (WithinLimits crates.results engine.config.responseLimits (annotated taskId callResult) ↔
        ∀ limits, engine.config.responseLimits = some limits →
          LeavesRoom crates.results limits taskId callResult) := by
  refine ⟨fun _ => executed_within, fun e he taskId callResult hshows => ?_⟩
  have horigin := runs_shown_checked hr e he taskId (.ok callResult) hshows
  refine forall₂_congr fun limits hlimits => ?_
  by_cases hcancelled : callResult = cancelledToolResult
  · rw [hcancelled]
    exact within_cancelled crates.results
  · have hexecuted : Executed engine crates (.ok callResult) :=
      horigin.resolve_right fun h => hcancelled (Except.ok.inj h)
    rw [within_annotated (executed_within hexecuted limits hlimits)]
    exact ⟨fun htotal => ⟨htotal, fun h => absurd h hcancelled⟩, fun h => h.total⟩

end Delivered

/-! ## A limit below the text of a cancellation -/

namespace Sizes

/-- The sizes of the result of a cancelled task `task-0`, with its name and without. -/
def serde : ResultSerde where
  resultLen callResult := .ok (if callResult.metaValue.isSome then 140 else 71)
  resultValue _ := .ok .null
  contentValue _ := .ok (.object
    [("text", .string CANCELLED_ERROR_MESSAGE), ("type", .string "text")])
  valueLen _ := .ok 42

def crates : Crates := { Greeting.crates with results := serde }

def engine (textBytes : UInt64) : Engine :=
  { Greeting.engine with
    config := { Greeting.engine.config with
      server := { Greeting.engine.config.server with
        responseLimits := some ⟨some textBytes, none, none, none, none⟩ } } }

def cancelling : List TaskStore.Label :=
  [.create 0 "peer" none 0 0, .cancel "task-0" "peer" 1 1, .perform, .perform,
    .wait 0 "task-0" "peer", .check 0 2]

theorem cancelling_runs (textBytes : UInt64) : ∃ es s,
    Runs (Guarded (TaskStore.machine TaskStore.samplePlatform).Step
      (Handing (engine textBytes) crates)) (TaskStore.machine TaskStore.samplePlatform).init es s ∧
      ∃ e ∈ es, TaskStore.shows "task-0" e = some (.ok cancelledToolResult) := by
  have hmeets : (TaskStore.machine TaskStore.samplePlatform).Meets
      (Handing (engine textBytes) crates) TaskStore.State.init cancelling := by
    refine ⟨?_, ?_, ?_, ?_, ?_, ?_, trivial⟩
    all_goals
      intro taskId result swept now h
      cases h
  have hr := hmeets.runs rfl
  exact ⟨_, _, hr, _, .tail _ (.tail _ (.tail _ (.tail _ (.tail _ (.head _))))), rfl⟩

theorem isBlock_cancelled {block : ContentClass × ℕ}
    (h : IsBlock serde (Content.text CANCELLED_ERROR_MESSAGE) block) : block = (.text, 42) := by
  obtain ⟨value, hvalue, hsize, hclass⟩ := h
  cases hvalue
  exact Prod.ext (hclass.trans (by decide)) (Except.ok.inj hsize).symm

end Sizes

theorem delivered_within_limits_cancelled : ∃ e : TaskStore.Event,
    TaskStore.shows "task-0" e = some (.ok cancelledToolResult) ∧
      WithinLimits Sizes.serde (Sizes.engine 100).config.responseLimits
        (annotated "task-0" cancelledToolResult) := by
  obtain ⟨es, s, hr, e, he, hshows⟩ := Sizes.cancelling_runs 100
  refine ⟨e, hshows, ((delivered_within_limits hr).2 e he "task-0" _ hshows).mpr ?_⟩
  intro limits hlimits
  cases hlimits
  refine ⟨⟨140, rfl, trivial⟩, fun _ => ⟨(.text, 42), ⟨_, rfl, rfl, by decide⟩, ?_⟩⟩
  exact (by decide : 42 ≤ (100 : UInt64).toNat)

/-- A client collects the result of a task it has cancelled, which is above the limit. -/
theorem cancelled_result_exceeds_limit : ∃ es s,
    Runs (Guarded (TaskStore.machine TaskStore.samplePlatform).Step
      (Handing (Sizes.engine 10) Sizes.crates)) (TaskStore.machine TaskStore.samplePlatform).init
      es s ∧
      ∃ e ∈ es, TaskStore.shows "task-0" e = some (.ok cancelledToolResult) ∧
        ¬ WithinLimits Sizes.serde (Sizes.engine 10).config.responseLimits
          (annotated "task-0" cancelledToolResult) := by
  obtain ⟨es, s, hr, e, he, hshows⟩ := Sizes.cancelling_runs 10
  refine ⟨es, s, hr, e, he, hshows, fun hwithin => ?_⟩
  obtain ⟨block, hblock, hle⟩ :=
    ((within_cancelled Sizes.serde).mp (hwithin _ rfl)).cancelled rfl
  rw [Sizes.isBlock_cancelled hblock] at hle
  exact absurd hle (by decide : ¬ 42 ≤ (10 : UInt64).toNat)

end RustMcpCore.Dispatch
