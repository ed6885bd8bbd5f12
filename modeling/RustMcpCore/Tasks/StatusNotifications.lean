import RustMcpCore.Config.Root
import RustMcpCore.Tasks.Store

/-! # Status notifications

What the engine tells the peer of a task about its status.
-/
namespace RustMcpCore.TaskStore
open Library

structure CustomNotification where
  method : String
  params : Option Value

/-- How a task is written as JSON, and what comes of sending a notification to a peer,
with the text of the error. -/
structure Sender where
  toValue : Task → Except String Value
  sendNotification : Peer → CustomNotification → Except String Unit

variable (config : McpConfig) (sender : Sender) (task : Task) (peer : Peer)

def statusNotification (params : Value) : CustomNotification :=
  ⟨"notifications/tasks/status", some params⟩

def notifyTaskStatus : Except McpError Unit :=
  if !config.tasksStatusNotificationsActive then .ok ()
  else do
    let params ← (sender.toValue task).mapError (McpError.internalError · none)
    (sender.sendNotification peer (statusNotification params)).mapError fun error =>
      .internalError s!"failed to send task status notification: {error}" none

/-- The task can be written, and the peer takes the notification. -/
def Sender.Delivers : Prop :=
  ∃ params, sender.toValue task = .ok params ∧
    sender.sendNotification peer (statusNotification params) = .ok ()

variable {config sender task peer}

theorem notifyTaskStatus_eq_ok_iff : notifyTaskStatus config sender task peer = .ok () ↔
    (config.tasksStatusNotificationsActive = true → sender.Delivers task peer) := by
  unfold notifyTaskStatus Sender.Delivers
  cases config.tasksStatusNotificationsActive with
  | false => simp
  | true =>
    cases hvalue : sender.toValue task with
    | error error => simp [Except.mapError, bind, Except.bind]
    | ok params =>
      cases hsend : sender.sendNotification peer (statusNotification params) with
      | error error => simp [Except.mapError, bind, Except.bind, hsend]
      | ok => simp [Except.mapError, bind, Except.bind, hsend]

/-- Tasks with all capabilities and with status notifications. -/
def notifyingConfig : McpConfig :=
  { McpConfig.empty with tasks := some ⟨some true, ⟨true, true⟩, true⟩ }

end RustMcpCore.TaskStore
