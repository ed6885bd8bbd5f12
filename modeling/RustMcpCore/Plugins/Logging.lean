import Mathlib.Logic.Function.Basic
import RustMcpCore.Errors

/-! # Log messages for the client

The threshold of the messages is behind a pointer, and a clone of the state has the
same pointer. Whoever changes the threshold changes it for all clones.
-/
namespace RustMcpCore.Logging

inductive LoggingLevel
  | debug
  | info
  | notice
  | warning
  | error
  | critical
  | alert
  | emergency
  deriving DecidableEq

def loggingLevelRank : LoggingLevel → UInt8
  | .debug => 0
  | .info => 1
  | .notice => 2
  | .warning => 3
  | .error => 4
  | .critical => 5
  | .alert => 6
  | .emergency => 7

def u8ToLoggingLevel : UInt8 → LoggingLevel
  | 0 => .debug
  | 1 => .info
  | 2 => .notice
  | 3 => .warning
  | 4 => .error
  | 5 => .critical
  | 6 => .alert
  | 7 => .emergency
  | _ => .info

@[simp]
theorem u8ToLoggingLevel_rank (level : LoggingLevel) :
    u8ToLoggingLevel (loggingLevelRank level) = level := by
  cases level <;> rfl

structure ClientLoggingConfig where
  level : LoggingLevel

/-- What an `Arc<AtomicU8>` points to. -/
abbrev Cell := ℕ
abbrev Cells := Cell → UInt8

structure ClientLoggingState where
  enabled : Bool
  minLevel : Cell

namespace ClientLoggingState
variable (state : ClientLoggingState) (cells : Cells) (level : LoggingLevel)

/-- The cell is a new one. -/
def new (enabled : Bool) (cell : Cell) : ClientLoggingState × Cells :=
  ({ enabled, minLevel := cell }, Function.update cells cell (loggingLevelRank level))

def clone : ClientLoggingState := { enabled := state.enabled, minLevel := state.minLevel }

def loadMinLevel : LoggingLevel := u8ToLoggingLevel (cells state.minLevel)

def setMinLevel : Cells := Function.update cells state.minLevel (loggingLevelRank level)

def shouldNotify : Bool :=
  state.enabled && loggingLevelRank (state.loadMinLevel cells) ≤ loggingLevelRank level

theorem loadMinLevel_setMinLevel : state.loadMinLevel (state.setMinLevel cells level) = level := by
  rw [loadMinLevel, setMinLevel, Function.update_self, u8ToLoggingLevel_rank]

end ClientLoggingState

inductive LogChannel
  | server
  | client
  deriving DecidableEq

structure LogResult where
  serverLogged : Bool
  clientNotified : Bool
  deriving DecidableEq

structure LogEventParams where
  level : LoggingLevel
  message : String
  data : Option Value
  channels : List LogChannel

structure LoggingMessageNotificationParam where
  level : LoggingLevel
  logger : Option String
  data : Value

def buildNotificationPayload (message : String) : Option Value → Value
  | some (.object object) =>
    if (object.lookup "message").isSome then .object object
    else .object (Map.insert object "message" (.string message))
  | some value => .object (Map.insert [("message", .string message)] "details" value)
  | none => .string message

abbrev Session := ℕ

/-- What a call of `log_event` reads. A request comes from the session that its peer serves. -/
structure PluginContext where
  request : Option Session
  clientLogging : ClientLoggingState

/-- The result, and the notification that the peer takes. The threshold is read once. -/
def PluginContext.logEvent (ctx : PluginContext) (cells : Cells) (params : LogEventParams)
    (sent : Except String Unit) :
    Except McpError LogResult × Option LoggingMessageNotificationParam :=
  let serverLogged := decide (.server ∈ params.channels)
  if .client ∈ params.channels ∧ ctx.clientLogging.shouldNotify cells params.level = true then
    match ctx.request, sent with
    | none, _ => (.ok { serverLogged, clientNotified := false }, none)
    | some _, .error error =>
      (.error (.internalError s!"failed to send logging notification: {error}" none), none)
    | some _, .ok () =>
      (.ok { serverLogged, clientNotified := true },
        some { level := params.level, logger := none
               data := buildNotificationPayload params.message params.data })
  else (.ok { serverLogged, clientNotified := false }, none)

/-- What an engine holds for log messages. -/
structure Engine where
  clientLogging : ClientLoggingState

namespace Engine
variable (engine : Engine)

/-- The section is present if the feature is active, and gives the first threshold. -/
def new (clientLogging : Option ClientLoggingConfig) (cells : Cells) (cell : Cell) : Engine × Cells :=
  let level := (clientLogging.map (·.level)).getD .info
  let (state, cells) := ClientLoggingState.new cells level clientLogging.isSome cell
  ({ clientLogging := state }, cells)

def clone : Engine := { clientLogging := engine.clientLogging.clone }

def buildPluginContext (request : Option Session) : PluginContext :=
  { request, clientLogging := engine.clientLogging.clone }

def handleSetLevelRequest (isCancelled : Bool) (level : LoggingLevel) (cells : Cells) :
    Except McpError Unit × Cells :=
  if isCancelled then (.error cancelledError, cells)
  else if !engine.clientLogging.enabled then (.ok (), cells)
  else (.ok (), engine.clientLogging.setMinLevel cells level)

theorem handleSetLevelRequest_of_enabled {engine : Engine} {level : LoggingLevel} {cells : Cells}
    (henabled : engine.clientLogging.enabled = true) :
    engine.handleSetLevelRequest false level cells =
      (.ok (), engine.clientLogging.setMinLevel cells level) := by
  simp [handleSetLevelRequest, henabled]

end Engine

/-- The handler of a session is a clone of the engine. -/
def engineHandlerFactory (engine : Engine) : Engine := engine.clone

/-- Two thresholds decide alike on a message exactly if it reaches both or neither. -/
theorem logEvent_eq_iff {ctx : PluginContext} {session : Session} {cells cells' : Cells}
    {params : LogEventParams} {sent : Except String Unit} (hrequest : ctx.request = some session) :
    ctx.logEvent cells params sent = ctx.logEvent cells' params sent ↔
      (.client ∈ params.channels → ctx.clientLogging.shouldNotify cells params.level =
        ctx.clientLogging.shouldNotify cells' params.level) := by
  unfold PluginContext.logEvent
  rw [hrequest]
  by_cases hclient : LogChannel.client ∈ params.channels
  · cases ctx.clientLogging.shouldNotify cells params.level <;>
      cases ctx.clientLogging.shouldNotify cells' params.level <;> cases sent <;> simp [hclient]
  · simp [hclient]

end RustMcpCore.Logging
