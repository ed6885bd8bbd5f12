import RustMcpCore.Config.Root
import RustMcpCore.Errors

/-! # What a client sees of an error -/
namespace RustMcpCore.McpConfig
variable (config : McpConfig) (error : McpError)

def shouldRedactInternalErrorForClient : Bool :=
  error.code = ErrorCode.internalError ∧ config.exposeInternalErrorDetails = false

def sanitizeClientError : McpError :=
  if config.shouldRedactInternalErrorForClient error then
    .internalError "internal server error" none
  else error

def sanitizeToolErrorMessage : String :=
  if config.shouldRedactInternalErrorForClient error then "internal server error"
  else error.message

def toolErrorResultFromError : CallToolResult :=
  toolExecutionErrorResult (config.sanitizeToolErrorMessage error)

@[simp]
theorem isError_toolErrorResultFromError :
    (config.toolErrorResultFromError error).isError = some true := rfl

end RustMcpCore.McpConfig
