import RustMcpCore.Library.Text

/-! # Endpoint paths -/
namespace RustMcpCore
open Library

def normalizeEndpointPath (path : String) : String :=
  let trimmed := Text.trim path
  if trimmed = "" then "/mcp"
  else if trimmed = "/" then "/"
  else if trimmed.toList.head? = some '/' then Text.trimEndMatches trimmed '/'
  else "/" ++ Text.trimEndMatches trimmed '/'

end RustMcpCore
