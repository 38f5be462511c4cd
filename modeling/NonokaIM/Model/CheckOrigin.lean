import Mathlib.Data.List.DropRight
import NonokaIM.Model.Topic

/-! Which pages may open a WebSocket (`buildCheckOrigin` in `internal/gateway/server.go`). `toLower`
is the lower case of a character. -/

namespace NonokaIM

def trimSpace (text : List Char) : List Char := (text.dropWhile isSpace).rdropWhile isSpace

/-- The check, for the value of the `Origin` header; a request without the header has the empty
one. -/
def buildCheckOrigin (toLower : Char → Char) (allowedOrigins : List String) (origin : String) :
    Bool :=
  if allowedOrigins = [] then true
  else
    let allowed := allowedOrigins.map fun o => (trimSpace o.toList).map toLower
    let lowered := origin.toList.map toLower
    if lowered = [] then false
    else allowed.any fun a => a = lowered || a.isSuffixOf lowered

end NonokaIM
