import NonokaIM.Library.BinaryRounding
import NonokaIM.Model.Auth

/-! Login and logout (`internal/service/auth.go`, `internal/biz/auth.go`, `internal/data/auth.go`).
A logout finds user and device in the claims of its access token. -/

namespace NonokaIM

open DocumentStore

structure AuthUser where
  id : Int
  username : String
  password : String

structure AccessClaims where
  userID : Int
  username : String
  deviceID : String
  deriving DecidableEq

def signAccessToken (user : AuthUser) (deviceID : String) : AccessClaims where
  userID := user.id
  username := user.username
  deviceID := deviceID

/-- A JSON number is read as a `float64` and converted to an `int64`; `wide` converts what is out of
range, which depends on the platform. -/
def readInt64 (wide : Int → Int) (n : Int) : Int :=
  let x := BinaryRounding.roundInt 53 n
  if -2 ^ 63 ≤ x ∧ x < 2 ^ 63 then x else wide x

def extractUserIDFromContext (wide : Int → Int) : Option AccessClaims → Int
  | none => 0
  | some claims => readInt64 wide claims.userID

def extractDeviceIDFromContext : Option AccessClaims → String
  | none => "default"
  | some claims => if claims.deviceID ≠ "" then claims.deviceID else "default"

structure LoginReply where
  userID : Int
  token : AccessClaims
  refreshToken : String
  deriving DecidableEq

/-- What the repository finds for the name, whether the password matches, and how signing and the
write of the hash end. -/
structure LoginEnv where
  user : Option AuthUser
  passwordMatches : AuthUser → Bool
  signed : Bool := true
  fault : CallFault := .none

def authFailed : ApiError := .unauthorized "AUTH_FAILED" "invalid username or password"

def login (src : TokenSource) (env : LoginEnv) (deviceID : String) (s : AuthState) :
    Except ApiError LoginReply × AuthState :=
  match env.user with
  | none => (.error authFailed, s)
  | some user =>
    if env.passwordMatches user then
      let issued := issueTokenPair src (user.id, deviceID) env.signed env.fault s
      (issued.1.map fun refreshToken =>
          { userID := user.id, token := signAccessToken user deviceID, refreshToken },
        issued.2)
    else (.error authFailed, s)

def logout (wide : Int → Int) (claims : Option AccessClaims) (fault : CallFault) (s : AuthState) :
    Except ApiError Unit × AuthState :=
  let userID := extractUserIDFromContext wide claims
  if userID = 0 then (.error (.unauthorized "UNAUTHORIZED" "authentication required"), s)
  else deleteRefreshToken (userID, extractDeviceIDFromContext claims) fault s

end NonokaIM
