import Mathlib.Data.Set.Function
import NonokaIM.Library.DocumentStore

/-! Refresh tokens: Redis holds one hash for every user and device, and a refresh reads, deletes and
stores with a command each. -/

namespace NonokaIM

open DocumentStore Function

structure ApiError where
  code : ℕ
  reason : String
  message : String
  deriving DecidableEq

namespace ApiError

def badRequest : String → String → ApiError := .mk 400

def unauthorized : String → String → ApiError := .mk 401

def forbidden : String → String → ApiError := .mk 403

def notFound : String → String → ApiError := .mk 404

def internalServer : String → String → ApiError := .mk 500

/-- An error that is not one of the API, as the server reports it. -/
def unknown (text : String) : ApiError := internalServer "" text

end ApiError

/-- The refresh tokens in the order in which they are drawn, and their hash. -/
structure TokenSource where
  token : ℕ → String
  hash : String → String
  distinct : Injective token
  hash_injOn : Set.InjOn hash (Set.range token)

/-- A user and a device, for the key `im:refresh:<user>:<device>`. -/
abbrev RefreshKey := Int × String

/-- How far a refresh has come that found its token in the store, and how one ended. -/
inductive RefreshStatus where
  | matched
  | deleted
  | accepted (refreshToken : String)
  | failed (err : ApiError)
  deriving DecidableEq

structure RefreshCall where
  key : RefreshKey
  refreshToken : String
  status : RefreshStatus
  deriving DecidableEq

/-- The stored hashes, the keys for which tokens were drawn so far, and the calls of `Refresh`. -/
structure AuthState where
  tokens : RefreshKey → Option String := fun _ => none
  issued : List RefreshKey := []
  calls : ℕ → Option RefreshCall := fun _ => none

inductive UserLookup where
  | found
  | missing
  | failed
  deriving DecidableEq

def getUserByID : UserLookup → Except ApiError Unit
  | .found => .ok ()
  | .missing => .error (.notFound "USER_NOT_FOUND" "user not found")
  | .failed => .error (.internalServer "DB_ERROR" "database error")

def saveRefreshTokenHash (key : RefreshKey) (hash : String) (fault : CallFault) (s : AuthState) :
    Except ApiError Unit × AuthState :=
  (if fault.reported then .error (.unknown "redis error") else .ok (),
    if fault.applied then { s with tokens := update s.tokens key (some hash) } else s)

def getRefreshTokenHash (key : RefreshKey) (fails : Bool) (s : AuthState) :
    Except ApiError String :=
  if fails then .error (.internalServer "REDIS_ERROR" "redis error")
  else
    match s.tokens key with
    | none =>
      .error (.notFound "REFRESH_TOKEN_NOT_FOUND" "refresh token not found or expired")
    | some hash => .ok hash

def deleteRefreshToken (key : RefreshKey) (fault : CallFault) (s : AuthState) :
    Except ApiError Unit × AuthState :=
  (if fault.reported then .error (.unknown "redis error") else .ok (),
    if fault.applied then { s with tokens := update s.tokens key none } else s)

/-- Draw a token and store its hash. Without a signed access token none is drawn. -/
def issueTokenPair (src : TokenSource) (key : RefreshKey) (signed : Bool) (fault : CallFault)
    (s : AuthState) : Except ApiError String × AuthState :=
  if signed then
    let token := src.token s.issued.length
    let saved := saveRefreshTokenHash key (src.hash token) fault
      { s with issued := s.issued ++ [key] }
    (saved.1.map fun _ => token, saved.2)
  else (.error (.unknown "sign access token"), s)

def checkRefreshToken (src : TokenSource) (key : RefreshKey) (refreshToken : String)
    (readFails : Bool) (s : AuthState) : Except ApiError Unit :=
  if refreshToken = "" then
    .error (.unauthorized "INVALID_REFRESH_TOKEN" "refresh token required")
  else
    match getRefreshTokenHash key readFails s with
    | .error _ =>
      .error (.unauthorized "INVALID_REFRESH_TOKEN" "invalid or expired refresh token")
    | .ok storedHash =>
      if storedHash = src.hash refreshToken then .ok ()
      else .error (.unauthorized "INVALID_REFRESH_TOKEN" "invalid or expired refresh token")

def AuthState.setCall (s : AuthState) (id : ℕ) (call : RefreshCall) : AuthState :=
  { s with calls := update s.calls id (some call) }

def refreshRead (src : TokenSource) (id : ℕ) (key : RefreshKey) (refreshToken : String)
    (readFails : Bool) (s : AuthState) : AuthState :=
  match checkRefreshToken src key refreshToken readFails s with
  | .error e => s.setCall id { key, refreshToken, status := .failed e }
  | .ok () => s.setCall id { key, refreshToken, status := .matched }

def refreshDelete (id : ℕ) (call : RefreshCall) (user : UserLookup) (fault : CallFault)
    (s : AuthState) : AuthState :=
  match getUserByID user with
  | .error e => s.setCall id { call with status := .failed e }
  | .ok () =>
    let deleted := deleteRefreshToken call.key fault s
    match deleted.1 with
    | .error e => deleted.2.setCall id { call with status := .failed e }
    | .ok () => deleted.2.setCall id { call with status := .deleted }

def refreshIssue (src : TokenSource) (id : ℕ) (call : RefreshCall) (signed : Bool)
    (fault : CallFault) (s : AuthState) : AuthState :=
  let issued := issueTokenPair src call.key signed fault s
  match issued.1 with
  | .error e => issued.2.setCall id { call with status := .failed e }
  | .ok token => issued.2.setCall id { call with status := .accepted token }

/-- One operation of some call. A login is its one write, after user and password were found to
match, and a logout its one delete. -/
inductive AuthOp where
  | refresh (id : ℕ) (key : RefreshKey) (refreshToken : String) (readFails : Bool)
  | delete (id : ℕ) (user : UserLookup) (fault : CallFault)
  | issue (id : ℕ) (signed : Bool) (fault : CallFault)
  | login (key : RefreshKey) (signed : Bool) (fault : CallFault)
  | logout (key : RefreshKey) (fault : CallFault)

/-- Carry an operation out; one that is not the next of its call is no operation. -/
def authStep (src : TokenSource) (s : AuthState) : AuthOp → AuthState
  | .refresh id key refreshToken readFails =>
    match s.calls id with
    | none => refreshRead src id key refreshToken readFails s
    | some _ => s
  | .delete id user fault =>
    match s.calls id with
    | none => s
    | some call => if call.status = .matched then refreshDelete id call user fault s else s
  | .issue id signed fault =>
    match s.calls id with
    | none => s
    | some call => if call.status = .deleted then refreshIssue src id call signed fault s else s
  | .login key signed fault => (issueTokenPair src key signed fault s).2
  | .logout key fault => (deleteRefreshToken key fault s).2

end NonokaIM
