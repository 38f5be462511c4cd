import NonokaIM.Library.ExpiringCounters

/-! The rate limits of the auth endpoints (`internal/server/ratelimit.go`): fixed windows, each a
counter in Redis. Times are in seconds. -/

namespace NonokaIM

open ExpiringCounters

/-- How a command ends: answered, failed without effect, carried out although an error is
reported, or never answered because the process stops. -/
inductive CommandFault where
  | none
  | failed
  | lost
  | crashed (applied : Bool)
  deriving DecidableEq

def CommandFault.applied : CommandFault → Bool
  | .none => true
  | .failed => false
  | .lost => true
  | .crashed applied => applied

abbrev RateCounters := Counters String

def rateLimitWindow : ℕ := 60

inductive RateKey where
  | loginIP (ip : String)
  | loginUser (username : String)
  | registerIP (ip : String)
  deriving DecidableEq

def RateKey.text : RateKey → String
  | .loginIP ip => "im:rl:login:ip:" ++ ip
  | .loginUser username => "im:rl:login:user:" ++ username
  | .registerIP ip => "im:rl:register:ip:" ++ ip

def RateKey.limit : RateKey → ℕ
  | .loginIP _ => 10
  | .loginUser _ => 5
  | .registerIP _ => 5

/-- `resends` counts the executions of `INCR` whose replies were lost, so that the client sent the
command again. -/
structure WindowFault where
  incr : CommandFault := .none
  expire : CommandFault := .none
  text : String := ""
  resends : ℕ := 0

def WindowFault.executions (fault : WindowFault) : ℕ :=
  fault.resends + if fault.incr.applied then 1 else 0

structure Allowance where
  allowed : Bool
  err : Option String := none

/-- One fixed window. A call without an allowance has not come to its end. -/
def allowN (fault : WindowFault) (key : String) (limit : ℕ) (s : RateCounters) :
    Option Allowance × RateCounters :=
  let s₁ := s.incrs key fault.executions
  match fault.incr with
  | .crashed _ => (none, s₁)
  | .failed | .lost => (some ⟨true, some fault.text⟩, s₁)
  | .none =>
    let n := s₁.value key
    if n = 1 then
      let s₂ := if fault.expire.applied then s₁.expire key rateLimitWindow else s₁
      match fault.expire with
      | .crashed _ => (none, s₂)
      | .failed | .lost => (some ⟨true, some fault.text⟩, s₂)
      | .none => (some ⟨n ≤ limit, none⟩, s₂)
    else (some ⟨n ≤ limit, none⟩, s₁)

def RateKey.allowN (fault : WindowFault) (key : RateKey) (s : RateCounters) :
    Option Allowance × RateCounters :=
  NonokaIM.allowN fault key.text key.limit s

/-- Without a Redis client nothing is limited. -/
structure AuthRateLimiter where
  redis : Bool := true

structure AllowCall where
  operation : String
  ip : String
  username : String
  first : WindowFault := {}
  second : WindowFault := {}

def AllowCall.clientIP (call : AllowCall) : String := if call.ip = "" then "unknown" else call.ip

def loginOperation : String := "/api.im.v1.AuthService/Login"

def registerOperation : String := "/api.im.v1.AuthService/Register"

def AuthRateLimiter.allow (l : AuthRateLimiter) (call : AllowCall) (s : RateCounters) :
    Option Allowance × RateCounters :=
  if l.redis = false then (some ⟨true, none⟩, s)
  else if call.operation = loginOperation then
    match RateKey.allowN call.first (.loginIP call.clientIP) s with
    | (some ⟨true, none⟩, s₁) =>
      if call.username ≠ "" then RateKey.allowN call.second (.loginUser call.username) s₁
      else (some ⟨true, none⟩, s₁)
    | stopped => stopped
  else if call.operation = registerOperation then
    RateKey.allowN call.first (.registerIP call.clientIP) s
  else (some ⟨true, none⟩, s)

inductive RateEvent where
  | allow (call : AllowCall)
  | elapse (time : ℕ)

def RateEvent.step (l : AuthRateLimiter) (s : RateCounters) : RateEvent → RateCounters
  | .allow call => (l.allow call s).2
  | .elapse time => s.elapse time

end NonokaIM
