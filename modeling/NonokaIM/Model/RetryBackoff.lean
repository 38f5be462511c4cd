import NonokaIM.Model.Consumer

/-! The waits between the attempts of `handleMessage`, in 64-bit integers as the source has them. -/

namespace NonokaIM

/-- Nanoseconds. -/
def defaultRetryBackoff : Int64 := 100000000

def maxBackoff : Int64 := 5000000000

structure RetryPolicy where
  maxRetries : Int64
  retryBackoff : Int64

/-- What `NewKafkaConsumer` makes of the two settings. -/
def newRetryPolicy (maxRetries retryBackoff : Int64) : RetryPolicy where
  maxRetries := if maxRetries < 0 then 0 else maxRetries
  retryBackoff := if retryBackoff ≤ 0 then defaultRetryBackoff else retryBackoff

/-- `1 << attempt`: bits that are shifted out of the word are lost. -/
def shiftedOne (attempt : ℕ) : Int64 := Int64.ofNat (2 ^ attempt)

inductive RetryEnd where
  | handled
  | interrupted
  | exhausted (lastErr : Option String)

namespace RetryPolicy

variable (p : RetryPolicy)

def backoff (attempt : ℕ) : Int64 :=
  let backoff := p.retryBackoff * shiftedOne attempt
  if maxBackoff < backoff then maxBackoff else backoff

def attempts : Int64 := p.maxRetries + 1

/-- The loop from an attempt on, with `left` passes: how it ends, and the waits that it computes,
each with its attempt. -/
def retryLoop (env : HandlerEnv) :
    (left attempt : ℕ) → (lastErr : Option String) → RetryEnd × List (ℕ × Int64)
  | 0, _, lastErr => (.exhausted lastErr, [])
  | left + 1, attempt, _ =>
    match env.result attempt with
    | .ok () => (.handled, [])
    | .error e =>
      if (attempt : Int) < p.maxRetries.toInt then
        let wait := (attempt, p.backoff attempt)
        if env.interrupted attempt then (.interrupted, [wait])
        else
          let rest := retryLoop env left (attempt + 1) (some e)
          (rest.1, wait :: rest.2)
      else retryLoop env left (attempt + 1) (some e)

def retry (env : HandlerEnv) : RetryEnd × List (ℕ × Int64) :=
  p.retryLoop env p.attempts.toInt.toNat 0 none

def waits (env : HandlerEnv) : List (ℕ × Int64) := (p.retry env).2

end RetryPolicy

end NonokaIM
