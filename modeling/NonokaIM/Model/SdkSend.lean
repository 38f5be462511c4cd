import NonokaIM.Model.Gateway
import NonokaIM.Model.SdkClient

/-! Sending a message through the SDK, with its retries. What happens to an attempt, and what other
goroutines handle meanwhile, are inputs. -/

namespace NonokaIM.Sdk

def maxSendRetries : ℕ := 3

/-- In nanoseconds. -/
def sendCacheTTL : Int := 30 * 1000000000

/-! ## One attempt -/

structure ErrorPayload where
  code : Int
  message : String
  retryable : Bool
  retryAfterMs : ℕ := 0
  deriving DecidableEq

/-- What the gateway's `sendError` puts into a packet. -/
def sendError (e : ErrorResponse) : ErrorPayload where
  code := e.code
  message := e.message
  retryable := e.retryable

structure Packet where
  error : Option ErrorPayload := none
  sendReply : Option SendResult := none
  deriving DecidableEq

def checkError (packet : Packet) : Option ServerError :=
  packet.error.map fun e => ⟨e.code, e.message, e.retryable, e.retryAfterMs⟩

inductive Response where
  | notAuthed
  | notSent (message : String)
  | closed
  | packet (answer : Packet)
  | contextDone
  | timeout

/-- `RealtimeClient.SendMessageWithMentions` -/
def Response.result : Response → Except SendError SendResult
  | .notAuthed => .error .notConnected
  | .notSent message => .error (.transport message)
  | .closed => .error .requestTimeout
  | .packet answer =>
    match checkError answer with
    | some e => .error (.server e)
    | none =>
      match answer.sendReply with
      | none => .error .serverError
      | some reply => .ok reply
  | .contextDone => .error .context
  | .timeout => .error .requestTimeout

inductive SendRoute where
  | realtime (response : Response)
  | http (reply : Except String SendResult)
  | none

def trySendOnce : SendRoute → Except SendError SendResult
  | .realtime response => response.result
  | .http (.ok result) => .ok result
  | .http (.error message) => .error (.transport message)
  | .none => .error .notConnected

/-- `IsServerError` -/
def SendError.isServerError : SendError → Bool
  | .server _ => true
  | _ => false

/-- What is handled during the wait before the attempt, whether the context ends that wait, how the
attempt ends, what is handled until then, and the context and clock afterwards. -/
structure Attempt where
  waiting : List ClientEvent := []
  cancelled : Bool := false
  route : SendRoute
  handled : List ClientEvent := []
  contextDone : Bool := false
  now : Int := 0

/-! ## The retries -/

structure Sent where
  client : Client
  result : Except SendError SendResult
  attempts : List SendMessageRequest

namespace Client

def updateMsgStatus (c : Client) (clientMsgID : String) (status : MessageStatus) : Client :=
  { c with
    sendingMsgs := Function.update c.sendingMsgs clientMsgID
      ((c.sendingMsgs clientMsgID).map fun msg => { msg with status }) }

/-- An entry that is too old is removed. -/
def getSendCache (c : Client) (clientMsgID : String) (now : Int) : Client × Option SendCacheEntry :=
  match c.sendCache clientMsgID with
  | none => (c, none)
  | some entry =>
    if sendCacheTTL < now - entry.time then
      ({ c with sendCache := Function.update c.sendCache clientMsgID none }, none)
    else (c, some entry)

/-- Set the status of the message in flight, and with `caches` the cache. -/
def settle (caches : Bool) (c : Client) (clientMsgID : String) (status : MessageStatus)
    (result : Except SendError SendResult) (now : Int) : Client :=
  let c := c.updateMsgStatus clientMsgID status
  if caches then c.setSendCache clientMsgID result now else c

def sendLoop (caches : Bool) (req : SendMessageRequest) (env : ℕ → Attempt) :
    ℕ → ℕ → List SendMessageRequest → Client → Sent
  | retries, attempt, made, c =>
    let a := env attempt
    let c := if 0 < attempt then a.waiting.foldl handle c else c
    if 0 < attempt ∧ a.cancelled then
      ⟨c.settle caches req.clientMsgID .failed (.error .context) a.now, .error .context, made⟩
    else
      let c := a.handled.foldl handle c
      let made := made ++ [req]
      match trySendOnce a.route with
      | .ok result =>
        let c := c.settle caches req.clientMsgID .sent (.ok result) a.now
        ⟨c.untrackSendingMsg req.clientMsgID, .ok result, made⟩
      | .error err =>
        let failed : Sent :=
          ⟨(c.settle caches req.clientMsgID .failed (.error err) a.now).untrackSendingMsg
            req.clientMsgID, .error err, made⟩
        match retries with
        | 0 => failed
        | retries + 1 =>
          if a.contextDone || err.isServerError then failed
          else sendLoop caches req env retries (attempt + 1) made c

def sendingMsg (c : Client) (req : SendMessageRequest) (now : Int) : Message where
  msgID := 0
  topic := req.topic
  senderID := c.userID
  msgType := req.msgType
  content := req.content
  timestamp := unix now
  topicSeq := 0
  status := .sending
  clientMsgID := req.clientMsgID

/-- `clientMsgID` is a new UUID. -/
def sendMessage (c : Client) (topic : String) (msgType : Int) (content : List UInt8)
    (clientMsgID : String) (now : Int) (env : ℕ → Attempt) : Sent :=
  let req : SendMessageRequest := { topic, msgType, content, clientMsgID }
  match c.getSendCache clientMsgID now with
  | (c, some entry) => ⟨c, entry.result, []⟩
  | (c, none) =>
    (c.trackSendingMsg (c.sendingMsg req now)).sendLoop true req env maxSendRetries 0 []

def sendMessageWithMentions (c : Client) (topic : String) (msgType : Int) (content : List UInt8)
    (mentionedUserIDs : List Int) (clientMsgID : String) (now : Int) (env : ℕ → Attempt) : Sent :=
  let req : SendMessageRequest := { topic, msgType, content, clientMsgID, mentionedUserIDs }
  (c.trackSendingMsg (c.sendingMsg req now)).sendLoop false req env maxSendRetries 0 []

end Client

end NonokaIM.Sdk
