import NonokaIM.Library.Utf8
import NonokaIM.Model.Authz
import NonokaIM.Model.CheckOrigin
import NonokaIM.Model.Pull
import Mathlib.Data.List.Infix

/-! The tools with which an agent reads messages (`internal/agent/app/tools_backend.go`). Strings
are byte strings; `toLower` is `strings.ToLower`. -/

namespace NonokaIM

open Utf8

structure RunContext where
  actorUserID : Int
  botID : Int
  topic : String

structure MessageTools where
  storage : Option Store
  authorizer : Option TopicAuthorizer

inductive ToolReply where
  | error (text : String)
  | panicked
  | values (result : List (List UInt8))

def getRecentMessages (s : Store) (userID : Int) (topic : String) (limit : Int)
    (fault : PullFault) : Except String (List InboxMessage) :=
  (getHistoryMessages s userID topic 0 (clampLimit limit) fault).map Prod.fst

/-- Bytes that are no text are replaced by this character. -/
def replacement : List UInt8 := encode ['�']

def toolHeader (senderID timestamp : Int) : List UInt8 :=
  encode ("sender=" ++ toString senderID ++ " time=" ++ toString timestamp ++ ": ").toList

def formatToolMessage (senderID timestamp : Int) (content : List UInt8) : List UInt8 :=
  toolHeader senderID timestamp ++ content.take 1200

/-- The values from one on, when `used` bytes are there already. -/
def boundFrom (maxChars : ℕ) : (used : ℕ) → List (List UInt8) → List (List UInt8)
  | _, [] => []
  | used, value :: values =>
    if maxChars ≤ used then []
    else
      let value := value.take (maxChars - used)
      value :: boundFrom maxChars (used + value.length) values

def boundToolResults (values : List (List UInt8)) (maxChars : ℕ) : List (List UInt8) :=
  boundFrom maxChars 0 values

def InboxMessage.toolContent (row : InboxMessage) : List UInt8 := repair replacement row.content

def InboxMessage.formatted (row : InboxMessage) : List UInt8 :=
  formatToolMessage row.senderID row.timestamp row.toolContent

namespace MessageTools

variable (b : MessageTools) (rc : RunContext) (fault : PullFault)

def access : Except String Store :=
  match b.storage, b.authorizer with
  | some storage, some authorizer =>
    match authorizer.canAccessTopic rc.actorUserID rc.topic,
      authorizer.canAccessTopic rc.botID rc.topic with
    | .error _, _ => .error "topic access denied"
    | .ok (), .error _ => .error "bot topic access denied"
    | .ok (), .ok () => .ok storage
  | _, _ => .error "message tools unavailable"

def messages (limit : Int) : Except String (List InboxMessage) :=
  match b.access rc with
  | .error e => .error e
  | .ok storage => getRecentMessages storage rc.actorUserID rc.topic limit fault

/-- The newest rows that contain the text come first. A slice cannot be made with a negative
capacity. -/
def searchMessages (toLower : List UInt8 → List UInt8) (query : String) (limit : Int) : ToolReply :=
  match b.access rc with
  | .error e => .error e
  | .ok _ =>
    match b.messages rc fault 100 with
    | .error e => .error e
    | .ok rows =>
      if limit < 0 then .panicked
      else
        let query := toLower (encode (trimSpace query.toList))
        let found := rows.reverse.filter fun row => query <:+: toLower row.toolContent
        .values (boundToolResults ((found.take limit.toNat).map InboxMessage.formatted) 8000)

def conversationContext (limit : Int) : ToolReply :=
  match b.messages rc fault limit with
  | .error e => .error e
  | .ok rows => .values (boundToolResults (rows.map InboxMessage.formatted) 8000)

end MessageTools

end NonokaIM
