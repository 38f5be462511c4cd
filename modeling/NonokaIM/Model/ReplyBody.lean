import NonokaIM.Library.Base64
import NonokaIM.Library.QuotedText
import NonokaIM.Model.Gateway

/-! The body that carries a reply of the agent: how `HTTPSender.Send` writes it
(`internal/agent/app/harness.go`) and how `protojson` reads it. What is printable is a parameter. -/

namespace NonokaIM

open FlatJson QuotedText

def HTTPSender.body (isPrint : Char → Bool) (topic content clientID : String) : List Char :=
  "\x7b\"topic\":".toList ++ quote isPrint topic.toList ++
    ",\"client_msg_id\":".toList ++ quote isPrint clientID.toList ++
    ",\"msg_type\":0,\"content\":".toList ++ quote isPrint content.toList ++ "\x7d".toList

def isNewline (c : Char) : Bool := c = '\n' || c = '\r'

/-- The digits of the URL alphabet in the standard one. -/
def fromURLDigit (c : Char) : Char := if c = '-' then '+' else if c = '_' then '/' else c

/-- The digits of a text in the standard alphabet; line breaks are skipped. -/
def base64Digits (isURL : Bool) (text : List Char) : List Char :=
  (text.filter fun c => !isNewline c).map fun c => if isURL then fromURLDigit c else c

/-- A `bytes` field: base 64 in one of two alphabets, padded if its length is a multiple of
four. -/
def unmarshalBytes (text : List Char) : Option (List UInt8) :=
  let isURL := text.any fun c => c = '-' || c = '_'
  if isURL && text.any fun c => c = '+' || c = '/' then none
  else if (String.ofList text).utf8ByteSize % 4 = 0 then Base64.decode (base64Digits isURL text)
  else Base64.decodeRaw (base64Digits isURL text)

inductive RequestField where
  | topic
  | msgType
  | content
  | clientMsgID
  | mentionedUserIDs
  deriving DecidableEq

/-- The names under which a field is known: that of the `.proto` file and that of JSON. -/
def RequestField.names : RequestField → List String
  | .topic => ["topic"]
  | .msgType => ["msg_type", "msgType"]
  | .content => ["content"]
  | .clientMsgID => ["client_msg_id", "clientMsgId"]
  | .mentionedUserIDs => ["mentioned_user_ids", "mentionedUserIds"]

def requestField (name : List Char) : Option RequestField :=
  [.topic, .msgType, .content, .clientMsgID, .mentionedUserIDs].find? fun field =>
    field.names.any fun known => known.toList = name

/-- One field of a `SendMessageRequest`. An unknown field is discarded, and a null leaves a field
alone. -/
def setField (req : SendMessageRequest) (field : Field) : Option SendMessageRequest :=
  match requestField field.1, field.2 with
  | none, _ => some req
  | some _, .null => some req
  | some .topic, .text topic => some { req with topic := .ofList topic }
  | some .clientMsgID, .text clientMsgID =>
    some { req with clientMsgID := .ofList clientMsgID }
  | some .msgType, .int msgType =>
    if -2 ^ 31 ≤ msgType ∧ msgType < 2 ^ 31 then some { req with msgType } else none
  | some .content, .text text => (unmarshalBytes text).map fun content => { req with content }
  | _, _ => none

/-- The request in a body. Lists, names of message types and fields that are given twice are left
out, as `Send` writes none of them. -/
def unmarshalSendMessageRequest (body : List Char) : Option SendMessageRequest :=
  (readObject body).bind fun fields => fields.foldlM setField { topic := "", clientMsgID := "" }

end NonokaIM
