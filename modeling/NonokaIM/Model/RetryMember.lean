import NonokaIM.Library.Base64
import NonokaIM.Library.FlatJson
import NonokaIM.Model.Delivery

/-! The members of the retry set: a key, a bar, and the item as JSON, whose fields are decoded one
after the other. No range is checked. -/

namespace NonokaIM

open FlatJson Base64

/-- Content is written in base 64, and a nil slice as null. -/
def contentValue (isNil : Bool) (content : List UInt8) : Value :=
  if isNil = true ∧ content = [] then .null else .text (encode content)

def RetryItem.fields (isNil : Bool) (item : RetryItem) : List Field :=
  [("user_id".toList, .int item.userID), ("msg_id".toList, .int item.msgID),
    ("topic".toList, .text item.topic.toList),
    ("sender_id".toList, .int item.senderID),
    ("msg_type".toList, .int item.msgType),
    ("content".toList, contentValue isNil item.content),
    ("timestamp".toList, .int item.timestamp),
    ("topic_seq".toList, .int item.topicSeq),
    ("client_msg_id".toList, .text item.clientMsgID.toList),
    ("retry_count".toList, .int item.retryCount),
    ("retry_at".toList, .int item.retryAt)]

def RetryItem.memberKey (item : RetryItem) : List Char :=
  printInt item.userID ++ ':' :: (printInt item.msgID ++ ':' :: printInt item.retryCount)

/-- The member that `enqueueItem` adds to the set. -/
def RetryItem.member (isNil : Bool) (item : RetryItem) : List Char :=
  item.memberKey ++ '|' :: printObject (item.fields isNil)

def intValue (old : Int) : Value → Option Int
  | .null => some old
  | .int n => some n
  | .text _ => none

def natValue (old : ℕ) : Value → Option ℕ
  | .null => some old
  | .int n => if 0 ≤ n then some n.toNat else none
  | .text _ => none

def textValue (old : String) : Value → Option String
  | .null => some old
  | .int _ => none
  | .text s => some (String.ofList s)

def bytesValue : Value → Option (List UInt8)
  | .null => some []
  | .int _ => none
  | .text s => decode s

def RetryItem.zero : RetryItem := ⟨0, 0, "", 0, 0, [], 0, 0, "", 0, 0⟩

def RetryItem.readField (item : RetryItem) (f : Field) : Option RetryItem :=
  match String.ofList f.1 with
  | "user_id" => (intValue item.userID f.2).map fun v => { item with userID := v }
  | "msg_id" => (intValue item.msgID f.2).map fun v => { item with msgID := v }
  | "topic" => (textValue item.topic f.2).map fun v => { item with topic := v }
  | "sender_id" => (intValue item.senderID f.2).map fun v => { item with senderID := v }
  | "msg_type" => (intValue item.msgType f.2).map fun v => { item with msgType := v }
  | "content" => (bytesValue f.2).map fun v => { item with content := v }
  | "timestamp" => (intValue item.timestamp f.2).map fun v => { item with timestamp := v }
  | "topic_seq" => (natValue item.topicSeq f.2).map fun v => { item with topicSeq := v }
  | "client_msg_id" => (textValue item.clientMsgID f.2).map fun v => { item with clientMsgID := v }
  | "retry_count" => (natValue item.retryCount f.2).map fun v => { item with retryCount := v }
  | "retry_at" => (intValue item.retryAt f.2).map fun v => { item with retryAt := v }
  | _ => some item

def memberData (member : List Char) : Option (List Char) :=
  match member.dropWhile (· ≠ '|') with
  | [] => none
  | _ :: data => some data

def readItem (data : List Char) : Option RetryItem := do
  let fields ← readObject data
  fields.foldlM RetryItem.readField .zero

def memberItem (member : List Char) : Option RetryItem := (memberData member).bind readItem

/-- A task for a member of the set, once the member is removed. -/
def processRetryMember (env : DeliveryEnv) (member : List Char) : List DeliveryAction :=
  match memberItem member with
  | none => []
  | some item => processRetryTask env item

theorem bytesValue_contentValue (isNil : Bool) (content : List UInt8) :
    bytesValue (contentValue isNil content) = some content := by
  unfold contentValue
  split
  · rename_i h
    rw [h.2]
    rfl
  · exact decode_encode content

theorem readItem_fields (isNil : Bool) (item : RetryItem) :
    readItem (printObject (item.fields isNil)) = some item := by
  have hseq : natValue 0 (.int item.topicSeq) = some item.topicSeq := by simp [natValue]
  have hcount : natValue 0 (.int item.retryCount) = some item.retryCount := by simp [natValue]
  rw [readItem, readObject_printObject]
  simp [RetryItem.fields, RetryItem.readField, RetryItem.zero, intValue, textValue, hseq, hcount,
    bytesValue_contentValue]

end NonokaIM
