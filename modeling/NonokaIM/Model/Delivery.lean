import NonokaIM.Model.MsgWorker

/-! The delivery of a stored message by a push worker, as the list of what it does to other
services. -/

namespace NonokaIM

structure MessagePush where
  msgID : Int
  topic : String
  senderID : Int
  msgType : Int
  content : List UInt8
  timestamp : Int
  topicSeq : ℕ
  clientMsgID : String
  recalled : Bool := false
  mentionedUserIDs : List Int := []
  deriving DecidableEq

structure SendReceipt where
  clientMsgID : String
  msgID : Int
  topic : String
  topicSeq : ℕ
  timestamp : Int
  deriving DecidableEq

/-- A push that is to be tried again, as a member of the sorted set in Redis. -/
structure RetryItem where
  userID : Int
  msgID : Int
  topic : String
  senderID : Int
  msgType : Int
  content : List UInt8
  timestamp : Int
  topicSeq : ℕ
  clientMsgID : String
  retryCount : ℕ
  retryAt : Int
  deriving DecidableEq

structure PushReply where
  totalDelivered : ℕ := 0
  failedIDs : List Int := []
  err : Option String := none

/-- What a delivery or a retry does. A push carries its number within the delivery. -/
inductive DeliveryAction where
  | push (call : ℕ) (userIDs : List Int) (msg : MessagePush)
  | retry (item : RetryItem)
  | receipt (userID : Int) (receipt : SendReceipt)
  deriving DecidableEq

/-- The answers of the services during one delivery; `retryQueue` tells whose items are accepted. -/
structure DeliveryEnv where
  pusher : Option (ℕ → List Int → MessagePush → PushReply) := none
  groupMembers : Option (String → Except String (List Int)) := none
  retryQueue : Option (Int → Bool) := none
  receiptBatcher : Bool := true
  now : Int := 0

def buildMessagePush (msgID : Int) (topicSeq : ℕ) (upstream : UpstreamMessage) : MessagePush where
  msgID := msgID
  topic := upstream.topic
  senderID := upstream.senderID
  msgType := upstream.msgType
  content := upstream.content
  timestamp := upstream.timestamp
  topicSeq := topicSeq
  clientMsgID := upstream.clientMsgID
  mentionedUserIDs := upstream.mentionedUserIDs

/-! ## The retry queue -/

/-- Seconds, doubled with every retry up to five minutes. -/
def nextRetryAt (now : Int) (retryCount : ℕ) : Int := now + min (5 * 2 ^ retryCount) 300

def maxRetryAttempts : ℕ := 3

def scheduleRetry (now : Int) (userID : Int) (msg : MessagePush) : RetryItem where
  userID := userID
  msgID := msg.msgID
  topic := msg.topic
  senderID := msg.senderID
  msgType := msg.msgType
  content := msg.content
  timestamp := msg.timestamp
  topicSeq := msg.topicSeq
  clientMsgID := msg.clientMsgID
  retryCount := 0
  retryAt := nextRetryAt now 0

/-- The push of a retry; it no longer carries the mentions or the recall. -/
def RetryItem.push (item : RetryItem) : MessagePush where
  msgID := item.msgID
  topic := item.topic
  senderID := item.senderID
  msgType := item.msgType
  content := item.content
  timestamp := item.timestamp
  topicSeq := item.topicSeq
  clientMsgID := item.clientMsgID

/-- The users for whom an item reaches the retry queue; other errors are only logged. -/
def DeliveryEnv.enqueues (env : DeliveryEnv) (userID : Int) : Bool :=
  match env.retryQueue with
  | none => false
  | some accepts => accepts userID

variable (env : DeliveryEnv)

def requeueIfNeeded (item : RetryItem) : List DeliveryAction :=
  if maxRetryAttempts - 1 ≤ item.retryCount then []
  else if env.enqueues item.userID then
    [.retry { item with
      retryCount := item.retryCount + 1
      retryAt := nextRetryAt env.now (item.retryCount + 1) }]
  else []

def processRetryTask (item : RetryItem) : List DeliveryAction :=
  if maxRetryAttempts ≤ item.retryCount then []
  else
    match env.pusher with
    | none => []
    | some batchPushToUsers =>
      let reply := batchPushToUsers 0 [item.userID] item.push
      .push 0 [item.userID] item.push ::
        if reply.err.isSome || !reply.failedIDs.isEmpty then requeueIfNeeded env item else []

def RetryItem.requeue (now : Int) (item : RetryItem) : RetryItem :=
  { item with
    retryCount := item.retryCount + 1
    retryAt := nextRetryAt now (item.retryCount + 1) }

theorem mem_requeueIfNeeded {env : DeliveryEnv} {item : RetryItem} {a : DeliveryAction}
    (h : a ∈ requeueIfNeeded env item) :
    item.retryCount + 1 < maxRetryAttempts ∧ a = .retry (item.requeue env.now) := by
  unfold requeueIfNeeded at h
  split at h
  · cases h
  rename_i hcount
  split at h
  · exact ⟨by omega, List.mem_singleton.mp h⟩
  · cases h

theorem mem_processRetryTask {env : DeliveryEnv} {item : RetryItem} {a : DeliveryAction}
    (h : a ∈ processRetryTask env item) :
    item.retryCount < maxRetryAttempts ∧
      (a = .push 0 [item.userID] item.push ∨ a = .retry (item.requeue env.now)) := by
  unfold processRetryTask at h
  split at h
  · cases h
  rename_i hcount
  refine ⟨Nat.lt_of_not_le hcount, ?_⟩
  split at h
  · cases h
  cases List.mem_cons.mp h with
  | inl hpush => exact .inl hpush
  | inr hrest =>
    split at hrest
    · exact .inr (mem_requeueIfNeeded hrest).2
    · cases hrest

/-! ## Deliveries -/

def handleFailedPushes (failedUserIDs : List Int) (msg : MessagePush) : List DeliveryAction :=
  (failedUserIDs.filter env.enqueues).map fun userID => .retry (scheduleRetry env.now userID msg)

/-- Push to some users, and schedule retries for the failed ones unless the push as a whole
reports an error. -/
def pushToUsers (call : ℕ) (userIDs : List Int) (msg : MessagePush) : List DeliveryAction :=
  match env.pusher with
  | none => []
  | some batchPushToUsers =>
    if userIDs = [] then []
    else
      let reply := batchPushToUsers call userIDs msg
      .push call userIDs msg ::
        match reply.err with
        | some _ => []
        | none => handleFailedPushes env reply.failedIDs msg

def pushSendReceipt (userID : Int) (msgID : Int) (topic : String) (topicSeq : ℕ)
    (clientMsgID : String) : List DeliveryAction :=
  if env.receiptBatcher || env.pusher.isSome then
    [.receipt userID ⟨clientMsgID, msgID, topic, topicSeq, env.now⟩]
  else []

def deliverP2POrSystemMessage (upstream : UpstreamMessage) (msgID : Int) (topicSeq : ℕ)
    (recipientIDs : List Int) : List DeliveryAction :=
  let pushMsg := buildMessagePush msgID topicSeq upstream
  pushToUsers env 0 (recipientIDs.filter (· ≠ upstream.senderID)) pushMsg ++
    pushSendReceipt env upstream.senderID msgID upstream.topic topicSeq upstream.clientMsgID

def groupRecipients (upstream : UpstreamMessage) (memberIDs : List Int) : List Int :=
  memberIDs.filter fun id => id ≠ upstream.senderID ∧ id ∉ upstream.mentionedUserIDs

/-- Push to the mentioned users and then to the other members. The early returns leave the
receipt out. -/
def deliverGroupMessage (upstream : UpstreamMessage) (msgID : Int) (topicSeq : ℕ) :
    List DeliveryAction :=
  let pushMsg := buildMessagePush msgID topicSeq upstream
  let receipt :=
    pushSendReceipt env upstream.senderID msgID upstream.topic topicSeq upstream.clientMsgID
  pushToUsers env 0 upstream.mentionedUserIDs pushMsg ++
    match env.groupMembers, env.pusher with
    | some getGroupMembers, some _ =>
      match extractGroupID upstream.topic with
      | .error _ => []
      | .ok groupID =>
        match getGroupMembers groupID with
        | .error _ => []
        | .ok memberIDs =>
          if memberIDs = [] then []
          else pushToUsers env 1 (groupRecipients upstream memberIDs) pushMsg ++ receipt
    | _, _ => receipt

def deliverMessage (task : DeliveryTask) : List DeliveryAction :=
  if task.isGroup then deliverGroupMessage env task.upstream task.msgID task.topicSeq
  else deliverP2POrSystemMessage env task.upstream task.msgID task.topicSeq task.recipientIDs

end NonokaIM
