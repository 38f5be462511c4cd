import NonokaIM.Model.Pull

/-! The HTTP fallback for pulls: the limit is clamped first, failing queries give an empty reply,
and `sort.Slice` may put messages with equal seqs in any order. -/

namespace NonokaIM

open InboxMessage

def PullReply.empty : PullReply := ⟨[], false, 0⟩

/-- One of the orders in which `sort.Slice` may leave messages. -/
structure SliceSort where
  sort : List PullMessage → List PullMessage
  perm : ∀ messages, (sort messages).Perm messages
  ascending : ∀ messages, (sort messages).Pairwise fun a b => a.topicSeq ≤ b.topicSeq

namespace MessageService

def mergeAndSortMessages (sorter : SliceSort) (groupMsgs : List StoredMessage)
    (mentionMsgs : List MentionMessage) : List PullMessage :=
  sorter.sort (groupMsgs.map StoredMessage.toPull ++ mentionMsgs.map MentionMessage.toPull)

def forwardPage (sorter : SliceSort) (ctx : PullContext) (s : Store) (topic : String) (lastSeq : ℕ)
    (limit : ℕ) : Option (List PullMessage × Bool) :=
  match parseTopicType topic with
  | .p2p | .system =>
    match getOfflineMessages s ctx.userID topic lastSeq limit ctx.fault with
    | .error _ => none
    | .ok msgs => some (msgs.map toPull, limit ≤ msgs.length ∧ 0 < limit)
  | .group =>
    match getGroupMessages s topic lastSeq limit ctx.fault.group with
    | .error _ => none
    | .ok groupMsgs =>
      let mentionMsgs :=
        match getMentionMessages s ctx.userID topic lastSeq limit ctx.fault.mention with
        | .ok msgs => msgs
        | .error _ => []
      let merged := mergeAndSortMessages sorter groupMsgs mentionMsgs
      let page := if limit < merged.length ∧ 0 < limit then merged.take limit else merged
      some (page, limit ≤ page.length ∧ 0 < limit)
  | .unknown => none

/-- The user id 0 stands for a request without valid claims. -/
def pullMessages (sorter : SliceSort) (ctx : PullContext) (s : Store) (req : PullRequest) :
    Except String PullReply :=
  if req.topic = "" then .ok .empty
  else if ctx.userID = 0 then .error "authentication required"
  else
    match normalizeTopic req.topic, ctx.canAccessTopic with
    | .error e, _ => .error ("invalid topic: " ++ e)
    | .ok _, none => .error "topic authorization unavailable"
    | .ok topic, some canAccess =>
      if !canAccess topic then .error "topic access denied"
      else if 0 < req.endSeq ∨ req.lastSeq = 0 then
        match getHistoryMessages s ctx.userID topic req.endSeq (clampLimit req.limit) ctx.fault with
        | .error _ => .ok .empty
        | .ok (msgs, more) =>
          .ok ⟨msgs.map toPull, more, (msgs.head?.map topicSeq).getD 0⟩
      else
        match forwardPage sorter ctx s topic req.lastSeq (clampLimit req.limit) with
        | none => .ok .empty
        | some (messages, hasMore) =>
          .ok ⟨messages, hasMore, (messages.getLast?.map (·.topicSeq + 1)).getD 0⟩

end MessageService

end NonokaIM
