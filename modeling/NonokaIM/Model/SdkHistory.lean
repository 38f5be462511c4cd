import NonokaIM.Model.SdkConversation

/-! Loading the history of a conversation. `sort.Slice` may leave messages with equal seqs in any
order; here they keep theirs. -/

namespace NonokaIM.Sdk

def Conversation.pullMessages (route : PullRoute) (ctx : PullContext) (s : Store)
    (c : Conversation) (lastSeq : ℕ) (limit : Int) : Except String PullResult :=
  pullMessagesInternal route ctx s c.topic lastSeq limit

/-- The pulled messages whose seqs do not exist yet; each of them exists from then on. -/
def newMessages (existing : List ℕ) : List Message → List Message
  | [] => []
  | m :: ms =>
    if m.topicSeq ∈ existing then newMessages existing ms
    else m :: newMessages (m.topicSeq :: existing) ms

def Conversation.merge (c : Conversation) (existing : List ℕ) (pulled : List Message) :
    Conversation :=
  let messages := ascending Message.topicSeq (c.messages ++ newMessages existing pulled)
  { c with messages, lastSeq := (messages.getLast?.map Message.topicSeq).getD c.lastSeq }

/-- One less than the oldest seq, or `LastSeq` without messages. -/
def Conversation.beforeOldest (c : Conversation) : ℕ :=
  match c.messages with
  | [] => c.lastSeq
  | m :: ms =>
    ms.foldl (fun oldest m => if m.topicSeq < oldest then m.topicSeq else oldest) m.topicSeq - 1

def Conversation.loadMore (route : PullRoute) (ctx : PullContext) (s : Store)
    (c : Conversation) (limit : Int) : Except String (List Message × Conversation) :=
  let limit := if limit ≤ 0 then 20 else limit
  match c.pullMessages route ctx s c.beforeOldest limit with
  | .error e => .error e
  | .ok result =>
    .ok (result.messages, c.merge (c.messages.map Message.topicSeq) result.messages)

end NonokaIM.Sdk
