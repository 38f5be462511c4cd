import NonokaIM.Library.GuardedRun
import NonokaIM.Model.Receipts

/-! # Saves and sender lookups

All operations of the message storage that touch the sender cache, as the steps of one system. -/

namespace NonokaIM

structure SaveArgs where
  now : Int
  msg : UpstreamMessage
  msgID : Int
  topicSeq : ℕ

/-- The saves of the message storage, alone or in a transaction with an agent event, and the
expiry of a cached sender. -/
inductive SaveEvent where
  | p2p (args : SaveArgs) (fault : SaveFault)
  | group (args : SaveArgs) (fault : SaveFault)
  | system (args : SaveArgs) (fault : SaveFault)
  | mentions (args : SaveArgs) (mentionedUserIDs : List Int) (fault : SaveFault)
  | batch (now : Int) (items : List GroupBatchItem) (fault : FlushFault)
  | p2pWithEvent (args : SaveArgs) (ev : MessageEvent) (fault : SaveFault) (tx : TxFault)
  | groupWithEvent (args : SaveArgs) (ev : MessageEvent) (fault : SaveFault) (tx : TxFault)
  | expire (topic : String) (topicSeq : ℕ)

def Store.expireSender (s : Store) (topic : String) (topicSeq : ℕ) : Store :=
  { s with senderCache := fun t q =>
      if t = topic ∧ q = topicSeq then none else s.senderCache t q }

def SaveEvent.apply (s : Store) : SaveEvent → Store
  | .p2p a fault => (saveP2PMessage a.now a.msg a.msgID a.topicSeq fault s).2
  | .group a fault => (saveGroupMessage a.now a.msg a.msgID a.topicSeq fault s).2
  | .system a fault => (saveSystemMessage a.now a.msg a.msgID a.topicSeq fault s).2
  | .mentions a mentionedUserIDs fault =>
    (saveMentionInbox a.now a.msg a.msgID a.topicSeq mentionedUserIDs fault s).2
  | .batch now items fault => (flush now items fault s).2
  | .p2pWithEvent a ev fault tx =>
    (saveP2PMessageWithAgentEvent a.now a.msg a.msgID a.topicSeq ev fault tx s).2
  | .groupWithEvent a ev fault tx =>
    (saveGroupMessageWithAgentEvent a.now a.msg a.msgID a.topicSeq ev fault tx s).2
  | .expire topic topicSeq => s.expireSender topic topicSeq

inductive SenderEvent where
  | save (e : SaveEvent)
  | getSender (env : SenderEnv) (topic : String) (topicSeq : ℕ)

def SenderEvent.step (g : GatewayStorage) : SenderEvent → GatewayStorage
  | .save e => { g with toStore := e.apply g.toStore }
  | .getSender env topic topicSeq => (getMessageSender env topic topicSeq g).2

end NonokaIM
