import NonokaIM.Verification.Gateway.Effects

/-! Authorisation of packets: an ack and a read receipt never ask the authorizer. -/

namespace NonokaIM

open DocumentStore List

section

variable {ν : Type} {env : PacketEnv ν} {h : Handler} {g : Gateway} {c : Connection}
  {packet : Packet}

def receiptEnv (ν : Type) : PacketEnv ν where
  produce := ⟨fun _ => .error "", fun _ => .written, fun _ => false⟩

def otherSender (userID : Int) : Int := if userID = 1 then 2 else 1

theorem otherSender_ne (userID : Int) : otherSender userID ≠ userID := by
  unfold otherSender
  split <;> omega

theorem otherSender_ne_zero (userID : Int) : otherSender userID ≠ 0 := by
  unfold otherSender
  split <;> decide

def otherSenderOnline (userID : Int) : Gateway where
  manager :=
    { conns := [⟨"c1", otherSender userID, "default", .authed⟩]
      registered := by simpa using otherSender_ne_zero userID }
  storage := { senderCache := fun _ _ => some (otherSender userID) }

theorem ack_affects {req : AckRequest} (hcmd : packet.cmd = .ack)
    (hreq : packet.getAckReq = some req) (hauthed : c.state = .authed) :
    packet.Affects (receiptEnv ν) (receiptEnv ν) h {} (otherSenderOnline c.userID) c req.topic := by
  refine .inr ⟨.pushDeliveryReceipt req.topic req.topicSeq req.msgID, ?_, .inr ?_⟩
  · simp [handlePacket, hcmd, handleAck, hauthed, hreq]
  · have hsent : (runReceipt (receiptEnv ν) (otherSenderOnline c.userID)
        (.pushDeliveryReceipt req.topic req.topicSeq req.msgID)).2 =
        [⟨⟨"c1", otherSender c.userID, "default", .authed⟩, ⟨.deliveryReceipt, 0,
          some (.deliveryReceipt ⟨req.topic, req.topicSeq, req.msgID⟩)⟩⟩] := by
      simp [runReceipt, getMessageSender, receiptEnv, otherSenderOnline, broadcastToUser, send,
        Manager.getAll]
    rw [hsent]
    exact ⟨_, mem_singleton_self _, otherSender_ne c.userID, mem_singleton_self _⟩

def unreadRow (userID : Int) (topic : String) : InboxMessage where
  userID := userID
  msgID := 1
  topic := topic
  senderID := 1
  msgType := 0
  content := []
  timestamp := 0
  topicSeq := 0
  clientMsgID := ""
  createdAt := 0

def unreadGateway (userID : Int) (topic : String) : Gateway where
  storage := { inboxes := .insert .empty (unreadRow userID topic) }

theorem handleReadReceipt_storage {req : ReadReceipt} (hauthed : c.state = .authed)
    (hreq : packet.getReadReceipt = some req) :
    (handleReadReceipt env g c packet).gateway.storage =
      (updateReadStatus env.now c.userID req.topic req.upToSeq env.readFault g.storage).2 := by
  unfold handleReadReceipt
  rw [if_neg (not_not.mpr hauthed), hreq]
  dsimp only
  split
  · rename_i hupdate
    rw [hupdate]
  · rename_i hupdate
    rw [hupdate]

theorem updateReadStatus_unread {now userID : Int} {topic : String} {upToSeq : ℕ}
    (hseq : upToSeq < 2 ^ 63) :
    (updateReadStatus now userID topic upToSeq {}
        (unreadGateway userID topic).storage).2.inboxes.rows =
      [{ unreadRow userID topic with read := true, readAt := some now }] := by
  obtain ⟨mentionInboxes, _, hupdate⟩ :=
    updateReadStatus_storage now userID topic upToSeq {} (unreadGateway userID topic).storage
  have hfault : updateFaultFor upToSeq (UpdateFault.none : UpdateFault InboxMessage) = .none := by
    rw [updateFaultFor, seqOverflow, if_pos hseq]
  have hrows : (unreadGateway userID topic).storage.inboxes.rows = [unreadRow userID topic] := rfl
  rw [hupdate]
  rw [hfault]
  simp only [updateMany, Collection.rows_update, hrows, map_cons, map_nil]
  simp [unreadRow, setInboxRead]

theorem readReceipt_affects {req : ReadReceipt} (hcmd : packet.cmd = .readReceipt)
    (hreq : packet.getReadReceipt = some req) (hauthed : c.state = .authed)
    (hseq : req.upToSeq < 2 ^ 63) :
    packet.Affects (receiptEnv ν) (receiptEnv ν) h (unreadGateway c.userID req.topic) {} c
      req.topic := by
  refine .inl (.inr (.inl ?_))
  intro hsame
  have hhandle : handlePacket (receiptEnv ν) h (unreadGateway c.userID req.topic) c packet =
      handleReadReceipt (receiptEnv ν) (unreadGateway c.userID req.topic) c packet := by
    rw [handlePacket, hcmd]
  rw [hhandle, handleReadReceipt_storage hauthed hreq] at hsame
  have hinboxes := congrArg TopicRows.inboxes hsame
  dsimp only [GatewayStorage.rowsAbout, receiptEnv] at hinboxes
  rw [updateReadStatus_unread hseq] at hinboxes
  have hrows : (unreadGateway c.userID req.topic).storage.inboxes.rows =
    [unreadRow c.userID req.topic] := rfl
  rw [hrows] at hinboxes
  simp [unreadRow] at hinboxes

/-- Every packet of a connection is authorised, in every gateway and whatever happens, exactly
when it is no receipt for a topic that its user has no access to. -/
theorem packet_authorised_iff (ν : Type) (h : Handler) (c : Connection) (packet : Packet) :
    (∀ (env envLater : PacketEnv ν) (g later : Gateway) (topic : String),
      packet.Affects env envLater h g later c topic →
        c.state = .authed ∧ h.CanAccess c.userID topic) ↔
    (c.state = .authed → ∀ topic, packet.ReceiptFor topic → h.CanAccess c.userID topic) := by
  constructor
  · intro hall hauthed topic hreceipt
    rcases hreceipt with ⟨hcmd, req, hreq, rfl⟩ | ⟨hcmd, req, hreq, hseq, rfl⟩
    · exact (hall _ _ _ _ _ (ack_affects hcmd hreq hauthed)).2
    · exact (hall _ _ _ _ _ (readReceipt_affects hcmd hreq hauthed hseq)).2
  · intro hreceipts env envLater g later topic haffects
    rcases withinReach_of_affects haffects with ⟨hauthed, haccess | hreceipt⟩
    · exact ⟨hauthed, haccess⟩
    · exact ⟨hauthed, hreceipts hauthed topic hreceipt⟩

end

def outsider : Connection := ⟨"c3", 3, "default", .authed⟩

def outsiderAck : Packet where
  cmd := .ack
  payload := some (.ackReq { topic := "p2p_1_2", topicSeq := 1 })

def senderOnline : Gateway where
  manager := { conns := [⟨"c1", 1, "default", .authed⟩] }
  storage :=
    { inboxes := .insert .empty { unreadRow 2 "p2p_1_2" with topicSeq := 1 } }

def plainHandler : Handler where
  authorizer := some ⟨none⟩

/-- User 3 acknowledges a message of a conversation they are no part of: a row is inserted for the
topic, and the sender is told that the message was delivered. -/
theorem outsider_ack_accepted :
    (handlePacket (receiptEnv Unit) plainHandler senderOnline outsider
      outsiderAck).Affects senderOnline outsider "p2p_1_2" ∧
    (∃ job ∈ (handlePacket (receiptEnv Unit) plainHandler senderOnline outsider outsiderAck).jobs,
      job.Affects (receiptEnv Unit) senderOnline outsider "p2p_1_2") ∧
    ¬ plainHandler.CanAccess outsider.userID "p2p_1_2" := by
  refine ⟨.inr (.inl ?_), ⟨.pushDeliveryReceipt "p2p_1_2" 1 0, ?_, .inr ⟨⟨⟨"c1", 1, "default",
    .authed⟩, ⟨.deliveryReceipt, 0, some (.deliveryReceipt ⟨"p2p_1_2", 1, 0⟩)⟩⟩, ?_, ?_, ?_⟩⟩, ?_⟩
  · decide
  · decide
  · decide
  · decide
  · decide
  · rintro ⟨a, ha, haccess⟩
    cases ha
    revert haccess
    decide

end NonokaIM
