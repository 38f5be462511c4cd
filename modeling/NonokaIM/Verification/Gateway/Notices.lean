import NonokaIM.Verification.Gateway.Effects
import NonokaIM.Verification.Topic.Canonical

/-! # Notices in a deployment of several nodes

A notice goes through the manager of the node that has accepted it, and to no other node. -/

namespace NonokaIM

open DocumentStore List

/-- One node handles a packet. `managers` places the connections on the nodes; goroutines find the
answers `envLater` and the storage of `later`. -/
structure Handling (ι ν : Type) where
  managers : ι → Manager
  node : ι
  env : PacketEnv ν
  envLater : PacketEnv ν
  handler : Handler
  gateway : Gateway
  later : Gateway
  conn : Connection
  packet : Packet

/-- The packet, the users it concerns, whether they must be looked up, those to whom it is
broadcast, and which connections accept it. -/
structure Notice where
  packet : Packet
  affected : Int → Prop
  lookedUp : Prop
  told : List Int
  accepts : Connection → Packet → Bool

/-- The participants of a P2P topic, or the members of a group. -/
def RecallConcerns (members : String → List Int) (topic : String) (userID : Int) : Prop :=
  match parseTopicType topic with
  | .p2p => ∃ uid1 uid2, extractUserIDsFromP2PTopic topic = .ok (uid1, uid2) ∧
      (userID = uid1 ∨ userID = uid2)
  | .group => userID ∈ members (String.ofList (topic.toList.drop 4))
  | _ => False

/-- The sender that the cache or some collection has for the message. -/
def GatewayStorage.NamesSender (s : GatewayStorage) (topic : String) (topicSeq : ℕ) (userID : Int) :
    Prop :=
  s.senderCache topic topicSeq = some userID ∨
    ∃ source, findSender s.toStore topic topicSeq source = some userID

def otherParticipant (readerID : Int) (topic : String) : Option Int :=
  (extractUserIDsFromP2PTopic topic).toOption.map fun ids =>
    if readerID = ids.1 then ids.2 else ids.1

namespace Handling

variable {ι ν : Type} (x : Handling ι ν)

def now : Gateway := { x.gateway with manager := x.managers x.node }

def afterwards : Gateway := { x.later with manager := x.managers x.node }

def sent [DecidableEq ι] (node : ι) : List Sent :=
  if node = x.node then
    let handled := handlePacket x.env x.handler x.now x.conn x.packet
    handled.sent ++ handled.jobs.flatMap fun job => (runReceipt x.envLater x.afterwards job).2
  else []

/-- The sender asks for the recall, and the storage carries it out. -/
structure Recalls (topic : String) (req : RecallRequest) : Prop where
  sender : (getMessageSender x.env.sender topic req.topicSeq x.now.storage).1.toOption =
    some x.conn.userID
  recalled : (recallMessage ⟨topic, req.topicSeq, req.msgID, x.conn.userID, x.handler.recallWindow⟩
    x.env.now (recallFaultFor req.topicSeq x.env.recallFault)
    (getMessageSender x.env.sender topic req.topicSeq x.now.storage).2.toStore).1 = .ok ()

def recallNotice (members : String → List Int) (topic : String) (req : RecallRequest) : Notice where
  packet :=
    { cmd := .recallMessage
      payload := some (.recallNotice
        ⟨topic, req.topicSeq, req.msgID, x.conn.userID, unixSeconds x.env.now⟩) }
  affected := RecallConcerns members topic
  lookedUp := parseTopicType topic ≠ .p2p
  told := x.conn.userID :: recallAudience x.handler x.conn.userID topic
  accepts := x.env.accepts

def deliveryNotice (req : AckRequest) : Notice where
  packet :=
    { cmd := .deliveryReceipt
      payload := some (.deliveryReceipt ⟨req.topic, req.topicSeq, req.msgID⟩) }
  affected := x.afterwards.storage.NamesSender req.topic req.topicSeq
  lookedUp := True
  told := (getMessageSender x.envLater.sender req.topic req.topicSeq
    x.afterwards.storage).1.toOption.toList
  accepts := x.envLater.accepts

def readNotice (req : ReadReceipt) : Notice where
  packet :=
    { cmd := .readReceipt
      payload := some (.readReceipt ⟨req.topic, req.upToSeq, x.conn.userID⟩) }
  affected userID := otherParticipant x.conn.userID req.topic = some userID
  lookedUp := False
  told := (otherParticipant x.conn.userID req.topic).toList
  accepts := x.envLater.accepts

/-- The packet is accepted, and this is its notice. -/
inductive Accepted (members : String → List Int) : Notice → Prop where
  | recalled (topic : String) (req : RecallRequest) (hcmd : x.packet.cmd = .recallMessage)
      (hcheck : checkRecall x.handler x.conn x.packet = .ok (topic, req))
      (hrecalls : x.Recalls topic req) : Accepted members (x.recallNotice members topic req)
  | delivery (req : AckRequest) (hcmd : x.packet.cmd = .ack) (hauthed : x.conn.state = .authed)
      (hreq : x.packet.getAckReq = some req) : Accepted members (x.deliveryNotice req)
  | read (req : ReadReceipt) (hcmd : x.packet.cmd = .readReceipt) (hauthed : x.conn.state = .authed)
      (hreq : x.packet.getReadReceipt = some req) (htype : parseTopicType req.topic = .p2p)
      (hupdated : (updateReadStatus x.env.now x.conn.userID req.topic req.upToSeq x.env.readFault
        x.now.storage).1 = .ok ()) : Accepted members (x.readNotice req)

end Handling

section

variable {ν : Type} {env : PacketEnv ν} {g : Gateway} {packet : Packet} {c : Connection}

theorem mem_broadcastToUser_iff {userID : Int} :
    ⟨c, packet⟩ ∈ broadcastToUser env g userID packet ↔
      c ∈ g.manager.conns ∧ c.userID = userID ∧ env.accepts c packet = true := by
  simp only [broadcastToUser, Manager.getAll, mem_flatMap, mem_filter, decide_eq_true_eq]
  constructor
  · rintro ⟨c', ⟨hc', huser⟩, hsent⟩
    unfold send at hsent
    split at hsent
    · rename_i haccepts
      obtain rfl : c = c' := congrArg Sent.conn (mem_singleton.mp hsent)
      exact ⟨hc', huser, haccepts⟩
    · cases hsent
  · rintro ⟨hc, huser, haccepts⟩
    exact ⟨c, ⟨hc, huser⟩, by simp [send, haccepts]⟩

theorem mem_broadcasts_iff {told : List Int} :
    ⟨c, packet⟩ ∈ told.flatMap (fun userID => broadcastToUser env g userID packet) ↔
      c ∈ g.manager.conns ∧ c.userID ∈ told ∧ env.accepts c packet = true := by
  simp only [mem_flatMap, mem_broadcastToUser_iff]
  constructor
  · rintro ⟨userID, hmem, hc, rfl, haccepts⟩
    exact ⟨hc, hmem, haccepts⟩
  · rintro ⟨hc, hmem, haccepts⟩
    exact ⟨c.userID, hmem, hc, rfl, haccepts⟩

end

/-! ## What the accepting node sends -/

namespace Handling

variable {ι ν : Type} [DecidableEq ι] {x : Handling ι ν} {members : String → List Int}

theorem sent_recall {topic : String} {req : RecallRequest} (hcmd : x.packet.cmd = .recallMessage)
    (hcheck : checkRecall x.handler x.conn x.packet = .ok (topic, req))
    (hrecalls : x.Recalls topic req) :
    x.sent x.node = (x.recallNotice members topic req).told.flatMap
        (fun userID => broadcastToUser x.env x.now userID
          (x.recallNotice members topic req).packet) ++
      send x.env x.conn { cmd := .recallMessage, seq := x.packet.seq } := by
  simp only [sent, if_true, handlePacket, hcmd, handleRecall, hcheck, recallChecked,
    hrecalls.sender, hrecalls.recalled, ne_eq, not_true, if_false, flatMap_nil,
    append_nil]
  rfl

theorem sent_ack {req : AckRequest} (hcmd : x.packet.cmd = .ack)
    (hauthed : x.conn.state = .authed) (hreq : x.packet.getAckReq = some req) :
    x.sent x.node = (x.deliveryNotice req).told.flatMap fun userID =>
      broadcastToUser x.envLater x.afterwards userID (x.deliveryNotice req).packet := by
  simp only [sent, if_true, handlePacket, hcmd, handleAck, hauthed, ne_eq, not_true, if_false,
    hreq, nil_append, flatMap_cons, flatMap_nil, append_nil, runReceipt,
    deliveryNotice]
  cases hfound : getMessageSender x.envLater.sender req.topic req.topicSeq x.afterwards.storage with
  | mk found storage =>
    cases found with
    | error e | ok senderID => simp [Except.toOption]

theorem sent_read {req : ReadReceipt} (hcmd : x.packet.cmd = .readReceipt)
    (hauthed : x.conn.state = .authed) (hreq : x.packet.getReadReceipt = some req)
    (htype : parseTopicType req.topic = .p2p)
    (hupdated : (updateReadStatus x.env.now x.conn.userID req.topic req.upToSeq x.env.readFault
      x.now.storage).1 = .ok ()) :
    x.sent x.node = (x.readNotice req).told.flatMap fun userID =>
      broadcastToUser x.envLater x.afterwards userID (x.readNotice req).packet := by
  cases hupdate : updateReadStatus x.env.now x.conn.userID req.topic req.upToSeq x.env.readFault
      x.now.storage with
  | mk result storage =>
    obtain rfl : result = .ok () := by rw [← hupdated, hupdate]
    simp only [sent, if_true, handlePacket, hcmd, handleReadReceipt, hauthed, ne_eq, not_true,
      if_false, hreq, hupdate, nil_append, flatMap_cons, flatMap_nil,
      append_nil, runReceipt, htype, readNotice, otherParticipant]
    cases extractUserIDsFromP2PTopic req.topic with
    | error e | ok ids => simp [Except.toOption]

theorem mem_sent_iff {notice : Notice} (hacc : x.Accepted members notice) {node : ι}
    {c : Connection} (hc : c ∈ (x.managers node).conns) :
    ⟨c, notice.packet⟩ ∈ x.sent node ↔
      node = x.node ∧ notice.accepts c notice.packet = true ∧ c.userID ∈ notice.told := by
  by_cases hnode : node = x.node
  · subst hnode
    cases hacc with
    | recalled topic req hcmd hcheck hrecalls =>
      -- the answer to the request is no notice
      have hreply : ⟨c, (x.recallNotice members topic req).packet⟩ ∉
          send x.env x.conn { cmd := .recallMessage, seq := x.packet.seq } := by
        intro hmem
        have h := congrArg Sent.packet (mem_send hmem)
        simp [recallNotice] at h
      rw [sent_recall hcmd hcheck hrecalls, mem_append, or_iff_left hreply, mem_broadcasts_iff]
      simp [now, hc, recallNotice, and_comm]
    | delivery req hcmd hauthed hreq =>
      rw [sent_ack hcmd hauthed hreq, mem_broadcasts_iff]
      simp only [afterwards, hc, true_and, deliveryNotice, and_comm]
    | read req hcmd hauthed hreq htype hupdated =>
      rw [sent_read hcmd hauthed hreq htype hupdated, mem_broadcasts_iff]
      simp only [afterwards, hc, true_and, readNotice, and_comm]
  · simp [sent, hnode]

omit [DecidableEq ι] in
theorem told_of_affected {notice : Notice} (hacc : x.Accepted members notice)
    (hdirect : ¬ notice.lookedUp) {userID : Int} (haffected : notice.affected userID) :
    userID ∈ notice.told := by
  cases hacc with
  | recalled topic req hcmd hcheck hrecalls =>
    have htype : parseTopicType topic = .p2p := not_not.mp hdirect
    obtain ⟨-, hnorm, a, -, haccess⟩ := checkRecall_ok hcheck
    simp only [recallNotice, RecallConcerns, htype] at haffected
    obtain ⟨uid1, uid2, hids, huser⟩ := haffected
    have hself := mem_of_canAccessTopic hnorm htype haccess hids
    simp only [recallNotice, recallAudience, hids, mem_cons, List.not_mem_nil, or_false]
    by_cases hfirst : uid1 = x.conn.userID
    · rcases huser with rfl | rfl
      · exact .inl hfirst
      · simp [hfirst]
    · have hsecond : x.conn.userID = uid2 := hself.resolve_left fun h => hfirst h.symm
      rcases huser with rfl | rfl
      · simp [hfirst]
      · exact .inl hsecond.symm
  | delivery req hcmd hauthed hreq => exact absurd trivial hdirect
  | read req hcmd hauthed hreq htype hupdated => simpa [readNotice] using haffected

end Handling

/-- For every deployment, every placement of connections and every accepted recall, ack or P2P
read receipt: the notice reaches all connections of the users it concerns, on all nodes, exactly
when all these connections are at the accepting node and take the packet, and the lookup of the
users, where there is one, finds them. -/
theorem notices_reach_every_node_iff {ι ν : Type} [DecidableEq ι] (members : String → List Int)
    (x : Handling ι ν) (notice : Notice) (hacc : x.Accepted members notice) :
    (∀ node, ∀ c ∈ (x.managers node).conns, notice.affected c.userID →
        ⟨c, notice.packet⟩ ∈ x.sent node) ↔
      ∀ node, ∀ c ∈ (x.managers node).conns, notice.affected c.userID →
        node = x.node ∧ notice.accepts c notice.packet = true ∧
          (notice.lookedUp → c.userID ∈ notice.told) := by
  refine forall_congr' fun node => forall₂_congr fun c hc => forall_congr' fun haffected => ?_
  rw [Handling.mem_sent_iff hacc hc]
  refine and_congr_right fun _ => and_congr_right fun _ => ⟨fun htold _ => htold, fun h => ?_⟩
  by_cases hlookup : notice.lookedUp
  · exact h hlookup
  · exact Handling.told_of_affected hacc hlookup haffected

/-! ## Two nodes -/

def sentMessage : InboxMessage where
  userID := 2
  msgID := 7
  topic := "p2p_1_2"
  senderID := 1
  msgType := 0
  content := []
  timestamp := 0
  topicSeq := 1
  clientMsgID := ""
  createdAt := 0

def recallEnv : PacketEnv Unit where
  produce := ⟨fun _ => .error "", fun _ => .written, fun _ => false⟩

def user1Conn : Connection := ⟨"c1", 1, "default", .authed⟩

def user2Conn : Connection := ⟨"c2", 2, "default", .authed⟩

def user3Conn : Connection := ⟨"c3", 3, "default", .authed⟩

def recallAt (managers : Bool → Manager) : Handling Bool Unit where
  managers
  node := false
  env := recallEnv
  envLater := recallEnv
  handler := { authorizer := some ⟨none⟩ }
  gateway := { manager := managers false, storage := { inboxes := .insert .empty sentMessage } }
  later := { manager := managers false }
  conn := user1Conn
  packet := { cmd := .recallMessage, payload := some (.recallReq ⟨"p2p_1_2", 1, 7⟩) }

theorem accepted_recallAt (managers : Bool → Manager) (members : String → List Int) :
    (recallAt managers).Accepted members
      ((recallAt managers).recallNotice members "p2p_1_2" ⟨"p2p_1_2", 1, 7⟩) := by
  have hsender : (getMessageSender recallEnv.sender "p2p_1_2" 1
      { inboxes := .insert .empty sentMessage }).1.toOption = some 1 := by decide
  have hcheck : checkRecall { authorizer := some ⟨none⟩ } user1Conn
      { cmd := .recallMessage, payload := some (.recallReq ⟨"p2p_1_2", 1, 7⟩) } =
        .ok ("p2p_1_2", ⟨"p2p_1_2", 1, 7⟩) := by decide
  have hrecalled : (recallMessage ⟨"p2p_1_2", 1, 7, 1, 2 * 60 * 10 ^ 9⟩ 0
      (recallFaultFor 1 recallEnv.recallFault) (getMessageSender recallEnv.sender "p2p_1_2" 1
        { inboxes := .insert .empty sentMessage }).2.toStore).1 = .ok () := by decide
  exact .recalled "p2p_1_2" ⟨"p2p_1_2", 1, 7⟩ rfl hcheck ⟨hsender, hrecalled⟩

def sameNode : Bool → Manager
  | false => { conns := [user1Conn, user2Conn] }
  | true => { conns := [user3Conn] }

def otherNode : Bool → Manager
  | false => { conns := [user1Conn] }
  | true => { conns := [user2Conn] }

/-- The notice reaches both users at one node. -/
theorem notice_at_the_same_node :
    (recallAt sameNode).Accepted (fun _ => [])
        ((recallAt sameNode).recallNotice (fun _ => []) "p2p_1_2" ⟨"p2p_1_2", 1, 7⟩) ∧
      ∀ node, ∀ c ∈ (sameNode node).conns, RecallConcerns (fun _ => []) "p2p_1_2" c.userID →
          ⟨c, ((recallAt sameNode).recallNotice (fun _ => []) "p2p_1_2"
            ⟨"p2p_1_2", 1, 7⟩).packet⟩ ∈ (recallAt sameNode).sent node := by
  have hacc := accepted_recallAt sameNode fun _ => []
  refine ⟨hacc, (notices_reach_every_node_iff (fun _ => []) (recallAt sameNode) _ hacc).mpr ?_⟩
  intro node c hc hconcerns
  cases node with
  | false => exact ⟨rfl, rfl, fun hlookup => absurd (by decide) hlookup⟩
  | true =>
    have hids : extractUserIDsFromP2PTopic "p2p_1_2" = .ok (1, 2) := by decide
    obtain ⟨uid1, uid2, huids, huser⟩ := hconcerns
    obtain ⟨rfl, rfl⟩ := Prod.mk.inj (Except.ok.inj (hids.symm.trans huids))
    rw [mem_singleton.mp hc] at huser
    exact absurd huser (by decide)

/-- The recall is accepted, user 2 is a participant with a connection, and no node sends it the
notice. -/
theorem no_notice_at_the_other_node :
    (recallAt otherNode).Accepted (fun _ => [])
        ((recallAt otherNode).recallNotice (fun _ => []) "p2p_1_2" ⟨"p2p_1_2", 1, 7⟩) ∧
      user2Conn ∈ (otherNode true).conns ∧
      RecallConcerns (fun _ => []) "p2p_1_2" user2Conn.userID ∧
      (recallAt otherNode).sent true = [] ∧
      ∀ s ∈ (recallAt otherNode).sent false, s.conn ≠ user2Conn := by
  refine ⟨accepted_recallAt otherNode _, by decide, ?_, rfl, by decide⟩
  exact ⟨1, 2, by decide, .inr rfl⟩

end NonokaIM
