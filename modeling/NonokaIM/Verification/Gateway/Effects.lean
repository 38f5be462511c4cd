import NonokaIM.Verification.Gateway.TopicRows

/-! What handling a packet affects: topics that the authorizer has passed, or the topic of a
receipt. -/

namespace NonokaIM

open DocumentStore List

def Packet.topics (packet : Packet) : List String :=
  match packet.payload with
  | some (.sendReq req) => [req.topic]
  | some (.pullReq req) => [req.topic]
  | some (.pullReply reply) => reply.messages.map (·.topic)
  | some (.ackReq req) => [req.topic]
  | some (.readReceipt receipt) => [receipt.topic]
  | some (.deliveryReceipt receipt) => [receipt.topic]
  | some (.recallReq req) => [req.topic]
  | some (.recallNotice notice) => [notice.topic]
  | _ => []

/-- The packet is an ack or a read receipt for the topic, with a seq that can be encoded in the
latter case. -/
def Packet.ReceiptFor (packet : Packet) (topic : String) : Prop :=
  (packet.cmd = .ack ∧ ∃ req, packet.getAckReq = some req ∧ req.topic = topic) ∨
  (packet.cmd = .readReceipt ∧
    ∃ req, packet.getReadReceipt = some req ∧ req.upToSeq < 2 ^ 63 ∧ req.topic = topic)

def ReceiptJob.topic : ReceiptJob → String
  | .pushDeliveryReceipt topic _ _ => topic
  | .pushReadReceipt _ topic _ => topic

def Handler.CanAccess (h : Handler) (userID : Int) (topic : String) : Prop :=
  ∃ a, h.authorizer = some a ∧ a.canAccessTopic userID topic = .ok ()

def SentToOthers (c : Connection) (sent : List Sent) (topic : String) : Prop :=
  ∃ x ∈ sent, x.conn.userID ≠ c.userID ∧ topic ∈ x.packet.topics

section

variable {ν : Type}

/-- Handling the packet wrote the topic to Kafka, changed its rows, or spoke about it to others. -/
def Handled.Affects (r : Handled ν) (g : Gateway) (c : Connection) (topic : String) : Prop :=
  (∃ w ∈ r.produced, w.record.key = topic) ∨
    r.gateway.storage.rowsAbout topic ≠ g.storage.rowsAbout topic ∨
    SentToOthers c r.sent topic

def ReceiptJob.Affects (job : ReceiptJob) (env : PacketEnv ν) (g : Gateway) (c : Connection)
    (topic : String) : Prop :=
  (runReceipt env g job).1.storage.rowsAbout topic ≠ g.storage.rowsAbout topic ∨
    SentToOthers c (runReceipt env g job).2 topic

/-- The packet affects a topic, at once or through a goroutine that finds the gateway `later`. -/
def Packet.Affects (packet : Packet) (env envLater : PacketEnv ν) (h : Handler) (g later : Gateway)
    (c : Connection) (topic : String) : Prop :=
  (handlePacket env h g c packet).Affects g c topic ∨
    ∃ job ∈ (handlePacket env h g c packet).jobs, job.Affects envLater later c topic

/-! ## What a handler can affect -/

/-- All effects are about topics with the property. -/
structure Handled.Confined (r : Handled ν) (g : Gateway) (c : Connection) (P : String → Prop) :
    Prop where
  produced : ∀ w ∈ r.produced, P w.record.key
  rows : ∀ t, ¬ P t → r.gateway.storage.rowsAbout t = g.storage.rowsAbout t
  sent : ∀ x ∈ r.sent, x.conn.userID ≠ c.userID → ∀ t ∈ x.packet.topics, P t
  jobs : ∀ job ∈ r.jobs, P job.topic

variable {env : PacketEnv ν} {h : Handler} {g : Gateway} {c : Connection} {packet : Packet}
  {P : String → Prop}

theorem mem_send {c : Connection} {x : Sent} (hx : x ∈ send env c packet) : x = ⟨c, packet⟩ := by
  unfold send at hx
  split at hx
  · exact mem_singleton.mp hx
  · cases hx

theorem mem_broadcastToUser {userID : Int} {x : Sent}
    (hx : x ∈ broadcastToUser env g userID packet) : x.packet = packet := by
  rcases mem_flatMap.mp hx with ⟨_, _, hsend⟩
  rw [mem_send hsend]

theorem confined_idle : ({ conn := c, gateway := g } : Handled ν).Confined g c P where
  produced := by simp
  rows _ _ := rfl
  sent := by simp
  jobs := by simp

theorem confined_reply {g' : Gateway} {c' : Connection}
    (hrows : ∀ t, ¬ P t → g'.storage.rowsAbout t = g.storage.rowsAbout t)
    (hc : c'.userID = c.userID ∨ packet.topics = []) :
    (reply env g' c' packet).Confined g c P where
  produced := by simp [reply]
  rows := hrows
  sent := by
    intro x hx hother t ht
    rw [mem_send hx] at hother ht
    rcases hc with hc | hc
    · exact absurd hc hother
    · simp [hc] at ht
  jobs := by simp [reply]

theorem confined_sendError {g' : Gateway} {seq : ℕ} {cmd : Command} {err : ErrorResponse}
    (hrows : ∀ t, ¬ P t → g'.storage.rowsAbout t = g.storage.rowsAbout t) :
    (sendError env g' c seq cmd err).Confined g c P :=
  confined_reply hrows (.inl rfl)

theorem confined_handleAuth : (handleAuth env g c packet).Confined g c P := by
  have hrefused : ∀ err, (sendError env g c packet.seq .auth err).Confined g c P :=
    fun err => confined_sendError (fun _ _ => rfl)
  unfold handleAuth
  split
  · exact confined_idle
  split
  · exact hrefused _
  split
  · exact hrefused _
  split
  · exact hrefused _
  · exact hrefused _
  · exact hrefused _
  · exact confined_reply (fun _ _ => rfl) (.inr rfl)

variable {topic : String}

theorem authorizeTopic_ok {userID : Int} {raw : String}
    (hok : authorizeTopic h userID raw = .ok topic) :
    normalizeTopic raw = .ok topic ∧ h.CanAccess userID topic := by
  unfold authorizeTopic at hok
  split at hok
  · cases hok
  · cases hok
  · rename_i a hnorm ha
    split at hok
    · cases hok
    · rename_i haccess
      cases hok
      exact ⟨hnorm, a, ha, haccess⟩

theorem checkPublish_ok {upstream : UpstreamMessage}
    (hok : checkPublish env h c packet = .ok upstream) :
    c.state = .authed ∧ h.CanAccess c.userID upstream.topic := by
  unfold checkPublish at hok
  split at hok
  · cases hok
  split at hok
  · cases hok
  rename_i hauthed
  split at hok
  · cases hok
  split at hok
  · cases hok
  split at hok
  · cases hok
  split at hok
  · cases hok
  split at hok
  · cases hok
  · rename_i haccess
    cases hok
    exact ⟨not_not.mp hauthed, (authorizeTopic_ok haccess).2⟩

theorem checkRecall_ok {req : RecallRequest} (hok : checkRecall h c packet = .ok (topic, req)) :
    c.state = .authed ∧ normalizeTopic req.topic = .ok topic ∧ h.CanAccess c.userID topic := by
  unfold checkRecall at hok
  split at hok
  · cases hok
  rename_i hauthed
  split at hok
  · cases hok
  split at hok
  · cases hok
  split at hok
  · cases hok
  · rename_i haccess
    cases hok
    exact ⟨not_not.mp hauthed, authorizeTopic_ok haccess⟩

theorem confined_handlePublish (hP : ∀ t, c.state = .authed → h.CanAccess c.userID t → P t) :
    (handlePublish env h g c packet).Confined g c P := by
  unfold handlePublish
  split
  · exact confined_sendError (fun _ _ => rfl)
  rename_i upstream hcheck
  have haccess := checkPublish_ok hcheck
  have hproduced : ∀ w ∈ (produce env.produce g.calls upstream g.counter).2.1, P w.record.key := by
    intro w hw
    rw [(mem_produce hw).2]
    exact hP _ haccess.1 haccess.2
  dsimp only
  split
  · exact { confined_sendError (fun _ _ => rfl) with produced := hproduced }
  · exact { confined_reply (fun _ _ => rfl) (.inl rfl) with produced := hproduced }

theorem confined_handlePullPacket : (handlePullPacket env h g c packet).Confined g c P := by
  unfold handlePullPacket
  split
  · exact confined_sendError (fun _ _ => rfl)
  · exact confined_reply (fun _ _ => rfl) (.inl rfl)

theorem confined_handleAck
    (hP : ∀ req, c.state = .authed → packet.getAckReq = some req → P req.topic) :
    (handleAck env g c packet).Confined g c P := by
  unfold handleAck
  split
  · exact confined_idle
  rename_i hauthed
  split
  · exact confined_idle
  rename_i req hreq
  have htopic := hP req (not_not.mp hauthed) hreq
  exact
    { produced := by simp
      rows := by
        intro t ht
        apply rowsAbout_updateDeliveryStatus
        intro heq
        exact ht (heq ▸ htopic)
      sent := by simp
      jobs := by
        intro job hjob
        rw [mem_singleton.mp hjob]
        exact htopic }

theorem updateReadStatus_overflow (now userID : Int) (topic : String) {upToSeq : ℕ}
    (fault : ReadFault) (s : GatewayStorage) (hseq : ¬ upToSeq < 2 ^ 63) :
    ∃ e, updateReadStatus now userID topic upToSeq fault s = (.error e, s) := by
  refine ⟨"update inbox read status: " ++ (toString upToSeq ++ " overflows int64"), ?_⟩
  unfold updateReadStatus updateFaultFor seqOverflow
  rw [if_neg hseq]
  simp only [updateMany, Bool.and_false]
  rw [Collection.update_eq_self (fun _ _ => rfl)]

theorem confined_handleReadReceipt
    (hP : ∀ req, c.state = .authed → packet.getReadReceipt = some req → req.upToSeq < 2 ^ 63 →
      P req.topic) :
    (handleReadReceipt env g c packet).Confined g c P := by
  unfold handleReadReceipt
  split
  · exact confined_idle
  rename_i hauthed
  split
  · exact confined_idle
  rename_i req hreq
  by_cases hseq : req.upToSeq < 2 ^ 63
  · have htopic := hP req (not_not.mp hauthed) hreq hseq
    have hrows : ∀ t, ¬ P t →
        (updateReadStatus env.now c.userID req.topic req.upToSeq env.readFault
          g.storage).2.rowsAbout t = g.storage.rowsAbout t := by
      intro t ht
      apply rowsAbout_updateReadStatus
      intro heq
      exact ht (heq ▸ htopic)
    split
    · rename_i hupdate
      rw [hupdate] at hrows
      exact { produced := by simp, rows := hrows, sent := by simp, jobs := by simp }
    · rename_i hupdate
      rw [hupdate] at hrows
      exact
        { produced := by simp
          rows := hrows
          sent := by simp
          jobs := by
            intro job hjob
            rw [mem_singleton.mp hjob]
            exact htopic }
  · rcases updateReadStatus_overflow env.now c.userID req.topic env.readFault g.storage hseq
      with ⟨e, he⟩
    rw [he]
    exact confined_idle

theorem confined_recallChecked {seq : ℕ} {req : RecallRequest} (hP : P topic) :
    (recallChecked env h g c seq topic req).Confined g c P := by
  have hfound : ∀ t, (getMessageSender env.sender topic req.topicSeq g.storage).2.rowsAbout t =
      g.storage.rowsAbout t := rowsAbout_getMessageSender env.sender topic req.topicSeq g.storage
  unfold recallChecked
  dsimp only
  split
  · exact confined_sendError (fun t _ => hfound t)
  have hrows : ∀ args now fault t, args.topic = topic → ¬ P t →
      ({ (getMessageSender env.sender topic req.topicSeq g.storage).2 with
          toStore := (recallMessage args now fault
            (getMessageSender env.sender topic req.topicSeq g.storage).2.toStore).2 } :
        GatewayStorage).rowsAbout t = g.storage.rowsAbout t := by
    intro args now fault t hargs ht
    rw [rowsAbout_recallMessage, hfound]
    intro heq
    rw [hargs] at heq
    exact ht (heq ▸ hP)
  split
  · exact confined_sendError (fun t ht => hrows _ _ _ t rfl ht)
  exact
    { produced := by simp
      rows := fun t ht => hrows _ _ _ t rfl ht
      sent := by
        intro x hx hother t ht
        rcases mem_append.mp hx with hx | hx
        · rcases mem_flatMap.mp hx with ⟨_, _, hx⟩
          rw [mem_broadcastToUser hx] at ht
          rw [mem_singleton.mp ht]
          exact hP
        · rw [mem_send hx] at hother
          exact absurd rfl hother
      jobs := by simp }

theorem confined_handleRecall (hP : ∀ t, c.state = .authed → h.CanAccess c.userID t → P t) :
    (handleRecall env h g c packet).Confined g c P := by
  unfold handleRecall
  split
  · exact confined_sendError (fun _ _ => rfl)
  · rename_i topic req hcheck
    have haccess := checkRecall_ok hcheck
    exact confined_recallChecked (hP topic haccess.1 haccess.2.2)

/-- What the connection may act on, and what its receipts name. -/
def WithinReach (h : Handler) (c : Connection) (packet : Packet) (topic : String) : Prop :=
  c.state = .authed ∧ (h.CanAccess c.userID topic ∨ packet.ReceiptFor topic)

theorem confined_handlePacket :
    (handlePacket env h g c packet).Confined g c (WithinReach h c packet) := by
  have haccess : ∀ t, c.state = .authed → h.CanAccess c.userID t → WithinReach h c packet t :=
    fun t hauthed ht => ⟨hauthed, .inl ht⟩
  unfold handlePacket
  split
  · exact confined_reply (fun _ _ => rfl) (.inl rfl)
  · exact confined_handleAuth
  · exact confined_handlePublish haccess
  · exact confined_handlePullPacket
  · rename_i hcmd
    apply confined_handleAck
    intro req hauthed hreq
    exact ⟨hauthed, .inr (.inl ⟨hcmd, req, hreq, rfl⟩)⟩
  · rename_i hcmd
    apply confined_handleReadReceipt
    intro req hauthed hreq hseq
    exact ⟨hauthed, .inr (.inr ⟨hcmd, req, hreq, hseq, rfl⟩)⟩
  · exact confined_handleRecall haccess
  · exact confined_idle

/-! ## What a goroutine can affect -/

theorem rowsAbout_runReceipt (job : ReceiptJob) (t : String) :
    (runReceipt env g job).1.storage.rowsAbout t = g.storage.rowsAbout t := by
  cases job with
  | pushDeliveryReceipt topic topicSeq msgID =>
    have hsender := rowsAbout_getMessageSender env.sender topic topicSeq g.storage t
    dsimp only [runReceipt]
    split
    · rename_i hlookup
      rw [hlookup] at hsender
      exact hsender
    · rename_i hlookup
      rw [hlookup] at hsender
      exact hsender
  | pushReadReceipt readerID topic upToSeq =>
    dsimp only [runReceipt]
    split
    · split <;> rfl
    · rfl
    · rfl
    · rfl

theorem topics_of_mem_runReceipt {job : ReceiptJob} {x : Sent}
    (hx : x ∈ (runReceipt env g job).2) : x.packet.topics = [job.topic] := by
  cases job with
  | pushDeliveryReceipt topic topicSeq msgID =>
    dsimp only [runReceipt] at hx
    split at hx
    · cases hx
    · rw [mem_broadcastToUser hx]
      rfl
  | pushReadReceipt readerID topic upToSeq =>
    dsimp only [runReceipt] at hx
    split at hx
    · split at hx
      · cases hx
      · rw [mem_broadcastToUser hx]
        rfl
    · cases hx
    · cases hx
    · cases hx

theorem ReceiptJob.topic_of_affects {job : ReceiptJob} {t : String}
    (haffects : job.Affects env g c t) : t = job.topic := by
  rcases haffects with hrows | ⟨x, hx, _, ht⟩
  · exact absurd (rowsAbout_runReceipt job t) hrows
  · rw [topics_of_mem_runReceipt hx] at ht
    exact mem_singleton.mp ht

theorem Handled.Confined.of_affects {r : Handled ν} (hr : r.Confined g c P) {t : String}
    (haffects : r.Affects g c t) : P t := by
  rcases haffects with ⟨w, hw, rfl⟩ | hrows | ⟨x, hx, hother, ht⟩
  · exact hr.produced w hw
  · by_contra hP
    exact hrows (hr.rows t hP)
  · exact hr.sent x hx hother t ht

theorem withinReach_of_affects {envLater : PacketEnv ν} {later : Gateway} {t : String}
    (haffects : packet.Affects env envLater h g later c t) : WithinReach h c packet t := by
  rcases haffects with haffects | ⟨job, hjob, haffects⟩
  · exact confined_handlePacket.of_affects haffects
  · rw [ReceiptJob.topic_of_affects haffects]
    exact confined_handlePacket.jobs job hjob

end

end NonokaIM
