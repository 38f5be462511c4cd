import NonokaIM.Model.SdkClient

/-! The status of a message of a conversation. Statuses are compared as numbers, `Failed` is the
largest, and a receipt before the seq is known is lost. -/

namespace NonokaIM.Sdk

open GuardedRun List MessageStatus Client Sdk.Conversation Message

def MessageStatus.later (old new : MessageStatus) : MessageStatus :=
  if old.value < new.value then new else old

theorem MessageStatus.value_le_later (old new : MessageStatus) :
    old.value ≤ (old.later new).value := by
  unfold later
  split <;> omega

def MessageStatus.IsDelivered (status : MessageStatus) : Prop :=
  status = .delivered ∨ status = .read
  deriving Decidable

variable {status : MessageStatus}

theorem later_sent_isDelivered : (status.later .sent).IsDelivered ↔ status.IsDelivered := by
  cases status <;> simp [later, IsDelivered, value]

theorem later_delivered_isDelivered : (status.later .delivered).IsDelivered ↔ status ≠ .failed := by
  cases status <;> simp [later, IsDelivered, value]

theorem later_sent_eq_read : status.later .sent = .read ↔ status = .read := by
  cases status <;> simp [later, value]

theorem later_delivered_eq_read : status.later .delivered = .read ↔ status = .read := by
  cases status <;> simp [later, value]

theorem later_read_eq_read : status.later .read = .read ↔ status ≠ .failed := by
  cases status <;> simp [later, value]

theorem MessageStatus.IsDelivered.ne_failed (h : status.IsDelivered) : status ≠ .failed := by
  rintro rfl
  rcases h with h | h <;> cases h

namespace Client

variable (c : Client) (topic : String) (i : ℕ)

def message : Option Message := (c.get topic).messages[i]?

/-- The position is the first one with the property. -/
def IsFirst (p : Message → Bool) : Prop := (c.get topic).messages.findIdx p = i
  deriving Decidable

/-- A message is a duplicate of the one there: by its seq, or else by its client id. -/
def IsDuplicate (new : Message) : Prop :=
  new.topic = topic ∧
    if 0 < new.topicSeq ∧ (c.get topic).messages.any (·.topicSeq = new.topicSeq) then
      c.IsFirst topic i (·.topicSeq = new.topicSeq)
    else new.clientMsgID ≠ "" ∧ c.IsFirst topic i (·.clientMsgID = new.clientMsgID)
  deriving Decidable

/-- A send receipt is for the message there, which is still in flight. -/
def IsAnswered (clientMsgID topic' : String) : Prop :=
  topic' = topic ∧ (c.sendingMsgs clientMsgID).isSome ∧
    c.IsFirst topic i (·.clientMsgID = clientMsgID)
  deriving Decidable

def change (msg : Message) : ClientEvent → Message
  | .push push =>
    if c.IsDuplicate topic i (toSDKMessage push) then
      mergeMessageMetadata msg (toSDKMessage push)
    else msg
  | .readReceipt topic' upToSeq =>
    if topic' = topic then msg.upgradeUpTo upToSeq .read else msg
  | .deliveryReceipt topic' topicSeq =>
    if topic' = topic ∧ c.IsFirst topic i (·.topicSeq = topicSeq) then msg.upgrade .delivered
    else msg
  | .sendReceipt clientMsgID msgID topic' topicSeq _ =>
    if c.IsAnswered topic i clientMsgID topic' then msg.assign msgID topicSeq else msg

end Client

/-! ## The handlers change messages in place -/

theorem mergeFirst_eq (p : Message → Bool) (msg : Message) (ms : List Message) :
    mergeFirst p msg ms =
      if ms.any p then some (modifyFirst p (mergeMessageMetadata · msg) ms) else none := by
  induction ms with
  | nil => rfl
  | cons m ms ih =>
    by_cases hm : p m = true
    · simp [mergeFirst, modifyFirst, hm, List.findIdx_cons]
    simp only [mergeFirst, modifyFirst, hm, ih, any_cons, List.findIdx_cons]
    by_cases hany : ms.any p = true
    · simp [hany]
    · simp [hany]

theorem getElem?_modifyFirst {p : Message → Bool} {f : Message → Message} {ms : List Message}
    {i : ℕ} {msg : Message} (h : ms[i]? = some msg) :
    (modifyFirst p f ms)[i]? = some (if ms.findIdx p = i then f msg else msg) := by
  rw [modifyFirst, getElem?_modify, h]
  split <;> rfl

section

variable {c : Client} {topic : String} {i : ℕ} {msg : Message}

theorem message_updateConversation (h : c.message topic i = some msg) (topic' : String)
    (f : Conversation → Conversation) :
    (c.updateConversation topic' f).message topic i =
      if topic' = topic then (f (c.get topic)).messages[i]? else some msg := by
  by_cases ht : topic' = topic
  · subst ht
    simp [Client.updateConversation, Client.message, Client.get]
  · have hne : topic ≠ topic' := fun he => ht he.symm
    rw [if_neg ht, ← h]
    simp [Client.updateConversation, Client.message, Client.get, hne]

theorem mergeDuplicate_eq (new : Message) (ms : List Message) :
    mergeDuplicate new ms =
      if 0 < new.topicSeq ∧ ms.any (·.topicSeq = new.topicSeq) then
        some (modifyFirst (·.topicSeq = new.topicSeq) (mergeMessageMetadata · new) ms)
      else if new.clientMsgID ≠ "" ∧ ms.any (·.clientMsgID = new.clientMsgID) then
        some (modifyFirst (·.clientMsgID = new.clientMsgID) (mergeMessageMetadata · new) ms)
      else none := by
  unfold mergeDuplicate
  rw [mergeFirst_eq, mergeFirst_eq]
  by_cases hseq : 0 < new.topicSeq
  · by_cases hany : ms.any (·.topicSeq = new.topicSeq) = true
    · simp only [hseq, hany, and_self, if_true]
      rfl
    · simp [hseq, hany, ite_and]
  · simp [hseq, ite_and]

theorem findIdx_ne_of_not_any {p : Message → Bool} {ms : List Message}
    (h : ms[i]? = some msg) (hany : ¬ ms.any p = true) : ms.findIdx p ≠ i := by
  obtain ⟨hlt, -⟩ := List.getElem?_eq_some_iff.mp h
  have hlen : ms.findIdx p = ms.length := by
    apply List.findIdx_eq_length_of_false
    simpa using hany
  omega

theorem message_handleIncomingMessage (h : c.message topic i = some msg) (new : Message) :
    (c.handleIncomingMessage new).message topic i =
      some (if c.IsDuplicate topic i new then mergeMessageMetadata msg new else msg) := by
  rw [handleIncomingMessage, message_updateConversation h]
  by_cases ht : new.topic = topic
  · rw [if_pos ht, appendMessage, mergeDuplicate_eq]
    by_cases hseq : 0 < new.topicSeq ∧
        (c.get topic).messages.any (·.topicSeq = new.topicSeq) = true
    · have hdup : c.IsDuplicate topic i new ↔
          (c.get topic).messages.findIdx (·.topicSeq = new.topicSeq) = i := by
        rw [IsDuplicate, if_pos hseq]
        exact and_iff_right ht
      simp only [if_pos hseq, hdup]
      exact getElem?_modifyFirst h
    · have hdup : c.IsDuplicate topic i new ↔ new.clientMsgID ≠ "" ∧
          (c.get topic).messages.findIdx (·.clientMsgID = new.clientMsgID) = i := by
        rw [IsDuplicate, if_neg hseq]
        exact and_iff_right ht
      rw [if_neg hseq]
      by_cases hid : new.clientMsgID ≠ "" ∧
          (c.get topic).messages.any (·.clientMsgID = new.clientMsgID) = true
      · rw [if_pos hid]
        simp only [hdup.trans (and_iff_right hid.1)]
        exact getElem?_modifyFirst h
      · have hnone : ¬ c.IsDuplicate topic i new := by
          rw [hdup]
          rintro ⟨hne, hfirst⟩
          exact findIdx_ne_of_not_any h (fun hany => hid ⟨hne, hany⟩) hfirst
        rw [if_neg hid, if_neg hnone]
        exact (getElem?_append_left (List.getElem?_eq_some_iff.mp h).1).trans h
  · rw [if_neg ht, if_neg fun hdup : c.IsDuplicate topic i new => ht hdup.1]

theorem message_handleReadReceipt (h : c.message topic i = some msg) (topic' : String)
    (upToSeq : ℕ) :
    (c.handleReadReceipt topic' upToSeq).message topic i =
      some (if topic' = topic then msg.upgradeUpTo upToSeq .read else msg) := by
  rw [Client.handleReadReceipt, message_updateConversation (c := c.mapSendingMsgs _) h]
  split
  · rw [updateMessageStatus, getElem?_map]
    exact congrArg (Option.map _) h
  · rfl

theorem message_handleDeliveryReceipt (h : c.message topic i = some msg) (topic' : String)
    (topicSeq : ℕ) :
    (c.handleDeliveryReceipt topic' topicSeq).message topic i =
      some (if topic' = topic ∧ c.IsFirst topic i (·.topicSeq = topicSeq) then
        msg.upgrade .delivered else msg) := by
  rw [handleDeliveryReceipt, message_updateConversation (c := c.mapSendingMsgs _) h]
  by_cases ht : topic' = topic
  · simp only [ht, true_and]
    exact getElem?_modifyFirst h
  · rw [if_neg ht, if_neg fun hfirst => ht hfirst.1]

theorem message_handleSendReceipt (h : c.message topic i = some msg) (clientMsgID : String)
    (msgID : Int) (topic' : String) (topicSeq : ℕ) (now : Int) :
    (c.handleSendReceipt clientMsgID msgID topic' topicSeq now).message topic i =
      some (if c.IsAnswered topic i clientMsgID topic' then msg.assign msgID topicSeq
        else msg) := by
  unfold handleSendReceipt
  by_cases hflight : (c.sendingMsgs clientMsgID).isSome = true
  · rw [if_pos hflight,
      message_updateConversation (c := (c.untrackSendingMsg clientMsgID).setSendCache _ _ _) h]
    by_cases ht : topic' = topic
    · have hanswered : c.IsAnswered topic i clientMsgID topic' ↔
          (c.get topic).messages.findIdx (·.clientMsgID = clientMsgID) = i :=
        (and_iff_right ht).trans (and_iff_right hflight)
      rw [if_pos ht, updateMessageIDAndSeq]
      simp only [hanswered]
      split
      · exact getElem?_modifyFirst h
      · rename_i hany
        rw [if_neg (findIdx_ne_of_not_any h hany)]
        exact h
    · rw [if_neg ht, if_neg fun hanswered : c.IsAnswered topic i _ _ => ht hanswered.1]
  · rw [if_neg hflight, if_neg fun hanswered : c.IsAnswered topic i _ _ => hflight hanswered.2.1]
    exact h

theorem message_handle (h : c.message topic i = some msg) (e : ClientEvent) :
    (c.handle e).message topic i = some (c.change topic i msg e) := by
  cases e with
  | push push => exact message_handleIncomingMessage h (toSDKMessage push)
  | readReceipt topic' upToSeq => exact message_handleReadReceipt h topic' upToSeq
  | deliveryReceipt topic' topicSeq => exact message_handleDeliveryReceipt h topic' topicSeq
  | sendReceipt clientMsgID msgID topic' topicSeq now =>
    exact message_handleSendReceipt h clientMsgID msgID topic' topicSeq now

end

/-! ## Following the receipts -/

def ClientEvent.covers (topic : String) (topicSeq : ℕ) : ClientEvent → Bool
  | .readReceipt topic' upToSeq => topic' = topic ∧ topicSeq ≤ upToSeq
  | _ => false

def CoveredBy (events : List ClientEvent) (topic : String) (topicSeq : ℕ) : Prop :=
  ∃ e ∈ events, e.covers topic topicSeq = true
  deriving Decidable

/-- The status is what the receipts for the seq of the message say, once it has one. -/
structure Follows (events : List ClientEvent) (topic : String) (msg : Message) : Prop where
  delivered : 0 < msg.topicSeq → .deliveryReceipt topic msg.topicSeq ∈ events →
    msg.status.IsDelivered
  read : 0 < msg.topicSeq → CoveredBy events topic msg.topicSeq → msg.status = .read

/-- A receipt for the seq finds the message where it can be upgraded; an event that gives it another
seq comes before the receipts for that seq, or its status is already there. -/
def Client.Meets (c : Client) (topic : String) (i : ℕ) (events : List ClientEvent)
    (msg : Message) : ClientEvent → Prop
  | .push push =>
    c.IsDuplicate topic i (toSDKMessage push) → msg.topicSeq = 0 → 0 < push.topicSeq →
      (.deliveryReceipt topic push.topicSeq ∈ events → msg.status ≠ .failed) ∧
      (CoveredBy events topic push.topicSeq → msg.status = .read)
  | .readReceipt topic' upToSeq =>
    topic' = topic → 0 < msg.topicSeq → msg.topicSeq ≤ upToSeq → msg.status ≠ .failed
  | .deliveryReceipt topic' topicSeq =>
    topic' = topic → 0 < topicSeq → topicSeq = msg.topicSeq →
      msg.status ≠ .failed ∧
      (c.IsFirst topic i (·.topicSeq = topicSeq) ∨ msg.status.IsDelivered)
  | .sendReceipt clientMsgID _ topic' topicSeq _ =>
    c.IsAnswered topic i clientMsgID topic' → 0 < topicSeq → topicSeq ≠ msg.topicSeq →
      (.deliveryReceipt topic topicSeq ∈ events → msg.status.IsDelivered) ∧
      (CoveredBy events topic topicSeq → msg.status = .read)

instance (c : Client) (topic : String) (i : ℕ) (events : List ClientEvent) (msg : Message) :
    (e : ClientEvent) → Decidable (c.Meets topic i events msg e)
  | .push _ => inferInstanceAs (Decidable (_ → _))
  | .readReceipt _ _ => inferInstanceAs (Decidable (_ → _))
  | .deliveryReceipt _ _ => inferInstanceAs (Decidable (_ → _))
  | .sendReceipt _ _ _ _ _ => inferInstanceAs (Decidable (_ → _))

section

variable {c : Client} {topic : String} {i : ℕ} {msg : Message} {events : List ClientEvent}
  {e : ClientEvent}

theorem coveredBy_append {topicSeq : ℕ} :
    CoveredBy (events ++ [e]) topic topicSeq ↔
      CoveredBy events topic topicSeq ∨ e.covers topic topicSeq = true := by
  simp [CoveredBy, or_and_right, exists_or]

theorem Follows.of_topicSeq_eq {msg' : Message} (h : Follows events topic msg)
    (hseq : msg'.topicSeq = msg.topicSeq)
    (hdelivered : msg.status.IsDelivered → msg'.status.IsDelivered)
    (hread : msg.status = .read → msg'.status = .read)
    (he : 0 < msg.topicSeq → e ≠ .deliveryReceipt topic msg.topicSeq)
    (he' : 0 < msg.topicSeq → e.covers topic msg.topicSeq = false) :
    Follows (events ++ [e]) topic msg' := by
  constructor
  · rw [hseq]
    intro hpos hmem
    rcases mem_append.mp hmem with hmem | hmem
    · exact hdelivered (h.delivered hpos hmem)
    · exact absurd (mem_singleton.mp hmem).symm (he hpos)
  · rw [hseq]
    intro hpos hcovered
    rcases coveredBy_append.mp hcovered with hcovered | hcovers
    · exact hread (h.read hpos hcovered)
    · rw [he' hpos] at hcovers
      cases hcovers

theorem follows_new_seq_iff {msg' : Message} {topicSeq : ℕ}
    (hseq : msg'.topicSeq = topicSeq) (hpos : 0 < topicSeq)
    (he : e ≠ .deliveryReceipt topic topicSeq) (he' : e.covers topic topicSeq = false) :
    Follows (events ++ [e]) topic msg' ↔
      (.deliveryReceipt topic topicSeq ∈ events → msg'.status.IsDelivered) ∧
      (CoveredBy events topic topicSeq → msg'.status = .read) := by
  have hmem : .deliveryReceipt topic topicSeq ∈ events ++ [e] ↔
      .deliveryReceipt topic topicSeq ∈ events := by
    simp [he.symm]
  have hcovered : CoveredBy (events ++ [e]) topic topicSeq ↔ CoveredBy events topic topicSeq := by
    simp [coveredBy_append, he']
  constructor
  · intro h
    have hdelivered := h.delivered
    have hread := h.read
    rw [hseq] at hdelivered hread
    exact ⟨fun hd => hdelivered hpos (hmem.mpr hd), fun hr => hread hpos (hcovered.mpr hr)⟩
  · rintro ⟨hdelivered, hread⟩
    constructor
    · rw [hseq]
      exact fun _ hd => hdelivered (hmem.mp hd)
    · rw [hseq]
      exact fun _ hr => hread (hcovered.mp hr)

theorem follows_push_iff (h : Follows events topic msg) (push : MessagePush) :
    Follows (events ++ [.push push]) topic (c.change topic i msg (.push push)) ↔
      c.Meets topic i events msg (.push push) := by
  unfold change Meets
  dsimp only
  split
  · rename_i hdup
    have hstatus : (mergeMessageMetadata msg (toSDKMessage push)).status =
        msg.status.later .delivered := rfl
    by_cases hnew : 0 < push.topicSeq ∧ msg.topicSeq = 0
    · rw [follows_new_seq_iff (if_pos hnew) hnew.1 (by simp) rfl, hstatus,
        later_delivered_isDelivered, later_delivered_eq_read]
      exact ⟨fun hmeets _ _ _ => hmeets, fun hmeets => hmeets hdup hnew.2 hnew.1⟩
    · refine iff_of_true ?_ fun _ hzero hpos => absurd ⟨hpos, hzero⟩ hnew
      apply h.of_topicSeq_eq (if_neg hnew)
      · rw [hstatus, later_delivered_isDelivered]
        exact IsDelivered.ne_failed
      · rw [hstatus]
        exact later_delivered_eq_read.mpr
      · simp
      · exact fun _ => rfl
  · rename_i hdup
    refine iff_of_true ?_ fun hdup' => absurd hdup' hdup
    exact h.of_topicSeq_eq rfl id id (by simp) fun _ => rfl

theorem follows_sendReceipt_iff (h : Follows events topic msg) (clientMsgID : String)
    (msgID : Int) (topic' : String) (topicSeq : ℕ) (now : Int) :
    Follows (events ++ [.sendReceipt clientMsgID msgID topic' topicSeq now]) topic
        (c.change topic i msg (.sendReceipt clientMsgID msgID topic' topicSeq now)) ↔
      c.Meets topic i events msg (.sendReceipt clientMsgID msgID topic' topicSeq now) := by
  unfold change Meets
  dsimp only
  split
  · rename_i hanswered
    have hstatus : (msg.assign msgID topicSeq).status = msg.status.later .sent := rfl
    by_cases hnew : 0 < topicSeq ∧ topicSeq ≠ msg.topicSeq
    · rw [follows_new_seq_iff (if_pos hnew.1) hnew.1 (by simp) rfl, hstatus,
        later_sent_isDelivered, later_sent_eq_read]
      exact ⟨fun hmeets _ _ _ => hmeets, fun hmeets => hmeets hanswered hnew.1 hnew.2⟩
    · refine iff_of_true ?_ fun _ hpos hne => absurd ⟨hpos, hne⟩ hnew
      have hseq : (msg.assign msgID topicSeq).topicSeq = msg.topicSeq := by
        simp only [assign]
        split <;> omega
      apply h.of_topicSeq_eq hseq
      · rw [hstatus]
        exact later_sent_isDelivered.mpr
      · rw [hstatus]
        exact later_sent_eq_read.mpr
      · simp
      · exact fun _ => rfl
  · rename_i hanswered
    refine iff_of_true ?_ fun hanswered' => absurd hanswered' hanswered
    exact h.of_topicSeq_eq rfl id id (by simp) fun _ => rfl

theorem follows_readReceipt_iff (h : Follows events topic msg) (topic' : String) (upToSeq : ℕ) :
    Follows (events ++ [.readReceipt topic' upToSeq]) topic
        (c.change topic i msg (.readReceipt topic' upToSeq)) ↔
      c.Meets topic i events msg (.readReceipt topic' upToSeq) := by
  unfold change Meets upgradeUpTo
  dsimp only
  by_cases hcovers : topic' = topic ∧ 0 < msg.topicSeq ∧ msg.topicSeq ≤ upToSeq
  · obtain ⟨rfl, hcovers⟩ := hcovers
    rw [if_pos rfl, if_pos hcovers]
    have hread : (msg.upgrade .read).status = .read ↔ msg.status ≠ .failed := later_read_eq_read
    constructor
    · intro hfollows _ _ _
      have hlast : (ClientEvent.readReceipt topic' upToSeq).covers topic' msg.topicSeq = true :=
        decide_eq_true ⟨rfl, hcovers.2⟩
      exact hread.mp (hfollows.read hcovers.1 (coveredBy_append.mpr (.inr hlast)))
    · intro hmeets
      have hstatus := hread.mpr (hmeets rfl hcovers.1 hcovers.2)
      exact ⟨fun _ _ => .inr hstatus, fun _ _ => hstatus⟩
  · refine iff_of_true ?_ fun ht hpos hle => absurd ⟨ht, hpos, hle⟩ hcovers
    have hsame : (if topic' = topic then
        if 0 < msg.topicSeq ∧ msg.topicSeq ≤ upToSeq then msg.upgrade .read else msg
        else msg) = msg := by
      rw [← ite_and, if_neg hcovers]
    rw [hsame]
    apply h.of_topicSeq_eq rfl id id (by simp)
    intro hpos
    rw [ClientEvent.covers, decide_eq_false_iff_not]
    exact fun hboth => hcovers ⟨hboth.1, hpos, hboth.2⟩

theorem follows_deliveryReceipt_iff (h : Follows events topic msg) (topic' : String)
    (topicSeq : ℕ) :
    Follows (events ++ [.deliveryReceipt topic' topicSeq]) topic
        (c.change topic i msg (.deliveryReceipt topic' topicSeq)) ↔
      c.Meets topic i events msg (.deliveryReceipt topic' topicSeq) := by
  have hread : (msg.upgrade .delivered).status = .read ↔ msg.status = .read :=
    later_delivered_eq_read
  have hdelivered : (msg.upgrade .delivered).status.IsDelivered ↔ msg.status ≠ .failed :=
    later_delivered_isDelivered
  unfold change Meets
  dsimp only
  by_cases hfor : topic' = topic ∧ 0 < topicSeq ∧ topicSeq = msg.topicSeq
  · obtain ⟨rfl, hpos, rfl⟩ := hfor
    have hcovered : CoveredBy (events ++ [.deliveryReceipt topic' msg.topicSeq]) topic'
        msg.topicSeq → msg.status = .read := by
      intro hcovered
      rcases coveredBy_append.mp hcovered with hcovered | hcovers
      · exact h.read hpos hcovered
      · cases hcovers
    by_cases hfirst : c.IsFirst topic' i (·.topicSeq = msg.topicSeq)
    · rw [if_pos ⟨rfl, hfirst⟩]
      constructor
      · intro hfollows _ _ _
        exact ⟨hdelivered.mp (hfollows.delivered hpos (by simp [upgrade])), .inl hfirst⟩
      · intro hmeets
        have hne := (hmeets rfl hpos rfl).1
        exact ⟨fun _ _ => hdelivered.mpr hne, fun _ hc => hread.mpr (hcovered hc)⟩
    · rw [if_neg fun hboth => hfirst hboth.2]
      constructor
      · intro hfollows _ _ _
        have hstatus := hfollows.delivered hpos (by simp)
        exact ⟨hstatus.ne_failed, .inr hstatus⟩
      · intro hmeets
        have hstatus := (hmeets rfl hpos rfl).2.resolve_left hfirst
        exact ⟨fun _ _ => hstatus, fun _ hc => hcovered hc⟩
  · refine iff_of_true ?_ fun ht hpos hseq => absurd ⟨ht, hpos, hseq⟩ hfor
    have hother : 0 < msg.topicSeq → ClientEvent.deliveryReceipt topic' topicSeq ≠
        .deliveryReceipt topic msg.topicSeq := by
      intro hpos he
      obtain ⟨rfl, rfl⟩ := ClientEvent.deliveryReceipt.inj he
      exact hfor ⟨rfl, hpos, rfl⟩
    split
    · exact h.of_topicSeq_eq rfl (fun hd => hdelivered.mpr hd.ne_failed) hread.mpr hother
        fun _ => rfl
    · exact h.of_topicSeq_eq rfl id id hother fun _ => rfl

theorem follows_change_iff (h : Follows events topic msg) (e : ClientEvent) :
    Follows (events ++ [e]) topic (c.change topic i msg e) ↔ c.Meets topic i events msg e := by
  cases e with
  | push push => exact follows_push_iff h push
  | readReceipt topic' upToSeq => exact follows_readReceipt_iff h topic' upToSeq
  | deliveryReceipt topic' topicSeq => exact follows_deliveryReceipt_iff h topic' topicSeq
  | sendReceipt clientMsgID msgID topic' topicSeq now =>
    exact follows_sendReceipt_iff h clientMsgID msgID topic' topicSeq now

theorem value_le_change (e : ClientEvent) :
    msg.status.value ≤ (c.change topic i msg e).status.value := by
  have hlater := value_le_later msg.status
  cases e with
  | push push | deliveryReceipt topic' topicSeq =>
    unfold change
    dsimp only
    split
    · exact hlater .delivered
    · exact le_refl _
  | readReceipt topic' upToSeq =>
    unfold change upgradeUpTo
    dsimp only
    split
    · split
      · exact hlater .read
      · exact le_refl _
    · exact le_refl _
  | sendReceipt clientMsgID msgID topic' topicSeq now =>
    unfold change
    dsimp only
    split
    · exact hlater .sent
    · exact le_refl _

end

/-! ## Runs -/

structure Watched where
  client : Client
  events : List ClientEvent := []

def Watched.step (w : Watched) (e : ClientEvent) : Watched := ⟨w.client.handle e, w.events ++ [e]⟩

def Client.after (c : Client) (es : List ClientEvent) : Client := run handle c es

theorem run_watched (c : Client) (before es : List ClientEvent) :
    run Watched.step ⟨c, before⟩ es = ⟨c.after es, before ++ es⟩ := by
  induction es generalizing c before with
  | nil => simp [Client.after]
  | cons e es ih =>
    rw [run_cons, Watched.step, ih]
    simp [Client.after]

/-- At every moment of the run the status of the message is not before an earlier one, and is what
the receipts so far say. -/
structure StatusAdvances (c : Client) (topic : String) (i : ℕ) (es : List ClientEvent) :
    Prop where
  forwards : ∀ fs gs, fs ++ gs <+: es → ∀ old new, (c.after fs).message topic i = some old →
    (c.after (fs ++ gs)).message topic i = some new → old.status ≠ .failed →
    old.status.value ≤ new.status.value
  follows : ∀ fs, fs <+: es → ∃ msg, (c.after fs).message topic i = some msg ∧
    Follows fs topic msg

def Watched.Meets (topic : String) (i : ℕ) (w : Watched) (e : ClientEvent) : Prop :=
  ∀ msg ∈ w.client.message topic i, w.client.Meets topic i w.events msg e
  deriving Decidable

def Watched.Good (topic : String) (i : ℕ) (w : Watched) : Prop :=
  ∃ msg, w.client.message topic i = some msg ∧ Follows w.events topic msg

theorem good_step_iff {topic : String} {i : ℕ} {w : Watched} (h : w.Good topic i)
    (e : ClientEvent) : (w.step e).Good topic i ↔ w.Meets topic i e := by
  obtain ⟨msg, hmsg, hfollows⟩ := h
  have hstep := message_handle hmsg e
  rw [Watched.Good, Watched.Meets, Watched.step]
  rw [hstep, hmsg]
  simp only [Option.some.injEq, exists_eq_left', Option.mem_def, forall_eq']
  exact follows_change_iff hfollows e

theorem value_le_after {c : Client} {topic : String} {i : ℕ} {old : Message}
    (h : c.message topic i = some old) (es : List ClientEvent) :
    ∃ new, (c.after es).message topic i = some new ∧ old.status.value ≤ new.status.value := by
  have hstep : ∀ (c : Client) (e : ClientEvent),
      (∃ new, c.message topic i = some new ∧ old.status.value ≤ new.status.value) →
      ∃ new, (c.handle e).message topic i = some new ∧ old.status.value ≤ new.status.value := by
    rintro c e ⟨msg, hmsg, hle⟩
    exact ⟨_, message_handle hmsg e, hle.trans (value_le_change e)⟩
  exact invariant_run_all hstep es ⟨old, h, le_refl _⟩

theorem status_forwards (c : Client) (topic : String) (i : ℕ) (fs gs : List ClientEvent)
    {old new : Message} (hold : (c.after fs).message topic i = some old)
    (hnew : (c.after (fs ++ gs)).message topic i = some new) :
    old.status.value ≤ new.status.value := by
  obtain ⟨later, hlater, hle⟩ := value_le_after hold gs
  rw [Client.after, Client.after, ← run_append, ← Client.after, hnew] at hlater
  obtain rfl := Option.some.inj hlater
  exact hle

/-- The status of a message of a conversation advances as the receipts say exactly when every event
of the run meets the condition. -/
theorem status_advances_iff {c : Client} {topic : String} {i : ℕ} {msg : Message}
    (h : c.message topic i = some msg) (es : List ClientEvent) :
    StatusAdvances c topic i es ↔ Along Watched.step (Watched.Meets topic i) ⟨c, []⟩ es := by
  have hstart : Watched.Good topic i ⟨c, []⟩ := ⟨msg, h, by constructor <;> simp [CoveredBy]⟩
  have hiff : ∀ w e, Watched.Good topic i w →
      (Watched.Good topic i (w.step e) ↔ Watched.Meets topic i w e) :=
    fun w e hw => good_step_iff hw e
  rw [← along_congr hiff (fun _ _ _ hgood => hgood) hstart]
  have halways : (∀ fs, fs <+: es → Watched.Good topic i (run Watched.step ⟨c, []⟩ fs)) ↔
      Watched.Good topic i ⟨c, []⟩ ∧ _ := good_always_iff_along
  rw [← (halways.trans (and_iff_right hstart))]
  simp only [run_watched, nil_append]
  constructor
  · intro hadvances fs hfs
    exact hadvances.follows fs hfs
  · intro hgood
    exact ⟨fun fs gs _ old new hold hnew _ => status_forwards c topic i fs gs hold hnew, hgood⟩

def sendingWith (status : MessageStatus) : Client :=
  let msg : Message := ⟨0, "p2p_1_2", 1, 0, [], 0, 0, status, "m"⟩
  { userID := 1
    sendingMsgs := fun clientMsgID => if clientMsgID = "m" then some msg else none
    convs := fun topic => if topic = "p2p_1_2" then some { topic, messages := [msg] } else none }

def threeReceipts : List ClientEvent :=
  [.sendReceipt "m" 101 "p2p_1_2" 1 0, .deliveryReceipt "p2p_1_2" 1, .readReceipt "p2p_1_2" 1,
    .deliveryReceipt "p2p_1_2" 1]

theorem status_advances_sending :
    StatusAdvances (sendingWith .sending) "p2p_1_2" 0 threeReceipts := by
  have hheld : (sendingWith .sending).message "p2p_1_2" 0 =
      some ⟨0, "p2p_1_2", 1, 0, [], 0, 0, .sending, "m"⟩ := by
    decide
  exact (status_advances_iff hheld threeReceipts).mpr (by decide)

/-- A message that failed, although the server has it, stays failed under its receipts. -/
theorem failed_stays_failed :
    ((sendingWith .failed).after (threeReceipts.take 2)).message "p2p_1_2" 0 =
      some ⟨101, "p2p_1_2", 1, 0, [], 0, 1, .failed, "m"⟩ ∧
    ((sendingWith .failed).after (threeReceipts.take 3)).message "p2p_1_2" 0 =
      some ⟨101, "p2p_1_2", 1, 0, [], 0, 1, .failed, "m"⟩ := by
  decide

end NonokaIM.Sdk
