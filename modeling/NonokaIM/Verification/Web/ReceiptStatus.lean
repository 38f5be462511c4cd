import NonokaIM.Library.GuardedRun
import NonokaIM.Verification.Web.StatusEvents

/-! The status of a message. Receipts and recalls write it without a look at the old one. -/

namespace NonokaIM.Web

open GuardedRun ChatMessage Option List

def MessageStatus.rank : MessageStatus → ℕ
  | .sending => 0
  | .failed => 0
  | .sent => 1
  | .delivered => 2
  | .read => 3
  | .recalled => 4

section

variable (user : Option JsInt) (topic : String)

def ChatMessage.Mine (m : ChatMessage) : Prop := m.senderId.toNumber = myId user

def StatusEvent.readByPeer : StatusEvent → Option ℕ
  | .packet (.readReceipt t upToSeq readerId) =>
    if t = topic ∧ readerId ≠ myId user then some upToSeq else none
  | _ => none

/-- A receipt tells that the peer has read the message. -/
def Covered (events : List StatusEvent) (m : ChatMessage) : Prop :=
  ∃ upToSeq ∈ events.filterMap (·.readByPeer user topic), m.seq.any (· ≤ upToSeq) = true

/-- A message of the user is read only if a receipt of the peer has told so. -/
def ReadOnlyIfTold (messages : List ChatMessage) (events : List StatusEvent) : Prop :=
  ∀ id m, byId messages id = some m → m.Mine user → m.status = .read → Covered user topic events m

/-- Every message is still there, and its status has not moved back. -/
def NeverBack (earlier later : ChatStore) : Prop :=
  ∀ id m, byId (earlier.messages topic) id = some m →
    ∃ m', byId (later.messages topic) id = some m' ∧ m.status.rank ≤ m'.status.rank

/-- No recalled message is marked as read, and none of the user's that the peer has not read. -/
def MarksRight (events : List StatusEvent) (peerId upToSeq : JsInt)
    (messages : List ChatMessage) : Prop :=
  ∀ m ∈ messages, byId messages m.clientMsgId = some m → m.senderId ≠ peerId →
    m.topicSeq.any (·.le upToSeq) = true →
      m.status ≠ .recalled ∧ (m.Mine user → Covered user topic events m)

/-- An effect on some messages that tells something new about them, after the events so far. -/
def Effect.TellsNew (events : List StatusEvent) (peerId : JsInt)
    (messages arrivedMessages : List ChatMessage) : Effect → Prop
  | .keep | .recalled _ _ => True
  | .sent clientMsgId _ _ =>
    ∀ m ∈ byId messages clientMsgId, m.status.rank ≤ MessageStatus.sent.rank
  | .delivered clientMsgId =>
    ∀ m ∈ byId messages clientMsgId, m.status.rank ≤ MessageStatus.delivered.rank
  | .read upToSeq => MarksRight user topic events peerId upToSeq arrivedMessages

def FollowsReceipts (s : ChatStore) (before : List StatusEvent) (e : StatusEvent) : Prop :=
  (effect topic s e).TellsNew user topic (before ++ [e]) (s.ensureConversation topic).peerId
    (s.messages topic) (arrived user topic s e)

variable {user topic} {s : ChatStore} {before : List StatusEvent} {e : StatusEvent}

variable {m : ChatMessage} {clientMsgId : String} {p : MessagePatch} {status : MessageStatus}

theorem Covered.append (h : Covered user topic before m) (later : List StatusEvent) :
    Covered user topic (before ++ later) m := by
  obtain ⟨upToSeq, hmem, hle⟩ := h
  rw [Covered, filterMap_append]
  exact ⟨upToSeq, mem_append_left _ hmem, hle⟩

/-! What arrives is neither read nor recalled. -/

theorem status_arrival {msg : ChatMessage} (h : arrival user topic e = some msg) :
    msg.status ≠ .read ∧ msg.status ≠ .recalled := by
  cases e with
  | packet e =>
    cases e with
    | message detail =>
      rw [arrival] at h
      split at h
      · obtain rfl := some.inj h
        unfold RealtimeMessage.toChatMessage
        dsimp only
        split
        · decide
        · decide
      · cases h
    | _ => cases h
  | send out =>
    rw [arrival] at h
    split at h
    · obtain rfl := some.inj h
      unfold Outgoing.toChatMessage
      dsimp only
      split
      · decide
      · decide
    · cases h
  | _ => cases h

theorem byId_arrived_of_byId {id : String} (h : byId (s.messages topic) id = some m) :
    byId (arrived user topic s e) id = some m := by
  rw [arrived]
  cases arrival user topic e with
  | none => exact h
  | some msg =>
    rw [elim_some, byId_addMessage, h]
    rfl

theorem byId_of_arrived {id : String} (h : byId (arrived user topic s e) id = some m) :
    byId (s.messages topic) id = some m ∨ (m.status ≠ .read ∧ m.status ≠ .recalled) := by
  rw [arrived] at h
  cases harrival : arrival user topic e with
  | none =>
    rw [harrival] at h
    exact .inl h
  | some msg =>
    rw [harrival, elim_some, byId_addMessage] at h
    rcases or_eq_some_iff.mp h with hold | ⟨-, hnew⟩
    · exact .inl hold
    · obtain rfl := some.inj (ite_none_right_eq_some.mp hnew).2
      exact .inr (status_arrival harrival)

theorem readOnlyIfTold_arrived (h : ReadOnlyIfTold user topic (s.messages topic) before) :
    ReadOnlyIfTold user topic (arrived user topic s e) (before ++ [e]) := by
  intro id m hm hmine hread
  rcases byId_of_arrived hm with hold | hnew
  · exact (h id m hold hmine hread).append [e]
  · exact absurd hread hnew.1

/-! The event as a change of every message that is found by its id. -/

variable (user topic s before e) in
def KeepsStatus : Prop :=
  ReadOnlyIfTold user topic ((statusStep user s e).messages topic) (before ++ [e]) ∧
    NeverBack topic s (statusStep user s e)

variable (topic s e) in
def Applies (f : ChatMessage → ChatMessage) : Prop :=
  ∀ m, (effect topic s e).apply (s.ensureConversation topic).peerId m = f m

theorem keepsStatus_iff {f : ChatMessage → ChatMessage} (hf : Applies topic s e f) :
    KeepsStatus user topic s before e ↔
      (∀ id m, byId (arrived user topic s e) id = some m → (f m).Mine user →
        (f m).status = .read → Covered user topic (before ++ [e]) (f m)) ∧
        ∀ id m, byId (s.messages topic) id = some m → m.status.rank ≤ (f m).status.rank := by
  have hafter : ∀ id, byId ((statusStep user s e).messages topic) id =
      (byId (arrived user topic s e) id).map f := by
    intro id
    rw [byId_statusStep, afterEvent, funext hf]
  refine and_congr ?_ ?_
  · constructor
    · intro h id m hm
      exact h id (f m) (by rw [hafter, hm, map_some])
    · intro h id m' hm'
      rw [hafter] at hm'
      obtain ⟨m, hm, rfl⟩ := map_eq_some_iff.mp hm'
      exact h id m hm
  · constructor
    · intro h id m hm
      obtain ⟨m', hm', hrank⟩ := h id m hm
      rw [hafter, byId_arrived_of_byId hm, map_some] at hm'
      rwa [← some.inj hm'] at hrank
    · intro h id m hm
      exact ⟨f m, by rw [hafter, byId_arrived_of_byId hm, map_some], h id m hm⟩

theorem status_patchIf (hp : p.status = some status) (m : ChatMessage) :
    (m.patchIf clientMsgId p).status =
      if m.clientMsgId = clientMsgId then status else m.status := by
  unfold patchIf
  split
  · simp [patch, hp]
  · rfl

theorem patchIf_of_status (hp : p.status = some status) (hstatus : status ≠ .read)
    (hread : (m.patchIf clientMsgId p).status = .read) : m.patchIf clientMsgId p = m := by
  rw [status_patchIf hp] at hread
  split at hread
  · exact absurd hread hstatus
  · rename_i hid
    exact if_neg hid

theorem rank_le_recalled (status : MessageStatus) : status.rank ≤ MessageStatus.recalled.rank := by
  cases status <;> decide

theorem rank_le_read : status.rank ≤ MessageStatus.read.rank ↔ status ≠ .recalled := by
  cases status <;> decide

variable (hbefore : ReadOnlyIfTold user topic (s.messages topic) before)
include hbefore

theorem keepsStatus_patch (hp : p.status = some status) (hstatus : status ≠ .read)
    (hf : Applies topic s e fun m => m.patchIf clientMsgId p) :
    KeepsStatus user topic s before e ↔
      ∀ m ∈ byId (s.messages topic) clientMsgId, m.status.rank ≤ status.rank := by
  rw [keepsStatus_iff hf]
  constructor
  · rintro ⟨-, hrank⟩ m hm
    have h := hrank clientMsgId m hm
    rwa [status_patchIf hp, if_pos (clientMsgId_of_byId hm)] at h
  · intro hrank
    constructor
    · intro id m hm hmine hread
      have hsame := patchIf_of_status hp hstatus hread
      rw [hsame] at hmine hread ⊢
      exact readOnlyIfTold_arrived hbefore id m hm hmine hread
    · intro id m hm
      rw [status_patchIf hp]
      split
      · rename_i hid
        rw [clientMsgId_of_byId hm] at hid
        exact hrank m (hid ▸ hm)
      · exact Nat.le_refl _

theorem keepsStatus_recalled {topicSeq msgId : ℕ}
    (hf : Applies topic s e fun m => m.markRecalled topicSeq msgId) :
    KeepsStatus user topic s before e := by
  refine (keepsStatus_iff hf).mpr ⟨?_, ?_⟩
  · intro id m hm hmine hread
    unfold markRecalled at hmine hread ⊢
    split at hread
    · cases hread
    · rename_i hother
      rw [if_neg hother] at hmine ⊢
      exact readOnlyIfTold_arrived hbefore id m hm hmine hread
  · intro id m _
    unfold markRecalled
    split
    · exact rank_le_recalled m.status
    · exact Nat.le_refl _

theorem keepsStatus_keep (hf : Applies topic s e id) : KeepsStatus user topic s before e :=
  (keepsStatus_iff hf).mpr ⟨readOnlyIfTold_arrived hbefore, fun _ _ _ => Nat.le_refl _⟩

theorem keepsStatus_read {peerId upToSeq : JsInt}
    (hf : Applies topic s e fun m => m.markRead peerId upToSeq) :
    KeepsStatus user topic s before e ↔
      MarksRight user topic (before ++ [e]) peerId upToSeq (arrived user topic s e) := by
  have hmark : ∀ m : ChatMessage, m.senderId ≠ peerId → m.topicSeq.any (·.le upToSeq) = true →
      m.markRead peerId upToSeq = { m with status := .read } :=
    fun m hsender hseq => if_pos ⟨hsender, hseq⟩
  rw [keepsStatus_iff hf]
  constructor
  · rintro ⟨htold, hrank⟩ m - hm hsender hseq
    constructor
    · rcases byId_of_arrived hm with hold | hnew
      · have h := hrank _ m hold
        rw [hmark m hsender hseq] at h
        exact rank_le_read.mp h
      · exact hnew.2
    · intro hmine
      have h := htold _ m hm
      rw [hmark m hsender hseq] at h
      exact h hmine rfl
  · intro hmarks
    constructor
    · intro id m hm hmine hread
      by_cases hhit : m.senderId ≠ peerId ∧ m.topicSeq.any (·.le upToSeq) = true
      · rw [hmark m hhit.1 hhit.2] at hmine ⊢
        have hid := clientMsgId_of_byId hm
        exact (hmarks m (mem_of_find?_eq_some hm) (hid ▸ hm) hhit.1 hhit.2).2 hmine
      · have hsame : m.markRead peerId upToSeq = m := if_neg hhit
        rw [hsame] at hmine hread ⊢
        exact readOnlyIfTold_arrived hbefore id m hm hmine hread
    · intro id m hold
      by_cases hhit : m.senderId ≠ peerId ∧ m.topicSeq.any (·.le upToSeq) = true
      · have hm : byId (arrived user topic s e) m.clientMsgId = some m := by
          rw [clientMsgId_of_byId hold]
          exact byId_arrived_of_byId hold
        rw [hmark m hhit.1 hhit.2]
        exact rank_le_read.mpr (hmarks m (mem_of_find?_eq_some hm) hm hhit.1 hhit.2).1
      · rw [show m.markRead peerId upToSeq = m from if_neg hhit]

theorem keepsStatus_iff_followsReceipts :
    KeepsStatus user topic s before e ↔ FollowsReceipts user topic s before e := by
  unfold FollowsReceipts
  cases he : effect topic s e with
  | keep => exact iff_true_intro (keepsStatus_keep hbefore fun m => by rw [he]; rfl)
  | sent clientMsgId msgId topicSeq | delivered clientMsgId =>
    exact keepsStatus_patch hbefore rfl (by decide) fun m => by rw [he]; rfl
  | read upToSeq => exact keepsStatus_read hbefore fun m => by rw [he]; rfl
  | recalled topicSeq msgId =>
    exact iff_true_intro (keepsStatus_recalled hbefore fun m => by rw [he]; rfl)

end

theorem NeverBack.refl (topic : String) (s : ChatStore) : NeverBack topic s s :=
  fun _ m hm => ⟨m, hm, Nat.le_refl _⟩

theorem NeverBack.trans {topic : String} (a b c : ChatStore) (hab : NeverBack topic a b)
    (hbc : NeverBack topic b c) : NeverBack topic a c := by
  intro id m hm
  obtain ⟨m', hm', hle⟩ := hab id m hm
  obtain ⟨m'', hm'', hle'⟩ := hbc id m' hm'
  exact ⟨m'', hm'', hle.trans hle'⟩

/-- The statuses are right at every moment exactly if a message is numbered by a receipt only while
it is not delivered, a delivery is told only of messages that are neither read nor recalled, and
what is marked as read is not recalled and, if the user has sent it, was read by the peer. -/
theorem status_follows_receipts_iff (user : Option JsInt) (topic : String) (s : ChatStore)
    (hunread : ∀ m ∈ s.messages topic, m.Mine user → m.status ≠ .read) (events : List StatusEvent) :
    (∀ later, later <+: events →
        ReadOnlyIfTold user topic ((run (statusStep user) s later).messages topic) later ∧
          ∀ earlier, earlier <+: later →
            NeverBack topic (run (statusStep user) s earlier) (run (statusStep user) s later)) ↔
      ∀ before e, before ++ [e] <+: events →
        FollowsReceipts user topic (run (statusStep user) s before) before e := by
  refine good_prefixes_iff ?_ ?_
  · constructor
    · intro id m hm hmine hread
      exact absurd hread (hunread m (mem_of_find?_eq_some hm) hmine)
    · intro earlier hearlier
      rw [prefix_nil.mp hearlier]
      exact NeverBack.refl topic s
  · rintro before e ⟨htold, hback⟩
    rw [forall_prefix_concat_iff (NeverBack.refl topic) NeverBack.trans hback, run_append,
      run_cons, run_nil]
    exact keepsStatus_iff_followsReceipts htold

section

variable (user : Option JsInt) (topic : String)

instance (m : ChatMessage) : Decidable (m.Mine user) := inferInstanceAs (Decidable (_ = _))

instance (events : List StatusEvent) (m : ChatMessage) : Decidable (Covered user topic events m) :=
  inferInstanceAs (Decidable (∃ _ ∈ _, _))

instance (events : List StatusEvent) (peerId upToSeq : JsInt) (messages : List ChatMessage) :
    Decidable (MarksRight user topic events peerId upToSeq messages) :=
  inferInstanceAs (Decidable (∀ _ ∈ _, _))

instance (events : List StatusEvent) (peerId : JsInt)
    (messages arrivedMessages : List ChatMessage) :
    (effect : Effect) →
      Decidable (effect.TellsNew user topic events peerId messages arrivedMessages)
  | .keep | .recalled _ _ => inferInstanceAs (Decidable True)
  | .sent _ _ _ | .delivered _ => inferInstanceAs (Decidable (∀ _ ∈ _, _))
  | .read _ => inferInstanceAs (Decidable (MarksRight _ _ _ _ _ _))

instance (s : ChatStore) (before : List StatusEvent) (e : StatusEvent) :
    Decidable (FollowsReceipts user topic s before e) :=
  inferInstanceAs (Decidable (Effect.TellsNew _ _ _ _ _ _ _))

end

def sentA : List StatusEvent :=
  [.send { clientMsgId := "a", topic := "p2p_1_2", content := "", now := 0, ok := true },
    .packet (.sendReceipt "p2p_1_2" "a" 1 1)]

def deliveredA : StatusEvent := .packet (.deliveryReceipt "p2p_1_2" 1)

def statusOfA (events : List StatusEvent) : Option MessageStatus :=
  (byId ((run (statusStep (some (.number 1))) emptyChat events).messages "p2p_1_2") "a").map status

theorem delivered_then_read :
    NeverBack "p2p_1_2" (run (statusStep (some (.number 1))) emptyChat (sentA ++ [deliveredA]))
      (run (statusStep (some (.number 1))) emptyChat
        (sentA ++ [deliveredA, .packet (.readReceipt "p2p_1_2" 1 2)])) := by
  have hunread : ∀ m ∈ emptyChat.messages "p2p_1_2",
      m.Mine (some (.number 1)) → m.status ≠ .read := by decide
  refine ((status_follows_receipts_iff (some (.number 1)) "p2p_1_2" emptyChat hunread
    (sentA ++ [deliveredA, .packet (.readReceipt "p2p_1_2" 1 2)])).mpr ?_ _
      prefix_rfl).2 _ ⟨[.packet (.readReceipt "p2p_1_2" 1 2)], rfl⟩
  rw [forall_concat_prefix_iff]
  decide

def answeredA : List StatusEvent :=
  sentA ++
    [.packet (.message
      { msgId := 2, topic := "p2p_1_2", senderId := 2, msgType := 1, content := ""
        timestamp := 0, topicSeq := 2 }),
      .read "p2p_1_2"]

/-- The user's own message is marked as read with the answer, a repeated receipt moves a status
back, and a late receipt undoes a recall. -/
theorem status_without_receipt :
    (answeredA.filterMap (·.readByPeer (some (.number 1)) "p2p_1_2") = [] ∧
      statusOfA answeredA = some .read) ∧
    (statusOfA (sentA ++ [deliveredA]) = some .delivered ∧
      statusOfA (sentA ++ [deliveredA, .packet (.sendReceipt "p2p_1_2" "a" 1 1)]) = some .sent) ∧
    statusOfA (sentA ++ [.packet (.recallNotice "p2p_1_2" 1 1)]) = some .recalled ∧
      statusOfA (sentA ++ [.packet (.recallNotice "p2p_1_2" 1 1), deliveredA]) =
        some .delivered := by
  decide

end NonokaIM.Web
