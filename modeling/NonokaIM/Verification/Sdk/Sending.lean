import NonokaIM.Model.SdkSend

/-! How sending a message ends. Only a wait that the context ends leaves the message in flight, and
any error of the server ends the loop. -/

namespace NonokaIM.Sdk

open ClientEvent Client List

/-! ## Messages in flight -/

def ClientEvent.answers (clientMsgID : String) : ClientEvent → Bool
  | .sendReceipt clientMsgID' _ _ _ _ => clientMsgID' = clientMsgID
  | _ => false

section

variable (c : Client) (clientMsgID : String)

theorem sendingMsgs_handle (e : ClientEvent) :
    (c.handle e).sendingMsgs clientMsgID = none ↔
      c.sendingMsgs clientMsgID = none ∨ e.answers clientMsgID = true := by
  cases e with
  | push push => simp [handle, handleIncomingMessage, updateConversation,
      answers]
  | readReceipt topic upToSeq => simp [Client.handle, Client.handleReadReceipt,
      Client.updateConversation, Client.mapSendingMsgs, answers]
  | deliveryReceipt topic topicSeq => simp [handle, handleDeliveryReceipt,
      updateConversation, mapSendingMsgs, answers]
  | sendReceipt clientMsgID' msgID topic topicSeq now =>
    have hhandle : (c.handle (.sendReceipt clientMsgID' msgID topic topicSeq now)).sendingMsgs =
        Function.update c.sendingMsgs clientMsgID' none := by
      unfold handle handleSendReceipt
      dsimp only
      split <;> rfl
    rw [hhandle, Function.update_apply, answers]
    by_cases hid : clientMsgID = clientMsgID'
    · simp [hid]
    · simp [hid, Ne.symm hid]

theorem sendingMsgs_foldl_handle (es : List ClientEvent) :
    (es.foldl handle c).sendingMsgs clientMsgID = none ↔
      c.sendingMsgs clientMsgID = none ∨ ∃ e ∈ es, e.answers clientMsgID = true := by
  induction es generalizing c with
  | nil => simp
  | cons e es ih => simp [ih, sendingMsgs_handle, or_assoc]

theorem sendingMsgs_settle (caches : Bool) (status : MessageStatus)
    (result : Except SendError SendResult) (now : Int) :
    (c.settle caches clientMsgID status result now).sendingMsgs clientMsgID = none ↔
      c.sendingMsgs clientMsgID = none := by
  cases caches <;> simp [settle, setSendCache, updateMsgStatus]

@[simp] theorem sendingMsgs_untrackSendingMsg :
    (c.untrackSendingMsg clientMsgID).sendingMsgs clientMsgID = none := by
  simp [untrackSendingMsg]

end

/-! ## One pass of the loop -/

def Attempt.Retried (a : Attempt) : Prop :=
  ∃ err, trySendOnce a.route = .error err ∧ err.isServerError = false ∧ a.contextDone = false

section

variable (caches : Bool) (req : SendMessageRequest) (env : ℕ → Attempt) (m : ℕ)
  (made : List SendMessageRequest) (c : Client)

def afterWait : Client := if 0 < m then (env m).waiting.foldl handle c else c

def afterAttempt : Client := (env m).handled.foldl handle (afterWait env m c)

theorem sendLoop_cancelled (retries : ℕ) (h : 0 < m ∧ (env m).cancelled = true) :
    c.sendLoop caches req env retries m made =
      ⟨(afterWait env m c).settle caches req.clientMsgID .failed (.error .context) (env m).now,
        .error .context, made⟩ := by
  unfold sendLoop
  rw [if_pos h]
  rfl

variable {m} (hwait : ¬ (0 < m ∧ (env m).cancelled = true))
include hwait

theorem sendLoop_retried (retries : ℕ) (h : (env m).Retried) :
    c.sendLoop caches req env (retries + 1) m made =
      (afterAttempt env m c).sendLoop caches req env retries (m + 1) (made ++ [req]) := by
  obtain ⟨err, herr, hserver, hcontext⟩ := h
  rw [sendLoop, if_neg hwait]
  simp only [herr, hserver, hcontext, Bool.or_self, Bool.false_eq_true, if_false]
  rfl

theorem sendLoop_last (retries : ℕ) (h : ¬ (env m).Retried ∨ retries = 0) :
    ∃ c' : Client, c.sendLoop caches req env retries m made =
      ⟨c'.untrackSendingMsg req.clientMsgID, trySendOnce (env m).route, made ++ [req]⟩ := by
  unfold sendLoop
  rw [if_neg hwait]
  cases hresult : trySendOnce (env m).route with
  | ok result => exact ⟨_, rfl⟩
  | error err =>
    cases retries with
    | zero => exact ⟨_, rfl⟩
    | succ retries =>
      have hstop : ((env m).contextDone || err.isServerError) = true := by
        by_contra hgo
        rw [Bool.not_eq_true, Bool.or_eq_false_iff] at hgo
        exact h.elim (fun hnot => hnot ⟨err, hresult, hgo.2, hgo.1⟩) (by simp)
      simp only [hstop, if_true]
      exact ⟨_, rfl⟩

end

/-! ## Leaving the loop in a wait -/

/-- The call that starts with the `m`-th attempt gets to the wait before the `k`-th one, which the
context ends. -/
structure LeftWaiting (env : ℕ → Attempt) (m k : ℕ) : Prop where
  from_le : m ≤ k
  pos : 0 < k
  cancelled : (env k).cancelled = true
  retried : ∀ j, m ≤ j → j < k → (env j).Retried
  waited : ∀ j, m ≤ j → j < k → 0 < j → (env j).cancelled = false

/-- A send receipt is handled from the wait before the `m`-th attempt on, and before the one before
the `k`-th attempt is over. -/
def AnsweredBefore (clientMsgID : String) (env : ℕ → Attempt) (m k : ℕ) : Prop :=
  ∃ j, m ≤ j ∧ ∃ e, e.answers clientMsgID = true ∧
    ((0 < j ∧ j ≤ k ∧ e ∈ (env j).waiting) ∨ (j < k ∧ e ∈ (env j).handled))

section

variable {env : ℕ → Attempt} {m k : ℕ}

theorem leftWaiting_self_iff : LeftWaiting env m m ↔ 0 < m ∧ (env m).cancelled = true := by
  constructor
  · intro h
    exact ⟨h.pos, h.cancelled⟩
  · intro h
    exact ⟨le_refl m, h.1, h.2, fun j _ _ => by omega, fun j _ _ => by omega⟩

theorem leftWaiting_succ_iff (hk : m < k) :
    LeftWaiting env m k ↔
      (env m).Retried ∧ ¬ (0 < m ∧ (env m).cancelled = true) ∧ LeftWaiting env (m + 1) k := by
  constructor
  · intro h
    refine ⟨h.retried m (le_refl m) hk, ?_, hk, h.pos, h.cancelled, ?_, ?_⟩
    · rintro ⟨hpos, hcancelled⟩
      rw [h.waited m (le_refl m) hk hpos] at hcancelled
      cases hcancelled
    · intro j hj
      exact h.retried j (Nat.le_of_succ_le hj)
    · intro j hj
      exact h.waited j (Nat.le_of_succ_le hj)
  · rintro ⟨hretried, hwait, h⟩
    refine ⟨hk.le, h.pos, h.cancelled, ?_, ?_⟩
    · intro j hj hjk
      rcases Nat.eq_or_lt_of_le hj with rfl | hj
      · exact hretried
      · exact h.retried j hj hjk
    · intro j hj hjk hpos
      rcases Nat.eq_or_lt_of_le hj with rfl | hj
      · simpa [hpos] using hwait
      · exact h.waited j hj hjk hpos

variable (clientMsgID : String) (c : Client)

theorem sendingMsgs_afterWait (env : ℕ → Attempt) (m : ℕ) :
    (afterWait env m c).sendingMsgs clientMsgID = none ↔
      c.sendingMsgs clientMsgID = none ∨
        0 < m ∧ ∃ e ∈ (env m).waiting, e.answers clientMsgID = true := by
  unfold afterWait
  split
  · rename_i hm
    simp [sendingMsgs_foldl_handle, hm]
  · rename_i hm
    simp [hm]

theorem answeredBefore_self_iff :
    c.sendingMsgs clientMsgID = none ∨ AnsweredBefore clientMsgID env m m ↔
      (afterWait env m c).sendingMsgs clientMsgID = none := by
  rw [sendingMsgs_afterWait]
  apply or_congr_right
  constructor
  · rintro ⟨j, hj, e, he, ⟨hpos, hle, hmem⟩ | ⟨hlt, -⟩⟩
    · obtain rfl : j = m := by omega
      exact ⟨hpos, e, hmem, he⟩
    · omega
  · rintro ⟨hpos, e, hmem, he⟩
    exact ⟨m, le_refl m, e, he, .inl ⟨hpos, le_refl m, hmem⟩⟩

theorem answeredBefore_succ_iff (hk : m < k) :
    c.sendingMsgs clientMsgID = none ∨ AnsweredBefore clientMsgID env m k ↔
      (afterAttempt env m c).sendingMsgs clientMsgID = none ∨
        AnsweredBefore clientMsgID env (m + 1) k := by
  rw [afterAttempt, sendingMsgs_foldl_handle, sendingMsgs_afterWait, or_assoc, or_assoc]
  apply or_congr_right
  constructor
  · rintro ⟨j, hj, e, he, hmem⟩
    rcases Nat.eq_or_lt_of_le hj with rfl | hj
    · rcases hmem with ⟨hpos, -, hmem⟩ | ⟨-, hmem⟩
      · exact .inl ⟨hpos, e, hmem, he⟩
      · exact .inr (.inl ⟨e, hmem, he⟩)
    · exact .inr (.inr ⟨j, hj, e, he, hmem⟩)
  · rintro (⟨hpos, e, hmem, he⟩ | ⟨e, hmem, he⟩ | ⟨j, hj, e, he, hmem⟩)
    · exact ⟨m, le_refl m, e, he, .inl ⟨hpos, hk.le, hmem⟩⟩
    · exact ⟨m, le_refl m, e, he, .inr ⟨hk, hmem⟩⟩
    · exact ⟨j, Nat.le_of_succ_le hj, e, he, hmem⟩

end

section

variable (caches : Bool) (req : SendMessageRequest) (env : ℕ → Attempt)

/-- Every wait from an attempt on in which the loop can be left comes after a receipt. -/
def EveryLeftWaitAnswered (retries m : ℕ) (c : Client) : Prop :=
  ∀ k, k ≤ m + retries → LeftWaiting env m k →
    c.sendingMsgs req.clientMsgID = none ∨ AnsweredBefore req.clientMsgID env m k

theorem everyLeftWaitAnswered_of_cancelled {m : ℕ} (h : 0 < m ∧ (env m).cancelled = true)
    (retries : ℕ) (c : Client) :
    EveryLeftWaitAnswered req env retries m c ↔
      (afterWait env m c).sendingMsgs req.clientMsgID = none := by
  rw [← answeredBefore_self_iff]
  constructor
  · intro hall
    exact hall m (Nat.le_add_right m retries) (leftWaiting_self_iff.mpr h)
  · intro hself k _ hk
    rcases Nat.eq_or_lt_of_le hk.from_le with rfl | hlt
    · exact hself
    · exact absurd h ((leftWaiting_succ_iff hlt).mp hk).2.1

theorem everyLeftWaitAnswered_of_last {retries m : ℕ}
    (hwait : ¬ (0 < m ∧ (env m).cancelled = true)) (h : ¬ (env m).Retried ∨ retries = 0)
    (c : Client) : EveryLeftWaitAnswered req env retries m c := by
  intro k hle hk
  rcases Nat.eq_or_lt_of_le hk.from_le with rfl | hlt
  · exact absurd (leftWaiting_self_iff.mp hk) hwait
  · rcases h with h | rfl
    · exact absurd ((leftWaiting_succ_iff hlt).mp hk).1 h
    · omega

theorem everyLeftWaitAnswered_of_retried {m : ℕ}
    (hwait : ¬ (0 < m ∧ (env m).cancelled = true)) (h : (env m).Retried) (retries : ℕ)
    (c : Client) :
    EveryLeftWaitAnswered req env (retries + 1) m c ↔
      EveryLeftWaitAnswered req env retries (m + 1) (afterAttempt env m c) := by
  constructor
  · intro hall k hle hk
    rw [← answeredBefore_succ_iff req.clientMsgID c hk.from_le]
    exact hall k (by omega) ((leftWaiting_succ_iff hk.from_le).mpr ⟨h, hwait, hk⟩)
  · intro hall k hle hk
    rcases Nat.eq_or_lt_of_le hk.from_le with rfl | hlt
    · exact absurd (leftWaiting_self_iff.mp hk) hwait
    · rw [answeredBefore_succ_iff req.clientMsgID c hlt]
      exact hall k (by omega) ((leftWaiting_succ_iff hlt).mp hk).2.2

theorem sendLoop_inFlight_iff_of_stop {retries m : ℕ}
    (h : (0 < m ∧ (env m).cancelled = true) ∨ ¬ (env m).Retried ∨ retries = 0)
    (made : List SendMessageRequest) (c : Client) :
    (c.sendLoop caches req env retries m made).client.sendingMsgs req.clientMsgID = none ↔
      EveryLeftWaitAnswered req env retries m c := by
  by_cases hwait : 0 < m ∧ (env m).cancelled = true
  · rw [sendLoop_cancelled caches req env m made c retries hwait,
      everyLeftWaitAnswered_of_cancelled req env hwait, sendingMsgs_settle]
  · have hstop := h.resolve_left hwait
    obtain ⟨c', hlast⟩ := sendLoop_last caches req env made c hwait retries hstop
    rw [hlast]
    exact iff_of_true (by simp) (everyLeftWaitAnswered_of_last req env hwait hstop c)

theorem sendLoop_inFlight_iff (retries m : ℕ) (made : List SendMessageRequest) (c : Client) :
    (c.sendLoop caches req env retries m made).client.sendingMsgs req.clientMsgID = none ↔
      EveryLeftWaitAnswered req env retries m c := by
  induction retries generalizing m made c with
  | zero => exact sendLoop_inFlight_iff_of_stop caches req env (.inr (.inr rfl)) made c
  | succ retries ih =>
    by_cases hstop : (0 < m ∧ (env m).cancelled = true) ∨ ¬ (env m).Retried
    · exact sendLoop_inFlight_iff_of_stop caches req env (hstop.imp_right .inl) made c
    obtain ⟨hwait, hretried⟩ := not_or.mp hstop
    rw [not_not] at hretried
    rw [sendLoop_retried caches req env made c hwait retries hretried, ih,
      everyLeftWaitAnswered_of_retried req env hwait hretried]

end

theorem sendMessage_eq {c : Client} {clientMsgID : String} (h : c.sendCache clientMsgID = none)
    (topic : String) (msgType : Int) (content : List UInt8) (now : Int) (env : ℕ → Attempt) :
    c.sendMessage topic msgType content clientMsgID now env =
      (c.trackSendingMsg (c.sendingMsg { topic, msgType, content, clientMsgID } now)).sendLoop true
        { topic, msgType, content, clientMsgID } env maxSendRetries 0 [] := by
  simp [Client.sendMessage, getSendCache, h]

theorem everyLeftWaitAnswered_tracked (c : Client) (req : SendMessageRequest) (now : Int)
    (env : ℕ → Attempt) (retries : ℕ) :
    EveryLeftWaitAnswered req env retries 0 (c.trackSendingMsg (c.sendingMsg req now)) ↔
      ∀ k ≤ retries, LeftWaiting env 0 k → AnsweredBefore req.clientMsgID env 0 k := by
  have htracked :
      (c.trackSendingMsg (c.sendingMsg req now)).sendingMsgs req.clientMsgID ≠ none := by
    simp [trackSendingMsg, sendingMsg]
  simp only [EveryLeftWaitAnswered, Nat.zero_add, htracked, false_or]

/-- When a call for a new client id returns, the id is not in flight exactly if the call was not
left in a wait, or a send receipt had come before. -/
theorem nothing_left_in_flight_iff {c : Client} {clientMsgID : String}
    (hnew : c.sendCache clientMsgID = none) (topic : String) (msgType : Int)
    (content : List UInt8) (mentionedUserIDs : List Int) (now : Int) (env : ℕ → Attempt) :
    ((c.sendMessage topic msgType content clientMsgID now env).client.sendingMsgs clientMsgID =
        none ↔
      ∀ k ≤ maxSendRetries, LeftWaiting env 0 k → AnsweredBefore clientMsgID env 0 k) ∧
    ((c.sendMessageWithMentions topic msgType content mentionedUserIDs clientMsgID now
        env).client.sendingMsgs clientMsgID = none ↔
      ∀ k ≤ maxSendRetries, LeftWaiting env 0 k → AnsweredBefore clientMsgID env 0 k) := by
  constructor
  · rw [sendMessage_eq hnew]
    exact (sendLoop_inFlight_iff true _ env maxSendRetries 0 [] _).trans
      (everyLeftWaitAnswered_tracked c _ now env maxSendRetries)
  · exact (sendLoop_inFlight_iff false _ env maxSendRetries 0 [] _).trans
      (everyLeftWaitAnswered_tracked c _ now env maxSendRetries)

def timingOut (cancelled : Option ℕ) (k : ℕ) : Attempt where
  route := .realtime .timeout
  cancelled := cancelled = some k

theorem nothing_left_after_timeouts :
    (({} : Client).sendMessage "p2p_1_2" 0 [] "m" 0 (timingOut none)).client.sendingMsgs "m" =
      none ∧
    (({} : Client).sendMessageWithMentions "p2p_1_2" 0 [] [] "m" 0
      (timingOut none)).client.sendingMsgs "m" = none := by
  have hwaits : ∀ k ≤ maxSendRetries, LeftWaiting (timingOut none) 0 k →
      AnsweredBefore "m" (timingOut none) 0 k := by
    intro k _ h
    have hcancelled := h.cancelled
    simp [timingOut] at hcancelled
  have hnew : ({} : Client).sendCache "m" = none := rfl
  have hiff := nothing_left_in_flight_iff hnew "p2p_1_2" 0 [] [] 0 (timingOut none)
  exact ⟨hiff.1.mpr hwaits, hiff.2.mpr hwaits⟩

/-- When the context ends the first wait, the calls return and leave the message in flight. -/
theorem left_in_flight_after_wait :
    ((({} : Client).sendMessage "p2p_1_2" 0 [] "m" 0
      (timingOut (some 1))).client.sendingMsgs "m").isSome = true ∧
    ((({} : Client).sendMessageWithMentions "p2p_1_2" 0 [] [] "m" 0
      (timingOut (some 1))).client.sendingMsgs "m").isSome = true := by
  decide_cbv

section

variable (caches : Bool) (req : SendMessageRequest) {env : ℕ → Attempt}
  (hcontext : ∀ k, (env k).cancelled = false ∧ (env k).contextDone = false)
include hcontext

theorem sendLoop_ends (retries m : ℕ) (made : List SendMessageRequest) (c : Client) :
    ∃ k, m ≤ k ∧ k ≤ m + retries ∧ (∀ j, m ≤ j → j < k → (env j).Retried) ∧
      (c.sendLoop caches req env retries m made).attempts =
        made ++ replicate (k + 1 - m) req ∧
      (c.sendLoop caches req env retries m made).result = trySendOnce (env k).route ∧
      (¬ (env k).Retried ∨ k = m + retries) := by
  have hwait : ∀ m, ¬ (0 < m ∧ (env m).cancelled = true) := by
    intro m
    simp [(hcontext m).1]
  induction retries generalizing m made c with
  | zero =>
    obtain ⟨c', hlast⟩ := sendLoop_last caches req env made c (hwait m) 0 (.inr rfl)
    rw [hlast]
    exact ⟨m, le_refl m, le_refl m, fun j _ _ => by omega, by simp, rfl, .inr rfl⟩
  | succ retries ih =>
    by_cases hretried : (env m).Retried
    · rw [sendLoop_retried caches req env made c (hwait m) retries hretried]
      obtain ⟨k, hmk, hk, hbefore, hattempts, hresult, hend⟩ :=
        ih (m + 1) (made ++ [req]) (afterAttempt env m c)
      refine ⟨k, by omega, by omega, ?_, ?_, hresult, ?_⟩
      · intro j hj hjk
        rcases Nat.eq_or_lt_of_le hj with rfl | hj
        · exact hretried
        · exact hbefore j hj hjk
      · have hlen : k + 1 - m = k + 1 - (m + 1) + 1 := by omega
        rw [hattempts, hlen, replicate_succ, append_assoc]
        rfl
      · exact hend.imp id (by omega)
    · obtain ⟨c', hlast⟩ := sendLoop_last caches req env made c (hwait m) _ (.inl hretried)
      rw [hlast]
      exact ⟨m, le_refl m, by omega, fun j _ _ => by omega, by simp, rfl, .inl hretried⟩

end

/-- A call that fails early has failed with an error that may not be retried, and all its attempts
carry the client id. -/
structure RetriesFailures (clientMsgID : String) (env : ℕ → Attempt) (sent : Sent) : Prop where
  early : ∀ err, sent.result = .error err → sent.attempts.length < maxSendRetries + 1 →
    ∃ k e, sent.attempts.length = k + 1 ∧ trySendOnce (env k).route = .error (.server e) ∧
      e.retryable = false
  sameID : ∀ req ∈ sent.attempts, req.clientMsgID = clientMsgID

theorem Attempt.Retried.ne_server {a : Attempt} (h : a.Retried) (e : ServerError) :
    trySendOnce a.route ≠ .error (.server e) := by
  obtain ⟨err, herr, hserver, -⟩ := h
  rw [herr]
  rintro heq
  cases heq
  cases hserver

/-- `SendMessage` retries what may be retried exactly if the first error of the server, after other
failures only and before the last attempt, may not. -/
theorem send_retries_iff {c : Client} {clientMsgID : String}
    (hnew : c.sendCache clientMsgID = none) (topic : String) (msgType : Int)
    (content : List UInt8) (now : Int) {env : ℕ → Attempt}
    (hcontext : ∀ k, (env k).cancelled = false ∧ (env k).contextDone = false) :
    RetriesFailures clientMsgID env (c.sendMessage topic msgType content clientMsgID now env) ↔
      ∀ k < maxSendRetries, (∀ j < k, (env j).Retried) →
        ∀ e, trySendOnce (env k).route = .error (.server e) → e.retryable = false := by
  rw [sendMessage_eq hnew]
  obtain ⟨last, -, hlast, hbefore, hattempts, hresult, hend⟩ :=
    sendLoop_ends true { topic, msgType, content, clientMsgID } hcontext maxSendRetries 0 []
      (c.trackSendingMsg (c.sendingMsg { topic, msgType, content, clientMsgID } now))
  have hlen := congrArg length hattempts
  simp only [nil_append, length_replicate, Nat.sub_zero] at hlen hattempts
  constructor
  · intro h k hk hretried e he
    obtain rfl : last = k := by
      -- the loop goes on before the error of the server, and not after it
      rcases Nat.lt_trichotomy last k with hlt | heq | hgt
      · exact absurd (hretried last hlt) (hend.resolve_right (by omega))
      · exact heq
      · exact absurd he ((hbefore k (Nat.zero_le k) hgt).ne_server e)
    obtain ⟨k, e', hk', he', hflag⟩ := h.early (.server e) (hresult.trans he) (by omega)
    obtain rfl : k = last := by omega
    rw [he] at he'
    cases he'
    exact hflag
  · intro h
    constructor
    · intro err herr hearly
      rw [hresult] at herr
      have hstopped : ¬ (env last).Retried := hend.resolve_right (by omega)
      have hserver : err.isServerError = true := by
        by_contra hnot
        exact hstopped ⟨err, herr, Bool.eq_false_of_not_eq_true hnot, (hcontext last).2⟩
      cases err with
      | server e =>
        have hbefore' := fun j hj => hbefore j (Nat.zero_le j) hj
        exact ⟨last, e, hlen, herr, h last (by omega) hbefore' e herr⟩
      | _ => cases hserver
    · intro req hreq
      rw [hattempts] at hreq
      rw [eq_of_mem_replicate hreq]

def answering (e : ErrorResponse) (_ : ℕ) : Attempt where
  route := .realtime (.packet { error := some (sendError e) })

theorem refused_send_not_retried :
    RetriesFailures "m" (answering ⟨4030, "topic access denied"⟩)
      (({} : Client).sendMessage "p2p_1_2" 0 [] "m" 0
        (answering ⟨4030, "topic access denied"⟩)) := by
  have hnew : ({} : Client).sendCache "m" = none := rfl
  refine (send_retries_iff hnew "p2p_1_2" 0 [] 0 fun _ => ⟨rfl, rfl⟩).mpr ?_
  intro k _ _ e he
  cases he
  decide

/-- The gateway could not store the message and says that the client may try again. The call
returns after its first attempt. -/
theorem retryable_error_not_retried :
    (({} : Client).sendMessage "p2p_1_2" 0 [] "m" 0
      (answering ⟨5001, "message delivery failed"⟩)).result =
        .error (.server ⟨5001, "message delivery failed", true, 0⟩) ∧
    (({} : Client).sendMessage "p2p_1_2" 0 [] "m" 0
      (answering ⟨5001, "message delivery failed"⟩)).attempts.length = 1 := by
  decide_cbv

end NonokaIM.Sdk
