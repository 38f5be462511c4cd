import NonokaIM.Model.PushSystem
import NonokaIM.Verification.Recall.SettledAttempts

/-! Pushes of a message after its recall: the copies that can wait, a run that pushes each of them,
and the invariant that holds when there is none. -/

namespace NonokaIM

open List Function GuardedRun

namespace PushSystem

variable {ι : Type} [DecidableEq ι] {cfg : ι → WorkerConfig} {s : PushSystem ι} {topic : String}
  {topicSeq : ℕ}

variable {k : ℕ} {i : ι} {actions : List DeliveryAction} {task : DeliveryTask} {a : Attempt ι}

variable {h : ℕ}

/-- No copy waits, the attempt of the message is settled, and no content was pushed after the first
`n` entries of the log. -/
structure Quiet (s : PushSystem ι) (topic : String) (topicSeq n : ℕ) : Prop where
  traced : s.cluster.Traced
  attempt : ∃ h, ∃ a, s.cluster.attempts[(h : ℕ)]? = some a ∧ a.msg.topic = topic ∧
    a.topicSeq = topicSeq ∧ s.cluster.Settled h a
  pools : ∀ i, ∀ task ∈ s.pools i, ¬ task.Carries topic topicSeq
  hands : ∀ hand ∈ s.hands, ∀ a ∈ hand.2, ¬ a.Carries topic topicSeq
  retrySet : ∀ item ∈ s.retrySet, ¬ item.Carries topic topicSeq
  log : ∀ msg, .pushed msg ∈ s.log.drop n → ¬ msg.Carries topic topicSeq

variable {n : ℕ}

theorem mem_submitted {c : Cluster ι} {now : Int} {fault : CompleteFault}
    {stop : Option PoolSelect} (ht : task ∈ submitted c (c.step cfg (.finish h now fault stop))) :
    ∃ a recipientIDs, c.attempts[h]? = some a ∧ c.stage h = .saved recipientIDs false ∧
      task = a.task recipientIDs := by
  have hsame : task ∉ submitted c c := by simp [submitted]
  simp only [Cluster.step] at ht
  split at ht
  · rename_i a recipientIDs isDuplicate ha hstage
    cases isDuplicate with
    | true =>
      simp only [submitted, Cluster.finish, complete, if_true, drop_length] at ht
      cases ht
    | false =>
      refine ⟨a, recipientIDs, ha, hstage, ?_⟩
      simp only [submitted, Cluster.finish, complete, Bool.false_eq_true, if_false,
        upsertConversations] at ht
      split at ht
      · simpa [Attempt.task] using ht
      · simp at ht
      · simp at ht
  · exact absurd ht hsame

theorem Quiet.not_carries_submitted (hq : s.Quiet topic topicSeq n) {now : Int}
    {fault : CompleteFault} {stop : Option PoolSelect}
    (ht : task ∈ submitted s.cluster (s.cluster.step cfg (.finish h now fault stop))) :
    ¬ task.Carries topic topicSeq := by
  obtain ⟨b, recipientIDs, hb, hstage, rfl⟩ := mem_submitted ht
  obtain ⟨k, a, ha, htopic, hseq, hsettled⟩ := hq.attempt
  intro hcarries
  have hkey : k = h := by
    apply hq.traced.numbering.eq_of_seq ha hb
    · rw [htopic]
      exact hcarries.1.1.symm
    · rw [hseq]
      exact hcarries.1.2.1.symm
  subst k
  rw [ha] at hb
  obtain rfl := Option.some.inj hb
  unfold Cluster.Settled at hsettled
  rw [hstage] at hsettled
  rw [htopic, hseq] at hsettled
  exact hsettled hcarries

theorem Quiet.cluster_step (hq : s.Quiet topic topicSeq n) (cfg : ι → WorkerConfig)
    (e : ClusterEvent ι) :
    (s.cluster.step cfg e).Traced ∧ ∃ h, ∃ a, (s.cluster.step cfg e).attempts[(h : ℕ)]? = some a ∧
      a.msg.topic = topic ∧ a.topicSeq = topicSeq ∧ (s.cluster.step cfg e).Settled h a := by
  have hstep := Cluster.step_cases cfg s.cluster e
  obtain ⟨h, a, ha, htopic, hseq, hsettled⟩ := hq.attempt
  exact ⟨Cluster.traced_step hq.traced hstep, h, a, Cluster.step_attempts hstep ha, htopic, hseq,
    Cluster.settled_step ha hsettled hstep⟩

theorem forall_mem_update {pools : ι → List DeliveryTask} {P : DeliveryTask → Prop}
    (hpools : ∀ i, ∀ task ∈ pools i, P task) (i : ι) {tasks : List DeliveryTask}
    (htasks : ∀ task ∈ tasks, P task) : ∀ j, ∀ task ∈ update pools i tasks j, P task := by
  intro j task ht
  by_cases hj : j = i
  · subst j
    rw [update_self] at ht
    exact htasks task ht
  · rw [update_of_ne hj] at ht
    exact hpools j task ht

theorem Quiet.workerStep (hq : s.Quiet topic topicSeq n) (e : ClusterEvent ι) :
    (s.workerStep cfg e).Quiet topic topicSeq n := by
  obtain ⟨htraced, hattempt⟩ := hq.cluster_step cfg e
  cases e with
  | finish h now fault stop =>
    simp only [PushSystem.workerStep]
    split
    · rename_i a ha
      refine ⟨htraced, hattempt, forall_mem_update hq.pools a.process ?_, hq.hands, hq.retrySet,
        hq.log⟩
      intro task ht
      rcases mem_append.mp ht with hold | hnew
      · exact hq.pools _ task hold
      · exact hq.not_carries_submitted hnew
    · exact ⟨htraced, hattempt, hq.pools, hq.hands, hq.retrySet, hq.log⟩
  | restart i =>
    refine ⟨htraced, hattempt, forall_mem_update hq.pools i (by simp), ?_, hq.retrySet, hq.log⟩
    intro hand hhand
    exact hq.hands hand (mem_filter.mp hhand).1
  | accept | save | flush | saveOne | timeout =>
    exact ⟨htraced, hattempt, hq.pools, hq.hands, hq.retrySet, hq.log⟩

theorem mem_drop_append {α : Type} {x : α} {l l' : List α} {n : ℕ} (h : x ∈ (l ++ l').drop n) :
    x ∈ l.drop n ∨ x ∈ l' := by
  rw [drop_append, mem_append] at h
  exact h.imp_right mem_of_mem_drop

theorem Quiet.recallMessage (hq : s.Quiet topic topicSeq n) (args : RecallArgs) (now : Int)
    (fault : RecallFault) : (s.step cfg (.recallMessage args now fault)).Quiet topic topicSeq n := by
  refine ⟨Cluster.traced_recall hq.traced args now fault, ?_, hq.pools, hq.hands, hq.retrySet, ?_⟩
  · obtain ⟨h, a, ha, htopic, hseq, hsettled⟩ := hq.attempt
    refine ⟨h, a, ha, htopic, hseq, hsettled.keep rfl (fun _ hp => hp) (fun _ _ hf => hf) ?_⟩
    rintro ⟨r, hr, hkey⟩
    obtain ⟨x, hx, hcopy⟩ := exists_mem_recallMessage_messages args now fault hr
    refine ⟨x, hx, ?_⟩
    rw [← hkey.1, ← hkey.2]
    exact ⟨congrArg Copy.topic hcopy, congrArg Copy.topicSeq hcopy⟩
  · intro msg hmsg
    simp only [PushSystem.step] at hmsg
    split at hmsg
    · rcases mem_drop_append hmsg with hold | hnew
      · exact hq.log msg hold
      · cases mem_singleton.mp hnew
    · exact hq.log msg hmsg

theorem Quiet.take (hq : s.Quiet topic topicSeq n) (i : ι) (env : DeliveryEnv) :
    (s.step cfg (.take i env)).Quiet topic topicSeq n := by
  simp only [step]
  split
  · exact hq
  rename_i task tasks hpool
  have htasks : ∀ other ∈ task :: tasks, ¬ other.Carries topic topicSeq := by
    rw [← hpool]
    exact hq.pools i
  refine ⟨hq.traced, hq.attempt, ?_, ?_, hq.retrySet, hq.log⟩
  · exact forall_mem_update hq.pools i fun other hother =>
      htasks other (mem_cons_of_mem _ hother)
  · intro hand hhand a ha hcarries
    rcases mem_append.mp hhand with hold | hnew
    · exact hq.hands hand hold a ha hcarries
    · rw [mem_singleton.mp hnew] at ha
      exact htasks task mem_cons_self (carries_of_mem_deliverMessage ha hcarries)

theorem Quiet.takeRetry (hq : s.Quiet topic topicSeq n) (i : ι) (item : RetryItem)
    (env : DeliveryEnv) :
    (s.step cfg (.takeRetry i item env)).Quiet topic topicSeq n := by
  simp only [step]
  split
  · rename_i hitem
    refine ⟨hq.traced, hq.attempt, hq.pools, ?_, ?_, hq.log⟩
    · intro hand hhand a ha hcarries
      rcases mem_append.mp hhand with hold | hnew
      · exact hq.hands hand hold a ha hcarries
      · rw [mem_singleton.mp hnew] at ha
        exact hq.retrySet item hitem.1 (carries_of_mem_processRetryTask ha hcarries)
    · intro other hother
      exact hq.retrySet other (mem_of_mem_erase hother)
  · exact hq

theorem Quiet.act (hq : s.Quiet topic topicSeq n) (k : ℕ) :
    (s.step cfg (.act k)).Quiet topic topicSeq n := by
  simp only [step]
  split
  · rename_i i action actions hk
    have hmem : (i, action :: actions) ∈ s.hands := mem_of_getElem? hk
    have haction : ¬ action.Carries topic topicSeq := hq.hands _ hmem action mem_cons_self
    have hhands : ∀ hand ∈ s.hands.set k (i, actions), ∀ a ∈ hand.2,
        ¬ a.Carries topic topicSeq := by
      intro hand hhand a ha
      rcases mem_or_eq_of_mem_set hhand with hold | rfl
      · exact hq.hands hand hold a ha
      · exact hq.hands _ hmem a (mem_cons_of_mem _ ha)
    cases action with
    | push call userIDs msg =>
      refine ⟨hq.traced, hq.attempt, hq.pools, hhands, hq.retrySet, ?_⟩
      intro other hother
      rcases mem_drop_append hother with hold | hnew
      · exact hq.log other hold
      · cases mem_singleton.mp hnew
        exact haction
    | retry item =>
      refine ⟨hq.traced, hq.attempt, hq.pools, hhands, ?_, hq.log⟩
      intro other hother
      simp only [perform] at hother
      split at hother
      · exact hq.retrySet other hother
      rcases mem_append.mp hother with hold | hnew
      · exact hq.retrySet other hold
      · rw [mem_singleton.mp hnew]
        exact haction
    | receipt userID receipt =>
      exact ⟨hq.traced, hq.attempt, hq.pools, hhands, hq.retrySet, hq.log⟩
  · exact hq

theorem Quiet.step (hq : s.Quiet topic topicSeq n) (cfg : ι → WorkerConfig) (e : PushEvent ι) :
    (s.step cfg e).Quiet topic topicSeq n := by
  cases e with
  | worker e => exact hq.workerStep e
  | take i env => exact hq.take i env
  | takeRetry i item env => exact hq.takeRetry i item env
  | act k => exact hq.act k
  | recallMessage args now fault => exact hq.recallMessage args now fault

/-- Every row comes from an attempt, and mention rows from one that has returned. -/
structure Sound (s : PushSystem ι) : Prop where
  traced : s.cluster.Traced
  mentions : s.cluster.MentionsReturned

theorem cluster_workerStep (s : PushSystem ι) (e : ClusterEvent ι) :
    (s.workerStep cfg e).cluster = s.cluster.step cfg e := by
  cases e with
  | finish h now fault stop =>
    simp only [workerStep]
    split <;> rfl
  | accept | save | flush | saveOne | timeout | restart => rfl

theorem Sound.step (hs : s.Sound) (cfg : ι → WorkerConfig) (e : PushEvent ι) :
    (s.step cfg e).Sound := by
  have hsame : ∀ s' : PushSystem ι, s'.cluster = s.cluster → s'.Sound := by
    intro s' heq
    refine ⟨?_, ?_⟩
    · rw [heq]
      exact hs.traced
    · rw [heq]
      exact hs.mentions
  cases e with
  | worker e =>
    have hstep := Cluster.step_cases cfg s.cluster e
    refine ⟨?_, ?_⟩
    · rw [PushSystem.step, cluster_workerStep]
      exact Cluster.traced_step hs.traced hstep
    · rw [PushSystem.step, cluster_workerStep]
      exact Cluster.mentionsReturned_step hs.mentions hstep
  | take i env | takeRetry i item env =>
    apply hsame
    simp only [PushSystem.step]
    split <;> rfl
  | act k =>
    apply hsame
    simp only [PushSystem.step]
    split
    · rename_i action actions _
      cases action <;> rfl
    · rfl
  | recallMessage args now fault =>
    refine ⟨Cluster.traced_recall hs.traced args now fault, ?_⟩
    intro x hx
    obtain ⟨r, hr, hcopy⟩ := mem_recallMessage_mentionInboxes hx
    rw [← hcopy]
    exact hs.mentions r hr

/-- The attempt is past its insert, and a single save would find its row. -/
def Past (c : Cluster ι) (h : ℕ) (a : Attempt ι) : Prop :=
  c.stage h = .returned ∨ (¬ c.Unwritten h ∧ (h ∈ c.fallback → c.HasRow a))

omit [DecidableEq ι] in
theorem Sound.attempt (hs : s.Sound) {r : RecallFields}
    (hr : r ∈ s.cluster.world.store.recallRows) :
    ∃ h, ∃ a, s.cluster.attempts[(h : ℕ)]? = some a ∧ a.msg.topic = r.topic ∧
      a.topicSeq = r.topicSeq ∧ Past s.cluster h a := by
  simp only [Store.recallRows, mem_append, mem_map] at hr
  rcases hr with ⟨row, hrow, rfl⟩ | ⟨row, hrow, rfl⟩ | ⟨row, hrow, rfl⟩
  · obtain ⟨h, a, ha, ⟨hcopy, _⟩, hun⟩ := hs.traced.rows.messages row hrow
    have htopic : row.topic = a.msg.topic := congrArg Copy.topic hcopy
    have hseq : row.topicSeq = a.topicSeq := congrArg Copy.topicSeq hcopy
    exact ⟨h, a, ha, htopic.symm, hseq.symm, .inr ⟨hun, fun _ => ⟨row, hrow, htopic, hseq⟩⟩⟩
  · -- The message of an inbox row is not for a group and never waits for a single save.
    obtain ⟨h, a, ha, ⟨hcopy, haddr⟩, hun⟩ := hs.traced.rows.inboxes row hrow
    refine ⟨h, a, ha, (congrArg Copy.topic hcopy).symm, (congrArg Copy.topicSeq hcopy).symm,
      .inr ⟨hun, ?_⟩⟩
    intro hf
    obtain ⟨_, b, hb, hgroup⟩ := hs.traced.queues.fallback h hf
    rw [ha] at hb
    obtain rfl := Option.some.inj hb
    simp only [Addressed, isGroup_iff.mp hgroup] at haddr
  · obtain ⟨h, a, ha, hcopy, hret⟩ := hs.mentions row hrow
    exact ⟨h, a, ha, (congrArg Copy.topic hcopy).symm, (congrArg Copy.topicSeq hcopy).symm,
      .inl hret⟩

end PushSystem

open PushSystem

end NonokaIM
