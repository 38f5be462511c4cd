import NonokaIM.Model.Agent
import NonokaIM.Verification.Agent.ReplyBody
import NonokaIM.Verification.Worker.Traces

/-! One stored reply for each event and agent: all replies carry one client message id, no row is
removed, and the indexes are unique. -/

namespace NonokaIM

open DocumentStore AgentState

structure ReplySystem (ι κ : Type) where
  agent : AgentState ι
  workers : Cluster κ

inductive ReplyOp (ι κ : Type) where
  | agent (op : AgentOp ι)
  | worker (e : ClusterEvent κ)

namespace ReplySystem

variable {ι κ : Type} [DecidableEq ι] [DecidableEq κ]

def init (run : Option AgentRun) (now : Int) : ReplySystem ι κ := ⟨{ run, now }, Cluster.init κ⟩

def step (h : Harness) (ev : MessageEvent) (cfg : κ → WorkerConfig) (s : ReplySystem ι κ) :
    ReplyOp ι κ → ReplySystem ι κ
  | .agent op => { s with agent := agentStep h ev s.agent op }
  | .worker e => { s with workers := s.workers.step cfg e }

variable (h : Harness) (ev : MessageEvent) (cfg : κ → WorkerConfig) {s s' : ReplySystem ι κ}

def after (run : Option AgentRun) (now : Int) (ops : List (ReplyOp ι κ)) : ReplySystem ι κ :=
  GuardedRun.run (step h ev cfg) (init run now) ops

def inboxes (s : ReplySystem ι κ) : List InboxMessage := s.workers.world.store.inboxes.rows

def messages (s : ReplySystem ι κ) : List StoredMessage := s.workers.world.store.messages.rows

/-- A worker has handled a reply that the agent sent for the event, and this is its copy. -/
def IsReply (s : ReplySystem ι κ) (x : Copy) : Prop :=
  ∃ a ∈ s.workers.attempts, a.msg ∈ s.agent.sent ∧ x = a.copy

end ReplySystem

section

variable {h : Harness} {ev : MessageEvent}

variable {msg : UpstreamMessage}

theorem sendMessage_ok {authorizer : Option TopicAuthorizer} {userID : Int}
    {req : SendMessageRequest} {now : Int}
    (hmsg : sendMessage authorizer userID req now = .ok msg) :
    msg.senderID = userID ∧ msg.clientMsgID = req.clientMsgID := by
  unfold sendMessage at hmsg
  repeat' split at hmsg
  all_goals cases hmsg
  exact ⟨rfl, rfl⟩

/-- The message has the sender and the client id of the agent's replies to the event. -/
def FromAgent (h : Harness) (ev : MessageEvent) (msg : UpstreamMessage) : Prop :=
  msg.senderID = h.botID ∧ msg.clientMsgID = h.stableClientID ev

theorem stableClientID_ne_empty : h.stableClientID ev ≠ "" := by
  simp [Harness.stableClientID, String.ext_iff]

variable {ι : Type} [DecidableEq ι] {s : AgentState ι}

theorem mem_sent_act {i : ι} {env : HandleEnv} (hmsg : msg ∈ (s.act h ev i env).sent) :
    msg ∈ s.sent ∨ FromAgent h ev msg := by
  cases hp : (s.calls i).phase with
  | send text =>
    simp only [act, hp] at hmsg
    split at hmsg
    · exact .inl hmsg
    · exact .inl hmsg
    · rename_i reply hreply
      obtain ⟨req, hreq, hsend⟩ := Option.map_eq_some_iff.mp hreply
      have hclient : req.clientMsgID = h.stableClientID ev := clientMsgID_of_unmarshal_body hreq
      obtain ⟨hsender, hreplyID⟩ := sendMessage_ok hsend
      have hfrom : FromAgent h ev reply := ⟨hsender, hreplyID.trans hclient⟩
      have hmem : msg ∈ s.sent ++ [reply] := by
        repeat' split at hmsg
        all_goals first
          | exact hmsg
          | exact List.mem_append_left _ hmsg
      rcases List.mem_append.mp hmem with hold | hnew
      · exact .inl hold
      · obtain rfl := List.mem_singleton.mp hnew
        exact .inr hfrom
  | _ =>
    refine .inl ?_
    simp only [act, returnRun, hp] at hmsg
    repeat' split at hmsg
    all_goals exact hmsg

theorem mem_sent_step {op : AgentOp ι} (hmsg : msg ∈ (agentStep h ev s op).sent) :
    msg ∈ s.sent ∨ FromAgent h ev msg := by
  cases op with
  | act i env => exact mem_sent_act hmsg
  | handle i authorizer =>
    refine .inl ?_
    simp only [agentStep, handle] at hmsg
    repeat' split at hmsg
    all_goals exact hmsg
  | crash i | tick elapsed => exact .inl hmsg

end

namespace Cluster

variable {κ : Type} [DecidableEq κ] {cfg : κ → WorkerConfig} {c c' : Cluster κ} {e : ClusterEvent κ}

theorem step_keeps_rows (hs : Step cfg c e c') :
    c.world.store.inboxes.rows ⊆ c'.world.store.inboxes.rows ∧
      c.world.store.messages.rows ⊆ c'.world.store.messages.rows := by
  cases hs with
  | save h a now fault tx ha hs hb =>
    exact ⟨save_effect.inboxes_subset, save_effect.messages_subset⟩
  | flush i now fault dup hv | fallBack i now fault hv =>
    refine ⟨?_, subset_saveGroupMessagesBatch⟩
    rw [saveGroupMessagesBatch_store]
    exact List.Subset.refl _
  | saveOne h a now fault ha hf =>
    refine ⟨?_, subset_saveGroupMessage⟩
    rw [saveOne, saveGroupMessage_store]
    exact List.Subset.refl _
  | finish h a recipientIDs isDuplicate now fault stop ha hs =>
    rw [finish, complete_store]
    exact ⟨List.Subset.refl _, List.Subset.refl _⟩
  | _ => exact ⟨List.Subset.refl _, List.Subset.refl _⟩

end Cluster

namespace ReplySystem

variable {ι κ : Type} [DecidableEq ι] [DecidableEq κ] {h : Harness} {ev : MessageEvent}
  {cfg : κ → WorkerConfig} {s : ReplySystem ι κ}

def Replies (h : Harness) (ev : MessageEvent) (s : ReplySystem ι κ) : Prop :=
  ∀ msg ∈ s.agent.sent, FromAgent h ev msg

theorem replies_step (hs : s.Replies h ev) (op : ReplyOp ι κ) :
    (step h ev cfg s op).Replies h ev := by
  cases op with
  | agent op =>
    intro msg hmsg
    rcases mem_sent_step hmsg with hold | hfrom
    · exact hs msg hold
    · exact hfrom
  | worker e => exact hs

theorem replies_run (hs : s.Replies h ev) (ops : List (ReplyOp ι κ)) :
    (GuardedRun.run (step h ev cfg) s ops).Replies h ev := by
  induction ops generalizing s with
  | nil => exact hs
  | cons op ops ih => exact ih (replies_step hs op)

theorem rows_subset_run (ops : List (ReplyOp ι κ)) :
    s.inboxes ⊆ (GuardedRun.run (step h ev cfg) s ops).inboxes ∧
      s.messages ⊆ (GuardedRun.run (step h ev cfg) s ops).messages := by
  induction ops generalizing s with
  | nil => exact ⟨List.Subset.refl _, List.Subset.refl _⟩
  | cons op ops ih =>
    have hstep : s.inboxes ⊆ (step h ev cfg s op).inboxes ∧
        s.messages ⊆ (step h ev cfg s op).messages := by
      cases op with
      | agent op => exact ⟨List.Subset.refl _, List.Subset.refl _⟩
      | worker e => exact Cluster.step_keeps_rows (Cluster.step_cases cfg s.workers e)
    have hrest := ih (s := step h ev cfg s op)
    exact ⟨List.Subset.trans hstep.1 hrest.1, List.Subset.trans hstep.2 hrest.2⟩

omit [DecidableEq ι] [DecidableEq κ] in
theorem IsReply.keys {x : Copy} (hs : s.Replies h ev) (hx : s.IsReply x) :
    x.senderID = h.botID ∧ x.clientMsgID = h.stableClientID ev := by
  obtain ⟨a, _, hsent, rfl⟩ := hx
  exact hs a.msg hsent

end ReplySystem

open ReplySystem in
/-- Whatever the calls of `Handle` for one event and agent do, and however often the workers
handle their replies, two replies that were ever stored in one inbox are the same row, and so
are two that were ever stored in `messages`. -/
theorem one_stored_reply {ι κ : Type} [DecidableEq ι] [DecidableEq κ] (h : Harness)
    (ev : MessageEvent) (cfg : κ → WorkerConfig) (run : Option AgentRun) (now : Int)
    (ops later : List (ReplyOp ι κ)) :
    (∀ r ∈ (after h ev cfg run now ops).inboxes,
      ∀ r' ∈ (after h ev cfg run now (ops ++ later)).inboxes, r.userID = r'.userID →
      (after h ev cfg run now ops).IsReply r.copy →
      (after h ev cfg run now (ops ++ later)).IsReply r'.copy → r = r') ∧
    (∀ r ∈ (after h ev cfg run now ops).messages,
      ∀ r' ∈ (after h ev cfg run now (ops ++ later)).messages,
      (after h ev cfg run now ops).IsReply r.copy →
      (after h ev cfg run now (ops ++ later)).IsReply r'.copy → r = r') := by
  have hinit : (init run now : ReplySystem ι κ).Replies h ev := nofun
  have hfirst : (after h ev cfg run now ops).Replies h ev := replies_run hinit ops
  have hlater : (after h ev cfg run now (ops ++ later)).Replies h ev := replies_run hinit _
  have hkeep : (after h ev cfg run now ops).inboxes ⊆
        (after h ev cfg run now (ops ++ later)).inboxes ∧
      (after h ev cfg run now ops).messages ⊆ (after h ev cfg run now (ops ++ later)).messages := by
    rw [after, after, GuardedRun.run_append]
    exact rows_subset_run later
  constructor
  · intro r hr r' hr' huser hreply hreply'
    have hclient : r.clientMsgID = h.stableClientID ev := (hreply.keys hfirst).2
    have hclient' : r'.clientMsgID = h.stableClientID ev := (hreply'.keys hlater).2
    apply Collection.eq_of_conflict _ (hkeep.1 hr) hr'
    refine conflict_inboxKeys.mpr ⟨huser, .inr ⟨hclient.trans hclient'.symm, ?_⟩⟩
    rw [hclient']
    exact stableClientID_ne_empty
  · intro r hr r' hr' hreply hreply'
    obtain ⟨hsender, hclient⟩ : r.senderID = _ ∧ r.clientMsgID = _ := hreply.keys hfirst
    obtain ⟨hsender', hclient'⟩ : r'.senderID = _ ∧ r'.clientMsgID = _ := hreply'.keys hlater
    apply Collection.eq_of_conflict _ (hkeep.2 hr) hr'
    refine conflict_messageKeys.mpr (.inr ⟨hsender.trans hsender'.symm,
      hclient.trans hclient'.symm, ?_⟩)
    rw [hclient']
    exact stableClientID_ne_empty

section

open ReplySystem

/-- An agent whose bot is user 2 answers a direct message of user 1. The server decodes the text of
the reply from base 64. -/
def answering : List (ReplyOp Unit Unit) → ReplySystem Unit Unit :=
  after ⟨10, 2, id, fun c => 32 ≤ c.toNat⟩ ⟨1, "e", 5, "p2p_1_2", 1, 0, 0, []⟩ (fun _ => {}) none 0

def agentReply : UpstreamMessage :=
  { senderID := 2, topic := "p2p_1_2", content := [162, 70, 178], clientMsgID := "agent-e:10" }

/-- The call for the event sends its reply, which a worker stores. -/
def answered : List (ReplyOp Unit Unit) :=
  .agent (.handle () (some ⟨none⟩)) ::
    List.replicate 7 (.agent (.act () { authorizer := some ⟨none⟩, output := .ok "okay" })) ++
    [.worker (.accept () 0 agentReply 7 .none), .worker (.save 0 0 .none .none)]

def handledAgain : List (ReplyOp Unit Unit) :=
  [.worker (.accept () 0 agentReply 8 .none), .worker (.save 1 0 .none .none)]

theorem reply_handled_twice :
    (answering answered).inboxes.map (fun r => (r.userID, r.msgID)) = [(1, 7), (2, 7)] ∧
      (answering (answered ++ handledAgain)).workers.attempts.length = 2 ∧
      ∀ r ∈ (answering answered).inboxes, ∀ r' ∈ (answering (answered ++ handledAgain)).inboxes,
        r.userID = r'.userID → r = r' := by
  have hfirst : ∀ r ∈ (answering answered).inboxes, (answering answered).IsReply r.copy := by
    unfold IsReply
    decide +kernel
  have hagain : ∀ r ∈ (answering (answered ++ handledAgain)).inboxes,
      (answering (answered ++ handledAgain)).IsReply r.copy := by
    unfold IsReply
    decide +kernel
  refine ⟨by decide +kernel, by decide +kernel, ?_⟩
  intro r hr r' hr' huser
  exact (one_stored_reply _ _ _ _ _ answered handledAgain).1 r hr r' hr' huser (hfirst r hr)
    (hagain r' hr')

end

end NonokaIM
