import NonokaIM.Verification.Consumer.Steps

/-! # At-least-once consumption

In a consumer group `ReadMessage` commits before any worker has seen the message. -/

namespace NonokaIM.ConsumerState

open DocumentStore GuardedRun

variable {ν : Type} {k : KafkaConsumer} {log : ℕ → List (KafkaRecord ν)} {start : ℕ → ℕ}
  {c c' : ConsumerState ν}

/-- The message at this place was handled successfully or written to the dead-letter topic. -/
def Settled (c : ConsumerState ν) (p offset : ℕ) : Prop :=
  (∃ m ∈ c.handled, m.partition = p ∧ m.offset = offset) ∨
    ∃ d ∈ c.deadLetters, d.1.partition = p ∧ d.1.offset = offset
  deriving Decidable

/-- Since the start, the group has consumed settled messages only. -/
def CommitsSettled (log : ℕ → List (KafkaRecord ν)) (start : ℕ → ℕ) (c : ConsumerState ν) : Prop :=
  ∀ p offset, start p ≤ offset → offset < c.committed p → offset < (log p).length →
    c.Settled p offset

/-- The event is a `ReadMessage` in a consumer group that finds a message and whose own commit is
carried out. -/
def AutoCommits (k : KafkaConsumer) (log : ℕ → List (KafkaRecord ν)) (c : ConsumerState ν) :
    GroupEvent → Prop
  | .own (.read p commit) => k.groupID ≠ "" ∧ c.CanRead k p ∧ c.position p < (log p).length ∧
      commit.applied = true
  | _ => False

/-! ## Before the first automatic commit -/

/-- Nothing has been committed; in a group, no message has reached a worker either. -/
structure Untouched (k : KafkaConsumer) (start : ℕ → ℕ) (c : ConsumerState ν) : Prop where
  committed : c.committed = start
  position : ∀ p, start p ≤ c.position p
  idle : k.groupID ≠ "" → c.reading = none ∧ (∀ w, c.chans w = []) ∧ (∀ w, c.pending w = []) ∧
    c.handled = [] ∧ c.deadLetters = []

theorem untouched_init (k : KafkaConsumer) (start : ℕ → ℕ) : Untouched k start (init ν start) where
  committed := rfl
  position := fun _ => Nat.le_refl _
  idle := fun _ => ⟨rfl, fun _ => rfl, fun _ => rfl, rfl, rfl⟩

theorem Untouched.commitsSettled (h : Untouched k start c) : CommitsSettled log start c := by
  intro p offset hstart hlt
  rw [h.committed] at hlt
  omega

theorem commitMessages_of_not_applied {ms : List (Consumed ν)} {fault : CallFault}
    (h : k.groupID ≠ "" → fault.applied = false) : commitMessages k ms fault c = c := by
  unfold commitMessages
  rw [if_pos]
  by_cases hg : k.groupID = ""
  · exact .inl hg
  · exact .inr (h hg)

theorem commitMessages_nil (fault : CallFault) : commitMessages k [] fault c = c := by
  unfold commitMessages
  split
  · rfl
  · rfl

theorem Untouched.commit (h : Untouched k start c) (w : ℕ) (fault : CallFault) :
    Untouched k start (c.commit k w fault) := by
  have hsame : commitMessages k (c.pending w) fault c = c := by
    by_cases hg : k.groupID = ""
    · exact commitMessages_of_not_applied fun hne => absurd hg hne
    · rw [(h.idle hg).2.2.1 w]
      exact commitMessages_nil fault
  unfold ConsumerState.commit
  rw [hsame]
  refine ⟨h.committed, h.position, ?_⟩
  intro hg
  obtain ⟨hreading, hchans, hpending, hsettled⟩ := h.idle hg
  refine ⟨hreading, hchans, ?_, hsettled⟩
  intro v
  by_cases hv : v = w
  · simp [hv]
  · simp [hv, hpending v]

theorem Untouched.advance (h : Untouched k start c) (p : ℕ) : Untouched k start (c.advance p) where
  committed := h.committed
  position := by
    intro q
    have hq := h.position q
    by_cases hqp : q = p
    · subst q
      simp only [ConsumerState.advance, Function.update_self]
      omega
    · simpa [ConsumerState.advance, hqp] using hq
  idle := h.idle

theorem Untouched.handle (h : Untouched k start c) {w : ℕ} {m : Consumed ν} {ms : List (Consumed ν)}
    (hm : c.chans w = m :: ms) (env : HandlerEnv) (fault : CallFault) :
    Untouched k start (c.handle k w env fault m ms) := by
  have hg : k.groupID = "" := by
    by_contra hg
    rw [(h.idle hg).2.1 w] at hm
    cases hm
  have hbase : ∀ c' : ConsumerState ν, c'.committed = c.committed → c'.position = c.position →
      Untouched k start c' := by
    intro c' hcommitted hposition
    refine ⟨hcommitted.trans h.committed, ?_, fun hne => absurd hg hne⟩
    rw [hposition]
    exact h.position
  unfold ConsumerState.handle
  dsimp only
  split
  · split
    · apply Untouched.commit
      exact hbase _ rfl rfl
    · exact hbase _ rfl rfl
  · exact hbase _ rfl rfl

theorem not_applied_of_not_autoCommits {p : ℕ} {commit : CallFault} {record : KafkaRecord ν}
    (he : ¬ AutoCommits k log c (.own (.read p commit))) (hp : c.CanRead k p)
    (hr : (log p)[c.position p]? = some record) (hg : k.groupID ≠ "") : commit.applied = false := by
  by_contra happlied
  exact he ⟨hg, hp, (List.getElem?_eq_some_iff.mp hr).1, by simpa using happlied⟩

theorem untouched_step (h : Untouched k start c) {e : GroupEvent} (he : ¬ AutoCommits k log c e) :
    Untouched k start (c.groupStep k log e) := by
  cases e with
  | rebalance assigned =>
    refine ⟨h.committed, ?_, h.idle⟩
    intro p
    simp [groupStep, h.committed]
  | own e =>
    have hs := step_cases k log c e
    simp only [groupStep]
    generalize c.step k log e = c' at hs
    cases hs with
    | idle => exact h
    | readError p commit record hp hr hg hc =>
      rw [commitMessages_of_not_applied (not_applied_of_not_autoCommits he hp hr)]
      exact h.advance p
    | read p commit record hp hr hc =>
      have happlied := not_applied_of_not_autoCommits he hp hr
      have hg : k.groupID = "" := by
        -- a commit that is not reported to fail has been carried out
        by_contra hg
        have hreported := hc hg
        have hnot := happlied hg
        cases commit <;> simp_all [CallFault.applied, CallFault.reported]
      have hread := h.advance p
      rw [commitMessages_of_not_applied happlied]
      exact ⟨hread.committed, hread.position, fun hne => absurd hg hne⟩
    | dispatch m hm =>
      refine ⟨h.committed, h.position, ?_⟩
      intro hg
      rw [(h.idle hg).1] at hm
      cases hm
    | handle w env commit m ms hm => exact h.handle hm env commit
    | panic w m ms hm =>
      refine ⟨h.committed, h.position, ?_⟩
      intro hg
      rw [(h.idle hg).2.1 w] at hm
      cases hm
    | tick w commit => exact h.commit w commit
    | stop => exact ⟨h.committed, h.position, h.idle⟩
    | leaveReader =>
      refine ⟨h.committed, h.position, ?_⟩
      intro hg
      exact ⟨rfl, (h.idle hg).2⟩
    | leave w commit =>
      have hw := h.commit w commit
      exact ⟨hw.committed, hw.position, hw.idle⟩

/-! ## The first automatic commit -/

theorem not_commitsSettled_of_autoCommits (h : Untouched k start c) {e : GroupEvent}
    (he : AutoCommits k log c e) : ¬ CommitsSettled log start (c.groupStep k log e) := by
  cases e with
  | rebalance assigned => exact he.elim
  | own e =>
    cases e with
    | read p commit =>
      obtain ⟨hg, hp, hlt, happlied⟩ := he
      obtain ⟨_, _, _, hhandled, hdead⟩ := h.idle hg
      intro hsafe
      have hrecord : (log p)[c.position p]? = some ((log p)[c.position p]) :=
        List.getElem?_eq_getElem hlt
      have hstep : (c.groupStep k log (.own (.read p commit))).committed p = c.position p + 1 ∧
          (c.groupStep k log (.own (.read p commit))).handled = c.handled ∧
          (c.groupStep k log (.own (.read p commit))).deadLetters = c.deadLetters := by
        simp only [groupStep, step, if_pos hp, ConsumerState.read, hrecord, commitMessages, hg,
          happlied, lastOffset]
        split <;> simp
      have hsettled := hsafe p (c.position p) (h.position p) (by omega) hlt
      rw [Settled, hstep.2.1, hstep.2.2, hhandled, hdead] at hsettled
      simp at hsettled
    | dispatch | handle | panic | tick | stop | leaveReader | leave => exact he.elim

/-- In every run, the committed offsets never pass an unsettled message exactly if no
`ReadMessage` of the run commits by itself. Without a consumer group none does. -/
theorem commits_settled_iff (k : KafkaConsumer) (log : ℕ → List (KafkaRecord ν)) (start : ℕ → ℕ)
    (es : List GroupEvent) :
    (∀ fs, fs <+: es → CommitsSettled log start ((init ν start).groupRun k log fs)) ↔
      Along (groupStep k log) (fun c e => ¬ AutoCommits k log c e) (init ν start) es := by
  have hiff : ∀ (c : ConsumerState ν) e, Untouched k start c →
      (CommitsSettled log start (c.groupStep k log e) ↔ ¬ AutoCommits k log c e) := by
    intro c e h
    constructor
    · intro hsafe hauto
      exact not_commitsSettled_of_autoCommits h hauto hsafe
    · intro hauto
      exact (untouched_step h hauto).commitsSettled
  have hstep : ∀ (c : ConsumerState ν) e, Untouched k start c →
      CommitsSettled log start (c.groupStep k log e) → Untouched k start (c.groupStep k log e) :=
    fun c e h hsafe => untouched_step h ((hiff c e h).mp hsafe)
  have hinit := untouched_init (ν := ν) k start
  have halways : (∀ fs, fs <+: es →
      CommitsSettled log start ((init ν start).groupRun k log fs)) ↔ _ := good_always_iff_along
  rw [halways, along_congr hiff hstep hinit]
  exact and_iff_right hinit.commitsSettled

def oneMessage : ℕ → List (KafkaRecord Unit)
  | 0 => [{ key := "p2p_1_2", value := (), headers := [] }]
  | _ => []

/-- The consumer stops while the message waits in its channel. The group does not get the message
again, and no handler has seen it. -/
theorem message_lost_on_stop :
    let c := (init Unit fun _ => 0).groupRun (newKafkaConsumer 4 { groupID := "msgworker-group" })
      oneMessage [.own (.read 0 .none), .own .dispatch, .own .stop, .own .leaveReader,
        .own (.leave 0 .none), .rebalance fun _ => true]
    ¬ CommitsSettled oneMessage (fun _ => 0) c ∧ c.position 0 = 1 ∧ c.given = [] := by
  refine ⟨?_, rfl, rfl⟩
  intro hsafe
  exact absurd (hsafe 0 0 (by decide) (by decide) (by decide)) (by decide)

end NonokaIM.ConsumerState
