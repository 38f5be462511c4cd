import NonokaIM.Model.Consumer

/-! What one step of the consumer can do. -/

namespace NonokaIM.ConsumerState

open DocumentStore Function

variable {ν : Type} {k : KafkaConsumer} {log : ℕ → List (KafkaRecord ν)} {c c' : ConsumerState ν}
  {e : ConsumerEvent}

def fetched (c : ConsumerState ν) (p : ℕ) (record : KafkaRecord ν) : Consumed ν :=
  ⟨p, c.position p, record⟩

def advance (c : ConsumerState ν) (p : ℕ) : ConsumerState ν :=
  { c with position := update c.position p (c.position p + 1) }

variable (k : KafkaConsumer)

theorem commitMessages_eq (ms : List (Consumed ν)) (fault : CallFault) (c : ConsumerState ν) :
    ∃ committed, commitMessages k ms fault c = { c with committed := committed } := by
  unfold commitMessages
  split
  · exact ⟨c.committed, rfl⟩
  · exact ⟨_, rfl⟩

theorem commit_eq (w : ℕ) (fault : CallFault) (c : ConsumerState ν) :
    ∃ committed pending,
      c.commit k w fault = { c with committed := committed, pending := pending } := by
  obtain ⟨committed, h⟩ := commitMessages_eq k (c.pending w) fault c
  exact ⟨committed, _, by rw [commit, h]⟩

theorem handle_eq (w : ℕ) (env : HandlerEnv) (fault : CallFault)
    (m : Consumed ν) (ms : List (Consumed ν)) (c : ConsumerState ν) :
    ∃ committed pending handled deadLetters, c.handle k w env fault m ms =
      { c with
        committed := committed, pending := pending
        chans := update c.chans w ms, given := c.given ++ [m]
        handled := handled, deadLetters := deadLetters } := by
  unfold handle
  dsimp only
  split
  · split
    · obtain ⟨committed, pending, h⟩ := commit_eq k w fault _
      rw [h]
      exact ⟨committed, pending, _, _, rfl⟩
    · exact ⟨_, _, _, _, rfl⟩
  · exact ⟨_, _, _, _, rfl⟩

/-- The outcomes of an event, with the conditions under which they happen. -/
inductive Step (k : KafkaConsumer) (log : ℕ → List (KafkaRecord ν)) (c : ConsumerState ν) :
    ConsumerEvent → ConsumerState ν → Prop where
  | idle (e : ConsumerEvent) : Step k log c e c
  | readError (p : ℕ) (commit : CallFault) (record : KafkaRecord ν) (hp : c.CanRead k p)
      (hr : (log p)[c.position p]? = some record) (hg : k.groupID ≠ "")
      (hc : commit.reported = true) :
      Step k log c (.read p commit) (commitMessages k [c.fetched p record] commit (c.advance p))
  | read (p : ℕ) (commit : CallFault) (record : KafkaRecord ν) (hp : c.CanRead k p)
      (hr : (log p)[c.position p]? = some record)
      (hc : k.groupID ≠ "" → commit.reported = false) :
      Step k log c (.read p commit)
        { commitMessages k [c.fetched p record] commit (c.advance p) with
          reading := some (c.fetched p record) }
  | dispatch (m : Consumed ν) (hm : c.reading = some m) :
      Step k log c .dispatch
        { c with
          reading := none
          chans := update c.chans (m.partition % k.workerCount)
            (c.chans (m.partition % k.workerCount) ++ [m]) }
  | handle (w : ℕ) (env : HandlerEnv) (commit : CallFault) (m : Consumed ν) (ms : List (Consumed ν))
      (hm : c.chans w = m :: ms) :
      Step k log c (.handle w env commit) (c.handle k w env commit m ms)
  | panic (w : ℕ) (m : Consumed ν) (ms : List (Consumed ν)) (hm : c.chans w = m :: ms) :
      Step k log c (.panic w)
        { c with
          chans := update c.chans w ms
          given := c.given ++ [m]
          left := update c.left w true }
  | tick (w : ℕ) (commit : CallFault) : Step k log c (.tick w commit) (c.commit k w commit)
  | stop : Step k log c .stop { c with stopped := true }
  | leaveReader : Step k log c .leaveReader { c with readerLeft := true, reading := none }
  | leave (w : ℕ) (commit : CallFault) :
      Step k log c (.leave w commit) { c.commit k w commit with left := update c.left w true }

theorem step_cases (log : ℕ → List (KafkaRecord ν)) (c : ConsumerState ν)
    (e : ConsumerEvent) : Step k log c e (c.step k log e) := by
  cases e with
  | read p commit =>
    by_cases h : c.CanRead k p
    · simp only [step, if_pos h, read]
      cases hr : (log p)[c.position p]? with
      | none => exact .idle _
      | some record =>
        by_cases hc : k.groupID ≠ "" ∧ commit.reported = true
        · simp only [if_pos hc]
          exact .readError p commit record h hr hc.1 hc.2
        · simp only [if_neg hc]
          refine .read p commit record h hr ?_
          intro hg
          by_contra hrep
          exact hc ⟨hg, by simpa using hrep⟩
    · simp only [step, if_neg h]
      exact .idle _
  | dispatch =>
    simp only [step]
    cases hm : c.reading with
    | none => exact .idle _
    | some m =>
      by_cases hcap : (c.chans (m.partition % k.workerCount)).length < chanCap
      · simp only [if_pos hcap]
        exact .dispatch m hm
      · simp only [if_neg hcap]
        exact .idle _
  | handle w env commit =>
    simp only [step]
    split
    · rename_i m ms _ hm
      exact .handle w env commit m ms hm
    · exact .idle _
  | panic w =>
    simp only [step]
    split
    · rename_i m ms _ hm
      exact .panic w m ms hm
    · exact .idle _
  | tick w commit =>
    simp only [step]
    split
    · exact .idle _
    · exact .tick w commit
  | stop => exact .stop
  | leaveReader =>
    simp only [step]
    split
    · exact .leaveReader
    · exact .idle _
  | leave w commit =>
    simp only [step]
    split
    · exact .leave w commit
    · exact .idle _

end NonokaIM.ConsumerState
