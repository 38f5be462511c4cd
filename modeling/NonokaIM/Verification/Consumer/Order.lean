import NonokaIM.Verification.Consumer.Steps

/-! # Processing order within a topic

The messages of a partition pass through one worker; those of a topic are spread over all
partitions. -/

open List

namespace NonokaIM.ConsumerState

open Function

open DocumentStore

variable {ν : Type} {k : KafkaConsumer} {log : ℕ → List (KafkaRecord ν)} {c c' : ConsumerState ν}
  {e : ConsumerEvent}

/-! ## One partition -/

def flow (k : KafkaConsumer) (c : ConsumerState ν) (p : ℕ) : List (Consumed ν) :=
  (c.given ++ c.chans (p % k.workerCount) ++ c.reading.toList).filter (·.partition = p)

/-- Every channel holds messages of its own partitions; each partition flows in the order of its
offsets, and the reader is ahead of all. -/
structure Ordered (k : KafkaConsumer) (c : ConsumerState ν) : Prop where
  routed : ∀ w, ∀ m ∈ c.chans w, m.partition % k.workerCount = w
  ascending : ∀ p, (c.flow k p).Pairwise (·.offset < ·.offset)
  behind : ∀ p, ∀ m ∈ c.flow k p, m.offset < c.position p

theorem ordered_init (k : KafkaConsumer) (start : ℕ → ℕ) : Ordered k (init ν start) where
  routed := by simp [init]
  ascending := by simp [flow, init]
  behind := by simp [flow, init]

theorem Ordered.of_sublist (h : Ordered k c)
    (hrouted : ∀ w, ∀ m ∈ c'.chans w, m.partition % k.workerCount = w)
    (hflow : ∀ p, (c'.flow k p).Sublist (c.flow k p)) (hpos : c'.position = c.position) :
    Ordered k c' where
  routed := hrouted
  ascending := fun p => (h.ascending p).sublist (hflow p)
  behind := by
    intro p m hm
    rw [hpos]
    exact h.behind p m ((hflow p).subset hm)

theorem Ordered.congr (h : Ordered k c) (hgiven : c'.given = c.given)
    (hchans : c'.chans = c.chans) (hreading : c'.reading = c.reading)
    (hpos : c'.position = c.position) : Ordered k c' := by
  refine h.of_sublist ?_ ?_ hpos
  · rw [hchans]
    exact h.routed
  · simp [flow, hgiven, hchans, hreading]

variable {m : Consumed ν} {ms : List (Consumed ν)} {p : ℕ}

theorem routed_update (h : Ordered k c) {w : ℕ} (hms : ∀ m ∈ ms, m.partition % k.workerCount = w) :
    ∀ v, ∀ m ∈ update c.chans w ms v, m.partition % k.workerCount = v :=
  (forall_update_iff c.chans fun v ms => ∀ m ∈ ms, m.partition % k.workerCount = v).mpr
    ⟨hms, fun v _ => h.routed v⟩

theorem flow_take (h : Ordered k c) {w : ℕ} (hm : c.chans w = m :: ms)
    (hgiven : c'.given = c.given ++ [m]) (hchans : c'.chans = update c.chans w ms)
    (hreading : c'.reading = c.reading) (p : ℕ) : c'.flow k p = c.flow k p := by
  have hw : m.partition % k.workerCount = w := h.routed w m (by simp [hm])
  simp only [flow, hgiven, hchans, hreading]
  by_cases hp : p % k.workerCount = w
  · rw [hp, update_self, hm, append_assoc c.given [m] ms, singleton_append]
  have hne : m.partition ≠ p := by
    intro heq
    rw [heq] at hw
    exact hp hw
  rw [update_of_ne hp]
  simp [hne]

theorem Ordered.take (h : Ordered k c) {w : ℕ} (hm : c.chans w = m :: ms)
    (hgiven : c'.given = c.given ++ [m]) (hchans : c'.chans = update c.chans w ms)
    (hreading : c'.reading = c.reading) (hpos : c'.position = c.position) : Ordered k c' := by
  refine h.of_sublist ?_ ?_ hpos
  · rw [hchans]
    exact routed_update h fun x hx => h.routed w x (by simp [hm, hx])
  · intro p
    rw [flow_take h hm hgiven hchans hreading]

theorem Ordered.dispatch (h : Ordered k c) (hm : c.reading = some m) :
    Ordered k { c with
      reading := none
      chans := update c.chans (m.partition % k.workerCount)
        (c.chans (m.partition % k.workerCount) ++ [m]) } := by
  refine h.of_sublist ?_ ?_ rfl
  · apply routed_update h
    intro x hx
    rcases mem_append.mp hx with hold | hnew
    · exact h.routed _ x hold
    · rw [mem_singleton.mp hnew]
  · intro p
    simp only [flow, hm]
    by_cases hp : p % k.workerCount = m.partition % k.workerCount
    · rw [hp, update_self]
      simp
    · have hne : m.partition ≠ p := by
        intro heq
        exact hp (by rw [heq])
      rw [update_of_ne hp]
      simp [hne]

theorem Ordered.read (h : Ordered k c) (hreading : c.reading = none) {record : KafkaRecord ν}
    (hgiven : c'.given = c.given) (hchans : c'.chans = c.chans)
    (hread : c'.reading = some (c.fetched p record))
    (hpos : c'.position = update c.position p (c.position p + 1)) : Ordered k c' := by
  have hsame : ∀ q, q ≠ p → c'.flow k q = c.flow k q := by
    intro q hq
    simp [flow, hgiven, hchans, hread, hreading, fetched, Ne.symm hq]
  have hnew : c'.flow k p = c.flow k p ++ [c.fetched p record] := by
    simp [flow, hgiven, hchans, hread, hreading, fetched]
  refine ⟨by rw [hchans]; exact h.routed, ?_, ?_⟩
  · intro q
    by_cases hq : q = p
    · subst q
      rw [hnew, pairwise_append]
      refine ⟨h.ascending p, pairwise_singleton _ _, ?_⟩
      intro x hx y hy
      rw [mem_singleton.mp hy]
      exact h.behind p x hx
    · rw [hsame q hq]
      exact h.ascending q
  · intro q x hx
    rw [hpos]
    by_cases hq : q = p
    · subst q
      rw [hnew] at hx
      rw [update_self]
      rcases mem_append.mp hx with hold | hlast
      · have hlt := h.behind p x hold
        omega
      · rw [mem_singleton.mp hlast]
        exact Nat.lt_succ_self _
    · rw [hsame q hq] at hx
      rw [update_of_ne hq]
      exact h.behind q x hx

theorem Ordered.commit (h : Ordered k c) (w : ℕ) (fault : CallFault) :
    Ordered k (c.commit k w fault) := by
  obtain ⟨_, _, heq⟩ := commit_eq k w fault c
  rw [heq]
  exact h.congr rfl rfl rfl rfl

theorem Ordered.handle (h : Ordered k c) {w : ℕ} (hm : c.chans w = m :: ms) (env : HandlerEnv)
    (fault : CallFault) : Ordered k (c.handle k w env fault m ms) := by
  obtain ⟨_, _, _, _, heq⟩ := handle_eq k w env fault m ms c
  rw [heq]
  exact h.take hm rfl rfl rfl rfl

theorem ordered_step (h : Ordered k c) (hs : Step k log c e c') : Ordered k c' := by
  cases hs with
  | idle => exact h
  | readError p commit record hp hr hg hc =>
    obtain ⟨_, heq⟩ := commitMessages_eq k [c.fetched p record] commit (c.advance p)
    rw [heq]
    refine ⟨h.routed, h.ascending, ?_⟩
    intro q x hx
    have hlt : x.offset < c.position q := h.behind q x hx
    by_cases hq : q = p
    · subst q
      simp only [advance, update_self]
      omega
    · simpa [advance, hq] using hlt
  | read p commit record hp hr hc =>
    obtain ⟨_, heq⟩ := commitMessages_eq k [c.fetched p record] commit (c.advance p)
    rw [heq]
    exact h.read hp.2.1 rfl rfl rfl rfl
  | dispatch m hm => exact h.dispatch hm
  | handle w env commit m ms hm => exact h.handle hm env commit
  | panic w m ms hm => exact h.take hm rfl rfl rfl rfl
  | tick w commit => exact h.commit w commit
  | stop => exact h.congr rfl rfl rfl rfl
  | leaveReader =>
    refine h.of_sublist h.routed ?_ rfl
    intro p
    apply List.Sublist.filter
    simp
  | leave w commit => exact (h.commit w commit).congr rfl rfl rfl rfl

theorem ordered_run (k : KafkaConsumer) (log : ℕ → List (KafkaRecord ν)) (start : ℕ → ℕ)
    (es : List ConsumerEvent) : Ordered k ((init ν start).run k log es) := by
  have hstep : ∀ (c : ConsumerState ν) e, Ordered k c → Ordered k (c.step k log e) :=
    fun c e h => ordered_step h (step_cases k log c e)
  exact GuardedRun.invariant_run_all hstep es (ordered_init k start)

theorem given_sublist_flow (k : KafkaConsumer) (c : ConsumerState ν) (p : ℕ) :
    (c.given.filter (·.partition = p)).Sublist (c.flow k p) := by
  rw [flow, append_assoc, filter_append]
  exact sublist_append_left _ _

theorem given_ascending (k : KafkaConsumer) (log : ℕ → List (KafkaRecord ν)) (start : ℕ → ℕ)
    (es : List ConsumerEvent) :
    ((init ν start).run k log es).given.Pairwise fun x y =>
      x.partition = y.partition → x.offset < y.offset := by
  have h := ordered_run k log start es
  apply pairwise_iff_forall_sublist.mpr
  intro x y hxy hpart
  have hasc := (h.ascending y.partition).sublist (given_sublist_flow k _ y.partition)
  have hpair := pairwise_iff_forall_sublist.mp (pairwise_filter.mp hasc) hxy
  exact hpair (by simpa using hpart) (by simp)

/-! ## A consumer that takes message after message -/

/-- Nothing is on its way, and nobody has stopped. -/
structure Ready (c : ConsumerState ν) : Prop where
  reading : c.reading = none
  readerLeft : c.readerLeft = false
  assigned : ∀ p, c.assigned p = true
  chans : ∀ w, c.chans w = []
  left : ∀ w, c.left w = false

theorem ready_init (start : ℕ → ℕ) : Ready (init ν start) :=
  ⟨rfl, rfl, fun _ => rfl, fun _ => rfl, fun _ => rfl⟩

/-- One message of the partition is read, dispatched and handled. -/
def consumeOne (k : KafkaConsumer) (p : ℕ) : List ConsumerEvent :=
  [.read p .none, .dispatch, .handle (p % k.workerCount) { result := fun _ => .ok () } .none]

def consume (k : KafkaConsumer) (p : ℕ) : ℕ → List ConsumerEvent
  | 0 => []
  | n + 1 => consumeOne k p ++ consume k p n

theorem run_consumeOne (hg : k.groupID ≠ "") (h : Ready c) {record : KafkaRecord ν}
    (hr : (log p)[c.position p]? = some record) :
    Ready (c.run k log (consumeOne k p)) ∧
      (c.run k log (consumeOne k p)).given = c.given ++ [c.fetched p record] ∧
      (c.run k log (consumeOne k p)).position =
        update c.position p (c.position p + 1) := by
  have hp : c.CanRead k p := ⟨h.readerLeft, h.reading, h.assigned p, fun h => absurd h hg⟩
  have hcap : ([] : List (Consumed ν)).length < chanCap := Nat.zero_lt_succ _
  obtain ⟨committed, hcommit⟩ := commitMessages_eq k [c.fetched p record] .none (c.advance p)
  have hread : c.step k log (.read p .none) =
      { c.advance p with committed := committed, reading := some (c.fetched p record) } := by
    simp only [step, if_pos hp, read, hr, CallFault.reported, Bool.false_eq_true,
      and_false, if_false]
    exact congrArg (fun c' => { c' with reading := some (c.fetched p record) }) hcommit
  have hdispatch : (c.step k log (.read p .none)).step k log .dispatch =
      { c.advance p with
        committed := committed
        chans := update c.chans (p % k.workerCount) [c.fetched p record] } := by
    rw [hread]
    simp only [step, fetched, advance, h.chans, if_pos hcap, nil_append, h.reading]
  obtain ⟨_, _, _, _, hhandle⟩ := handle_eq k (p % k.workerCount) { result := fun _ => .ok () }
    .none (c.fetched p record) [] ((c.step k log (.read p .none)).step k log .dispatch)
  have hrun : c.run k log (consumeOne k p) =
      ((c.step k log (.read p .none)).step k log .dispatch).handle k (p % k.workerCount)
        { result := fun _ => .ok () } .none (c.fetched p record) [] := by
    simp only [run, consumeOne, GuardedRun.run_cons, GuardedRun.run_nil]
    rw [hdispatch]
    simp only [step, advance, h.left, update_self]
  rw [hrun, hhandle, hdispatch]
  refine ⟨⟨h.reading, h.readerLeft, h.assigned, ?_, h.left⟩, rfl, rfl⟩
  intro w
  by_cases hw : w = p % k.workerCount
  · simp [hw]
  · simp [hw, h.chans]

theorem run_append (c : ConsumerState ν) (es fs : List ConsumerEvent) :
    c.run k log (es ++ fs) = (c.run k log es).run k log fs :=
  GuardedRun.run_append ..

theorem run_consume (hg : k.groupID ≠ "") (log : ℕ → List (KafkaRecord ν)) (p n : ℕ)
    (c : ConsumerState ν) (h : Ready c) (hn : c.position p + n ≤ (log p).length) :
    Ready (c.run k log (consume k p n)) ∧
      (∀ q, q ≠ p → (c.run k log (consume k p n)).position q = c.position q) ∧
      ∃ ms, (c.run k log (consume k p n)).given = c.given ++ ms ∧
        ∀ i < n, ∃ m ∈ ms, m.partition = p ∧ m.offset = c.position p + i := by
  induction n generalizing c with
  | zero => exact ⟨h, fun _ _ => rfl, [], by simp [consume, run], by simp⟩
  | succ n ih =>
    have hlt : c.position p < (log p).length := by omega
    obtain ⟨hready, hgiven, hpos⟩ := run_consumeOne hg h (getElem?_eq_getElem hlt)
    have hp : (c.run k log (consumeOne k p)).position p = c.position p + 1 := by
      rw [hpos, update_self]
    obtain ⟨hready', hother, ms, hms, hall⟩ := ih _ hready (by omega)
    rw [consume, run_append]
    refine ⟨hready', ?_, c.fetched p (log p)[c.position p] :: ms, ?_, ?_⟩
    · intro q hq
      rw [hother q hq, hpos, update_of_ne hq]
    · rw [hms, hgiven, append_assoc, singleton_append]
    · intro i hi
      cases i with
      | zero => exact ⟨_, mem_cons_self, rfl, rfl⟩
      | succ i =>
        obtain ⟨m, hm, hpart, hoff⟩ := hall i (by omega)
        refine ⟨m, mem_cons_of_mem _ hm, hpart, ?_⟩
        omega

theorem given_before (hg : k.groupID ≠ "") (log : ℕ → List (KafkaRecord ν)) {q i j : ℕ}
    (hpq : p ≠ q) (hi : i < (log p).length) (hj : j < (log q).length) :
    ∃ es ms ms', ((init ν fun _ => 0).run k log es).given = ms ++ ms' ∧
      (∃ x ∈ ms, x.partition = p ∧ x.offset = i) ∧ ∃ y ∈ ms', y.partition = q ∧ y.offset = j := by
  have hinit := ready_init (ν := ν) fun _ => 0
  obtain ⟨hready, hother, ms, hms, hall⟩ := run_consume hg log p (i + 1) _ hinit
    (by simp only [init]; omega)
  have hq : ((init ν fun _ => 0).run k log (consume k p (i + 1))).position q = 0 :=
    hother q (Ne.symm hpq)
  obtain ⟨_, _, ms', hms', hall'⟩ := run_consume hg log q (j + 1) _ hready (by omega)
  refine ⟨consume k p (i + 1) ++ consume k q (j + 1), ms, ms', ?_, ?_, ?_⟩
  · rw [run_append, hms', hms]
    rfl
  · obtain ⟨x, hx, hpart, hoff⟩ := hall i (by omega)
    exact ⟨x, hx, hpart, by simpa [init] using hoff⟩
  · obtain ⟨y, hy, hpart, hoff⟩ := hall' j (by omega)
    exact ⟨y, hy, hpart, by omega⟩

theorem position_step (hg : k.groupID = "") (hs : Step k log c e c') (hp : p ≠ 0) :
    c'.position p = c.position p := by
  cases hs with
  | readError q commit record hq hr hne hc => exact absurd hg hne
  | read q commit record hq hr hc =>
    obtain ⟨_, heq⟩ := commitMessages_eq k [c.fetched q record] commit (c.advance q)
    have hne : p ≠ q := by
      rw [hq.2.2.2 hg]
      exact hp
    rw [heq]
    simp [advance, hne]
  | handle w env commit m ms hm =>
    obtain ⟨_, _, _, _, heq⟩ := handle_eq k w env commit m ms c
    rw [heq]
  | tick w commit | leave w commit =>
    obtain ⟨_, _, heq⟩ := commit_eq k w commit c
    rw [heq]
  | idle | dispatch | panic | stop | leaveReader => rfl

theorem given_partition_zero (hg : k.groupID = "") (log : ℕ → List (KafkaRecord ν))
    (es : List ConsumerEvent) :
    ∀ m ∈ ((init ν fun _ => 0).run k log es).given, m.partition = 0 := by
  intro m hm
  by_contra hne
  have hstep : ∀ (c : ConsumerState ν) e, c.position m.partition = 0 →
      (c.step k log e).position m.partition = 0 :=
    fun c e h => (position_step hg (step_cases k log c e) hne).trans h
  have hpos := GuardedRun.invariant_run_all hstep es (rfl : (init ν fun _ => 0).position _ = 0)
  have hflow : m ∈ ((init ν fun _ => 0).run k log es).flow k m.partition := by
    apply (given_sublist_flow k _ m.partition).subset
    exact mem_filter.mpr ⟨hm, by simp⟩
  have hlt := (ordered_run k log (fun _ => 0) es).behind m.partition m hflow
  rw [run, hpos] at hlt
  omega

end NonokaIM.ConsumerState

namespace NonokaIM

variable {ν : Type}

variable {w : Write ν} {calls : List (ProduceEnv ν × UpstreamMessage)}

theorem le_call_of_mem_produceAll {call counter : ℕ}
    (hw : w ∈ produceAll call counter calls) : call ≤ w.call := by
  induction calls generalizing call counter with
  | nil => cases hw
  | cons c calls ih =>
    rcases mem_append.mp hw with hw | hw
    · exact Nat.le_of_eq (mem_produce hw).1.symm
    · have hle := ih hw
      omega

theorem produceAll_ascending (call counter : ℕ) (calls : List (ProduceEnv ν × UpstreamMessage)) :
    (produceAll call counter calls).Pairwise (·.call ≤ ·.call) := by
  induction calls generalizing call counter with
  | nil => exact List.Pairwise.nil
  | cons c calls ih =>
    refine pairwise_append.mpr ⟨?_, ih _ _, ?_⟩
    · apply pairwise_of_forall_mem_list
      intro a ha b hb
      exact Nat.le_of_eq ((mem_produce ha).1.trans (mem_produce hb).1.symm)
    · intro a ha b hb
      have hle := le_call_of_mem_produceAll hb
      rw [(mem_produce ha).1]
      omega

theorem mem_partitionLog {partitions p : ℕ} {ws : List (Write ν)} :
    w ∈ partitionLog partitions ws p ↔ w ∈ ws ∧ w.partition partitions = p := by
  simp [partitionLog]

theorem exists_offset (partitions : ℕ) {ws : List (Write ν)} (hw : w ∈ ws) :
    ∃ i : ℕ, (partitionLog partitions ws (w.partition partitions))[i]? = some w :=
  mem_iff_getElem?.mp (mem_partitionLog.mpr ⟨hw, rfl⟩)

/-! ## From the producer to the handler -/

def partitionRecords (partitions : ℕ) (ws : List (Write ν)) (p : ℕ) : List (KafkaRecord ν) :=
  (partitionLog partitions ws p).map Write.record

def GivenInOrder (partitions : ℕ) (ws : List (Write ν)) (c : ConsumerState ν) : Prop :=
  c.given.Pairwise fun x y => ∀ a b, (partitionLog partitions ws x.partition)[x.offset]? = some a →
    (partitionLog partitions ws y.partition)[y.offset]? = some b →
    a.record.key = b.record.key → a.call ≤ b.call

/-- The messages of a topic all go to one partition, which under the round-robin choice is a matter
of the counter values alone. -/
def OnePartitionPerTopic (partitions : ℕ) (ws : List (Write ν)) : Prop :=
  ∀ a ∈ ws, ∀ b ∈ ws, a.record.key = b.record.key → a.call < b.call →
    a.counter % 2 ^ 32 % partitions = b.counter % 2 ^ 32 % partitions

theorem call_le_of_same_partition {partitions p i j call counter : ℕ} {a b : Write ν}
    (ha : (partitionLog partitions (produceAll call counter calls) p)[i]? = some a)
    (hb : (partitionLog partitions (produceAll call counter calls) p)[j]? = some b) (hij : i < j) :
    a.call ≤ b.call := by
  obtain ⟨hi, rfl⟩ := List.getElem?_eq_some_iff.mp ha
  obtain ⟨hj, rfl⟩ := List.getElem?_eq_some_iff.mp hb
  have hasc := (produceAll_ascending call counter calls).filter fun w => w.partition partitions = p
  exact pairwise_iff_getElem.mp hasc i j hi hj hij

open ConsumerState in
/-- Whatever the consumer does, the messages of each topic are given to the handler in the order
they were produced exactly if the consumer reads one partition only, or the producer writes all
messages of a topic to one partition. -/
theorem topic_order_iff (numCPU : ℕ) (cfg : KafkaConsumerConfig) (partitions counter : ℕ)
    (calls : List (ProduceEnv ν × UpstreamMessage)) :
    (∀ es, GivenInOrder partitions (produceAll 0 counter calls)
      ((init ν fun _ => 0).run (newKafkaConsumer numCPU cfg)
        (partitionRecords partitions (produceAll 0 counter calls)) es)) ↔
    (cfg.groupID = "" ∨ OnePartitionPerTopic partitions (produceAll 0 counter calls)) := by
  constructor
  · intro h
    by_cases hg : cfg.groupID = ""
    · exact .inl hg
    refine .inr ?_
    intro a ha b hb hkey hcall
    by_contra hne
    obtain ⟨i, hi⟩ := exists_offset partitions ha
    obtain ⟨j, hj⟩ := exists_offset partitions hb
    have hpq : b.partition partitions ≠ a.partition partitions := Ne.symm hne
    obtain ⟨es, ms, ms', hgiven, ⟨x, hx, hxp, hxo⟩, y, hy, hyp, hyo⟩ :=
      given_before (k := newKafkaConsumer numCPU cfg) hg
        (partitionRecords partitions (produceAll 0 counter calls)) hpq
        (by simpa [partitionRecords] using (List.getElem?_eq_some_iff.mp hj).1)
        (by simpa [partitionRecords] using (List.getElem?_eq_some_iff.mp hi).1)
    have horder := h es
    rw [GivenInOrder, hgiven, pairwise_append] at horder
    have hle := horder.2.2 x hx y hy b a (by rw [hxp, hxo]; exact hj) (by rw [hyp, hyo]; exact hi)
      hkey.symm
    omega
  · intro h es
    have hasc := given_ascending (newKafkaConsumer numCPU cfg)
      (partitionRecords partitions (produceAll 0 counter calls)) (fun _ => 0) es
    apply pairwise_iff_forall_sublist.mpr
    intro x y hxy a b ha hb hkey
    by_cases hpart : x.partition = y.partition
    · have hlt := pairwise_iff_forall_sublist.mp hasc hxy hpart
      rw [hpart] at ha
      exact call_le_of_same_partition ha hb hlt
    · rcases h with hg | hone
      · have hzero := given_partition_zero (k := newKafkaConsumer numCPU cfg) hg
          (partitionRecords partitions (produceAll 0 counter calls)) es
        have hx := hzero x (hxy.subset mem_cons_self)
        have hy := hzero y (hxy.subset (mem_cons_of_mem _ mem_cons_self))
        exact absurd (hx.trans hy.symm) hpart
      · by_contra hlt
        obtain ⟨hamem, hap⟩ := mem_partitionLog.mp (mem_of_getElem? ha)
        obtain ⟨hbmem, hbp⟩ := mem_partitionLog.mp (mem_of_getElem? hb)
        have hsame := hone b hbmem a hamem hkey.symm (by omega)
        exact hpart (hap.symm.trans (hsame.symm.trans hbp))

def chatMessage (clientMsgID : String) : UpstreamMessage :=
  { senderID := 1, topic := "p2p_1_2", clientMsgID := clientMsgID }

def twoMessages : List (Write String) :=
  produceAll 0 0 (["m1", "m2"].map fun id =>
    ({ marshal := fun msg => .ok msg.clientMsgID, write := fun _ => .written }, chatMessage id))

open ConsumerState in
/-- With two partitions, the second message can be handled before the first. -/
theorem second_message_handled_first :
    ¬ GivenInOrder 2 twoMessages ((init String fun _ => 0).run
      (newKafkaConsumer 4 { groupID := "msgworker-group" }) (partitionRecords 2 twoMessages)
      [.read 1 .none, .dispatch, .handle 1 { result := fun _ => .ok () } .none,
        .read 0 .none, .dispatch, .handle 0 { result := fun _ => .ok () } .none]) := by
  intro h
  have hgiven : ((init String fun _ => 0).run
      (newKafkaConsumer 4 { groupID := "msgworker-group" }) (partitionRecords 2 twoMessages)
      [.read 1 .none, .dispatch, .handle 1 { result := fun _ => .ok () } .none,
        .read 0 .none, .dispatch, .handle 0 { result := fun _ => .ok () } .none]).given =
      [⟨1, 0, newRecord (chatMessage "m2") "m2"⟩, ⟨0, 0, newRecord (chatMessage "m1") "m1"⟩] := by
    decide
  rw [GivenInOrder, hgiven] at h
  have hle := (pairwise_cons.mp h).1 _ (mem_singleton.mpr rfl)
    ⟨1, 1, newRecord (chatMessage "m2") "m2"⟩ ⟨0, 0, newRecord (chatMessage "m1") "m1"⟩
    (by decide) (by decide) rfl
  exact absurd hle (by decide)

end NonokaIM
