import Mathlib.Algebra.Order.Group.Nat
import NonokaIM.Library.GuardedRun
import NonokaIM.Model.RateLimit

/-! # Windows that do not end

Only the call that creates a counter sets its expiry, in a second command. -/

namespace NonokaIM

open ExpiringCounters GuardedRun List Counters RateEvent WindowFault RateKey Option

/-! ## One window -/

variable {fault : WindowFault} {key : RateKey} {s s' : RateCounters}

/-- The counter is incremented and, if it is new, left without an expiry. -/
def WindowFault.LeavesOpen (fault : WindowFault) : Prop :=
  fault.executions ≠ 0 ∧
    ¬ (fault.incr = .none ∧ fault.resends = 0 ∧ fault.expire.applied = true)

/-- The window lets the request through without an error. -/
def WindowFault.Passes (fault : WindowFault) (key : RateKey) (s : RateCounters) : Prop :=
  fault.incr = .none ∧ s.value key.text + fault.resends < key.limit ∧
    (s.value key.text + fault.resends = 0 → fault.expire = .none)
  deriving Decidable

theorem RateKey.limit_pos (key : RateKey) : 0 < key.limit := by
  cases key <;> exact Nat.succ_pos _

theorem counters_allowN (fault : WindowFault) (key : RateKey) (s : RateCounters) :
    (key.allowN fault s).2 =
      if fault.incr = .none ∧ s.value key.text + fault.resends = 0 ∧
          fault.expire.applied = true then
        (s.incr key.text).expire key.text rateLimitWindow
      else s.incrs key.text fault.executions := by
  obtain ⟨incr, expire, text, resends⟩ := fault
  cases incr with
  | none =>
    by_cases hzero : s.value key.text + resends = 0
    · obtain ⟨hvalue, rfl⟩ := Nat.add_eq_zero_iff.mp hzero
      have hone : (s.incr key.text).value key.text = s.value key.text + 1 :=
        value_incrs s key.text 1
      cases expire <;> simp [RateKey.allowN, allowN, executions, incrs, hone, hvalue,
          CommandFault.applied]
    · have hnext : s.value key.text + (resends + 1) ≠ 1 := by omega
      rw [if_neg fun hset => hzero hset.2.1]
      simp [RateKey.allowN, allowN, executions, value_incrs, hnext, CommandFault.applied]
  | failed | lost | crashed applied => simp [RateKey.allowN, allowN]

theorem allowN_passes_iff : (key.allowN fault s).1 = some ⟨true, none⟩ ↔ fault.Passes key s := by
  have hpos := key.limit_pos
  obtain ⟨incr, expire, text, resends⟩ := fault
  unfold Passes
  cases incr with
  | none =>
    have hvalue : (s.incrs key.text (resends + 1)).value key.text =
        s.value key.text + resends + 1 := value_incrs s key.text (resends + 1)
    by_cases hzero : s.value key.text + resends = 0
    · cases expire <;>
        simp [RateKey.allowN, allowN, executions, hvalue, hzero, CommandFault.applied, hpos]; omega
    · have hnext : s.value key.text + resends + 1 ≠ 1 := by omega
      simp only [RateKey.allowN, allowN, executions, hvalue, hzero, hnext,
        CommandFault.applied, if_true, if_false, some.injEq, Allowance.mk.injEq,
        decide_eq_true_eq, and_true, true_and, false_implies]
      exact Nat.add_one_le_iff
  | failed | lost | crashed applied => simp [RateKey.allowN, allowN]

theorem value_lt_of_allowed {a : Allowance} (hincr : fault.incr = .none)
    (h : (key.allowN fault s).1 = some a) (ha : a.allowed = true) :
    s.value key.text < key.limit := by
  have hpos := key.limit_pos
  obtain ⟨incr, expire, text, resends⟩ := fault
  obtain rfl : incr = .none := hincr
  by_cases hzero : s.value key.text + resends = 0
  · omega
  simp only [RateKey.allowN, allowN, executions, value_incrs, CommandFault.applied, if_true] at h
  rw [if_neg (by omega)] at h
  obtain rfl := some.inj h
  have hle := of_decide_eq_true ha
  omega

theorem at_allowN_of_ne {k : String} (hk : k ≠ key.text) :
    (key.allowN fault s).2.at? k = s.at? k := by
  rw [counters_allowN]
  split
  · rw [at_expire_of_ne hk, at_incr_of_ne hk]
  · exact at_incrs_of_ne hk _

theorem value_allowN (fault : WindowFault) (key : RateKey) (s : RateCounters) :
    (key.allowN fault s).2.value key.text = s.value key.text + fault.executions := by
  rw [counters_allowN]
  split
  · rename_i hset
    have hresends : fault.resends = 0 := by omega
    rw [value_of_some at_expire_incr_self, executions, hset.1, hresends]
    rfl
  · exact value_incrs s key.text _

theorem allExpire_allowN_iff (h : s.AllExpire) :
    (key.allowN fault s).2.AllExpire ↔ ¬ (s.at? key.text = none ∧ fault.LeavesOpen) := by
  rw [counters_allowN, LeavesOpen]
  split
  · rename_i hset
    refine iff_of_true (h.expire_incr _) fun hopen => hopen.2.2 ⟨hset.1, ?_, hset.2.2⟩
    omega
  · rename_i hset
    rw [h.incrs_iff]
    constructor
    · rintro hends ⟨hnone, hexecuted, -⟩
      exact hends.elim hexecuted fun hsome => hsome hnone
    · intro hends
      by_contra hleft
      rw [not_or, not_not] at hleft
      refine hends ⟨hleft.2, hleft.1, fun hclosed => hset ⟨hclosed.1, ?_, hclosed.2.2⟩⟩
      rw [value_of_none hleft.2, hclosed.2.1]

theorem endless_of_not_allExpire (h : s.AllExpire) (hopen : ¬ (key.allowN fault s).2.AllExpire) :
    ∃ c, (key.allowN fault s).2.at? key.text = some c ∧ c.expiresAt = none := by
  by_contra hnone
  refine hopen fun k c hc hexpires => ?_
  by_cases hk : k = key.text
  · exact hnone ⟨c, hk ▸ hc, hexpires⟩
  · exact h k c (at_allowN_of_ne hk ▸ hc) hexpires

theorem executions_pos (h : fault.incr = .none) : 0 < fault.executions := by
  rw [executions, h]
  exact Nat.succ_pos _

/-! ## One call -/

def AuthRateLimiter.windows (l : AuthRateLimiter) (call : AllowCall) :
    List (RateKey × WindowFault) :=
  if l.redis = false then []
  else if call.operation = loginOperation then
    if call.username ≠ "" then
      [(.loginIP call.clientIP, call.first), (.loginUser call.username, call.second)]
    else [(.loginIP call.clientIP, call.first)]
  else if call.operation = registerOperation then [(.registerIP call.clientIP, call.first)]
  else []

def allowAll : List (RateKey × WindowFault) → RateCounters → Option Allowance × RateCounters
  | [], s => (some ⟨true, none⟩, s)
  | (key, fault) :: rest, s =>
    if fault.Passes key s then allowAll rest (key.allowN fault s).2 else key.allowN fault s

theorem allowAll_singleton (key : RateKey) (fault : WindowFault) (s : RateCounters) :
    allowAll [(key, fault)] s = key.allowN fault s := by
  unfold allowAll
  split
  · rename_i hpass
    exact Prod.ext (allowN_passes_iff.mpr hpass).symm rfl
  · rfl

variable {rest : List (RateKey × WindowFault)}

theorem allowAll_cons_of_passes (h : fault.Passes key s) :
    allowAll ((key, fault) :: rest) s = allowAll rest (key.allowN fault s).2 := by
  rw [allowAll, if_pos h]

theorem allowAll_cons_of_not_passes (h : ¬ fault.Passes key s) :
    allowAll ((key, fault) :: rest) s = key.allowN fault s := by
  rw [allowAll, if_neg h]

variable (l : AuthRateLimiter)

theorem allow_eq_allowAll (call : AllowCall) (s : RateCounters) :
    l.allow call s = allowAll (l.windows call) s := by
  unfold AuthRateLimiter.allow AuthRateLimiter.windows
  split
  · rfl
  split
  · split
    next s₁ hallow =>
      have hpass := allowN_passes_iff.mp (congrArg Prod.fst hallow)
      have hs₁ := congrArg Prod.snd hallow
      split
      · rw [allowAll_cons_of_passes hpass, hs₁, allowAll_singleton]
      · rw [allowAll_cons_of_passes hpass, hs₁, allowAll]
    next hstop =>
      have hfail : ¬ call.first.Passes (.loginIP call.clientIP) s := fun hpass =>
        hstop _ (Prod.ext (allowN_passes_iff.mpr hpass) rfl)
      split <;> rw [allowAll_cons_of_not_passes hfail]
  · split
    · exact (allowAll_singleton _ _ s).symm
    · rfl

/-- The call creates a counter and leaves it without an expiry. -/
def OpensEndless : List (RateKey × WindowFault) → RateCounters → Prop
  | [], _ => False
  | (key, fault) :: rest, s =>
    (s.at? key.text = none ∧ fault.LeavesOpen) ∨ (fault.Passes key s ∧ OpensEndless rest s)

theorem value_congr {k : String} (h : s.at? k = s'.at? k) : s.value k = s'.value k := by
  rw [value, h, value]

variable {windows : List (RateKey × WindowFault)}

theorem opensEndless_congr (h : ∀ w ∈ windows, s.at? w.1.text = s'.at? w.1.text) :
    OpensEndless windows s ↔ OpensEndless windows s' := by
  induction windows with
  | nil => exact Iff.rfl
  | cons w rest ih =>
    obtain ⟨hw, hrest⟩ := forall_mem_cons.mp h
    rw [OpensEndless, OpensEndless, hw, ih hrest, Passes, Passes, value_congr hw]

theorem at_allowAll_of_ne {k : String}
    (hk : ∀ w ∈ windows, k ≠ w.1.text) : (allowAll windows s).2.at? k = s.at? k := by
  induction windows generalizing s with
  | nil => rfl
  | cons w rest ih =>
    obtain ⟨hw, hrest⟩ := forall_mem_cons.mp hk
    unfold allowAll
    split
    · rw [ih hrest, at_allowN_of_ne hw]
    · exact at_allowN_of_ne hw

theorem allExpire_allowAll_iff
    (hdistinct : windows.Pairwise fun w w' => w'.1.text ≠ w.1.text) (h : s.AllExpire) :
    (allowAll windows s).2.AllExpire ↔ ¬ OpensEndless windows s := by
  induction windows generalizing s with
  | nil => exact iff_of_true h not_false
  | cons w rest ih =>
    obtain ⟨key, fault⟩ := w
    obtain ⟨hkey, hrest⟩ := pairwise_cons.mp hdistinct
    rw [OpensEndless]
    by_cases hpass : fault.Passes key s
    · rw [allowAll_cons_of_passes hpass]
      by_cases hends : (key.allowN fault s).2.AllExpire
      · rw [ih hrest hends, opensEndless_congr fun w' hw' => at_allowN_of_ne (hkey w' hw')]
        simp only [(allExpire_allowN_iff h).mp hends, hpass, false_or, true_and]
      · -- the later windows are those of other keys
        obtain ⟨c, hc, hexpires⟩ := endless_of_not_allExpire h hends
        have hkept : (allowAll rest (key.allowN fault s).2).2.at? key.text = some c :=
          (at_allowAll_of_ne fun w hw => (hkey w hw).symm).trans hc
        refine iff_of_false (fun hall => hall _ c hkept hexpires) ?_
        refine not_not_intro (.inl ?_)
        by_contra hopen
        exact hends ((allExpire_allowN_iff h).mpr hopen)
    · rw [allowAll_cons_of_not_passes hpass, allExpire_allowN_iff h]
      simp only [hpass, false_and, or_false]

theorem take_append {start : String} {n : ℕ} (text : String) (h : n ≤ start.toList.length) :
    (start ++ text).toList.take n = start.toList.take n := by
  rw [String.toList_append, take_append_of_le_length h]

theorem loginIP_text_ne (ip username : String) : (loginUser username).text ≠ (loginIP ip).text := by
  intro h
  have hip : (loginIP ip).text.toList.take 13 = "im:rl:login:i".toList :=
    (take_append ip (by decide)).trans (by decide)
  have huser : (loginUser username).text.toList.take 13 = "im:rl:login:u".toList :=
    (take_append username (by decide)).trans (by decide)
  rw [h, hip] at huser
  exact absurd huser (by decide)

theorem AuthRateLimiter.windows_distinct (call : AllowCall) :
    (l.windows call).Pairwise fun w w' => w'.1.text ≠ w.1.text := by
  unfold AuthRateLimiter.windows
  split
  · exact Pairwise.nil
  split
  · split
    · exact pairwise_pair.mpr (loginIP_text_ne _ _)
    · exact pairwise_singleton _ _
  · split
    · exact pairwise_singleton _ _
    · exact Pairwise.nil

/-! ## Admissions in a window -/

/-- The keys whose increment a call made without an error. -/
def answeredKeys : List (RateKey × WindowFault) → RateCounters → List RateKey
  | [], _ => []
  | (key, fault) :: rest, s =>
    (if fault.incr = .none then [key] else []) ++
      if fault.Passes key s then answeredKeys rest (key.allowN fault s).2 else []

theorem value_le_allowN (k : String) : s.value k ≤ (key.allowN fault s).2.value k := by
  by_cases hk : k = key.text
  · rw [hk, value_allowN]
    omega
  · exact (value_congr (at_allowN_of_ne hk)).ge

theorem value_le_allowAll (windows : List (RateKey × WindowFault)) (s : RateCounters)
    (k : String) : s.value k ≤ (allowAll windows s).2.value k := by
  induction windows generalizing s with
  | nil => exact le_rfl
  | cons w rest ih =>
    obtain ⟨key, fault⟩ := w
    by_cases hpass : fault.Passes key s
    · rw [allowAll_cons_of_passes hpass]
      exact (value_le_allowN k).trans (ih _)
    · rw [allowAll_cons_of_not_passes hpass]
      exact value_le_allowN k

theorem value_lt_of_answered {a : Allowance}
    (hkey : key ∈ answeredKeys windows s) (h : (allowAll windows s).1 = some a)
    (ha : a.allowed = true) :
    s.value key.text < key.limit ∧
      s.value key.text < (allowAll windows s).2.value key.text := by
  induction windows generalizing s with
  | nil => exact absurd hkey not_mem_nil
  | cons w rest ih =>
    obtain ⟨first, fault⟩ := w
    rw [answeredKeys, mem_append] at hkey
    by_cases hpass : fault.Passes first s
    · rw [allowAll_cons_of_passes hpass] at h ⊢
      rw [if_pos hpass.1, if_pos hpass, mem_singleton] at hkey
      rcases hkey with rfl | hrest
      · have hlimit := hpass.2.1
        have hvalue := value_allowN fault key s
        have hgrow := executions_pos hpass.1
        have hle := value_le_allowAll rest (key.allowN fault s).2 key.text
        omega
      · obtain ⟨hlimit, hgrow⟩ := ih hrest h
        have hle : s.value key.text ≤ (first.allowN fault s).2.value key.text :=
          value_le_allowN key.text
        exact ⟨hle.trans_lt hlimit, hle.trans_lt hgrow⟩
    · rw [allowAll_cons_of_not_passes hpass] at h ⊢
      rw [if_neg hpass, mem_ite_nil_right, mem_singleton] at hkey
      obtain ⟨hincr, rfl⟩ := hkey.resolve_right not_mem_nil
      refine ⟨value_lt_of_allowed hincr h ha, ?_⟩
      rw [value_allowN]
      exact Nat.lt_add_of_pos_right (executions_pos hincr)

def RateEvent.admits (l : AuthRateLimiter) (key : RateKey) (s : RateCounters) : RateEvent → Bool
  | .allow call =>
    decide (key ∈ answeredKeys (l.windows call) s) && (l.allow call s).1.any Allowance.allowed
  | .elapse _ => false

/-- The counters, with the admissions since the counter of a key was created. -/
def windowStep (l : AuthRateLimiter) (key : RateKey) (s : RateCounters × ℕ) (e : RateEvent) :
    RateCounters × ℕ :=
  (e.step l s.1, if (e.step l s.1).at? key.text = none then 0
    else if e.admits l key s.1 then s.2 + 1 else s.2)

def admittedInWindow (l : AuthRateLimiter) (key : RateKey) (es : List RateEvent) : ℕ :=
  (run (windowStep l key) ({}, 0) es).2

variable {l : AuthRateLimiter}

theorem value_lt_of_admits {e : RateEvent} (h : e.admits l key s = true) :
    s.value key.text < key.limit ∧ s.value key.text < (e.step l s).value key.text := by
  cases e with
  | allow call =>
    obtain ⟨hkey, hallow⟩ := Bool.and_eq_true_iff.mp h
    obtain ⟨a, ha, hallowed⟩ := (any_eq_true _ _).mp hallow
    rw [step, allow_eq_allowAll]
    rw [allow_eq_allowAll] at ha
    exact value_lt_of_answered (of_decide_eq_true hkey) ha hallowed
  | elapse time => cases h

theorem value_le_step {e : RateEvent} (h : (e.step l s).at? key.text ≠ none) :
    s.value key.text ≤ (e.step l s).value key.text := by
  cases e with
  | allow call =>
    rw [step, allow_eq_allowAll]
    exact value_le_allowAll _ s _
  | elapse time =>
    rcases at_elapse _ time with hsame | hgone
    · exact (value_congr hsame).ge
    · exact absurd hgone h

theorem admitted_windowStep (p : RateCounters × ℕ) (e : RateEvent)
    (h : p.2 ≤ p.1.value key.text ∧ p.2 ≤ key.limit) :
    (windowStep l key p e).2 ≤ (windowStep l key p e).1.value key.text ∧
      (windowStep l key p e).2 ≤ key.limit := by
  unfold windowStep
  dsimp only
  split
  · exact ⟨Nat.zero_le _, Nat.zero_le _⟩
  next hthere =>
  have hle := value_le_step hthere
  split
  · next hadmits =>
    obtain ⟨hlimit, hgrow⟩ := value_lt_of_admits hadmits
    omega
  · omega

theorem admittedInWindow_le (key : RateKey) (es : List RateEvent) :
    admittedInWindow l key es ≤ key.limit :=
  (invariant_run_all admitted_windowStep es ⟨Nat.zero_le _, Nat.zero_le _⟩).2

/-! ## Runs -/

def RateEvent.OpensEndless (l : AuthRateLimiter) (s : RateCounters) : RateEvent → Prop
  | .allow call => NonokaIM.OpensEndless (l.windows call) s
  | .elapse _ => False

theorem allExpire_step_iff (e : RateEvent) (h : s.AllExpire) :
    (e.step l s).AllExpire ↔ ¬ e.OpensEndless l s := by
  cases e with
  | allow call =>
    rw [step, allow_eq_allowAll]
    exact allExpire_allowAll_iff (l.windows_distinct call) h
  | elapse time => exact iff_of_true (h.elapse time) not_false

/-- In every state of a run every counter has an expiry and no window has admitted more than its
limit, exactly if no call of the run creates a counter whose expiry is not set. -/
theorem windows_end_iff (l : AuthRateLimiter) (es : List RateEvent) :
    (∀ fs, fs <+: es →
      (run (step l) {} fs).AllExpire ∧
        ∀ key, admittedInWindow l key fs ≤ limit key) ↔
      Along (step l) (fun s e => ¬ RateEvent.OpensEndless l s e) {} es := by
  have hempty : ({} : RateCounters).AllExpire := fun key c hc => nomatch hc
  have hstep (s : RateCounters) (e : RateEvent) (hs : s.AllExpire) :
      (e.step l s).AllExpire ↔ ¬ e.OpensEndless l s := allExpire_step_iff e hs
  calc (∀ fs, fs <+: es → (run (step l) {} fs).AllExpire ∧
          ∀ key, admittedInWindow l key fs ≤ limit key)
      ↔ ∀ fs, fs <+: es → (run (step l) {} fs).AllExpire := by
        simp only [admittedInWindow_le, implies_true, and_true]
    _ ↔ Along (step l) (fun s e => (e.step l s).AllExpire) {} es := by
        rw [good_always_iff_along]
        exact and_iff_right hempty
    _ ↔ Along (step l) (fun s e => ¬ RateEvent.OpensEndless l s e) {} es :=
        along_congr hstep (fun s e _ hnext => hnext) hempty

/-- A login whose `EXPIRE` fails leaves a counter that is there an hour later, and for good. -/
theorem endless_window :
    ¬ (run (step {}) {}
      [.allow ⟨loginOperation, "10.0.0.1", "alice", { expire := .failed, text := "timeout" }, {}⟩,
        .elapse 3600]).AllExpire := by
  intro h
  exact h "im:rl:login:ip:10.0.0.1" ⟨1, none⟩ (by decide) rfl

end NonokaIM
