import NonokaIM.Model.RetryQueue
import NonokaIM.Verification.Delivery.RetriedMessage

/-! How often a scheduled push is tried. It is ready with a count, is pushed, and is put back with
the next count, or it ends. Removing an entry is the only lock, and an item that is sent again after
its entry was removed begins a second life. -/

namespace NonokaIM

open SortedSet List Entries RetryPhase

/-- The places that hold a call, each with its count and whether that was pushed, and the pushed
counts, which begin with the first one that is seen. -/
inductive Life : List (ℕ × Bool) → List ℕ → Prop where
  | gone {k n : ℕ} (h : n ≤ maxRetryAttempts) : Life [] (range' k n)
  | ready {k n : ℕ} (h : n = 0 ∨ k + n < maxRetryAttempts) : Life [(k + n, false)] (range' k n)
  | sent {k n : ℕ} (h : n = 0 ∨ k + n < maxRetryAttempts) :
      Life [(k + n, true)] (range' k (n + 1))

namespace Life

variable {places places' : List (ℕ × Bool)} {counts : List ℕ} {k : ℕ}

theorem places_length (h : Life places counts) : places.length ≤ 1 := by
  cases h with
  | gone _ => exact Nat.zero_le _
  | ready _ | sent _ => exact Nat.le_refl _

theorem counts_range (h : Life places counts) :
    ∃ k, ∃ n ≤ maxRetryAttempts, counts = range' k n := by
  have hmax : 1 ≤ maxRetryAttempts := by decide
  cases h with
  | gone h => exact ⟨_, _, h, rfl⟩
  | ready h | sent h => exact ⟨_, _, by omega, rfl⟩

theorem sublist (h : Life places counts) (hsub : places'.Sublist places) : Life places' counts := by
  obtain ⟨k, n, hn, rfl⟩ := h.counts_range
  by_cases hlen : places'.length = places.length
  · rw [hsub.eq_of_length hlen]
    exact h
  · have hmax := h.places_length
    have hle := hsub.length_le
    rw [length_eq_zero_iff.mp (by omega : places'.length = 0)]
    exact gone hn

theorem push (h : Life [(k, false)] counts) : Life [(k, true)] (counts ++ [k]) := by
  cases h with
  | ready h =>
    rw [← range'_1_concat]
    exact sent h

theorem requeue (h : Life [(k, true)] counts) (hk : k + 1 < maxRetryAttempts) :
    Life [(k + 1, false)] counts := by
  cases h with
  | @sent k n _ => exact ready (k := k) (n := n + 1) (.inr hk)

end Life

/-! ## Resends -/

namespace RetryQueues

variable {ι : Type}

/-- The member of a `ZADD` that may be sent again is in the set, where its calls put it. -/
def StillThere (s : RetryQueues ι) (k : ℕ) : Prop :=
  ∀ z ∈ s.sent[k]?, 0 < z.resends →
    ∃ entry ∈ s.set.find z.entry.member, z.entry.labels ⊆ entry.labels

/-- A `ZADD` is executed again only before its member is removed. -/
def ResendsInTime (s : RetryQueues ι) : RetryEvent ι → Prop
  | .resendAdd k => s.StillThere k
  | _ => True

instance (s : RetryQueues ι) (k : ℕ) : Decidable (s.StillThere k) :=
  inferInstanceAs (Decidable (∀ z ∈ s.sent[k]?, _ → ∃ entry ∈ s.set.find z.entry.member, _))

instance (s : RetryQueues ι) : (e : RetryEvent ι) → Decidable (s.ResendsInTime e)
  | .resendAdd k => inferInstanceAs (Decidable (s.StillThere k))
  | .scheduleRetry .. | .processRetries .. | .handOver _ | .skip _ | .removeUnanswered _
  | .removeRetryItem .. | .push _ | .reply .. | .requeueIfNeeded .. | .crash _ => .isTrue trivial

end RetryQueues

/-! ## Where the calls are -/

def memberCount (member : List Char) : ℕ := ((memberItem member).map RetryItem.retryCount).getD 0

def RetryPhase.place (c : ℕ) : RetryPhase → Option (ℕ × Bool)
  | .waiting | .running => none
  | .removed entry => if c ∈ entry.labels then some (memberCount entry.member, false) else none
  | .pushed entry | .failed entry =>
    if c ∈ entry.labels then some (memberCount entry.member, true) else none

namespace RetryQueues

variable {ι : Type}

def places (s : RetryQueues ι) (c : ℕ) : List (ℕ × Bool) :=
  (s.set.holding c).map (fun m => (memberCount m, false)) ++
    s.tasks.filterMap fun t => t.phase.place c

def pushesOf (s : RetryQueues ι) (c : ℕ) : List (RetryPush ι) :=
  s.log.filter fun p => c ∈ p.entry.labels

def countsOf (s : RetryQueues ι) (c : ℕ) : List ℕ :=
  (s.pushesOf c).map fun p => memberCount p.entry.member

/-- What a step can do with a call. -/
inductive Moves (c : ℕ) (s s' : RetryQueues ι) : Prop where
  | keep (h : (s'.places c).Sublist (s.places c)) (hcounts : s'.countsOf c = s.countsOf c)
      (hcalls : s.calls ≤ s'.calls)
  | schedule {k : ℕ} (hc : c = s.calls) (h : s'.places c = [(k, false)])
      (hcounts : s'.countsOf c = s.countsOf c) (hcalls : s'.calls = s.calls + 1)
  | push {k : ℕ} (h : s.places c = [(k, false)]) (h' : s'.places c = [(k, true)])
      (hcounts : s'.countsOf c = s.countsOf c ++ [k]) (hcalls : s'.calls = s.calls)
  | requeue {k : ℕ} (h : s.places c = [(k, true)]) (hk : k + 1 < maxRetryAttempts)
      (h' : s'.places c = [(k + 1, false)]) (hcounts : s'.countsOf c = s.countsOf c)
      (hcalls : s'.calls = s.calls)

/-- Every call lives one life, and those to come have not begun. -/
structure Lives (s : RetryQueues ι) : Prop where
  life : ∀ c, Life (s.places c) (s.countsOf c)
  later : ∀ c, s.calls ≤ c → s.places c = [] ∧ s.countsOf c = []

theorem Lives.of_moves {s s' : RetryQueues ι} (hs : s.Lives) (h : ∀ c, Moves c s s') :
    s'.Lives := by
  constructor
  · intro c
    have hlife := hs.life c
    cases h c with
    | keep hsub hcounts _ =>
      rw [hcounts]
      exact hlife.sublist hsub
    | schedule hc hplaces hcounts _ =>
      rw [hplaces, hcounts, (hs.later c (Nat.le_of_eq hc.symm)).2]
      exact .ready (n := 0) (.inl rfl)
    | push hbefore hplaces hcounts _ =>
      rw [hbefore] at hlife
      rw [hplaces, hcounts]
      exact hlife.push
    | requeue hbefore hk hplaces hcounts _ =>
      rw [hbefore] at hlife
      rw [hplaces, hcounts]
      exact hlife.requeue hk
  · intro c hc
    cases h c with
    | keep hsub hcounts hcalls =>
      have hlater := hs.later c (hcalls.trans hc)
      rw [hlater.1] at hsub
      exact ⟨sublist_nil.mp hsub, hcounts.trans hlater.2⟩
    | schedule hnow _ _ hnext => omega
    | push hbefore _ _ hcalls | requeue hbefore _ _ _ hcalls =>
      rw [(hs.later c (hcalls ▸ hc)).1] at hbefore
      cases hbefore

/-! ## Steps -/

theorem memberCount_member (isNil : Bool) (item : RetryItem) :
    memberCount (item.member isNil) = item.retryCount := by
  rw [memberCount, memberItem_member]
  rfl

section

variable {α β : Type} {f : α → Option β} {l : List α} {k : ℕ} {a : α} (h : l[k]? = some a)
include h

theorem filterMap_getElem? :
    l.filterMap f = (l.take k).filterMap f ++ ((f a).toList ++ (l.drop (k + 1)).filterMap f) := by
  obtain ⟨hk, rfl⟩ := List.getElem?_eq_some_iff.mp h
  nth_rewrite 1 [← take_append_drop k l]
  rw [drop_eq_getElem_cons hk, filterMap_append, filterMap_cons]
  cases f l[k] <;> rfl

theorem filterMap_set (b : α) :
    (l.set k b).filterMap f =
      (l.take k).filterMap f ++ ((f b).toList ++ (l.drop (k + 1)).filterMap f) := by
  obtain ⟨hk, _⟩ := List.getElem?_eq_some_iff.mp h
  rw [set_eq_take_append_cons_drop, if_pos hk, filterMap_append, filterMap_cons]
  cases f b <;> rfl

omit h in
theorem filterMap_waiting {queue : ι} {g : RetryTask ι → Option β} {members : List (List Char)}
    (hg : ∀ m, g ⟨queue, m, .waiting⟩ = none) :
    (members.map fun m => (⟨queue, m, .waiting⟩ : RetryTask ι)).filterMap g = [] := by
  rw [filterMap_eq_nil_iff]
  intro t ht
  obtain ⟨m, _, rfl⟩ := mem_map.mp ht
  exact hg m

omit h in
theorem filterMap_eraseIdx :
    (l.eraseIdx k).filterMap f = (l.take k).filterMap f ++ (l.drop (k + 1)).filterMap f := by
  rw [eraseIdx_eq_take_drop_succ, filterMap_append]

end

section

variable {s : RetryQueues ι} {k c : ℕ} {t : RetryTask ι} (ht : s.tasks[k]? = some t)
include ht

theorem places_setPhase_same {phase : RetryPhase} (h : phase.place c = t.phase.place c) :
    (s.setPhase k t phase).places c = s.places c := by
  rw [places, places, filterMap_getElem? ht, ← h]
  exact congrArg _ (filterMap_set ht _)

omit ht in
theorem places_finish : ((s.finish k).places c).Sublist (s.places c) :=
  ((eraseIdx_sublist _ _).filterMap _).append_left _

variable (hs : (s.places c).length ≤ 1)
include hs

theorem places_of_place {p : ℕ × Bool} (hp : t.phase.place c = some p) :
    s.places c = [p] ∧ (s.finish k).places c = [] ∧
      ∀ phase, (s.setPhase k t phase).places c = (phase.place c).toList := by
  have hsplit : s.tasks.filterMap (fun t => t.phase.place c) = _ := filterMap_getElem? ht
  rw [hp] at hsplit
  rw [places, hsplit] at hs
  simp only [length_append, length_map, Option.toList_some, length_singleton] at hs
  have hset : s.set.holding c = [] := length_eq_zero_iff.mp (by omega)
  have hbefore : (s.tasks.take k).filterMap (fun t => t.phase.place c) = [] :=
    length_eq_zero_iff.mp (by omega)
  have hafter : (s.tasks.drop (k + 1)).filterMap (fun t => t.phase.place c) = [] :=
    length_eq_zero_iff.mp (by omega)
  refine ⟨?_, ?_, ?_⟩
  · rw [places, hset, hsplit, hbefore, hafter]
    rfl
  · rw [places, finish, hset, filterMap_eraseIdx, hbefore, hafter]
    rfl
  · intro phase
    rw [places, setPhase, hset, filterMap_set ht, hbefore, hafter]
    simp

end

theorem holding_of_mem {s : RetryQueues ι} {c : ℕ} (hs : (s.places c).length ≤ 1)
    {m : List Char} (hm : m ∈ s.set.holding c) :
    s.set.holding c = [m] ∧ s.tasks.filterMap (fun t => t.phase.place c) = [] := by
  have hpos := length_pos_of_mem hm
  simp only [places, length_append, length_map] at hs
  obtain ⟨m', hone⟩ := length_eq_one_iff.mp (by omega : (s.set.holding c).length = 1)
  rw [hone] at hm ⊢
  exact ⟨by rw [mem_singleton.mp hm], length_eq_zero_iff.mp (by omega)⟩

section

variable {s : RetryQueues ι} {c : ℕ} {entry : RetryEntry}

theorem places_zAdd_of_notMem (hc : c ∉ entry.labels) :
    (s.zAdd entry).places c = s.places c := by
  have hholding : (s.set.add entry).holding c = s.set.holding c := holding_add_of_notMem hc
  rw [places, places, zAdd, hholding]

theorem places_zAdd_of_mem (hc : c ∈ entry.labels) (hnone : s.places c = []) :
    (s.zAdd entry).places c = [(memberCount entry.member, false)] := by
  obtain ⟨hset, htasks⟩ := append_eq_nil_iff.mp hnone
  have hholding : (s.set.add entry).holding c = [entry.member] :=
    holding_add_of_empty hc (map_eq_nil_iff.mp hset)
  rw [places, zAdd, hholding, htasks]
  rfl

end

/-! ## What the steps do with a call -/

theorem Moves.refl (c : ℕ) (s : RetryQueues ι) : Moves c s s :=
  .keep (List.Sublist.refl _) rfl (Nat.le_refl _)

theorem holding_foldl_remove (members : List (List Char)) (set : Entries (List Char) ℕ) (c : ℕ) :
    ((members.foldl remove set).holding c).Sublist (set.holding c) := by
  induction members generalizing set with
  | nil => exact List.Sublist.refl _
  | cons m members ih => exact (ih _).trans (holding_remove_sublist m)

section

variable {s : RetryQueues ι} {k c : ℕ} {t : RetryTask ι} (ht : s.tasks[k]? = some t)
include ht

theorem moves_setPhase {phase : RetryPhase} (h : phase.place c = t.phase.place c) :
    Moves c s (s.setPhase k t phase) :=
  .keep (places_setPhase_same ht h ▸ List.Sublist.refl _) rfl (Nat.le_refl _)

omit ht in
theorem moves_finish : Moves c s (s.finish k) := .keep places_finish rfl (Nat.le_refl _)

variable {entry : RetryEntry} (hs : (s.places c).length ≤ 1)
include hs

theorem moves_remove_setPhase (hphase : t.phase = .running)
    (hfind : s.set.find t.member = some entry) :
    Moves c s (({ s with set := s.set.remove t.member } : RetryQueues ι).setPhase k t
      (.removed entry)) := by
  have hplaces : (({ s with set := s.set.remove t.member } : RetryQueues ι).setPhase k t
      (.removed entry)).places c = s.places c := by
    have hsplit : s.tasks.filterMap (fun t => t.phase.place c) = _ := filterMap_getElem? ht
    have hset : (s.tasks.set k { t with phase := .removed entry }).filterMap
      (fun t => t.phase.place c) = _ := filterMap_set ht _
    have hnone : t.phase.place c = none := by
      rw [hphase]
      rfl
    rw [hnone] at hsplit
    by_cases hc : c ∈ entry.labels
    · have hmem := mem_holding_of_find hfind hc
      have hheld : (removed entry).place c = some (memberCount t.member, false) := by
        rw [← (mem_of_find hfind).2]
        exact if_pos hc
      obtain ⟨hholding, htasks⟩ := holding_of_mem hs hmem
      rw [htasks] at hsplit
      obtain ⟨hbefore, hafter⟩ := append_eq_nil_iff.mp hsplit.symm
      rw [places, places, setPhase, holding_remove, hholding, htasks, hset, hbefore, hheld,
        (append_eq_nil_iff.mp hafter).2]
      simp
    · have hheld : (removed entry).place c = none := if_neg hc
      rw [places, places, setPhase, holding_remove_of_notMem hfind hc, hset, hsplit, hheld]
  exact .keep (hplaces ▸ List.Sublist.refl _) rfl (Nat.le_refl _)

theorem moves_removeRetryItem (hphase : t.phase = .running) (applied replied : Bool) :
    Moves c s (s.removeRetryItem k t applied replied) := by
  unfold RetryQueues.removeRetryItem
  cases hclaimed : s.claimed t applied replied with
  | none =>
    cases applied with
    | true =>
      refine .keep (List.Sublist.append ?_ ?_) rfl (Nat.le_refl _)
      · exact (holding_remove_sublist t.member).map _
      · exact (eraseIdx_sublist _ _).filterMap _
    | false => exact moves_finish
  | some entry =>
    obtain ⟨rfl, hfind⟩ := find_of_claimed hclaimed
    exact moves_remove_setPhase ht hs hphase hfind

theorem moves_push (hphase : t.phase = .removed entry) :
    Moves c s { s.setPhase k t (.pushed entry) with log := s.log ++ [⟨t.queue, entry⟩] } := by
  by_cases hc : c ∈ entry.labels
  · have hplace : t.phase.place c = some (memberCount entry.member, false) := by
      rw [hphase]
      exact if_pos hc
    obtain ⟨hbefore, _, hafter⟩ := places_of_place ht hs hplace
    refine .push hbefore ?_ ?_ rfl
    · refine (hafter (.pushed entry)).trans ?_
      rw [place, if_pos hc]
      rfl
    · simp [countsOf, pushesOf, hc]
  · have hplace : (pushed entry).place c = t.phase.place c := by
      rw [hphase, place, place, if_neg hc, if_neg hc]
    refine .keep ?_ ?_ (Nat.le_refl _)
    · exact places_setPhase_same ht hplace ▸ List.Sublist.refl _
    · simp [countsOf, pushesOf, hc]

theorem moves_requeueIfNeeded (hphase : t.phase = .failed entry) (now : Int)
    (isNil applied : Bool) : Moves c s (s.requeueIfNeeded k entry now isNil applied) := by
  unfold RetryQueues.requeueIfNeeded
  split
  · rename_i item hitem
    split
    · rename_i hcount
      cases applied with
      | false => exact moves_finish
      | true =>
        let back : RetryEntry :=
          ⟨(item.requeue now).member isNil, (item.requeue now).retryAt, entry.labels, entry.labelled⟩
        by_cases hc : c ∈ entry.labels
        · have hplace : t.phase.place c = some (item.retryCount, true) := by
            rw [hphase, place, if_pos hc, memberCount, hitem]
            rfl
          obtain ⟨hbefore, hfinish, _⟩ := places_of_place ht hs hplace
          have hafter : ((s.finish k).zAdd back).places c = _ := places_zAdd_of_mem hc hfinish
          rw [show memberCount back.member = _ from memberCount_member isNil _] at hafter
          exact .requeue hbefore hcount hafter rfl rfl
        · have hplaces : ((s.finish k).zAdd back).places c = _ := places_zAdd_of_notMem hc
          exact .keep (hplaces ▸ places_finish) rfl (Nat.le_refl _)
    · exact moves_finish
  · exact moves_finish

theorem moves_taskStep [DecidableEq ι] (e : RetryEvent ι) : Moves c s (s.taskStep k t e) := by
  unfold taskStep
  split
  · split
    · rename_i hnext
      exact moves_setPhase ht (congrArg (place c) (of_decide_eq_true hnext.1).1).symm
    · exact .refl c s
  · split
    · exact moves_finish
    · exact .refl c s
  · split
    · exact .keep (((holding_remove_sublist t.member).map _).append_right _) rfl (Nat.le_refl _)
    · exact .refl c s
  · split
    · rename_i hphase
      exact moves_removeRetryItem ht hs hphase _ _
    · exact .refl c s
  · split
    · rename_i hphase
      exact moves_push ht hs hphase
    · exact .refl c s
  · split
    · rename_i hphase
      split
      · exact moves_finish
      · exact moves_setPhase ht (congrArg (place c) hphase).symm
    · exact .refl c s
  · split
    · rename_i hphase
      exact moves_requeueIfNeeded ht hs hphase _ _ _
    · exact .refl c s
  · exact .refl c s

end

section

variable {s : RetryQueues ι}

/-- A call that begins, and a member that is there at the start. -/
theorem moves_zAdd {s' : RetryQueues ι} {entry : RetryEntry} (hs : s.Lives)
    (hlabels : entry.labels = {s.calls}) (hset : s'.set = s.set.add entry)
    (htasks : s'.tasks = s.tasks) (hlog : s'.log = s.log) (hcalls : s'.calls = s.calls + 1) (c : ℕ) :
    Moves c s s' := by
  have hmem : c ∈ entry.labels ↔ c = s.calls := by rw [hlabels, Finset.mem_singleton]
  have hplaces : s'.places c = (s.zAdd entry).places c := by
    rw [places, hset, htasks]
    rfl
  have hcounts : s'.countsOf c = s.countsOf c := by
    rw [countsOf, pushesOf, hlog]
    rfl
  by_cases hc : c = s.calls
  · have hnone := (hs.later c (Nat.le_of_eq hc.symm)).1
    rw [places_zAdd_of_mem (hmem.mpr hc) hnone] at hplaces
    exact .schedule hc hplaces hcounts hcalls
  · rw [places_zAdd_of_notMem (mt hmem.mp hc)] at hplaces
    exact .keep (hplaces ▸ List.Sublist.refl _) hcounts (by omega)

theorem moves_resendAdd {k : ℕ} (h : s.StillThere k) (c : ℕ) : Moves c s (s.resendAdd k) := by
  unfold RetryQueues.resendAdd
  split
  · rename_i z hz
    split
    · rename_i hleft
      obtain ⟨entry, hfind, hcalls⟩ := h z hz hleft
      have hholding : (s.set.add z.entry).holding c = s.set.holding c :=
        holding_add_of_find hfind hcalls
      refine .keep ?_ rfl (Nat.le_refl _)
      rw [places, places, ← hholding]
      exact List.Sublist.refl _
    · exact .refl c s
  · exact .refl c s

variable [DecidableEq ι]

theorem moves_processRetries (queue : ι) (now : Int) (fetched : Bool) (removes : List Char → Bool)
    (c : ℕ) : Moves c s (s.processRetries queue now fetched removes) := by
  unfold processRetries
  split
  · exact .refl c s
  · refine .keep (List.Sublist.append ?_ ?_) rfl (Nat.le_refl _)
    · exact (holding_foldl_remove _ s.set c).map _
    · rw [filterMap_append, filterMap_waiting fun _ => rfl, append_nil]

theorem moves_onTask (hs : s.Lives) (k : ℕ) (e : RetryEvent ι) (c : ℕ) :
    Moves c s (s.onTask k e) := by
  unfold onTask
  split
  · rename_i ht
    exact moves_taskStep ht (hs.life c).places_length e
  · exact .refl c s

theorem lives_step (hs : s.Lives) (e : RetryEvent ι) (h : s.ResendsInTime e) :
    (s.step e).Lives := by
  apply hs.of_moves
  cases e with
  | scheduleRetry now userID msg isNil applied =>
    cases applied with
    | true => exact moves_zAdd hs rfl rfl rfl rfl rfl
    | false => exact fun c => .keep (List.Sublist.refl _) rfl (Nat.le_succ _)
  | processRetries queue now fetched removes => exact moves_processRetries queue now fetched removes
  | resendAdd k => exact moves_resendAdd h
  | crash queue =>
    exact fun c => .keep ((filter_sublist.filterMap _).append_left _) rfl (Nat.le_refl _)
  | handOver k | skip k | removeUnanswered k | removeRetryItem k _ _ | push k | reply k _
  | requeueIfNeeded k _ _ _ =>
    exact moves_onTask hs k _

end

/-! ## All runs -/

/-- The members that are there at the start go back to earlier calls. -/
def start (ι : Type) : List (List Char × Int) → RetryQueues ι
  | [] => {}
  | (member, score) :: leftovers =>
    let s := start ι leftovers
    { s.zAdd ⟨member, score, {s.calls}, Finset.singleton_nonempty _⟩ with calls := s.calls + 1 }

theorem lives_start (leftovers : List (List Char × Int)) : (start ι leftovers).Lives := by
  induction leftovers with
  | nil => exact ⟨fun c => .gone (k := 0) (Nat.zero_le _), fun c _ => ⟨rfl, rfl⟩⟩
  | cons x leftovers ih => exact ih.of_moves (moves_zAdd ih rfl rfl rfl rfl rfl)

/-- The pushes that go back to one call are at most as many as the limit and have different
members, and at most one member in the set goes back to a call. -/
structure Safe (s : RetryQueues ι) : Prop where
  bounded : ∀ c, (s.pushesOf c).length ≤ maxRetryAttempts
  distinct : ∀ c, ((s.pushesOf c).map fun p => p.entry.member).Nodup
  single : ∀ c, (s.set.holding c).length ≤ 1

theorem Lives.safe {s : RetryQueues ι} (hs : s.Lives) : s.Safe := by
  refine ⟨?_, ?_, ?_⟩
  · intro c
    obtain ⟨k, n, hn, hrange⟩ := (hs.life c).counts_range
    have hlen := congrArg List.length hrange
    rw [countsOf, length_map, length_range'] at hlen
    omega
  · intro c
    obtain ⟨k, n, _, hrange⟩ := (hs.life c).counts_range
    have hcounts : ((s.pushesOf c).map fun p => p.entry.member).map memberCount =
        s.countsOf c := by
      rw [map_map]
      rfl
    apply List.Nodup.of_map memberCount
    rw [hcounts, hrange]
    exact nodup_range'
  · intro c
    have hlen := (hs.life c).places_length
    rw [places, length_append, length_map] at hlen
    omega

/-- Whatever the queues do, and wherever commands fail and workers crash, retries are safe as long
as no item is sent again after its member was removed. -/
theorem retries_safe [DecidableEq ι] (leftovers : List (List Char × Int))
    (es : List (RetryEvent ι)) (h : GuardedRun.Along step ResendsInTime (start ι leftovers) es) :
    ((start ι leftovers).run es).Safe := by
  have hlives : ((start ι leftovers).run es).Lives :=
    GuardedRun.invariant_run (fun (s : RetryQueues ι) e (hs : s.Lives) he => lives_step hs e he)
      (lives_start leftovers) h
  exact hlives.safe

def greetingPush : MessagePush :=
  buildMessagePush 7 3 { senderID := 1, topic := "p2p_1_2", content := [104] }

/-- A worker takes the first member that is due and pushes it. -/
def pushFirst (worker : Bool) (now : Int) (delivered : Bool) : List (RetryEvent Bool) :=
  [.processRetries worker now true fun _ => false, .handOver 0, .removeRetryItem 0 true true,
    .push 0, .reply 0 delivered]

/-- The item is sent again while it waits, is pushed without success and put back, and the second
item is sent again while it waits for the other worker. -/
def resentInTime : List (RetryEvent Bool) :=
  [.scheduleRetry 0 2 greetingPush false true, .resendAdd 0] ++
    pushFirst false 5 false ++ [.requeueIfNeeded 0 5 false true, .resendAdd 1] ++
    pushFirst true 15 true

theorem resent_item_safe :
    ((start Bool []).run resentInTime).log.map (fun p => (p.queue, memberCount p.entry.member)) =
        [(false, 0), (true, 1)] ∧
      ((start Bool []).run resentInTime).Safe :=
  ⟨by decide +kernel, retries_safe [] resentInTime (by decide +kernel)⟩

/-- The replies to the first `ZADD` and to its first resend are lost; the second resend is executed
after a worker has removed and pushed the member. -/
def resentLate : List (RetryEvent Bool) :=
  [.scheduleRetry 0 2 greetingPush false true, .resendAdd 0] ++
    pushFirst false 5 true ++ [.resendAdd 0] ++ pushFirst true 10 true

theorem resent_item_pushed_twice :
    ((start Bool []).run resentLate).log.map (fun p => (p.queue, memberCount p.entry.member)) =
        [(false, 0), (true, 0)] ∧
      ¬ ((start Bool []).run resentLate).Safe := by
  have hmembers : ¬ ((((start Bool []).run resentLate).pushesOf 0).map
      fun p => p.entry.member).Nodup := by decide +kernel
  exact ⟨by decide +kernel, fun h => hmembers (h.distinct 0)⟩

end RetryQueues

end NonokaIM
