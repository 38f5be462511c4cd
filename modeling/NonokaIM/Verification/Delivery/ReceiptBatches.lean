import NonokaIM.Model.ReceiptBatcher
import Mathlib.Data.List.Perm.Basic

/-! Every receipt that was added to the batcher is pushed in one batch. A step moves receipts from
the map to a flush, and from there to a call. -/

namespace NonokaIM

open KeyedBuffer GuardedRun List ReceiptBatcher Option

/-- `Stop` is called when all calls of `Add` have returned, and nothing is called after it. -/
def StopLast (s : ReceiptBatcher) : BatcherEvent → Prop
  | .start => s.stop = .idle
  | .add _ _ => s.stop = .idle
  | .stop => s.adding = []
  | _ => True

instance (s : ReceiptBatcher) : (e : BatcherEvent) → Decidable (StopLast s e)
  | .start => inferInstanceAs (Decidable (_ = _))
  | .add _ _ => inferInstanceAs (Decidable (_ = _))
  | .stop => inferInstanceAs (Decidable (_ = _))
  | .tick => .isTrue trivial
  | .leave => .isTrue trivial
  | .drain => .isTrue trivial
  | .take _ _ => .isTrue trivial
  | .push _ => .isTrue trivial

/-- The receipts that are passed to `Add`, without nil ones. -/
def addedReceipts (es : List BatcherEvent) : List (Int × SendReceipt) :=
  es.filterMap fun
    | .add userID (some receipt) => some (userID, receipt)
    | _ => none

/-! ## Flushes under way -/

def FlushPhase.items : FlushPhase → List ReceiptItem
  | .waiting => []
  | .taken items => items

def LoopPhase.items : LoopPhase → List ReceiptItem
  | .flushing flush => flush.items
  | _ => []

def StopPhase.items : StopPhase → List ReceiptItem
  | .flushing flush => flush.items
  | _ => []

namespace ReceiptBatcher

variable {s : ReceiptBatcher}

def underWay (s : ReceiptBatcher) : List (List ReceiptItem) :=
  s.loop.items :: s.stop.items :: s.adding.map FlushPhase.items

variable {flush : FlushPhase}

theorem adding_ne_nil {k : ℕ} (h : s.flushOf (.add k) = some flush) : s.adding ≠ [] := by
  intro hnil
  simp [flushOf, hnil] at h

theorem loop_eq_flushing (h : s.flushOf .loop = some flush) : s.loop = .flushing flush := by
  simp only [flushOf] at h
  split at h
  · rename_i flush' hloop
    rw [hloop, some.inj h]
  · cases h

theorem stop_eq_flushing (h : s.flushOf .stop = some flush) : s.stop = .flushing flush := by
  simp only [flushOf] at h
  split at h
  · rename_i flush' hstop
    rw [hstop, some.inj h]
  · cases h

theorem exists_others {flusher : Flusher} (h : s.flushOf flusher = some flush) :
    ∃ others, s.underWay.Perm (flush.items :: others) ∧
      (∀ flush', (s.setFlush flush' flusher).underWay.Perm (flush'.items :: others)) ∧
      ((s.endFlush flusher).underWay.Perm others ∨
        (s.endFlush flusher).underWay.Perm ([] :: others)) := by
  cases flusher with
  | add k =>
    obtain ⟨hk, hflush⟩ := List.getElem?_eq_some_iff.mp h
    have hmove : ∀ {flushes : List FlushPhase} {flush' : FlushPhase},
        flushes.Perm (flush' :: s.adding.eraseIdx k) →
        (s.loop.items :: s.stop.items :: flushes.map FlushPhase.items).Perm
          (flush'.items :: s.loop.items :: s.stop.items ::
            (s.adding.eraseIdx k).map FlushPhase.items) := by
      intro flushes flush' hperm
      have hcons := ((hperm.map FlushPhase.items).cons s.stop.items).cons s.loop.items
      exact hcons.trans (((Perm.swap _ _ _).cons _).trans (Perm.swap _ _ _))
    refine ⟨_, hmove ?_, fun flush' => hmove (set_perm_cons_eraseIdx hk flush'), .inl (Perm.refl _)⟩
    rw [← hflush]
    exact (getElem_cons_eraseIdx_perm hk).symm
  | loop =>
    refine ⟨s.stop.items :: s.adding.map FlushPhase.items, ?_, fun _ => Perm.refl _,
      .inr (Perm.refl _)⟩
    rw [underWay, loop_eq_flushing h]
    exact Perm.refl _
  | stop =>
    refine ⟨s.loop.items :: s.adding.map FlushPhase.items, ?_, fun _ => Perm.swap _ _ _,
      .inr (Perm.swap _ _ _)⟩
    rw [underWay, stop_eq_flushing h]
    exact Perm.swap _ _ _

/-! ## Where the receipts are -/

/-- The receipts that were added are pending, under way or pushed, each once, and those of a user
in order. -/
def Accounted (s : ReceiptBatcher) : Prop :=
  Accounts s.added (items s.pending :: (s.underWay ++ s.calls))

theorem items_of_keys_nil {b : Buffer Int StoredReceipt} (h : b.keys = []) : items b = [] := by
  rw [items, h]
  rfl

theorem accounted_add (h : s.Accounted) (userID : Int) (receipt : Option SendReceipt) :
    (s.add userID receipt).Accounted := by
  cases receipt with
  | none => exact h
  | some receipt =>
    have hadd := Accounts.add h userID ⟨receipt, s.added.length⟩
    simp only [Accounted, add]
    split
    · -- the new flush has taken nothing yet
      have hnil := accounts_nil_cons.mpr hadd
      apply hnil.perm
      simp only [underWay, map_append, map_singleton, FlushPhase.items]
      refine (Perm.swap _ _ _).trans (Perm.cons _ ?_)
      have hlast := (perm_append_singleton []
        (s.loop.items :: s.stop.items :: s.adding.map FlushPhase.items)).symm
      exact hlast.append_right s.calls
    · exact hadd

variable {others : List (List ReceiptItem)}

theorem Accounted.split (h : s.Accounted) (hothers : s.underWay.Perm (flush.items :: others)) :
    Accounts s.added (flush.items :: items s.pending :: (others ++ s.calls)) :=
  Accounts.perm h (((hothers.append_right s.calls).cons _).trans (Perm.swap _ _ _))

theorem accounted_of_endFlush {flusher : Flusher}
    {calls : List (List ReceiptItem)} {pending : Buffer Int StoredReceipt}
    (hothers : (s.endFlush flusher).underWay.Perm others ∨
      (s.endFlush flusher).underWay.Perm ([] :: others))
    (h : Accounts s.added (items pending :: (others ++ calls))) :
    Accounts s.added (items pending :: ((s.endFlush flusher).underWay ++ calls)) := by
  rcases hothers with hperm | hperm
  · exact h.perm ((hperm.symm.append_right calls).cons _)
  · have hnil := (accounts_nil_cons.mpr h).perm (Perm.swap _ _ _)
    exact hnil.perm ((hperm.symm.append_right calls).cons _)

section

variable (flusher : Flusher) (flush : FlushPhase)

@[simp] theorem added_setFlush : (s.setFlush flush flusher).added = s.added := by
  cases flusher <;> rfl

@[simp] theorem calls_setFlush : (s.setFlush flush flusher).calls = s.calls := by
  cases flusher <;> rfl

@[simp] theorem added_endFlush : (s.endFlush flusher).added = s.added := by
  cases flusher <;> rfl

@[simp] theorem pending_endFlush : (s.endFlush flusher).pending = s.pending := by
  cases flusher <;> rfl

@[simp] theorem calls_endFlush : (s.endFlush flusher).calls = s.calls := by
  cases flusher <;> rfl

end

theorem accounted_take (h : s.Accounted) (flusher : Flusher) (order : List Int) :
    (s.take flusher order).Accounted := by
  unfold take
  split
  · rename_i hflush
    obtain ⟨others, hbefore, hset, hend⟩ := exists_others hflush
    have hrest := accounts_nil_cons.mp (h.split hbefore)
    split
    · simp only [Accounted, added_endFlush, pending_endFlush, calls_endFlush]
      exact accounted_of_endFlush hend hrest
    · split
      · rename_i horder
        have htaken := (hrest.take horder).perm
          ((hset (.taken (listed order s.pending))).symm.append_right s.calls)
        simp only [Accounted, added_setFlush, calls_setFlush, items_empty]
        exact accounts_nil_cons.mpr htaken
      · exact h
  · exact h

theorem accounted_push (h : s.Accounted) (flusher : Flusher) : (s.push flusher).Accounted := by
  unfold push
  split
  · rename_i items' hflush
    obtain ⟨others, hbefore, _, hend⟩ := exists_others hflush
    have hsplit := h.split hbefore
    split
    · rename_i hnil
      subst hnil
      simp only [Accounted, added_endFlush, pending_endFlush, calls_endFlush]
      exact accounted_of_endFlush hend (accounts_nil_cons.mp hsplit)
    · have hmoved : Accounts s.added (items s.pending :: (others ++ (s.calls ++ [items']))) := by
        apply hsplit.perm
        rw [← append_assoc]
        exact (perm_append_singleton items' (items s.pending :: (others ++ s.calls))).symm
      simp only [Accounted, added_endFlush, pending_endFlush]
      exact accounted_of_endFlush hend hmoved
  · exact h

theorem accounted_step (h : s.Accounted) (e : BatcherEvent) : (s.step e).Accounted := by
  cases e with
  | add userID receipt => exact accounted_add h userID receipt
  | take flusher order => exact accounted_take h flusher order
  | push flusher => exact accounted_push h flusher
  | start | leave =>
    simp only [step]
    split
    · rename_i hloop
      simpa [Accounted, underWay, LoopPhase.items, hloop] using h
    · exact h
  | tick =>
    simp only [step]
    split
    · rename_i hloop
      simpa [Accounted, underWay, LoopPhase.items, FlushPhase.items, hloop] using h
    · exact h
  | stop =>
    simp only [step]
    split
    · rename_i hstop
      simpa [Accounted, underWay, StopPhase.items, hstop] using h
    · exact h
  | drain =>
    simp only [step]
    split
    · rename_i hstop
      simpa [Accounted, underWay, StopPhase.items, FlushPhase.items, hstop.1] using h
    · exact h

/-! ## How far `Stop` is -/

def StopProgress (s : ReceiptBatcher) : Prop :=
  match s.stop with
  | .idle => True
  | .waiting => s.adding = []
  | .flushing .waiting => s.adding = [] ∧ s.loop = .off
  | .flushing (.taken _) => s.adding = [] ∧ s.loop = .off ∧ s.pending.keys = []
  | .returned => s.adding = [] ∧ s.loop = .off ∧ s.pending.keys = []

theorem stopProgress_of_idle (h : s.stop = .idle) : s.StopProgress := by
  simp [StopProgress, h]

theorem stopProgress_of_waiting (h : s.stop = .waiting) (hadding : s.adding = []) :
    s.StopProgress := by
  simp [StopProgress, h, hadding]

theorem StopProgress.idle_of_adding (h : s.StopProgress) (hadding : s.adding ≠ []) :
    s.stop = .idle := by
  unfold StopProgress at h
  split at h
  · assumption
  · exact absurd h hadding
  · exact absurd h.1 hadding
  · exact absurd h.1 hadding
  · exact absurd h.1 hadding

theorem StopProgress.of_loop (h : s.StopProgress) (hloop : s.loop ≠ .off) :
    s.stop = .idle ∨ (s.stop = .waiting ∧ s.adding = []) := by
  unfold StopProgress at h
  split at h
  · exact .inl (by assumption)
  · exact .inr ⟨by assumption, h⟩
  · exact absurd h.2 hloop
  · exact absurd h.2.1 hloop
  · exact absurd h.2.1 hloop

theorem StopProgress.of_loop_step (h : s.StopProgress) (hloop : s.loop ≠ .off) {s' : ReceiptBatcher}
    (hstop : s'.stop = s.stop) (hadding : s'.adding = s.adding) : s'.StopProgress := by
  rcases h.of_loop hloop with hidle | ⟨hwaiting, hnone⟩
  · exact stopProgress_of_idle (hstop.trans hidle)
  · exact stopProgress_of_waiting (hstop.trans hwaiting) (hadding.trans hnone)

theorem stopProgress_take (h : s.StopProgress) (flusher : Flusher) (order : List Int) :
    (s.take flusher order).StopProgress := by
  unfold take
  split
  · rename_i hflush
    cases flusher with
    | add k =>
      have hidle := h.idle_of_adding (adding_ne_nil hflush)
      split
      · exact stopProgress_of_idle hidle
      · split <;> exact stopProgress_of_idle hidle
    | loop =>
      have hloop : s.loop ≠ .off := by simp [loop_eq_flushing hflush]
      split
      · exact h.of_loop_step hloop rfl rfl
      · split <;> exact h.of_loop_step hloop rfl rfl
    | stop =>
      have hstop := stop_eq_flushing hflush
      have hover : s.adding = [] ∧ s.loop = .off := by simpa [StopProgress, hstop] using h
      split
      · rename_i hempty
        exact ⟨hover.1, hover.2, hempty⟩
      · split
        · exact ⟨hover.1, hover.2, rfl⟩
        · exact h
  · exact h

theorem stopProgress_push (h : s.StopProgress) (flusher : Flusher) :
    (s.push flusher).StopProgress := by
  unfold push
  split
  · rename_i items' hflush
    cases flusher with
    | add k =>
      have hidle := h.idle_of_adding (adding_ne_nil hflush)
      split <;> exact stopProgress_of_idle hidle
    | loop =>
      have hloop : s.loop ≠ .off := by simp [loop_eq_flushing hflush]
      split <;> exact h.of_loop_step hloop rfl rfl
    | stop =>
      have hstop := stop_eq_flushing hflush
      have hover : s.adding = [] ∧ s.loop = .off ∧ s.pending.keys = [] := by
        simpa [StopProgress, hstop] using h
      split <;> exact hover
  · exact h

theorem stopProgress_step (h : s.StopProgress) {e : BatcherEvent} (hlast : StopLast s e) :
    (s.step e).StopProgress := by
  cases e with
  | start =>
    simp only [step]
    split
    · exact stopProgress_of_idle hlast
    · exact h
  | add userID receipt => cases receipt <;> exact stopProgress_of_idle hlast
  | tick | leave =>
    simp only [step]
    split
    · rename_i hloop
      exact h.of_loop_step (by simp [hloop]) rfl rfl
    · exact h
  | stop =>
    simp only [step]
    split
    · exact stopProgress_of_waiting rfl hlast
    · exact h
  | drain =>
    simp only [step]
    split
    · rename_i hstop
      have hadding : s.adding = [] := by simpa [StopProgress, hstop.1] using h
      exact ⟨hadding, hstop.2⟩
    · exact h
  | take flusher order => exact stopProgress_take h flusher order
  | push flusher => exact stopProgress_push h flusher

/-! ## The numbers of the receipts -/

/-- The receipts are numbered in the order in which they were added. -/
def Numbered (s : ReceiptBatcher) : Prop :=
  s.added.map (fun x => x.2.number) = range s.added.length

def newItems (s : ReceiptBatcher) : BatcherEvent → List ReceiptItem
  | .add userID (some receipt) => [(userID, ⟨receipt, s.added.length⟩)]
  | _ => []

theorem added_step (s : ReceiptBatcher) (e : BatcherEvent) :
    (s.step e).added = s.added ++ s.newItems e := by
  cases e with
  | add userID receipt =>
    cases receipt with
    | none => exact (append_nil _).symm
    | some receipt => rfl
  | take flusher order =>
    simp only [newItems, append_nil, step, take]
    split
    · split
      · exact added_endFlush flusher
      · split
        · exact added_setFlush flusher _
        · rfl
    · rfl
  | push flusher =>
    simp only [newItems, append_nil, step, push]
    split
    · split <;> exact added_endFlush flusher
    · rfl
  | _ =>
    simp only [newItems, append_nil, step]
    split <;> rfl

theorem numbered_step (h : s.Numbered) (e : BatcherEvent) : (s.step e).Numbered := by
  have hnew : s.newItems e = [] ∨
      ∃ userID receipt, s.newItems e = [(userID, ⟨receipt, s.added.length⟩)] := by
    unfold newItems
    split
    · exact .inr ⟨_, _, rfl⟩
    · exact .inl rfl
  rw [Numbered, added_step]
  rcases hnew with hnil | ⟨userID, receipt, hone⟩
  · rw [hnil, append_nil]
    exact h
  · rw [hone, map_append, h, length_append]
    exact range_succ.symm

theorem added_run (s : ReceiptBatcher) (es : List BatcherEvent) :
    (s.run es).added.map (fun x => (x.1, x.2.receipt)) =
      s.added.map (fun x => (x.1, x.2.receipt)) ++ addedReceipts es := by
  induction es generalizing s with
  | nil => simp [run, addedReceipts]
  | cons e es ih =>
    have hone : (s.newItems e).map (fun x => (x.1, x.2.receipt)) = addedReceipts [e] := by
      unfold newItems addedReceipts
      split
      · rfl
      rename_i hother
      cases e with
      | add userID receipt =>
        cases receipt with
        | none => rfl
        | some receipt => exact absurd rfl (hother userID receipt)
      | _ => rfl
    have hcons : addedReceipts (e :: es) = addedReceipts [e] ++ addedReceipts es := by
      rw [addedReceipts, ← singleton_append, filterMap_append]
      rfl
    change ((s.step e).run es).added.map _ = _
    rw [ih, added_step, map_append, append_assoc, hone, hcons]

end ReceiptBatcher

/-! ## All batches -/

/-- Every receipt stands in one of the calls, once and under its user, and those of a user are in
order in each call. Receipts are numbered as they are added. -/
structure PushedOnce (receipts : List (Int × SendReceipt)) (calls : List (List ReceiptItem)) :
    Prop where
  once : ∀ (n : ℕ) userID receipt, receipts[n]? = some (userID, receipt) →
    ∃ (i : ℕ) (call : List ReceiptItem), calls[i]? = some call ∧
      call.count (userID, ⟨receipt, n⟩) = 1 ∧
      ∀ (j : ℕ) call', calls[j]? = some call' → (userID, ⟨receipt, n⟩) ∈ call' → j = i
  only : ∀ call ∈ calls, ∀ item ∈ call, receipts[item.2.number]? = some (item.1, item.2.receipt)
  ordered : ∀ call ∈ calls, ∀ userID : Int,
    ((call.filter fun item => item.1 = userID).map fun item => item.2.number).Pairwise (· < ·)

theorem pushedOnce_of_accounts {added : List ReceiptItem} {calls : List (List ReceiptItem)}
    (hnumbered : added.map (fun x => x.2.number) = range added.length)
    (h : Accounts added calls) : PushedOnce (added.map fun x => (x.1, x.2.receipt)) calls := by
  have hnumber : ∀ (n : ℕ) x, added[n]? = some x → x.2.number = n := by
    intro n x hx
    have hat := congrArg (·[n]?) hnumbered
    simp only [getElem?_map, hx, map_some] at hat
    have hlt := (List.getElem?_eq_some_iff.mp hx).1
    simpa [getElem?_range hlt] using hat
  have hasc : (added.map fun x => x.2.number).Pairwise (· < ·) := by
    rw [hnumbered]
    exact pairwise_lt_range
  have hnodup : added.Nodup := by
    apply Nodup.of_map fun x => x.2.number
    exact hasc.imp Nat.ne_of_lt
  refine ⟨?_, ?_, ?_⟩
  · intro n userID receipt hreceipt
    rw [getElem?_map] at hreceipt
    obtain ⟨x, hx, hsame⟩ := map_eq_some_iff.mp hreceipt
    obtain ⟨rfl, rfl⟩ := Prod.mk.inj hsame
    have hitem : x = (x.1, ⟨x.2.receipt, n⟩) := by
      rw [← hnumber n x hx]
    rw [← hitem]
    exact h.exists_unique_lot hnodup (mem_of_getElem? hx)
  · intro call hcall item hitem
    have hmem : item ∈ added := h.complete.mem_iff.mp (mem_flatten.mpr ⟨call, hcall, hitem⟩)
    obtain ⟨n, hn⟩ := mem_iff_getElem?.mp hmem
    rw [hnumber n item hn, getElem?_map, hn]
    rfl
  · intro call hcall userID
    exact hasc.sublist ((h.ordered call hcall userID).map _)

/-- When `Stop` has returned, every receipt that was passed to `Add` has been pushed in exactly one
call, under its user, and the receipts of a user are in order within each call. -/
theorem receipts_pushed_once (batchSize : Int) {es : List BatcherEvent}
    (hlast : Along step StopLast { batchSize } es)
    (hreturned : (run { batchSize } es).stop = .returned) :
    PushedOnce (addedReceipts es) (run { batchSize } es).calls := by
  have hinit : Accounts ([] : List ReceiptItem) [[], [], []] :=
    accounts_nil_cons.mpr (accounts_nil_cons.mpr (accounts_nil_cons.mpr
      ⟨Perm.refl _, fun lot hlot => by cases hlot⟩))
  have haccounted : (run { batchSize } es).Accounted :=
    invariant_run_all (fun (s : ReceiptBatcher) e (h : s.Accounted) =>
      accounted_step h e) es hinit
  have hnumbered : (run { batchSize } es).Numbered :=
    invariant_run_all (fun (s : ReceiptBatcher) e (h : s.Numbered) =>
      numbered_step h e) es rfl
  have hprogress : (run { batchSize } es).StopProgress :=
    invariant_run (fun (s : ReceiptBatcher) _ (h : s.StopProgress) hguard =>
      stopProgress_step h hguard) trivial hlast
  have hover : (run { batchSize } es).adding = [] ∧
      (run { batchSize } es).loop = .off ∧
      (run { batchSize } es).pending.keys = [] := by
    simpa [StopProgress, hreturned] using hprogress
  have hcalls : Accounts (run { batchSize } es).added (run { batchSize } es).calls := by
    have h := haccounted
    rw [Accounted, items_of_keys_nil hover.2.2, underWay, hover.1, hover.2.1, hreturned] at h
    exact accounts_nil_cons.mp (accounts_nil_cons.mp (accounts_nil_cons.mp h))
  have hadded := added_run { batchSize } es
  rw [map_nil, nil_append] at hadded
  rw [← hadded]
  exact pushedOnce_of_accounts hnumbered hcalls

def sentReceipt (seq : ℕ) : SendReceipt := ⟨"", 100 + seq, "group_1", seq, 0⟩

def threeReceipts : List BatcherEvent :=
  [.start, .add 1 (some (sentReceipt 1)), .add 2 (some (sentReceipt 2)), .tick,
    .take (.add 0) [2, 1], .add 1 (some (sentReceipt 3)), .add 1 none, .take .loop [1],
    .push .loop, .push (.add 0), .stop, .leave, .drain, .take .stop []]

theorem threeReceipts_pushed :
    PushedOnce [(1, sentReceipt 1), (2, sentReceipt 2), (1, sentReceipt 3)]
      (run { batchSize := 2 } threeReceipts).calls :=
  @receipts_pushed_once 2 threeReceipts (by decide) (by decide)

end NonokaIM
