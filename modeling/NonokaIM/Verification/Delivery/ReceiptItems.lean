import NonokaIM.Model.PushService

/-! Which receipts of a batch are neither sent nor failed: a gateway counts the sends of a user
together. -/

namespace NonokaIM

open KeyedBuffer List

variable {userID : Int} {r : StoredReceipt}

theorem mem_get_addReceipt {b : Buffer Int StoredReceipt} {x : ReceiptBatchItem × ℕ} :
    r ∈ get (addReceipt b x) userID ↔
      r ∈ get b userID ∨ (⟨userID, some r.receipt⟩, r.number) = x := by
  obtain ⟨⟨u, receipt⟩, position⟩ := x
  cases receipt with
  | none => simp [addReceipt]
  | some receipt =>
    by_cases hu : userID = u
    · subst hu
      cases r
      simp [addReceipt]
    · simp [addReceipt, get_add_of_ne _ _ hu, hu]

theorem mem_get_foldl_addReceipt {xs : List (ReceiptBatchItem × ℕ)} (b : Buffer Int StoredReceipt) :
    r ∈ get (xs.foldl addReceipt b) userID ↔
      r ∈ get b userID ∨ (⟨userID, some r.receipt⟩, r.number) ∈ xs := by
  induction xs generalizing b with
  | nil => simp
  | cons x xs ih => rw [foldl_cons, ih, mem_get_addReceipt, or_assoc, mem_cons]

theorem mem_get_groupReceipts {items : List ReceiptBatchItem} :
    r ∈ get (groupReceipts items) userID ↔ items[r.number]? = some ⟨userID, some r.receipt⟩ := by
  rw [groupReceipts, mem_get_foldl_addReceipt, get_empty, mem_zipIdx_iff_getElem?]
  simp

section

variable (env : ReceiptEnv) (items : List ReceiptBatchItem)

/-- The receipt at a position can be encoded, and some connection of the user takes it. -/
def TakesReceipt (userID : Int) (i : ℕ) (receipt : SendReceipt) : Prop :=
  env.encodes receipt = true ∧ ∃ connID ∈ env.conns userID, env.sends connID i = true

/-- Some connection of the user has taken the receipt at a position. -/
def ReceiptSent (userID : Int) (i : ℕ) : Prop :=
  ∃ connID, (connID, i) ∈ broadcastReceiptsToUser env userID (get (groupReceipts items) userID)

/-- Every receipt is sent to a connection of its user or reported as failed. -/
def ReceiptsAccounted (order : List Int) : Prop :=
  ∀ i userID receipt, items[i]? = some ⟨userID, some receipt⟩ →
    ReceiptSent env items userID i ∨
      ⟨userID, some receipt⟩ ∈ (batchPushReceiptsToUsers env order items).failedItems

variable {env items}

variable {userID : Int}

theorem receiptSent_iff {i : ℕ} :
    ReceiptSent env items userID i ↔
      ∃ receipt, items[i]? = some ⟨userID, some receipt⟩ ∧ TakesReceipt env userID i receipt := by
  unfold ReceiptSent TakesReceipt broadcastReceiptsToUser
  simp only [mem_flatMap, mem_map, mem_filter, mem_get_groupReceipts, Prod.mk.injEq]
  constructor
  · rintro ⟨_, connID, hconn, r, ⟨⟨hitem, hencodes⟩, hsends⟩, _, rfl⟩
    exact ⟨r.receipt, hitem, hencodes, connID, hconn, hsends⟩
  · rintro ⟨receipt, hitem, hencodes, connID, hconn, hsends⟩
    exact ⟨connID, connID, hconn, ⟨receipt, i⟩, ⟨⟨hitem, hencodes⟩, hsends⟩, rfl, rfl⟩

theorem broadcast_length_eq_zero_iff :
    (broadcastReceiptsToUser env userID (get (groupReceipts items) userID)).length = 0 ↔
      ∀ i, ¬ReceiptSent env items userID i := by
  rw [length_eq_zero_iff, eq_nil_iff_forall_not_mem]
  constructor
  · intro h i ⟨connID, hmem⟩
    exact h _ hmem
  · intro h x hx
    exact h x.2 ⟨x.1, hx⟩

theorem mem_failedItems_iff {order : List Int} (horder : order.Perm (groupReceipts items).keys)
    {i : ℕ} {receipt : SendReceipt} (hitem : items[i]? = some ⟨userID, some receipt⟩) :
    ⟨userID, some receipt⟩ ∈ (batchPushReceiptsToUsers env order items).failedItems ↔
      ∀ j, ¬ReceiptSent env items userID j := by
  have hmem : (⟨receipt, i⟩ : StoredReceipt) ∈ get (groupReceipts items) userID :=
    mem_get_groupReceipts.mpr hitem
  -- a user with a receipt is one of the keys, so there is a result for them
  have hkey : userID ∈ order := by
    rw [horder.mem_iff]
    by_contra hnot
    rw [get_of_notMem _ hnot] at hmem
    exact List.not_mem_nil hmem
  rw [← broadcast_length_eq_zero_iff]
  simp only [batchPushReceiptsToUsers, mem_flatMap, mem_ite_nil_right, mem_filter,
    decide_eq_true_eq]
  constructor
  · rintro ⟨_, _, hzero, _, rfl⟩
    exact hzero
  · intro hzero
    exact ⟨userID, hkey, hzero, mem_of_getElem? hitem, rfl⟩

/-- No receipt is lost exactly if the connections of a user take all of their receipts or none. -/
theorem receipts_accounted_iff {order : List Int} (horder : order.Perm (groupReceipts items).keys) :
    ReceiptsAccounted env items order ↔
      ∀ i j userID receipt other, items[i]? = some ⟨userID, some receipt⟩ →
        items[j]? = some ⟨userID, some other⟩ → TakesReceipt env userID j other →
        TakesReceipt env userID i receipt := by
  constructor
  · intro h i j userID receipt other hitem hother htakes
    cases h i userID receipt hitem with
    | inl hi =>
      obtain ⟨taken, hi, htaken⟩ := receiptSent_iff.mp hi
      cases hi.symm.trans hitem
      exact htaken
    | inr hfailed =>
      have hsent := receiptSent_iff.mpr ⟨other, hother, htakes⟩
      exact absurd hsent ((mem_failedItems_iff horder hitem).mp hfailed j)
  · intro h i userID receipt hitem
    by_cases htakes : TakesReceipt env userID i receipt
    · exact .inl (receiptSent_iff.mpr ⟨receipt, hitem, htakes⟩)
    right
    rw [mem_failedItems_iff horder hitem]
    intro j hj
    obtain ⟨other, hother, hj⟩ := receiptSent_iff.mp hj
    exact htakes (h i j userID receipt other hitem hother hj)

end

def oneConnEnv (sends : ℕ → Bool) : ReceiptEnv where
  conns := fun userID => if userID = 7 then ["c1"] else []
  sends := fun _ => sends

def fourItems : List ReceiptBatchItem :=
  [⟨7, some ⟨"a", 1, "topic", 1, 10⟩⟩, ⟨7, none⟩, ⟨8, some ⟨"b", 2, "topic", 2, 20⟩⟩,
    ⟨7, some ⟨"c", 3, "topic", 3, 30⟩⟩]

/-- The connection takes both receipts of user 7, and the item of user 8 is reported. -/
theorem fourItems_accounted :
    (batchPushReceiptsToUsers (oneConnEnv fun _ => true) [8, 7] fourItems).failedItems =
        [⟨8, some ⟨"b", 2, "topic", 2, 20⟩⟩] ∧
      ReceiptsAccounted (oneConnEnv fun _ => true) fourItems [8, 7] := by
  refine ⟨by decide, (receipts_accounted_iff (by decide)).mpr ?_⟩
  intro i j userID receipt other _ _ htakes
  obtain ⟨_, connID, hconn, _⟩ := htakes
  exact ⟨rfl, connID, hconn, rfl⟩

/-- The send buffer has room for the first receipt only. The last one is neither sent nor
reported. -/
theorem last_receipt_lost :
    batchPushReceiptsToUsers (oneConnEnv (· = 0)) [7, 8] fourItems =
        ⟨1, [⟨8, some ⟨"b", 2, "topic", 2, 20⟩⟩]⟩ ∧
      ¬ReceiptsAccounted (oneConnEnv (· = 0)) fourItems [7, 8] := by
  refine ⟨by decide, ?_⟩
  intro h
  cases h 3 7 ⟨"c", 3, "topic", 3, 30⟩ rfl with
  | inl hsent =>
    obtain ⟨_, _, _, _, _, hsends⟩ := receiptSent_iff.mp hsent
    exact Bool.false_ne_true hsends
  | inr hfailed => exact absurd hfailed (by decide)

end NonokaIM
