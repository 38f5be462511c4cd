import NonokaIM.Verification.Worker.Flush

/-! # Batches against single saves

They store the same rows, but report a partly stored batch differently. -/

namespace NonokaIM

open DocumentStore List GroupBatchItem Collection FlushFault Fate

/-- A message without a write error of its own is saved undisturbed, one with such an error is
refused by every insert. -/
def SaveFault.ofError : Option String → SaveFault
  | .none => .none
  | .some text => { insert := .refuseAll, text := text }

def FlushFault.ofErrors (errors : ℕ → Option String) : FlushFault where
  batch := { insert := { refused := fun i => (errors i).isSome } }
  single := fun i => .ofError (errors i)

def batchFates (now : Int) (errors : ℕ → Option String) (items : List GroupBatchItem) (s : Store) :
    List Fate :=
  (s.messages.insertMany (fun i => (errors i).isSome) (items.map (row now))).2

def saveResult (error : Option String) : Fate → Except String Bool
  | .stored => .ok false
  | .duplicate => .ok true
  | .refused => .error ("insert group message: " ++ error.getD "")

def saveResults (errors : ℕ → Option String) : List Fate → List (Except String Bool)
  | [] => []
  | fate :: fates => saveResult (errors 0) fate :: saveResults (fun i => errors (i + 1)) fates

variable (now : Int) (errors : ℕ → Option String) (items : List GroupBatchItem) (s : Store)

theorem conflict_messageKeys_self (r : StoredMessage) : Conflict messageKeys r r :=
  conflict_messageKeys.mpr (.inl ⟨rfl, rfl⟩)

/-! ## Single saves -/

theorem saveGroupMessage_ofError (error : Option String) (item : GroupBatchItem) :
    (saveGroupMessage now item.msg item.msgID item.topicSeq (.ofError error) s).1 =
        saveResult error (s.messages.tryInsert error.isSome (item.row now)).2 ∧
      (saveGroupMessage now item.msg item.msgID item.topicSeq (.ofError error) s).2.messages =
        (s.messages.tryInsert error.isSome (item.row now)).1 := by
  rw [saveGroupMessage_result, saveGroupMessage_store]
  cases error with
  | none =>
    by_cases hb : Blocked messageKeys s.messages.rows (item.row now)
    · have hone := insertOne_none_of_blocked hb
      have htry := tryInsert_of_blocked hb
      simp only [row] at hone htry
      simp [SaveFault.ofError, SaveFault.none, row, hone, htry, saveResult]
    · have hone := insertOne_none_of_not_blocked hb
      have htry := tryInsert_of_not_blocked hb
      simp only [row] at hone htry
      simp [SaveFault.ofError, SaveFault.none, row, hone, htry, saveResult]
  | some text =>
    simp [SaveFault.ofError, insertOne, tryInsert_refused, saveResult]

theorem saveEach_ofErrors :
    (saveEach now (fun i => .ofError (errors i)) items s).1 =
        saveResults errors (batchFates now errors items s) ∧
      (saveEach now (fun i => .ofError (errors i)) items s).2.messages =
        (s.messages.insertMany (fun i => (errors i).isSome) (items.map (row now))).1 := by
  induction items generalizing errors s with
  | nil => exact ⟨rfl, rfl⟩
  | cons item items ih =>
    have hfirst := saveGroupMessage_ofError now s (errors 0) item
    have hrest := ih (fun i => errors (i + 1))
      (saveGroupMessage now item.msg item.msgID item.topicSeq (.ofError (errors 0)) s).2
    rw [batchFates, hfirst.2] at hrest
    rw [saveEach_cons, batchFates, map_cons, insertMany_cons]
    exact ⟨by rw [hfirst.1, hrest.1, saveResults], hrest.2⟩

theorem saveResults_uniform {fates : List Fate} {dup : Bool}
    (h : ∀ f ∈ fates, ∀ error, saveResult error f = .ok dup) :
    saveResults errors fates = fates.map fun _ => .ok dup := by
  induction fates generalizing errors with
  | nil => rfl
  | cons f fates ih =>
    have hhead := h f mem_cons_self (errors 0)
    have htail := ih (fun i => errors (i + 1)) fun g hg => h g (mem_cons_of_mem f hg)
    rw [saveResults, hhead, htail, map_cons]

theorem saveResults_again_iff {fates : List Fate} :
    saveResults errors (fates.map again) = saveResults errors fates ↔
      ∀ f ∈ fates, f ≠ .stored := by
  induction fates generalizing errors with
  | nil => simp
  | cons f fates ih =>
    rw [map_cons, saveResults, saveResults, cons.injEq, ih, forall_mem_cons]
    cases f <;> simp [again, saveResult]

/-! ## The batch -/

theorem length_batchFates : (batchFates now errors items s).length = items.length := by
  rw [batchFates, length_fates, length_map]

theorem map_const_batchFates (r : Except String Bool) :
    (batchFates now errors items s).map (fun _ => r) = items.map fun _ => r := by
  rw [map_const', map_const', length_batchFates]

theorem batchVerdict_ofErrors :
    batchVerdict items.length (saveGroupMessagesBatch now items (ofErrors errors).batch s).1 =
      if ∀ f ∈ batchFates now errors items s, f = .stored then some false
      else if refused ∈ batchFates now errors items s then none else some true := by
  by_cases hnil : items = []
  · subst items
    rfl
  have hreply : (insertBulk s.messages (ofErrors errors).batch.insert (items.map (row now))).2 =
        if (batchFates now errors items s).all (· = .stored) then .ok
        else .bulk (batchFates now errors items s) := by
    simp [insertBulk, ofErrors, batchFates]
  by_cases hall : ∀ f ∈ batchFates now errors items s, f = .stored
  · have hok : (batchFates now errors items s).all (· = .stored) = true := by simpa using hall
    rw [hok, if_pos rfl] at hreply
    rw [if_pos hall]
    simp [saveGroupMessagesBatch, hnil, hreply, batchVerdict]
  · have hok : (batchFates now errors items s).all (· = .stored) = false := by simpa using hall
    rw [hok, if_neg (by simp)] at hreply
    have hsome : ∃ f ∈ batchFates now errors items s, f ≠ .stored := by simpa using hall
    by_cases hrefused : refused ∈ batchFates now errors items s
    · have hdup : allDuplicate (batchFates now errors items s) = false := by
        simp [allDuplicate, hrefused]
      have hlt := count_stored_lt hsome
      rw [length_batchFates] at hlt
      simp [saveGroupMessagesBatch, hnil, hreply, hdup, batchVerdict, hall, hrefused, hlt]
    · have hdup : allDuplicate (batchFates now errors items s) = true := by
        simp only [allDuplicate, Bool.and_eq_true, any_eq_true, all_eq_true]
        refine ⟨?_, ?_⟩
        · simpa using hsome
        · intro f hf
          have hne : f ≠ .refused := fun he => hrefused (he ▸ hf)
          simpa using hne
      simp [saveGroupMessagesBatch, hnil, hreply, hdup, batchVerdict, hall, hrefused]

theorem saveGroupMessagesBatch_ofErrors :
    (saveGroupMessagesBatch now items (ofErrors errors).batch s).2.messages =
      (s.messages.insertMany (fun i => (errors i).isSome) (items.map (row now))).1 := by
  rw [saveGroupMessagesBatch_store]
  rfl

theorem flush_ofErrors :
    (flush now items (.ofErrors errors) s).1 =
        saveResults errors (if ∀ f ∈ batchFates now errors items s, f = .stored
          then batchFates now errors items s
          else (batchFates now errors items s).map again) ∧
      (flush now items (.ofErrors errors) s).2.messages =
        (s.messages.insertMany (fun i => (errors i).isSome) (items.map (row now))).1 := by
  simp only [flush, batchVerdict_ofErrors]
  by_cases hall : ∀ f ∈ batchFates now errors items s, f = .stored
  · have hstored : ∀ f ∈ batchFates now errors items s, ∀ error,
        saveResult error f = .ok false := by
      intro f hf error
      rw [hall f hf]
      rfl
    simp only [if_pos hall]
    rw [saveResults_uniform errors hstored, map_const_batchFates]
    exact ⟨rfl, saveGroupMessagesBatch_ofErrors now errors items s⟩
  · simp only [if_neg hall]
    by_cases hrefused : refused ∈ batchFates now errors items s
    · simp only [if_pos hrefused]
      have heach := saveEach_ofErrors now errors items
        (saveGroupMessagesBatch now items (ofErrors errors).batch s).2
      rw [batchFates, saveGroupMessagesBatch_ofErrors,
        insertMany_again conflict_messageKeys_self (Subset.refl _)] at heach
      exact heach
    · simp only [if_neg hrefused]
      have hduplicate : ∀ g ∈ (batchFates now errors items s).map again,
          ∀ error, saveResult error g = .ok true := by
        intro g hg error
        rcases mem_map.mp hg with ⟨f, hf, rfl⟩
        cases f with
        | stored | duplicate => rfl
        | refused => exact absurd hf hrefused
      rw [saveResults_uniform errors hduplicate, map_map]
      exact ⟨(map_const_batchFates now errors items s _).symm,
        saveGroupMessagesBatch_ofErrors now errors items s⟩

/-- Flushing the messages and saving them one after another store the same rows, and give the
messages the same results exactly when the batch insert stores all of them or none. -/
theorem flush_agrees_with_saveEach_iff :
    ((flush now items (.ofErrors errors) s).1 =
        (saveEach now (fun i => .ofError (errors i)) items s).1 ∧
      (flush now items (.ofErrors errors) s).2.messages =
        (saveEach now (fun i => .ofError (errors i)) items s).2.messages) ↔
      (∀ f ∈ batchFates now errors items s, f = .stored) ∨
        (∀ f ∈ batchFates now errors items s, f ≠ .stored) := by
  have hflush := flush_ofErrors now errors items s
  have heach := saveEach_ofErrors now errors items s
  rw [hflush.1, hflush.2, heach.1, heach.2]
  by_cases hall : ∀ f ∈ batchFates now errors items s, f = .stored
  · simp only [if_pos hall, and_self, true_iff]
    exact .inl hall
  · simp only [hall, if_false, and_true, false_or]
    exact saveResults_again_iff errors

def sentTwice : List GroupBatchItem :=
  [⟨{ topic := "grp_a", senderID := 1, clientMsgID := "c" }, 1, 1⟩,
    ⟨{ topic := "grp_a", senderID := 1, clientMsgID := "c" }, 2, 2⟩]

/-- A message that waits twice in a batch is stored by it, and no handler is told so. -/
theorem flush_calls_a_stored_message_duplicate :
    ¬ (flush 0 sentTwice (.ofErrors fun _ => none) {}).1 =
        (saveEach 0 (fun _ => .ofError none) sentTwice {}).1 := by
  decide

end NonokaIM
