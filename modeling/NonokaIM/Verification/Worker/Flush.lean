import NonokaIM.Verification.Worker.Saves

/-! # Flushing a batch of group messages

The whole batch is inserted, and its messages one by one if the reply is inconclusive. -/

namespace NonokaIM

open DocumentStore GroupBatchItem List

variable {now : Int} {items : List GroupBatchItem} {s : Store}

theorem saveEach_cons (fault : ℕ → SaveFault) (item : GroupBatchItem)
    (items : List GroupBatchItem) (s : Store) :
    saveEach now fault (item :: items) s =
      ((saveGroupMessage now item.msg item.msgID item.topicSeq (fault 0) s).1 ::
        (saveEach now (fun i => fault (i + 1)) items
          (saveGroupMessage now item.msg item.msgID item.topicSeq (fault 0) s).2).1,
        (saveEach now (fun i => fault (i + 1)) items
          (saveGroupMessage now item.msg item.msgID item.topicSeq (fault 0) s).2).2) := rfl

variable {fault : ℕ → SaveFault}

theorem subset_saveEach : s.messages.rows ⊆ (saveEach now fault items s).2.messages.rows := by
  induction items generalizing fault s with
  | nil => exact Subset.refl _
  | cons item items ih => exact Subset.trans subset_saveGroupMessage ih

theorem mem_saveEach {x : StoredMessage} (hx : x ∈ (saveEach now fault items s).2.messages.rows) :
    x ∈ s.messages.rows ∨
      (x ∈ items.map (row now) ∧ ¬ Blocked messageKeys s.messages.rows x) := by
  induction items generalizing fault s with
  | nil => exact .inl hx
  | cons item items ih =>
    rcases ih hx with hfirst | ⟨hrest, hfree⟩
    · rcases mem_saveGroupMessage hfirst with hold | ⟨rfl, hfree⟩
      · exact .inl hold
      · exact .inr ⟨mem_cons_self, hfree⟩
    · refine .inr ⟨mem_cons_of_mem _ hrest, ?_⟩
      intro hb
      exact hfree (hb.mono subset_saveGroupMessage)

theorem stored_or_blocked_saveEach {j : ℕ} {item : GroupBatchItem}
    {dup : Bool} (hj : items[j]? = some item)
    (h : (saveEach now fault items s).1[j]? = some (.ok dup)) :
    item.row now ∈ (saveEach now fault items s).2.messages.rows ∨
      Blocked messageKeys (saveEach now fault items s).2.messages.rows (item.row now) := by
  induction items generalizing fault s j with
  | nil => simp at hj
  | cons first items ih =>
    cases j with
    | zero =>
      obtain rfl : first = item := by simpa using hj
      have hres : (saveGroupMessage now first.msg first.msgID first.topicSeq (fault 0) s).1 =
          .ok dup := by simpa [saveEach] using h
      have hsub : (saveGroupMessage now first.msg first.msgID first.topicSeq
          (fault 0) s).2.messages.rows ⊆
          (saveEach now fault (first :: items) s).2.messages.rows := by
        rw [saveEach_cons]
        exact subset_saveEach
      rcases stored_or_blocked_saveGroupMessage hres with hmem | hblocked
      · exact .inl (hsub hmem)
      · exact .inr (hblocked.mono hsub)
    | succ j => exact ih (by simpa using hj) (by simpa [saveEach] using h)

variable {fault : FlushFault}

theorem mem_flush {x : StoredMessage} (hx : x ∈ (flush now items fault s).2.messages.rows) :
    x ∈ s.messages.rows ∨
      (x ∈ items.map (row now) ∧ ¬ Blocked messageKeys s.messages.rows x) := by
  have hbatch : ∀ {y}, y ∈ (saveGroupMessagesBatch now items fault.batch s).2.messages.rows →
      y ∈ s.messages.rows ∨
        (y ∈ items.map (row now) ∧ ¬ Blocked messageKeys s.messages.rows y) := by
    intro y hy
    rw [saveGroupMessagesBatch_store] at hy
    exact Collection.mem_insertMany hy
  simp only [flush] at hx
  split at hx
  · exact hbatch hx
  rcases mem_saveEach hx with hfirst | ⟨hrest, hfree⟩
  · exact hbatch hfirst
  · refine .inr ⟨hrest, ?_⟩
    intro hb
    exact hfree (hb.mono subset_saveGroupMessagesBatch)

theorem subset_flush : s.messages.rows ⊆ (flush now items fault s).2.messages.rows := by
  simp only [flush]
  split
  · exact subset_saveGroupMessagesBatch
  · exact Subset.trans subset_saveGroupMessagesBatch subset_saveEach

theorem stored_or_blocked_flush {j : ℕ} {item : GroupBatchItem} {dup : Bool}
    (hj : items[j]? = some item) (h : (flush now items fault s).1[j]? = some (.ok dup)) :
    item.row now ∈ (flush now items fault s).2.messages.rows ∨
      Blocked messageKeys (flush now items fault s).2.messages.rows (item.row now) := by
  simp only [flush] at h ⊢
  split at h
  · rename_i d hd
    have hall := (batchVerdict_spec hd).1
    rw [saveGroupMessagesBatch_store]
    change _ ∈ (s.messages.insertMany fault.batch.insert.refused _).1.rows ∨
      Blocked messageKeys (s.messages.insertMany fault.batch.insert.refused _).1.rows _
    rw [hall]
    refine Collection.stored_or_blocked j _ ?_ rfl
    simp [hj]
  · exact stored_or_blocked_saveEach hj h

end NonokaIM
