import NonokaIM.Verification.Worker.Flush
import NonokaIM.Verification.Worker.Readers

/-! # Readers of a batched group message

A message may lose its index keys to one before it. -/

namespace NonokaIM

open DocumentStore List Peers Collection

variable {now : Int} {msg : UpstreamMessage} {msgID : Int} {topicSeq : ℕ} {s : Store}

section

variable {items : List GroupBatchItem}

theorem saveGroupMessage_refuseAll :
    (saveGroupMessage now msg msgID topicSeq { insert := .refuseAll } s).2 = s := by
  simp [saveGroupMessage, insertOne, tryInsert]

theorem saveEach_refuseAll {fault : ℕ → SaveFault}
    (h : ∀ i, fault i = { insert := .refuseAll }) : (saveEach now fault items s).2 = s := by
  induction items generalizing fault with
  | nil => rfl
  | cons item items ih =>
    rw [saveEach_cons, h 0, saveGroupMessage_refuseAll]
    exact ih (fun i => h (i + 1))

variable {item : GroupBatchItem} {peers : Peers}

theorem saveEach_only {fault : ℕ → SaveFault} {j : ℕ} (hj : items[j]? = some item)
    (hfault : fault j = .none) (hother : ∀ i, i ≠ j → fault i = { insert := .refuseAll }) :
    (saveEach now fault items s).2 =
        (saveGroupMessage now item.msg item.msgID item.topicSeq .none s).2 ∧
      (saveEach now fault items s).1[j]? =
        some (saveGroupMessage now item.msg item.msgID item.topicSeq .none s).1 := by
  induction items generalizing fault j with
  | nil => simp at hj
  | cons first items ih =>
    cases j with
    | zero =>
      obtain rfl : first = item := by simpa using hj
      have hrest : ∀ i, fault (i + 1) = { insert := .refuseAll } :=
        fun i => hother (i + 1) (by omega)
      rw [saveEach_cons, hfault]
      exact ⟨saveEach_refuseAll hrest, by simp⟩
    | succ j =>
      let rest : ℕ → SaveFault := fun i => fault (i + 1)
      have hnone : rest j = .none := hfault
      have hrest : ∀ i, i ≠ j → rest i = { insert := .refuseAll } :=
        fun i hi => hother (i + 1) (by omega)
      have hj' : items[j]? = some item := by simpa using hj
      rw [saveEach_cons, hother 0 (by omega), saveGroupMessage_refuseAll]
      simpa using ih hj' hnone hrest

theorem flush_only (now : Int) (s : Store) (refused : ℕ → Bool) {j : ℕ} (hj : items[j]? = some item)
    (hrefused : refused j = true) :
    ∃ fault : FlushFault, fault.batch.insert.refused = refused ∧
      (flush now items fault s).2 = (saveGroupMessage now item.msg item.msgID item.topicSeq .none
        (saveGroupMessagesBatch now items fault.batch s).2).2 ∧
      (flush now items fault s).1[j]? =
        some (saveGroupMessage now item.msg item.msgID item.topicSeq .none
          (saveGroupMessagesBatch now items fault.batch s).2).1 := by
  obtain ⟨hlt, _⟩ := List.getElem?_eq_some_iff.mp hj
  refine ⟨⟨{ insert := { refused := refused } },
    fun i => if i = j then .none else { insert := .refuseAll }⟩, rfl, ?_⟩
  have hv : batchVerdict items.length
      (saveGroupMessagesBatch now items { insert := { refused := refused } } s).1 = none :=
    batchVerdict_of_refused hlt hrefused
  simp only [flush, hv]
  exact saveEach_only hj (by simp) (fun i hi => by simp [hi])

def SameMessage (a b : UpstreamMessage) : Prop :=
  a.topic = b.topic ∧ a.senderID = b.senderID ∧ a.clientMsgID = b.clientMsgID

/-- The message is stored already, or its row is free and whichever item wants a key of it is the
same message or cannot be stored either. -/
def SafeInBatch (now : Int) (item : GroupBatchItem) (peers : Peers) (s : Store) : Prop :=
  HoldsGroup s item.msg ∨
  (¬ Blocked messageKeys s.messages.rows (item.row now) ∧
    ∀ d ∈ peers.before ++ peers.after, Conflict messageKeys (d.row now) (item.row now) →
      SameMessage d.msg item.msg ∨ Blocked messageKeys s.messages.rows (d.row now))

theorem holdsGroup_row {x : StoredMessage} (hx : x ∈ s.messages.rows) {d : GroupBatchItem}
    (hd : x = d.row now) (hsame : SameMessage d.msg item.msg) : HoldsGroup s item.msg := by
  subst x
  exact ⟨_, hx, hsame⟩

theorem holdsGroup_flush_of_safe (h : SafeInBatch now item peers s) {fault : FlushFault}
    {dup : Bool}
    (hr : (flush now (peers.items item) fault s).1[peers.before.length]? = some (.ok dup)) :
    HoldsGroup (flush now (peers.items item) fault s).2 item.msg := by
  rcases h with hold | ⟨hfree, hpeers⟩
  · exact hold.mono subset_flush
  · have hj : (peers.items item)[peers.before.length]? = some item := by
      simp [items]
    rcases stored_or_blocked_flush hj hr with hmem | ⟨x, hx, hc⟩
    · exact ⟨_, hmem, rfl, rfl, rfl⟩
    · rcases mem_flush hx with hold | ⟨hnew, hxfree⟩
      · exact absurd ⟨x, hold, hc⟩ hfree
      · obtain ⟨d, hd, rfl⟩ := mem_map.mp hnew
        have hpos : d = item ∨ d ∈ peers.before ++ peers.after := by
          simp only [items, mem_append, mem_cons] at hd ⊢
          rcases hd with hd | hd | hd
          · exact .inr (.inl hd)
          · exact .inl hd
          · exact .inr (.inr hd)
        rcases hpos with rfl | hd
        · exact ⟨_, hx, rfl, rfl, rfl⟩
        · rcases hpeers d hd hc with hsame | hb
          · exact holdsGroup_row hx rfl hsame
          · exact absurd hb hxfree

/-- Whatever fails, a batch that stores the item has stored its message. -/
def FlushHolds (now : Int) (item : GroupBatchItem) (peers : Peers) (s : Store) : Prop :=
  ∀ fault dup, (flush now (peers.items item) fault s).1[peers.before.length]? = some (.ok dup) →
    HoldsGroup (flush now (peers.items item) fault s).2 item.msg

theorem FlushHolds.of_blocked (h : FlushHolds now item peers s) (refused : ℕ → Bool)
    (hself : refused peers.before.length = true) :
    ∃ fault : SaveFault, fault.insert.refused = refused ∧
      (Blocked messageKeys (saveGroupMessagesBatch now (peers.items item) fault s).2.messages.rows
          (item.row now) →
        HoldsGroup (saveGroupMessagesBatch now (peers.items item) fault s).2 item.msg) := by
  have hj : (peers.items item)[peers.before.length]? = some item := by simp [items]
  obtain ⟨fault, hrefused, hs, hr⟩ := flush_only now s refused hj hself
  refine ⟨fault.batch, hrefused, fun hblocked => ?_⟩
  have hdup : saveGroupMessage now item.msg item.msgID item.topicSeq .none _ = _ :=
    saveGroupMessage_none_of_blocked hblocked
  rw [hdup] at hs hr
  have hholds := h fault true hr
  rwa [hs] at hholds

theorem not_blocked_of_holdsGroup_flush (h : FlushHolds now item peers s)
    (hnew : ¬ HoldsGroup s item.msg) : ¬ Blocked messageKeys s.messages.rows (item.row now) := by
  intro hb
  obtain ⟨fault, hrefused, hholds⟩ := h.of_blocked (fun _ => true) rfl
  have hkeep : (saveGroupMessagesBatch now (peers.items item) fault s).2.messages =
      s.messages := by
    rw [saveGroupMessagesBatch_store]
    refine insertMany_refuseAll ?_
    intro i _
    rw [hrefused]
  rw [HoldsGroup, hkeep] at hholds
  exact hnew (hholds hb)

theorem peer_of_holdsGroup_flush (h : FlushHolds now item peers s) (hnew : ¬ HoldsGroup s item.msg)
    {d : GroupBatchItem} (hd : d ∈ peers.before ++ peers.after)
    (hc : Conflict messageKeys (d.row now) (item.row now)) :
    SameMessage d.msg item.msg ∨ Blocked messageKeys s.messages.rows (d.row now) := by
  by_cases hfree : Blocked messageKeys s.messages.rows (d.row now)
  · exact .inr hfree
  obtain ⟨p, hpj, hp⟩ : ∃ p, p ≠ peers.before.length ∧ (peers.items item)[p]? = some d := by
    rcases mem_append.mp hd with hd | hd
    · obtain ⟨p, hp⟩ := mem_iff_getElem?.mp hd
      obtain ⟨hlt, _⟩ := List.getElem?_eq_some_iff.mp hp
      exact ⟨p, by omega, by rw [items, getElem?_append_left hlt, hp]⟩
    · obtain ⟨p, hp⟩ := mem_iff_getElem?.mp hd
      refine ⟨peers.before.length + (p + 1), by omega, ?_⟩
      rw [items, getElem?_append_right (by omega)]
      simpa using hp
  obtain ⟨fault, hrefused, hholds⟩ :=
    h.of_blocked (fun i => decide (i ≠ p)) (by simpa using Ne.symm hpj)
  have hrows : (saveGroupMessagesBatch now (peers.items item) fault s).2.messages.rows =
      s.messages.rows ++ [d.row now] := by
    rw [saveGroupMessagesBatch_store]
    refine insertMany_only (p := p) ?_ hfree ?_ ?_
    · simp [hp]
    · rw [hrefused]
      simp
    · intro i hi
      rw [hrefused]
      simpa using hi
  rw [HoldsGroup, hrows] at hholds
  obtain ⟨r, hmem, hsame⟩ := hholds ⟨d.row now, by simp, hc⟩
  rcases mem_append.mp hmem with hold | hlast
  · exact absurd ⟨r, hold, hsame⟩ hnew
  · rw [mem_singleton.mp hlast] at hsame
    exact .inl hsame

theorem holdsGroup_flush_iff : FlushHolds now item peers s ↔ SafeInBatch now item peers s := by
  constructor
  · intro h
    by_cases hold : HoldsGroup s item.msg
    · exact .inl hold
    · exact .inr ⟨not_blocked_of_holdsGroup_flush h hold,
        fun d hd hc => peer_of_holdsGroup_flush h hold hd hc⟩
  · intro h fault dup hr
    exact holdsGroup_flush_of_safe h hr

end

end NonokaIM
