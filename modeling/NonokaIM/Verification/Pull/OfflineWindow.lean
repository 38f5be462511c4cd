import NonokaIM.Library.Window
import NonokaIM.Verification.Pull.History

/-! Which rows `GetOfflineMessages` returns; for a group, two lists that were cut before they are
united. -/

namespace NonokaIM

open DocumentStore SeqPages Window InboxMessage

def inboxSeqs (s : Store) (userID : Int) (topic : String) : Set ℕ :=
  {seq | ∃ r ∈ s.inboxes.rows, (r.userID = userID ∧ r.topic = topic) ∧ r.topicSeq = seq}

def groupSeqs (s : Store) (topic : String) : Set ℕ :=
  {seq | ∃ r ∈ s.messages.rows, r.topic = topic ∧ r.topicSeq = seq}

/-- The seqs of the user's inbox rows and, for a group, of its messages. -/
def offlineSeqs (s : Store) (userID : Int) (topic : String) : Set ℕ :=
  if parseTopicType topic = .group then inboxSeqs s userID topic ∪ groupSeqs s topic
  else inboxSeqs s userID topic

theorem query_firstAbove {ρ : Type} {seq : ρ → ℕ} {p q : ρ → Prop} [DecidablePred p]
    [DecidablePred q] {lastSeq : ℕ} {rows : List ρ} (hq : ∀ r, q r ↔ p r ∧ lastSeq < seq r)
    (hnodup : ((rows.filter fun r => p r).map seq).Nodup) (n : ℕ) :
    FirstAbove n lastSeq {x | ∃ r ∈ rows, p r ∧ seq r = x}
      (((ascending seq (rows.filter fun r => q r)).take n).map seq) := by
  have hseqs : (ascending seq (rows.filter fun r => q r)).map seq =
      after lastSeq (sort ((rows.filter fun r => p r).map seq)) := by
    rw [map_seq_ascending, after_sort, after, List.filter_map, List.filter_filter]
    congr 2
    apply List.filter_congr
    intro r _
    simp [hq, Bool.and_comm]
  have helements : {x | ∃ r ∈ rows, p r ∧ seq r = x} =
      {x | x ∈ sort ((rows.filter fun r => p r).map seq)} := by
    ext x
    simp [and_assoc]
  rw [List.map_take, hseqs, helements]
  exact firstAbove_take (sort_strict hnodup)

section

variable (s : Store) (userID : Int) (topic : String) (lastSeq n : ℕ)

theorem inbox_firstAbove :
    FirstAbove n lastSeq (inboxSeqs s userID topic)
      (((ascending topicSeq (s.inboxes.rows.filter fun r =>
        r.userID = userID ∧ r.topic = topic ∧ lastSeq < r.topicSeq)).take n).map topicSeq) := by
  apply query_firstAbove _ (inboxSeqs_nodup s userID topic)
  intro r
  exact and_assoc.symm

theorem group_firstAbove :
    FirstAbove n lastSeq (groupSeqs s topic)
      (((ascending StoredMessage.topicSeq (s.messages.rows.filter fun r =>
        r.topic = topic ∧ lastSeq < r.topicSeq)).take n).map StoredMessage.topicSeq) := by
  apply query_firstAbove _ (groupSeqs_nodup s topic)
  intro r
  exact Iff.rfl

end

theorem seq_mem_addMissing_iff {results more : List InboxMessage} {seq : ℕ} :
    seq ∈ (addMissing results more).map topicSeq ↔
      seq ∈ results.map topicSeq ∨ seq ∈ more.map topicSeq := by
  constructor
  · intro h
    obtain ⟨r, hr, rfl⟩ := List.mem_map.mp h
    cases mem_addMissing hr with
    | inl hres => exact .inl (List.mem_map_of_mem hres)
    | inr hmore => exact .inr (List.mem_map_of_mem hmore.1)
  · intro h
    cases h with
    | inl h =>
      obtain ⟨r, hr, rfl⟩ := List.mem_map.mp h
      exact List.mem_map_of_mem (subset_addMissing hr)
    | inr h =>
      obtain ⟨r, hr, rfl⟩ := List.mem_map.mp h
      exact List.mem_map.mpr (seq_mem_addMissing hr)

theorem ascending_strict {rows : List InboxMessage} (h : (rows.map topicSeq).Nodup) :
    ((ascending topicSeq rows).map topicSeq).Pairwise (· < ·) := by
  rw [map_seq_ascending]
  exact sort_strict h

/-- Without failing queries, the result is the window of all seqs above the last one. Only a seq
beyond the signed range makes the query fail by itself. -/
theorem offline_window (s : Store) (userID : Int) (topic : String) (lastSeq : ℕ) (limit : Int) :
    (∃ rows, getOfflineMessages s userID topic lastSeq limit {} = .ok rows ∧
      FirstAbove (clampLimit limit) lastSeq (offlineSeqs s userID topic) (rows.map topicSeq)) ∨
    (2 ^ 63 ≤ lastSeq ∧ getOfflineMessages s userID topic lastSeq limit {} =
      .error (toString lastSeq ++ " overflows int64")) := by
  rcases Nat.lt_or_ge lastSeq (2 ^ 63) with hseq | hseq
  swap
  · exact .inr ⟨hseq, by rw [getOfflineMessages, queryFault_of_le hseq]⟩
  rw [getOfflineMessages, queryFault_of_lt hseq]
  refine .inl ⟨_, rfl, ?_⟩
  have hinbox := inbox_firstAbove s userID topic lastSeq (clampLimit limit)
  by_cases hg : parseTopicType topic = .group
  · have hgroup := group_firstAbove s topic lastSeq (clampLimit limit)
    rw [offlineSeqs, if_pos hg, if_pos hg, List.map_take]
    simp only [getGroupMessages, queryFault_of_lt hseq, clampLimit_clampLimit]
    apply hinbox.union_take hgroup
    · apply ascending_strict
      exact nodup_addMissing (hinbox.ascending.imp Nat.ne_of_lt)
    · intro seq
      rw [map_seq_ascending, mem_sort, seq_mem_addMissing_iff, List.map_map]
      rfl
  · rw [offlineSeqs, if_neg hg, if_neg hg, ascending_take_ascending, List.take_take, Nat.min_self]
    exact hinbox

end NonokaIM
