import NonokaIM.Verification.Pull.Pages
import NonokaIM.Library.LatestFirst

/-! One backward page. For a group, messages and mentions are cut before they are united. -/

namespace NonokaIM

open DocumentStore LatestFirst List InboxMessage SeqPages

def PullRequest.Backward (req : PullRequest) : Prop := 0 < req.endSeq ∨ req.lastSeq = 0
  deriving Decidable

/-- The seq in the filters of its queries. -/
def PullRequest.querySeq (req : PullRequest) : ℕ :=
  if req.Backward then req.endSeq else req.lastSeq

/-- The inbox of the user, or the messages of a group in the shape of inbox rows. -/
def mainRows (s : Store) (userID : Int) (topic : String) : List InboxMessage :=
  if parseTopicType topic = .group then
    (s.messages.rows.filter fun r => r.topic = topic).map (StoredMessage.toInbox userID)
  else s.inboxes.rows.filter fun r => r.userID = userID ∧ r.topic = topic

/-- The mentions of the user in a group in the shape of inbox rows. -/
def mentionRows (s : Store) (userID : Int) (topic : String) : List InboxMessage :=
  if parseTopicType topic = .group then
    (s.mentionInboxes.rows.filter fun r => r.userID = userID ∧ r.topic = topic).map
      (MentionMessage.toInbox userID)
  else []

section

variable (s : Store) (userID : Int) (topic : String)

theorem mainRows_seqs :
    (mainRows s userID topic).map topicSeq =
      (mainMessages s userID topic).map PullMessage.topicSeq := by
  unfold mainRows mainMessages
  split
  · rw [map_map, map_map]
    rfl
  · rw [map_map]
    rfl

theorem mentionRows_seqs :
    (mentionRows s userID topic).map topicSeq =
      (mentionMessages s userID topic).map PullMessage.topicSeq := by
  unfold mentionRows mentionMessages
  split
  · rw [map_map, map_map]
    rfl
  · rfl

theorem mainRows_nodup : ((mainRows s userID topic).map topicSeq).Nodup := by
  rw [mainRows_seqs]
  exact (sort_perm _).nodup_iff.mp (mainSeqs_nodup s userID topic)

theorem mentionRows_nodup : ((mentionRows s userID topic).map topicSeq).Nodup := by
  rw [mentionRows_seqs]
  exact (sort_perm _).nodup_iff.mp (mentionSeqs_nodup s userID topic)

end

section

variable {results more : List InboxMessage}

theorem subset_addMissing : results ⊆ addMissing results more := by
  induction more generalizing results with
  | nil => exact Subset.refl _
  | cons m more ih =>
    unfold addMissing at ih ⊢
    rw [foldl_cons]
    split
    · exact ih
    · exact Subset.trans (subset_append_left _ _) ih

theorem mem_addMissing {x : InboxMessage} (h : x ∈ addMissing results more) :
    x ∈ results ∨ (x ∈ more ∧ ∀ r ∈ results, r.topicSeq ≠ x.topicSeq) := by
  induction more generalizing results with
  | nil => exact .inl h
  | cons m more ih =>
    unfold addMissing at ih h
    rw [foldl_cons] at h
    split at h
    · rcases ih h with hx | ⟨hx, hnew⟩
      · exact .inl hx
      · exact .inr ⟨mem_cons_of_mem _ hx, hnew⟩
    · rename_i hmissing
      rcases ih h with hx | ⟨hx, hnew⟩
      · rcases mem_append.mp hx with hx | hx
        · exact .inl hx
        · rw [mem_singleton.mp hx]
          refine .inr ⟨mem_cons_self, ?_⟩
          simpa using hmissing
      · exact .inr ⟨mem_cons_of_mem _ hx, fun r hr => hnew r (mem_append_left _ hr)⟩

theorem seq_mem_addMissing {m : InboxMessage} (h : m ∈ more) :
    ∃ x ∈ addMissing results more, x.topicSeq = m.topicSeq := by
  induction more generalizing results with
  | nil => cases h
  | cons n more ih =>
    rcases mem_cons.mp h with rfl | h
    · have hrest : ∀ rs, addMissing rs (m :: more) =
          addMissing (if rs.any (·.topicSeq = m.topicSeq) then rs else rs ++ [m]) more :=
        fun _ => rfl
      rw [hrest]
      split
      · rename_i hthere
        obtain ⟨x, hx, hseq⟩ := any_eq_true.mp hthere
        exact ⟨x, subset_addMissing hx, by simpa using hseq⟩
      · exact ⟨m, subset_addMissing (by simp), rfl⟩
    · exact ih h

theorem nodup_addMissing (h : (results.map topicSeq).Nodup) :
    ((addMissing results more).map topicSeq).Nodup := by
  induction more generalizing results with
  | nil => exact h
  | cons m more ih =>
    unfold addMissing at ih ⊢
    rw [foldl_cons]
    split
    · exact ih h
    rename_i hmissing
    apply ih
    rw [map_append, map_singleton]
    apply nodup_append.mpr
    refine ⟨h, nodup_singleton _, ?_⟩
    intro a ha b hb
    obtain ⟨r, hr, rfl⟩ := mem_map.mp ha
    rw [mem_singleton.mp hb]
    have hne : ∀ r ∈ results, r.topicSeq ≠ m.topicSeq := by simpa using hmissing
    exact hne r hr

end

/-! ## One page -/

def cursor (endSeq : ℕ) : Option ℕ := if endSeq = 0 then none else some endSeq

/-- The latest rows before a seq, as one query returns them. -/
def older (endSeq fetch : ℕ) (rows : List InboxMessage) : List InboxMessage :=
  (descending topicSeq (rows.filter fun r => endSeq = 0 ∨ r.topicSeq < endSeq)).take fetch

def mergedHistory (s : Store) (userID : Int) (topic : String) (endSeq : ℕ) (limit : Int) :
    List InboxMessage :=
  addMissing (older endSeq (clampLimit limit + 1) (mainRows s userID topic))
    (older endSeq (clampLimit limit + 1) (mentionRows s userID topic))

section

variable {ρ σ : Type} {seq : ρ → ℕ}

theorem map_descending {seq' : σ → ℕ} {f : ρ → σ} (h : ∀ r, seq' (f r) = seq r) (rows : List ρ) :
    (descending seq rows).map f = descending seq' (rows.map f) := by
  apply map_insertionSort
  intro a _ b _
  rw [h, h]

theorem map_seq_descending (rows : List ρ) :
    (descending seq rows).map seq = sortDown (rows.map seq) := by
  apply map_insertionSort
  intro a _ b _
  exact Iff.rfl

theorem mem_descending {rows : List ρ} {r : ρ} : r ∈ descending seq rows ↔ r ∈ rows :=
  mem_insertionSort _

end

variable {endSeq : ℕ}

theorem older_map {ρ : Type} (seq : ρ → ℕ) {f : ρ → InboxMessage} {p q : ρ → Bool}
    (h : ∀ r, (f r).topicSeq = seq r) (hq : ∀ r, q r = (p r && (endSeq = 0 ∨ seq r < endSeq)))
    (rows : List ρ) (fetch : ℕ) :
    older endSeq fetch ((rows.filter p).map f) =
      ((descending seq (rows.filter q)).take fetch).map f := by
  have hfilter : ((rows.filter p).map f).filter (fun r => endSeq = 0 ∨ r.topicSeq < endSeq) =
      (rows.filter q).map f := by
    rw [filter_map, filter_filter]
    congr 1
    apply filter_congr
    intro r _
    simp [h, hq, Bool.and_comm]
  rw [older, hfilter, map_take, map_descending h]

theorem getHistoryMessages_eq {topic : String} (ht : parseTopicType topic ≠ .unknown) (s : Store)
    (userID : Int) (hseq : endSeq < 2 ^ 63) (limit : Int) :
    getHistoryMessages s userID topic endSeq limit {} =
      .ok (((descending topicSeq (mergedHistory s userID topic endSeq limit)).take
          (clampLimit limit)).reverse,
        clampLimit limit < (mergedHistory s userID topic endSeq limit).length) := by
  have hinbox : older endSeq (clampLimit limit + 1)
      (s.inboxes.rows.filter fun r => r.userID = userID ∧ r.topic = topic) =
      (descending topicSeq (s.inboxes.rows.filter fun r =>
        r.userID = userID ∧ r.topic = topic ∧ (endSeq = 0 ∨ r.topicSeq < endSeq))).take
        (clampLimit limit + 1) := by
    rw [older, filter_filter]
    congr 2
    apply filter_congr
    intro r _
    simp only [Bool.decide_and]
    rw [Bool.and_comm, Bool.and_assoc]
  unfold getHistoryMessages mergedHistory mainRows mentionRows
  simp only [queryFault_of_lt hseq]
  cases htype : parseTopicType topic with
  | unknown => exact absurd htype ht
  | group =>
    simp only [reduceIte]
    rw [older_map StoredMessage.topicSeq (fun _ => rfl)
        (q := fun r => r.topic = topic ∧ (endSeq = 0 ∨ r.topicSeq < endSeq)) (by simp),
      older_map MentionMessage.topicSeq (fun _ => rfl)
        (q := fun r => r.userID = userID ∧ r.topic = topic ∧
          (endSeq = 0 ∨ r.topicSeq < endSeq)) (by simp [Bool.and_assoc])]
    simp
  | p2p | system =>
    simp only [reduceCtorEq, reduceIte, hinbox]
    simp [older, addMissing, descending]

theorem endSeq_lt_of_getHistoryMessages {s : Store} {userID : Int} {topic : String}
    {limit : Int} {fault : PullFault} {r : List InboxMessage × Bool}
    (h : getHistoryMessages s userID topic endSeq limit fault = .ok r) : endSeq < 2 ^ 63 := by
  by_contra hseq
  have hfault := queryFault_of_le (Nat.not_lt.mp hseq)
  unfold getHistoryMessages at h
  simp only [hfault] at h
  split at h <;> cases h

/-! ## The seqs of a page -/

theorem older_seqs (endSeq fetch : ℕ) {rows : List InboxMessage} (h : (rows.map topicSeq).Nodup) :
    (older endSeq fetch rows).map topicSeq =
      (below (cursor endSeq) (sortDown (rows.map topicSeq))).take fetch := by
  have hfilter : (rows.filter fun r => endSeq = 0 ∨ r.topicSeq < endSeq).map
      topicSeq = below (cursor endSeq) (rows.map topicSeq) := by
    rw [below, filter_map]
    congr 1
    apply filter_congr
    intro r _
    unfold cursor
    split <;> simp_all
  rw [older, map_take, map_seq_descending, hfilter, sortDown_below h]

section

variable (s : Store) (userID : Int) (topic : String)

/-- The seqs that the user can see, the latest first. -/
def visibleDown : List ℕ := sortDown (visibleSeqs s userID topic)

theorem visibleDown_strict : (visibleDown s userID topic).Pairwise (· > ·) :=
  sortDown_strict ((visibleSeqs_strict s userID topic).imp Nat.ne_of_lt)

theorem mem_visibleDown {seq : ℕ} :
    seq ∈ visibleDown s userID topic ↔
      seq ∈ (mainRows s userID topic).map topicSeq ∨
      seq ∈ (mentionRows s userID topic).map topicSeq := by
  rw [visibleDown, mem_sortDown, mem_visibleSeqs, mainRows_seqs, mentionRows_seqs, mainSeqs,
    mentionSeqs, mem_sort, mem_sort]

theorem mergedHistory_nodup (endSeq : ℕ) (limit : Int) :
    ((mergedHistory s userID topic endSeq limit).map topicSeq).Nodup := by
  apply nodup_addMissing
  rw [older_seqs endSeq _ (mainRows_nodup s userID topic)]
  have hstrict := below_pairwise (sortDown_strict (mainRows_nodup s userID topic)) (cursor endSeq)
  exact (hstrict.sublist (take_sublist _ _)).imp ne_of_gt

theorem mergedHistory_seqs (endSeq : ℕ) (limit : Int) :
    (sortDown ((mergedHistory s userID topic endSeq limit).map topicSeq)).take
        (clampLimit limit + 1) =
      (below (cursor endSeq) (visibleDown s userID topic)).take (clampLimit limit + 1) := by
  have hmain := mainRows_nodup s userID topic
  have hmention := mentionRows_nodup s userID topic
  apply take_union (below_pairwise (sortDown_strict hmain) (cursor endSeq))
    (below_pairwise (sortDown_strict hmention) (cursor endSeq))
    (sortDown_strict (mergedHistory_nodup s userID topic endSeq limit))
    (below_pairwise (visibleDown_strict s userID topic) _)
  · intro seq
    simp only [mem_below, mem_visibleDown, mem_sortDown]
    exact or_and_right
  · intro seq
    rw [mem_sortDown, ← older_seqs endSeq _ hmain, ← older_seqs endSeq _ hmention]
    constructor
    · intro h
      obtain ⟨r, hr, rfl⟩ := mem_map.mp h
      rcases mem_addMissing hr with hr | hr
      · exact .inl (mem_map_of_mem hr)
      · exact .inr (mem_map_of_mem hr.1)
    · rintro (h | h)
      · obtain ⟨r, hr, rfl⟩ := mem_map.mp h
        exact mem_map_of_mem (subset_addMissing hr)
      · obtain ⟨r, hr, rfl⟩ := mem_map.mp h
        obtain ⟨x, hx, hseq⟩ := seq_mem_addMissing hr
        exact mem_map.mpr ⟨x, hx, hseq⟩

theorem history_page {topic : String} (ht : parseTopicType topic ≠ .unknown) {endSeq : ℕ}
    (hseq : endSeq < 2 ^ 63) (limit : Int) :
    ∃ messages more, getHistoryMessages s userID topic endSeq limit {} = .ok (messages, more) ∧
      messages.map topicSeq =
        ((below (cursor endSeq) (visibleDown s userID topic)).take (clampLimit limit)).reverse ∧
      (more = true ↔
        clampLimit limit < (below (cursor endSeq) (visibleDown s userID topic)).length) := by
  refine ⟨_, _, getHistoryMessages_eq ht s userID hseq limit, ?_, ?_⟩
  · have htake := congrArg (take (clampLimit limit))
      (mergedHistory_seqs s userID topic endSeq limit)
    rw [take_take, take_take, Nat.min_eq_left (Nat.le_succ _)] at htake
    rw [map_reverse, map_take, map_seq_descending, htake]
  · have hlen := congrArg length (mergedHistory_seqs s userID topic endSeq limit)
    rw [length_take, length_take, (sortDown_perm _).length_eq, length_map] at hlen
    rw [decide_eq_true_eq]
    omega

end

end NonokaIM
