import NonokaIM.Library.StampOnce
import NonokaIM.Verification.Gateway.Effects

/-! # Read receipts

Receipts in any order mark what the largest of them marks, and the first read time of a row
stays. -/

namespace NonokaIM

open DocumentStore StampOnce List Flag Prod

def inboxRead : Flag Int InboxMessage where
  isSet := InboxMessage.read
  set t r := { r with read := true, readAt := some t }
  isSet_set _ _ := rfl

def mentionRead : Flag Int MentionMessage where
  isSet := MentionMessage.read
  set t r := { r with read := true, readAt := some t }
  isSet_set _ _ := rfl

/-- In both collections exactly the rows that were read, or belong to the user and the topic and
have one of the seqs, are read; what was read keeps its time. -/
structure ReadUpTo (userID : Int) (topic : String) (upTo : ℕ → Prop) (s s' : GatewayStorage) :
    Prop where
  inboxes : Forall₂ (inboxRead.Marks fun r => r.userID = userID ∧ r.topic = topic ∧ upTo r.topicSeq)
    s.inboxes.rows s'.inboxes.rows
  mentions : Forall₂
    (mentionRead.Marks fun r => r.userID = userID ∧ r.topic = topic ∧ upTo r.topicSeq)
    s.mentionInboxes.rows s'.mentionInboxes.rows
  rest : s' = { s with inboxes := s'.inboxes, mentionInboxes := s'.mentionInboxes }

/-- The rows after a receipt that may have been broken off. -/
structure MayReadUpTo (userID : Int) (topic : String) (upTo : ℕ → Prop) (s s' : GatewayStorage) :
    Prop where
  inboxes : Forall₂
    (inboxRead.MayMark fun r => r.userID = userID ∧ r.topic = topic ∧ upTo r.topicSeq)
    s.inboxes.rows s'.inboxes.rows
  mentions : Forall₂
    (mentionRead.MayMark fun r => r.userID = userID ∧ r.topic = topic ∧ upTo r.topicSeq)
    s.mentionInboxes.rows s'.mentionInboxes.rows
  rest : s' = { s with inboxes := s'.inboxes, mentionInboxes := s'.mentionInboxes }

/-- Whether the rows of the two collections are read. -/
def GatewayStorage.readFlags (s : GatewayStorage) : List Bool × List Bool :=
  (s.inboxes.rows.map (·.read), s.mentionInboxes.rows.map (·.read))

variable {userID : Int} {topic : String} {upTo upTo' : ℕ → Prop} {s s' s'' : GatewayStorage}

theorem blind_inboxRead : inboxRead.Blind fun r =>
    r.userID = userID ∧ r.topic = topic ∧ upTo r.topicSeq := fun _ _ => Iff.rfl

theorem blind_mentionRead : mentionRead.Blind fun r =>
    r.userID = userID ∧ r.topic = topic ∧ upTo r.topicSeq := fun _ _ => Iff.rfl

theorem ReadUpTo.readFlags_eq (h : ReadUpTo userID topic upTo s s')
    (h' : ReadUpTo userID topic upTo s s'') : s'.readFlags = s''.readFlags :=
  Prod.ext (map_isSet_eq h.inboxes h'.inboxes) (map_isSet_eq h.mentions h'.mentions)

theorem ReadUpTo.congr (h : ReadUpTo userID topic upTo s s') (heq : ∀ q, upTo q ↔ upTo' q) :
    ReadUpTo userID topic upTo' s s' := by
  obtain rfl : upTo = upTo' := funext fun q => propext (heq q)
  exact h

theorem ReadUpTo.refl (s : GatewayStorage) : ReadUpTo userID topic (fun _ => False) s s where
  inboxes := forall₂_same.mpr fun r _ => (Marks.refl r).congr (by simp)
  mentions := forall₂_same.mpr fun r _ => (Marks.refl r).congr (by simp)
  rest := rfl

theorem ReadUpTo.trans (h : ReadUpTo userID topic upTo s s')
    (h' : ReadUpTo userID topic upTo' s' s'') :
    ReadUpTo userID topic (fun q => upTo q ∨ upTo' q) s s'' where
  inboxes := forall₂_trans
    (fun hr hr' => (hr.trans blind_inboxRead hr').congr (by simp only [← and_or_left]))
    h.inboxes h'.inboxes
  mentions := forall₂_trans
    (fun hr hr' => (hr.trans blind_mentionRead hr').congr (by simp only [← and_or_left]))
    h.mentions h'.mentions
  rest := by rw [h'.rest, h.rest]

theorem MayReadUpTo.refl (s : GatewayStorage) : MayReadUpTo userID topic upTo s s where
  inboxes := forall₂_same.mpr fun _ _ => ⟨.inl rfl, .inl⟩
  mentions := forall₂_same.mpr fun _ _ => ⟨.inl rfl, .inl⟩
  rest := rfl

theorem MayReadUpTo.again (h : MayReadUpTo userID topic upTo s s')
    (h' : ReadUpTo userID topic upTo s' s'') : ReadUpTo userID topic upTo s s'' where
  inboxes := forall₂_trans (fun hr hr' => hr.again blind_inboxRead hr') h.inboxes h'.inboxes
  mentions :=
    forall₂_trans (fun hr hr' => hr.again blind_mentionRead hr') h.mentions h'.mentions
  rest := by rw [h'.rest, h.rest]

/-! ## One receipt -/

variable {now : Int} {upToSeq : ℕ}

theorem updateFaultFor_of_lt {ρ : Type} (h : upToSeq < 2 ^ 63) (fault : UpdateFault ρ) :
    updateFaultFor upToSeq fault = fault := by
  rw [updateFaultFor, seqOverflow, if_pos h]

theorem marks_setInboxRead (h : upToSeq < 2 ^ 63) (now : Int) (r : InboxMessage) :
    inboxRead.Marks
      (fun r => r.userID = userID ∧ r.topic = topic ∧ upToSeq < 2 ^ 63 ∧ r.topicSeq ≤ upToSeq) r
      (if decide (r.userID = userID ∧ r.topic = topic ∧ r.topicSeq ≤ upToSeq ∧ r.read ≠ true) then
        (setInboxRead now).set r else r) := by
  have hmark := marks_ite (f := inboxRead) now
    (fun r => decide (r.userID = userID ∧ r.topic = topic ∧ r.topicSeq ≤ upToSeq)) r
  refine Marks.congr ?_ (by rw [and_iff_right h])
  simpa [inboxRead, setInboxRead, and_assoc] using hmark

theorem marks_setMentionRead (h : upToSeq < 2 ^ 63) (now : Int) (r : MentionMessage) :
    mentionRead.Marks
      (fun r => r.userID = userID ∧ r.topic = topic ∧ upToSeq < 2 ^ 63 ∧ r.topicSeq ≤ upToSeq) r
      (if decide (r.userID = userID ∧ r.topic = topic ∧ r.topicSeq ≤ upToSeq ∧ r.read ≠ true) then
        (setMentionRead now).set r else r) := by
  have hmark := marks_ite (f := mentionRead) now
    (fun r => decide (r.userID = userID ∧ r.topic = topic ∧ r.topicSeq ≤ upToSeq)) r
  refine Marks.congr ?_ (by rw [and_iff_right h])
  simpa [mentionRead, setMentionRead, and_assoc] using hmark

theorem mayMark_updateMany {ρ κ : Type} {keys : ρ → List κ} {f : Flag Int ρ} {c : Collection keys}
    {p : ρ → Bool} {u : Update keys} {test : ρ → Prop}
    (h : ∀ r, f.Marks test r (if p r then u.set r else r)) (fault : UpdateFault ρ) :
    Forall₂ (f.MayMark test) c.rows (updateMany c fault p u).1.rows := by
  have hmark : ∀ r, f.MayMark test r (if p r then u.set r else r) :=
    fun r => ⟨(h r).kept, (h r).isSet.mp⟩
  cases fault with
  | none => exact forall₂_map hmark c.rows
  | failed reached text =>
    refine forall₂_map (fun r => ?_) c.rows
    beta_reduce
    cases reached r with
    | true =>
      rw [Bool.and_true]
      exact hmark r
    | false =>
      rw [Bool.and_false]
      exact ⟨.inl rfl, .inl⟩

theorem mayReadUpTo_updateReadStatus (fault : ReadFault) :
    MayReadUpTo userID topic (fun q => upToSeq < 2 ^ 63 ∧ q ≤ upToSeq) s
      (updateReadStatus now userID topic upToSeq fault s).2 := by
  by_cases hseq : upToSeq < 2 ^ 63
  swap
  · obtain ⟨e, he⟩ := updateReadStatus_overflow now userID topic fault s hseq
    rw [he]
    exact .refl s
  obtain ⟨mentionInboxes, hmention, hstorage⟩ :=
    updateReadStatus_storage now userID topic upToSeq fault s
  rw [hstorage]
  refine ⟨?_, ?_, rfl⟩
  · exact mayMark_updateMany (marks_setInboxRead hseq now) _
  · rcases hmention with rfl | rfl
    · exact forall₂_same.mpr fun r _ => ⟨.inl rfl, .inl⟩
    · exact mayMark_updateMany (marks_setMentionRead hseq now) _

theorem readUpTo_updateReadStatus :
    ReadUpTo userID topic (fun q => upToSeq < 2 ^ 63 ∧ q ≤ upToSeq) s
      (updateReadStatus now userID topic upToSeq {} s).2 := by
  by_cases hseq : upToSeq < 2 ^ 63
  · have hstorage : (updateReadStatus now userID topic upToSeq {} s).2 =
        { s with
          inboxes := s.inboxes.update (fun r => r.userID = userID ∧ r.topic = topic ∧
            r.topicSeq ≤ upToSeq ∧ r.read ≠ true) (setInboxRead now)
          mentionInboxes := s.mentionInboxes.update (fun r => r.userID = userID ∧ r.topic = topic ∧
            r.topicSeq ≤ upToSeq ∧ r.read ≠ true) (setMentionRead now) } := by
      simp only [updateReadStatus, updateFaultFor_of_lt hseq, updateMany]
    rw [hstorage]
    exact ⟨forall₂_map (marks_setInboxRead hseq now) _,
      forall₂_map (marks_setMentionRead hseq now) _, rfl⟩
  · obtain ⟨e, he⟩ := updateReadStatus_overflow now userID topic {} s hseq
    rw [he]
    exact (ReadUpTo.refl s).congr fun q => iff_of_false not_false fun hq => hseq hq.1

/-! ## Many receipts -/

/-- One receipt after another, each with its time and its seq. -/
def readReceipts (userID : Int) (topic : String) (calls : List (Int × ℕ)) (s : GatewayStorage) :
    GatewayStorage :=
  calls.foldl (fun s call => (updateReadStatus call.1 userID topic call.2 {} s).2) s

def maxEncodable (seqs : List ℕ) : Option ℕ := (seqs.filter (· < 2 ^ 63)).max?

theorem le_maxEncodable_iff {seqs : List ℕ} {q : ℕ} :
    (∃ m ∈ maxEncodable seqs, q ≤ m) ↔ ∃ m ∈ seqs, m < 2 ^ 63 ∧ q ≤ m := by
  constructor
  · rintro ⟨m, hm, hq⟩
    obtain ⟨hmem, -⟩ := max?_eq_some_iff.mp hm
    obtain ⟨hseqs, hlt⟩ := mem_filter.mp hmem
    exact ⟨m, hseqs, of_decide_eq_true hlt, hq⟩
  · rintro ⟨m, hseqs, hlt, hq⟩
    have hmem : m ∈ seqs.filter (· < 2 ^ 63) := mem_filter.mpr ⟨hseqs, decide_eq_true hlt⟩
    obtain ⟨top, htop⟩ := Option.isSome_iff_exists.mp (isSome_max?_of_mem hmem)
    exact ⟨top, htop, Nat.le_trans hq ((max?_eq_some_iff.mp htop).2 m hmem)⟩

theorem readUpTo_readReceipts (calls : List (Int × ℕ)) :
    ReadUpTo userID topic (fun q => ∃ m ∈ calls.map snd, m < 2 ^ 63 ∧ q ≤ m) s
      (readReceipts userID topic calls s) := by
  induction calls generalizing s with
  | nil => exact (ReadUpTo.refl s).congr fun q => by simp
  | cons call calls ih =>
    refine (readUpTo_updateReadStatus.trans ih).congr fun q => ?_
    simp

/-- Read receipts commute and absorb each other. -/
theorem readReceipts_absorb (s : GatewayStorage) (userID : Int) (topic : String)
    (calls calls' : List (Int × ℕ))
    (hmax : maxEncodable (calls.map snd) = maxEncodable (calls'.map snd)) :
    (readReceipts userID topic calls s).readFlags = (readReceipts userID topic calls' s).readFlags ∧
    ReadUpTo userID topic (fun q => ∃ m ∈ maxEncodable (calls.map snd), q ≤ m) s
      (readReceipts userID topic calls s) ∧
    ∀ now now' upToSeq fault, (updateReadStatus now' userID topic upToSeq {}
          (updateReadStatus now userID topic upToSeq fault s).2).2.readFlags =
        (updateReadStatus now userID topic upToSeq {} s).2.readFlags ∧
      ReadUpTo userID topic (fun q => upToSeq < 2 ^ 63 ∧ q ≤ upToSeq) s
        (updateReadStatus now' userID topic upToSeq {}
          (updateReadStatus now userID topic upToSeq fault s).2).2 := by
  have hreads : ∀ cs : List (Int × ℕ),
      ReadUpTo userID topic (fun q => ∃ m ∈ maxEncodable (cs.map snd), q ≤ m) s
        (readReceipts userID topic cs s) :=
    fun cs => (readUpTo_readReceipts cs).congr fun q => le_maxEncodable_iff.symm
  refine ⟨?_, hreads calls, fun now now' upToSeq fault => ?_⟩
  · have hreads' := hreads calls'
    rw [← hmax] at hreads'
    exact (hreads calls).readFlags_eq hreads'
  · have hagain : ReadUpTo userID topic (fun q => upToSeq < 2 ^ 63 ∧ q ≤ upToSeq) s
        (updateReadStatus now' userID topic upToSeq {}
          (updateReadStatus now userID topic upToSeq fault s).2).2 :=
      (mayReadUpTo_updateReadStatus fault).again readUpTo_updateReadStatus
    exact ⟨hagain.readFlags_eq readUpTo_updateReadStatus, hagain⟩

def unreadMessages : GatewayStorage where
  inboxes := ⟨[⟨1, 7, "p2p_1_2", 2, 0, [], 0, 1, "", false, false, none, none, 0⟩,
    ⟨1, 8, "p2p_1_2", 2, 0, [], 0, 2, "", false, false, none, none, 0⟩,
    ⟨2, 7, "p2p_1_2", 2, 0, [], 0, 1, "", false, false, none, none, 0⟩], by decide⟩

theorem unreadMessages_absorb :
    maxEncodable ([(10, 1), (11, 2)].map snd) =
        maxEncodable ([((12 : Int), 2), (13, 1), (14, 2)].map snd) ∧
      (readReceipts 1 "p2p_1_2" [(10, 1), (11, 2)] unreadMessages).readFlags =
        (readReceipts 1 "p2p_1_2" [(12, 2), (13, 1), (14, 2)] unreadMessages).readFlags := by
  have hmax : maxEncodable ([((10 : Int), 1), (11, 2)].map snd) =
      maxEncodable ([((12 : Int), 2), (13, 1), (14, 2)].map snd) := by decide
  exact ⟨hmax, (readReceipts_absorb unreadMessages 1 "p2p_1_2" _ _ hmax).1⟩

/-- A receipt up to `2 ^ 63` cannot be encoded, and marks nothing. -/
theorem unreadMessages_overflow :
    (readReceipts 1 "p2p_1_2" [(10, 2 ^ 63)] unreadMessages).readFlags =
        ([false, false, false], []) ∧
      ¬ ReadUpTo 1 "p2p_1_2" (fun q => q ≤ 2 ^ 63) unreadMessages
        (readReceipts 1 "p2p_1_2" [(10, 2 ^ 63)] unreadMessages) := by
  refine ⟨by decide, fun hread => ?_⟩
  have hfirst := (forall₂_iff_get.mp hread.inboxes).2 0 (by decide) (by decide)
  exact absurd (hfirst.isSet.mpr (.inr (by decide))) (by decide)

end NonokaIM
