import NonokaIM.Model.PushService
import NonokaIM.Model.Pusher

/-! The workers of a batch push account for every position of the request once. -/

namespace NonokaIM

open Chunks List PushResult

variable (done : ℕ → Bool) (broadcast : ℕ → ℕ)

/-- A worker that starts at one position has seen that the context is done before it broadcasts to
the user at another. -/
def skippedFrom (start position : ℕ) : Bool :=
  (range' start (position + 1 - start)).any done

/-- The chunk of a position starts at the last multiple of the size before it. -/
def skipped (size position : ℕ) : Bool := skippedFrom done (position / size * size) position

def devicesAt (size position : ℕ) : ℕ :=
  if skipped done size position then 0 else broadcast position

/-- The broadcast for a position is skipped or reaches no device. -/
def failsAt (size position : ℕ) : Bool := skipped done size position || broadcast position = 0

theorem failsAt_eq (size position : ℕ) :
    failsAt done broadcast size position = decide (devicesAt done broadcast size position = 0) := by
  unfold failsAt devicesAt
  by_cases h : skipped done size position = true <;> simp [h]

variable {position start : ℕ}

theorem devicesAt_of_ne_zero {size : ℕ} (h : devicesAt done broadcast size position ≠ 0) :
    devicesAt done broadcast size position = broadcast position := by
  unfold devicesAt at h ⊢
  split
  · rename_i hskipped
    rw [if_pos hskipped] at h
    exact absurd rfl h
  · rfl

theorem skippedFrom_self (start : ℕ) : skippedFrom done start start = done start := by
  simp [skippedFrom]

theorem skippedFrom_of_done (h : done start = true) (hle : start ≤ position) :
    skippedFrom done start position = true := by
  apply any_eq_true.mpr
  exact ⟨start, mem_range'_1.mpr ⟨Nat.le_refl _, by omega⟩, h⟩

theorem skippedFrom_succ (h : done start = false) (hlt : start < position) :
    skippedFrom done (start + 1) position = skippedFrom done start position := by
  have hcount : position + 1 - start = position + 1 - (start + 1) + 1 := by omega
  rw [skippedFrom, skippedFrom, hcount, range'_succ, any_cons, h, Bool.false_or]

theorem pushChunk_eq (ids : List Int) (start : ℕ) :
    pushChunk done broadcast (ids.zipIdx start) = (ids.zipIdx start).map fun x =>
      ⟨x.1, x.2, if skippedFrom done start x.2 then 0 else broadcast x.2⟩ := by
  induction ids generalizing start with
  | nil => rfl
  | cons userID ids ih =>
    have hle : ∀ x ∈ (userID :: ids).zipIdx start, start ≤ x.2 :=
      fun x hx => (mem_zipIdx hx).1
    by_cases hdone : done start = true
    · rw [zipIdx_cons, pushChunk, if_pos hdone, ← zipIdx_cons]
      apply map_congr_left
      intro x hx
      rw [skippedFrom_of_done done hdone (hle x hx), if_pos rfl]
    · have hfalse : done start = false := by simpa using hdone
      rw [zipIdx_cons, pushChunk, if_neg hdone, ih, map_cons]
      simp only [skippedFrom_self, hfalse]
      congr 1
      apply map_congr_left
      intro x hx
      rw [skippedFrom_succ done hfalse (mem_zipIdx hx).1]

theorem start_of_mem_slice {userIDs : List Int} {size stop : ℕ} (hsize : 0 < size)
    (hstart : ∃ j, start = j * size ∧ stop ≤ start + size) {x : Int × ℕ}
    (hx : x ∈ (slice start stop userIDs).zipIdx start) : x.2 / size * size = start := by
  obtain ⟨j, rfl, hstop⟩ := hstart
  obtain ⟨hle, hlt, _⟩ := mem_zipIdx hx
  have hlen : (slice (j * size) stop userIDs).length ≤ stop - j * size := length_take_le _ _
  have hdiv : x.2 / size = j := by
    apply Nat.div_eq_of_lt_le hle
    rw [Nat.succ_mul]
    omega
  rw [hdiv]

theorem workerResults_eq {pushWorkers : ℕ} (hworkers : 0 < pushWorkers) (userIDs : List Int) :
    workerResults pushWorkers done broadcast userIDs = userIDs.zipIdx.map fun x =>
      ⟨x.1, x.2, devicesAt done broadcast (pushChunkSize userIDs.length pushWorkers) x.2⟩ := by
  by_cases hne : userIDs = []
  · subst hne
    rfl
  · have hlen : 0 < userIDs.length := length_pos_iff.mpr hne
    have hcount : 0 < min userIDs.length pushWorkers := Nat.lt_min.mpr ⟨hlen, hworkers⟩
    have hsize : 0 < pushChunkSize userIDs.length pushWorkers := chunkSize_pos hlen hcount
    have hall := flatMap_chunks userIDs.zipIdx hcount
    rw [length_zipIdx] at hall
    refine Eq.trans ?_ (congrArg (map _) hall)
    rw [workerResults, map_flatMap]
    apply flatMap_congr
    intro b hb
    rw [slice_zipIdx, pushChunk_eq]
    apply map_congr_left
    intro x hx
    rw [devicesAt, skipped, start_of_mem_slice hsize (mem_bounds hb) hx]

theorem collectResults_total (rs : List PushResult) :
    (collectResults rs).1 = (rs.map delivered).sum := by
  induction rs with
  | nil => rfl
  | cons r rs ih => rw [collectResults, ih, map_cons, sum_cons]

theorem collectResults_failed (rs : List PushResult) :
    (collectResults rs).2 = (rs.filter fun r => r.delivered = 0).map userID := by
  induction rs with
  | nil => rfl
  | cons r rs ih =>
    by_cases h : r.delivered = 0
    · simp [collectResults, ih, h]
    · simp [collectResults, ih, h]

section

variable {done broadcast}

theorem collectResults_spec {pushWorkers : ℕ} (hworkers : 0 < pushWorkers) {userIDs : List Int}
    {arrivals : List PushResult}
    (harrivals : arrivals.Perm (workerResults pushWorkers done broadcast userIDs)) :
    (arrivals.map PushResult.position).Perm (range userIDs.length) ∧
      (collectResults arrivals).1 = ((range userIDs.length).map
        (devicesAt done broadcast (pushChunkSize userIDs.length pushWorkers))).sum ∧
      (collectResults arrivals).2.Perm (usersWhere (fun i =>
        devicesAt done broadcast (pushChunkSize userIDs.length pushWorkers) i = 0) userIDs) := by
  rw [workerResults_eq done broadcast hworkers] at harrivals
  have hpositions : userIDs.zipIdx.map Prod.snd = range userIDs.length := by
    rw [zipIdx_map_snd, range_eq_range']
  refine ⟨?_, ?_, ?_⟩
  · rw [← hpositions]
    have h := harrivals.map position
    rwa [map_map] at h
  · have h := (harrivals.map delivered).sum_nat
    rw [map_map] at h
    rw [collectResults_total, h, ← hpositions, map_map]
    rfl
  · have h := (harrivals.filter fun r => r.delivered = 0).map userID
    rw [filter_map, map_map] at h
    rw [collectResults_failed]
    exact h

theorem sum_map_filter_ne_zero (f : ℕ → ℕ) (xs : List ℕ) :
    ((xs.filter fun i => f i ≠ 0).map f).sum = (xs.map f).sum := by
  induction xs with
  | nil => rfl
  | cons x xs ih =>
    by_cases h : f x = 0
    · simp only [h, map_cons, sum_cons, Nat.zero_add, ← ih]
      simp [h]
    · simp only [map_cons, sum_cons, ← ih]
      simp [h]

/-- Each position is accounted for once: the failed users are those at the positions that were
skipped or had no device, and the total is the sum of the deliveries at the others. -/
theorem positions_accounted_once {pushWorkers : ℕ} (hworkers : 0 < pushWorkers)
    (userIDs : List Int) {arrivals : List PushResult}
    (harrivals : arrivals.Perm (workerResults pushWorkers done broadcast userIDs)) :
    (arrivals.map PushResult.position).Perm (range userIDs.length) ∧
      (collectResults arrivals).2.Perm
        (usersWhere (failsAt done broadcast (pushChunkSize userIDs.length pushWorkers)) userIDs) ∧
      (collectResults arrivals).1 = (((range userIDs.length).filter fun i =>
        !failsAt done broadcast (pushChunkSize userIDs.length pushWorkers) i).map
          broadcast).sum := by
  obtain ⟨hpositions, htotal, hfailed⟩ := collectResults_spec hworkers harrivals
  have hfails := funext (failsAt_eq done broadcast (pushChunkSize userIDs.length pushWorkers))
  refine ⟨hpositions, ?_, ?_⟩
  · rw [hfails]
    exact hfailed
  · rw [htotal, ← sum_map_filter_ne_zero, hfails]
    simp only [← decide_not]
    congr 1
    apply map_congr_left
    intro i hi
    exact devicesAt_of_ne_zero done broadcast (by simpa using (mem_filter.mp hi).2)

/-- Three chunks of up to two users; the second worker sees at once that the context is done. -/
theorem fiveUsers_accounted :
    collectResults (workerResults (getPushWorkerCount 1) (fun i => i = 2) (fun i => i)
        [7, 8, 9, 7, 6]).reverse = (5, [7, 9, 7]) ∧
      (collectResults (workerResults (getPushWorkerCount 1) (fun i => i = 2) (fun i => i)
          [7, 8, 9, 7, 6]).reverse).2.Perm
        (usersWhere (failsAt (fun i => i = 2) (fun i => i) 2) [7, 8, 9, 7, 6]) :=
  ⟨by decide, (positions_accounted_once (getPushWorkerCount_pos 1) [7, 8, 9, 7, 6]
    (reverse_perm _)).2.1⟩

end

end NonokaIM
