import NonokaIM.Model.AgentHandle

/-! # The turns that the model is given

The loop starts at the oldest turn and stops at the first one that is too much. -/

namespace NonokaIM

open WithinBudget List AgentTurn ContextHarness

/-- A run of most recent turns, oldest first. -/
structure IsRecent (turns kept : List AgentTurn) : Prop where
  mem : ∀ row ∈ kept, row ∈ turns
  ordered : kept.Pairwise fun a b => a.createdAt < b.createdAt
  newest : ∀ row ∈ turns, ∀ other ∈ kept, other.createdAt < row.createdAt → row ∈ kept

/-- The longest run of most recent turns, at most `limit` of them, that fits beside `used`. -/
structure IsRecentContext (turns : List AgentTurn) (limit budget used : ℕ)
    (kept : List AgentTurn) : Prop where
  recent : IsRecent turns kept
  limited : kept.length ≤ limit
  fits : kept = [] ∨ Fits cost budget used kept
  longest : ∀ other, IsRecent turns other → other.length ≤ limit →
    Fits cost budget used other → other.length ≤ kept.length

def newestFirst (turns : List AgentTurn) : List AgentTurn :=
  turns.insertionSort fun a b => b.createdAt ≤ a.createdAt

variable {turns kept rows : List AgentTurn} {limit budget used : ℕ}

theorem mem_newestFirst {row : AgentTurn} : row ∈ newestFirst turns ↔ row ∈ turns :=
  mem_insertionSort _

theorem newestFirst_pairwise (hdistinct : (turns.map createdAt).Nodup) :
    (newestFirst turns).Pairwise fun a b => b.createdAt < a.createdAt := by
  have htotal : Std.Total fun a b : AgentTurn => b.createdAt ≤ a.createdAt :=
    ⟨fun a b => Int.le_total b.createdAt a.createdAt⟩
  have htrans : IsTrans AgentTurn fun a b => b.createdAt ≤ a.createdAt :=
    ⟨fun a b c hab hbc => Int.le_trans hbc hab⟩
  have hsorted : (newestFirst turns).Pairwise fun a b => b.createdAt ≤ a.createdAt :=
    pairwise_insertionSort _ turns
  have hne : (newestFirst turns).Pairwise fun a b => a.createdAt ≠ b.createdAt := by
    have hperm := (perm_insertionSort
      (fun a b : AgentTurn => b.createdAt ≤ a.createdAt) turns).map createdAt
    exact pairwise_map.mp (hperm.nodup_iff.mpr hdistinct)
  refine (hsorted.and hne).imp fun h => ?_
  omega

theorem eq_take_of_newest {sorted xs : List AgentTurn}
    (hsorted : sorted.Pairwise fun a b => b.createdAt < a.createdAt)
    (hxs : xs.Pairwise fun a b => b.createdAt < a.createdAt) (hmem : ∀ row ∈ xs, row ∈ sorted)
    (hnewest : ∀ row ∈ sorted, ∀ other ∈ xs, other.createdAt < row.createdAt → row ∈ xs) :
    xs = sorted.take xs.length := by
  induction sorted generalizing xs with
  | nil =>
    have hnil : xs = [] := eq_nil_iff_forall_not_mem.mpr fun row hrow =>
      absurd (hmem row hrow) not_mem_nil
    rw [hnil]
    rfl
  | cons d sorted ih =>
    cases xs with
    | nil => rfl
    | cons x xs =>
      obtain ⟨hd, hrest⟩ := pairwise_cons.mp hsorted
      obtain ⟨hx, hxrest⟩ := pairwise_cons.mp hxs
      -- the newest entry of all is the newest entry of the run
      have hhead : x = d := by
        rcases mem_cons.mp (hmem x mem_cons_self) with heq | hin
        · exact heq
        · have hlt := hd x hin
          rcases mem_cons.mp (hnewest d mem_cons_self x mem_cons_self hlt) with heq | hlater
          · exact heq.symm
          · exact absurd (hx d hlater) (Int.lt_asymm hlt)
      subst hhead
      have htail := ih hrest hxrest (fun row hrow => ?_) (fun row hrow other hother hlt => ?_)
      · rw [length_cons, take_succ_cons, ← htail]
      · rcases mem_cons.mp (hmem row (mem_cons_of_mem _ hrow)) with heq | hin
        · exact absurd (hx row hrow) (heq ▸ Int.lt_irrefl _)
        · exact hin
      · rcases mem_cons.mp (hnewest row (mem_cons_of_mem _ hrow) other
          (mem_cons_of_mem _ hother) hlt) with heq | hin
        · exact absurd (hd row hrow) (heq ▸ Int.lt_irrefl _)
        · exact hin

theorem isRecent_iff (hdistinct : (turns.map createdAt).Nodup) :
    IsRecent turns kept ↔
      ∃ j ≤ (newestFirst turns).length, kept = ((newestFirst turns).take j).reverse := by
  have hsorted := newestFirst_pairwise hdistinct
  constructor
  · rintro ⟨hmem, hordered, hnewest⟩
    have htake := eq_take_of_newest hsorted (pairwise_reverse.mpr hordered)
      (fun row hrow => mem_newestFirst.mpr (hmem row (mem_reverse.mp hrow)))
      (fun row hrow other hother hlt => mem_reverse.mpr
        (hnewest row (mem_newestFirst.mp hrow) other (mem_reverse.mp hother) hlt))
    refine ⟨kept.reverse.length, ?_, ?_⟩
    · have hle := congrArg length htake
      rw [length_take] at hle
      omega
    · rw [← htake, reverse_reverse]
  · rintro ⟨j, -, rfl⟩
    refine ⟨fun row hrow => ?_, ?_, fun row hrow other hother hlt => ?_⟩
    · exact mem_newestFirst.mp (mem_of_mem_take (mem_reverse.mp hrow))
    · exact pairwise_reverse.mpr (hsorted.sublist (take_sublist j _))
    · rw [mem_reverse] at hother ⊢
      have hrow := mem_newestFirst.mpr hrow
      rw [← take_append_drop j (newestFirst turns)] at hsorted hrow
      rcases mem_append.mp hrow with hin | hout
      · exact hin
      · exact absurd ((pairwise_append.mp hsorted).2.2 other hother row hout) (Int.lt_asymm hlt)

theorem isRecent_limited_iff (hdistinct : (turns.map createdAt).Nodup) :
    IsRecent turns kept ∧ kept.length ≤ limit ↔
      ∃ j ≤ ((newestFirst turns).take limit).length,
        kept = (((newestFirst turns).take limit).take j).reverse := by
  rw [isRecent_iff hdistinct]
  constructor
  · rintro ⟨⟨j, hj, rfl⟩, hlimit⟩
    rw [length_reverse, length_take] at hlimit
    refine ⟨j, by rw [length_take]; omega, ?_⟩
    rw [take_take, Nat.min_eq_left (by omega)]
  · rintro ⟨j, hj, rfl⟩
    rw [length_take] at hj
    rw [take_take, Nat.min_eq_left (by omega)]
    refine ⟨⟨j, by omega, rfl⟩, ?_⟩
    rw [length_reverse, length_take]
    omega

theorem fits_reverse : Fits cost budget used kept.reverse ↔
    Fits cost budget used kept := by
  rw [Fits, Fits, map_reverse, sum_reverse]

theorem isRecentContext_iff (hdistinct : (turns.map createdAt).Nodup)
    (hrows : (newestFirst turns).take limit = rows) :
    IsRecentContext turns limit budget used kept ↔
      ∃ k, Leading cost budget used rows k ∧ kept = (rows.take k).reverse := by
  have hrecent (other : List AgentTurn) : IsRecent turns other ∧ other.length ≤ limit ↔
      ∃ j ≤ rows.length, other = (rows.take j).reverse := by
    rw [isRecent_limited_iff hdistinct, hrows]
  have hlength {j : ℕ} (hj : j ≤ rows.length) : ((rows.take j).reverse).length = j := by
    rw [length_reverse, length_take, Nat.min_eq_left hj]
  constructor
  · intro h
    obtain ⟨k, hk, rfl⟩ := (hrecent kept).mp ⟨h.recent, h.limited⟩
    refine ⟨k, ⟨hk, ?_, fun hlt hfits => ?_⟩, rfl⟩
    · refine h.fits.imp (fun hnil => ?_) fits_reverse.mp
      rw [← hlength hk, hnil, length_nil]
    · obtain ⟨hnext, hlimit⟩ := (hrecent _).mpr ⟨k + 1, hlt, rfl⟩
      have hle := h.longest _ hnext hlimit (fits_reverse.mpr hfits)
      rw [hlength hk, hlength hlt] at hle
      exact Nat.not_succ_le_self k hle
  · rintro ⟨k, hk, rfl⟩
    obtain ⟨hkept, hlimit⟩ := (hrecent _).mpr ⟨k, hk.le, rfl⟩
    refine ⟨hkept, hlimit, ?_, fun other hother hshort hfits => ?_⟩
    · refine hk.fits.imp (fun hzero => ?_) fits_reverse.mpr
      rw [hzero, take_zero, reverse_nil]
    · obtain ⟨j, hj, rfl⟩ := (hrecent other).mp ⟨hother, hshort⟩
      rw [hlength hj, hlength hk.le]
      by_contra hgt
      exact hk.full (by omega) ((fits_reverse.mp hfits).take_of_le (by omega))

section

variable (h : ContextHarness) (agentID actorID : Int) (topic content : String)

def ContextHarness.textSize : ℕ := (truncateRunText content h.budget).utf8ByteSize

theorem ContextHarness.limit_pos : 0 < h.limit := by
  unfold limit
  split <;> omega

theorem recentTurns_eq (turns : List AgentTurn) :
    recentTurns turns agentID actorID topic h.limit =
      (newestFirst (turns.filter (ofSession agentID actorID topic))).take h.limit.toNat := by
  have hpos := h.limit_pos
  simp only [recentTurns, if_neg (show ¬ h.limit ≤ 0 by omega), newestFirst]

/-- The history is the longest run of recent turns that fits exactly if as many oldest rows fit as
newest ones, with the same texts. -/
theorem recent_history_iff (turns : List AgentTurn) (hdistinct : (turns.map createdAt).Nodup) :
    (∃ kept, IsRecentContext (turns.filter (ofSession agentID actorID topic)) h.limit.toNat
        h.budget (h.textSize content) kept ∧
      (h.runtimeInput content (recentTurns turns agentID actorID topic h.limit)).history =
        kept.map turn) ↔
      ∃ k, Leading cost h.budget (h.textSize content)
          (recentTurns turns agentID actorID topic h.limit) k ∧
        Leading cost h.budget (h.textSize content)
          (recentTurns turns agentID actorID topic h.limit).reverse k ∧
        ((recentTurns turns agentID actorID topic h.limit).reverse.take k).map turn =
          ((recentTurns turns agentID actorID topic h.limit).take k).reverse.map
            turn := by
  have hsession : ((turns.filter (ofSession agentID actorID topic)).map createdAt).Nodup :=
    hdistinct.sublist (filter_sublist.map _)
  simp only [isRecentContext_iff hsession (recentTurns_eq h agentID actorID topic turns).symm]
  generalize recentTurns turns agentID actorID topic h.limit = rows
  obtain ⟨m, hm, hkeep⟩ :=
    keep_spec cost h.budget (h.textSize content) rows.reverse
  have hhistory : (h.runtimeInput content rows).history =
      (rows.reverse.take m).map turn := congrArg (map turn) hkeep
  rw [hhistory]
  constructor
  · rintro ⟨_, ⟨k, hk, rfl⟩, htexts⟩
    have hlengths := congrArg length htexts
    have hmk : m = k := by
      have hle := hm.le
      have hle' := hk.le
      simp only [length_map, length_reverse, length_take] at hlengths hle
      omega
    subst hmk
    exact ⟨m, hk, hm, htexts⟩
  · rintro ⟨k, hk, hk', htexts⟩
    obtain rfl := hm.unique hk'
    exact ⟨_, ⟨m, hk, rfl⟩, htexts⟩

end

def smallHarness : ContextHarness where
  agentID := 10
  botID := 2
  sha256Hex := id
  isPrint := fun c => 32 ≤ c.toNat
  historyLimit := 8
  maxContextChars := 6

def oldTurn : AgentTurn := ⟨10, 1, "p2p_1_2", 1, "ab", "cd", 100⟩

def newTurn : AgentTurn := ⟨10, 1, "p2p_1_2", 2, "ef", "gh", 200⟩

/-- Three turns of the session and one of another. -/
def storedTurns : List AgentTurn :=
  [⟨10, 1, "p2p_1_2", 0, "xy", "z", 50⟩, oldTurn, ⟨10, 3, "p2p_2_3", 1, "uv", "w", 150⟩, newTurn]

theorem two_newest_turns_kept :
    (∃ kept, IsRecentContext (storedTurns.filter (ofSession 10 1 "p2p_1_2")) 2 10 2 kept ∧
      (runtimeInput { smallHarness with historyLimit := 2, maxContextChars := 10 }
        "hi" (recentTurns storedTurns 10 1 "p2p_1_2" 2)).history = kept.map turn) := by
  refine (recent_history_iff { smallHarness with historyLimit := 2, maxContextChars := 10 } 10 1
    "p2p_1_2" "hi" storedTurns (by decide)).mpr ?_
  exact ⟨2, by decide, by decide, by decide⟩

/-- Of two turns of which one fits, the older one is kept. -/
theorem newest_turn_left_out :
    (smallHarness.runtimeInput "hi"
      (recentTurns [oldTurn, newTurn] 10 1 "p2p_1_2" smallHarness.limit)).history =
        [oldTurn.turn] ∧
    ¬ ∃ kept, IsRecentContext ([oldTurn, newTurn].filter (ofSession 10 1 "p2p_1_2"))
        smallHarness.limit.toNat smallHarness.budget (smallHarness.textSize "hi") kept ∧
      (smallHarness.runtimeInput "hi"
        (recentTurns [oldTurn, newTurn] 10 1 "p2p_1_2" smallHarness.limit)).history =
          kept.map turn := by
  have hhistory : (smallHarness.runtimeInput "hi"
      (recentTurns [oldTurn, newTurn] 10 1 "p2p_1_2" smallHarness.limit)).history =
        [oldTurn.turn] := by decide
  refine ⟨hhistory, ?_⟩
  rintro ⟨kept, hkept, hturns⟩
  rw [hhistory] at hturns
  obtain ⟨row, rfl, hrow⟩ := map_eq_singleton_iff.mp hturns.symm
  have hin := hkept.recent.mem row mem_cons_self
  rcases mem_pair.mp (mem_of_mem_filter hin) with rfl | rfl
  · have hnew : newTurn ∈ [oldTurn] :=
      hkept.recent.newest newTurn (by decide) oldTurn mem_cons_self (by decide)
    exact absurd hnew (by decide)
  · exact absurd hrow (by decide)

end NonokaIM
