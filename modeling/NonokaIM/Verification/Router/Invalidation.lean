import NonokaIM.Model.Router

/-! # Invalidation of the router's cache

An event does not reach a resolve that has read the sessions before the change. -/

namespace NonokaIM

open GuardedRun RouterState List SessionManager

/-- The event of the user's last change has been processed. -/
def Settled (s : RouterState) (userID : Int) : Prop :=
  (userID, s.changes userID) ∈ s.processed

/-- For a user with a processed last change, no resolve that looks the user up now gets from the
cache what was read before that change. -/
def RoutesFresh (s : RouterState) : Prop :=
  ∀ userID aliveNodes entry, Settled s userID →
    cacheHit s.now aliveNodes userID s.sessionCache = some entry →
    ¬ entry.seen < s.changes userID

/-- What is stored is empty, or is read after the last change of the user, or the event of that
change is still to come. -/
def StoresFresh (s : RouterState) : RouterOp → Prop
  | .advance i _ =>
    match (s.calls i).phase with
    | .storing (cmd :: _) =>
      liveNodeIDs (s.calls i).aliveNodes cmd.devices = [] ∨
        ¬ cmd.seen < s.changes cmd.userID ∨ ¬ Settled s cmd.userID
    | _ => True
  | _ => True

structure ChangesNumbered (s : RouterState) : Prop where
  pending : ∀ x ∈ s.pending, x.2 ≤ s.changes x.1.userID
  processed : ∀ x ∈ s.processed, x.2 ≤ s.changes x.1

variable {aliveNodes : List GatewayNodeInfo}

theorem cacheHit_of_none {now : ℕ} {userID : Int} {cache : SessionCache} (h : cache userID = none) :
    cacheHit now aliveNodes userID cache = none := by
  simp [cacheHit, validEntry, h]

theorem cacheHit_eq_some {now : ℕ} {userID : Int}
    {cache : SessionCache} {entry : SessionCacheEntry} :
    cacheHit now aliveNodes userID cache = some entry ↔
      cache userID = some entry ∧ now ≤ entry.expires ∧
        entry.nodeIDs.any (isAlive aliveNodes) = true := by
  simp [cacheHit, validEntry, Option.filter_eq_some_iff]

theorem any_isAlive_liveNodeIDs (aliveNodes : List GatewayNodeInfo)
    {devices : AList (fun _ : String => String)} (h : liveNodeIDs aliveNodes devices ≠ []) :
    (liveNodeIDs aliveNodes devices).any (isAlive aliveNodes) = true := by
  obtain ⟨nodeID, hmem⟩ := exists_mem_of_ne_nil _ h
  exact any_eq_true.mpr ⟨nodeID, hmem, (mem_liveNodeIDs.mp hmem).2⟩

/-! ## One step -/

variable {s s' : RouterState}

theorem RoutesFresh.mono (h : RoutesFresh s) (hnow : s.now ≤ s'.now)
    (hu : ∀ u, s'.sessionCache u = none ∨ ¬ Settled s' u ∨
      s'.sessionCache u = s.sessionCache u ∧ s'.changes u = s.changes u ∧
        (Settled s' u → Settled s u)) : RoutesFresh s' := by
  intro u aliveNodes entry hset hhit
  rcases hu u with hnone | hnot | ⟨hcache, hchanges, hback⟩
  · simp [cacheHit_of_none hnone] at hhit
  · exact absurd hset hnot
  · obtain ⟨hentry, hvalid, halive⟩ := cacheHit_eq_some.mp hhit
    rw [hchanges]
    exact h u aliveNodes entry (hback hset)
      (cacheHit_eq_some.mpr ⟨hcache ▸ hentry, Nat.le_trans hnow hvalid, halive⟩)

structure OnlyDrops (s s' : RouterState) : Prop where
  now : s.now ≤ s'.now
  changes : s'.changes = s.changes
  pending : s'.pending = s.pending
  processed : s'.processed = s.processed
  cache : ∀ u, s'.sessionCache u = none ∨ s'.sessionCache u = s.sessionCache u

theorem OnlyDrops.refl (s : RouterState) : OnlyDrops s s :=
  ⟨Nat.le_refl _, rfl, rfl, rfl, fun _ => .inr rfl⟩

theorem onlyDrops_setCall (s : RouterState) (i : ℕ) (call : ResolveCall) :
    OnlyDrops s (s.setCall i call) :=
  ⟨Nat.le_refl _, rfl, rfl, rfl, fun _ => .inr rfl⟩

theorem getCachedSession_cache (now : ℕ) (userID : Int) (cache : SessionCache) (u : Int) :
    (getCachedSession now userID cache).2 u = none ∨
      (getCachedSession now userID cache).2 u = cache u := by
  unfold getCachedSession invalidateSessionCache
  by_cases hu : u = userID
  · subst hu
    split <;> simp
  · split <;> simp [hu]

theorem onlyDrops_lookUp (s : RouterState) (i : ℕ) (userID : Int) (userIDs missing : List Int) :
    OnlyDrops s (s.lookUp i userID userIDs missing) := by
  have hcache := getCachedSession_cache s.now userID s.sessionCache
  dsimp only [lookUp]
  split <;> exact ⟨Nat.le_refl _, rfl, rfl, rfl, hcache⟩

theorem onlyDrops_read (s : RouterState) (i : ℕ) (err : Option String) (userID : Int)
    (missing : List Int) (cmds : List DeviceRead) :
    OnlyDrops s (s.read i err userID missing cmds) := by
  cases err <;> exact onlyDrops_setCall s i _

theorem onlyDrops_advance (s : RouterState) (i : ℕ) (err : Option String)
    (h : ∀ cmd cmds, (s.calls i).phase ≠ .storing (cmd :: cmds)) :
    OnlyDrops s (s.advance i err) := by
  dsimp only [advance]
  split
  · exact onlyDrops_lookUp ..
  · exact onlyDrops_setCall ..
  · exact onlyDrops_setCall ..
  · exact onlyDrops_read ..
  · exact onlyDrops_setCall ..
  · rename_i hphase
    exact absurd hphase (h _ _)
  · exact onlyDrops_setCall ..
  · exact OnlyDrops.refl s
  · exact OnlyDrops.refl s

theorem OnlyDrops.numbered (h : OnlyDrops s s') (hn : ChangesNumbered s) : ChangesNumbered s' := by
  refine ⟨?_, ?_⟩
  · rw [h.pending, h.changes]
    exact hn.pending
  · rw [h.processed, h.changes]
    exact hn.processed

theorem OnlyDrops.fresh (h : OnlyDrops s s') (hf : RoutesFresh s) : RoutesFresh s' := by
  refine hf.mono h.now fun u => ?_
  rcases h.cache u with hnone | hsame
  · exact .inl hnone
  · refine .inr (.inr ⟨hsame, congrFun h.changes u, fun hset => ?_⟩)
    rwa [Settled, h.processed, h.changes] at hset

theorem numbered_fresh_changed (hn : ChangesNumbered s) (hf : RoutesFresh s) (sessions : Sessions)
    (event : SessionChangeEvent) :
    ChangesNumbered (s.changed sessions event) ∧ RoutesFresh (s.changed sessions event) := by
  have hgrow : ∀ u, s.changes u ≤ (s.changed sessions event).changes u := by
    intro u
    by_cases hu : u = event.userID
    · subst hu
      simp [changed]
    · simp [changed, hu]
  refine ⟨⟨?_, ?_⟩, hf.mono (Nat.le_refl _) fun u => ?_⟩
  · intro x hx
    rcases mem_append.mp hx with hold | hnew
    · exact Nat.le_trans (hn.pending x hold) (hgrow _)
    · obtain rfl := mem_singleton.mp hnew
      simp [changed]
  · intro x hx
    exact Nat.le_trans (hn.processed x hx) (hgrow _)
  · by_cases hu : u = event.userID
    · subst hu
      refine .inr (.inl fun hset => ?_)
      have hle := hn.processed _ hset
      simp only [changed, Function.update_self] at hle
      exact Nat.not_succ_le_self _ hle
    · refine .inr (.inr ⟨rfl, by simp [changed, hu], fun hset => ?_⟩)
      simpa [Settled, changed, hu] using hset

theorem numbered_fresh_receive (hn : ChangesNumbered s) (hf : RoutesFresh s) (k : ℕ) :
    ChangesNumbered (s.receive k) ∧ RoutesFresh (s.receive k) := by
  unfold receive
  split
  · exact ⟨hn, hf⟩
  rename_i event change hk
  have hmem := mem_of_getElem? hk
  refine ⟨⟨?_, ?_⟩, hf.mono (Nat.le_refl _) fun u => ?_⟩
  · intro x hx
    exact hn.pending x (mem_of_mem_eraseIdx hx)
  · intro x hx
    rcases mem_cons.mp hx with rfl | hold
    · exact hn.pending _ hmem
    · exact hn.processed x hold
  · by_cases hu : u = event.userID
    · subst hu
      exact .inl (by simp [invalidateSessionCache])
    · refine .inr (.inr ⟨by simp [invalidateSessionCache, hu], rfl, fun hset => ?_⟩)
      simpa [Settled, hu] using hset

theorem routesFresh_store_iff (hf : RoutesFresh s) (i : ℕ) (cmd : DeviceRead)
    (cmds : List DeviceRead) :
    RoutesFresh (s.store i cmd cmds) ↔
      liveNodeIDs (s.calls i).aliveNodes cmd.devices = [] ∨
        ¬ cmd.seen < s.changes cmd.userID ∨ ¬ Settled s cmd.userID := by
  have hnew : (s.store i cmd cmds).sessionCache cmd.userID =
      some ⟨liveNodeIDs (s.calls i).aliveNodes cmd.devices, s.now + s.sessionCacheTTL,
        cmd.seen⟩ := by
    simp [store, setCachedSession]
  constructor
  · intro h
    by_contra hbad
    simp only [not_or, not_not] at hbad
    -- a lookup right after the store, with the same live nodes, gets the list
    have hhit : cacheHit s.now (s.calls i).aliveNodes cmd.userID (s.store i cmd cmds).sessionCache =
        some ⟨liveNodeIDs (s.calls i).aliveNodes cmd.devices, s.now + s.sessionCacheTTL,
          cmd.seen⟩ :=
      cacheHit_eq_some.mpr ⟨hnew, Nat.le_add_right _ _, any_isAlive_liveNodeIDs _ hbad.1⟩
    exact h cmd.userID (s.calls i).aliveNodes _ hbad.2.2 hhit hbad.2.1
  · intro hfresh u aliveNodes entry hset hhit
    by_cases hu : u = cmd.userID
    · subst hu
      obtain ⟨hentry, -, halive⟩ := cacheHit_eq_some.mp hhit
      obtain rfl := Option.some.inj (hnew.symm.trans hentry)
      rcases hfresh with hnil | hseen | hpending
      · simp [hnil] at halive
      · exact hseen
      · exact absurd hset hpending
    · have hcache : (s.store i cmd cmds).sessionCache u = s.sessionCache u := by
        simp [store, setCachedSession, hu]
      refine hf u aliveNodes entry hset ?_
      rw [cacheHit_eq_some] at hhit ⊢
      exact hcache ▸ hhit

theorem routerStep_fresh_iff (hn : ChangesNumbered s) (hf : RoutesFresh s) (op : RouterOp) :
    ChangesNumbered (routerStep s op) ∧ (RoutesFresh (routerStep s op) ↔ StoresFresh s op) := by
  cases op with
  | sleep d =>
    have h : OnlyDrops s { s with now := s.now + d } :=
      ⟨Nat.le_add_right _ _, rfl, rfl, rfl, fun _ => .inr rfl⟩
    exact ⟨h.numbered hn, iff_of_true (h.fresh hf) trivial⟩
  | setSession nodeID userID deviceID connID =>
    have h := numbered_fresh_changed hn hf (setSession ⟨nodeID⟩ userID deviceID connID s.sessions).1
      (setSession ⟨nodeID⟩ userID deviceID connID s.sessions).2
    exact ⟨h.1, iff_of_true h.2 trivial⟩
  | delSession nodeID userID deviceID connID =>
    simp only [routerStep]
    split
    · have h := numbered_fresh_changed hn hf
      exact ⟨(h _ _).1, iff_of_true (h _ _).2 trivial⟩
    · exact ⟨hn, iff_of_true hf trivial⟩
  | receive k =>
    have h := numbered_fresh_receive hn hf k
    exact ⟨h.1, iff_of_true h.2 trivial⟩
  | resolve i userIDs aliveNodes =>
    have h := onlyDrops_setCall s i { aliveNodes, phase := .looking userIDs [] }
    exact ⟨h.numbered hn, iff_of_true (h.fresh hf) trivial⟩
  | advance i err =>
    by_cases hphase : ∃ cmd cmds, (s.calls i).phase = .storing (cmd :: cmds)
    · obtain ⟨cmd, cmds, hphase⟩ := hphase
      simp only [routerStep, advance, StoresFresh, hphase]
      exact ⟨⟨hn.pending, hn.processed⟩, routesFresh_store_iff hf i cmd cmds⟩
    · have h := onlyDrops_advance s i err fun cmd cmds heq => hphase ⟨cmd, cmds, heq⟩
      refine ⟨h.numbered hn, iff_of_true (h.fresh hf) ?_⟩
      simp only [StoresFresh]
      split
      · rename_i heq
        exact absurd ⟨_, _, heq⟩ hphase
      · trivial

/-! ## Whole runs -/

/-- From any sessions and an empty cache, over any interleaving, a processed event keeps what was
read before its change out of every later answer from the cache, until the next change, exactly
when no resolve stores an outdated list after the event. -/
theorem invalidation_never_lost_iff (ttl : ℕ) (sessions : Sessions) (ops : List RouterOp) :
    (∀ done, done <+: ops →
        RoutesFresh (run routerStep { sessionCacheTTL := ttl, sessions } done)) ↔
      Along routerStep StoresFresh { sessionCacheTTL := ttl, sessions } ops := by
  have hinit : RoutesFresh { sessionCacheTTL := ttl, sessions } := by
    intro userID aliveNodes entry hset
    simp [Settled] at hset
  have hnumbered : ChangesNumbered { sessionCacheTTL := ttl, sessions } := ⟨by simp, by simp⟩
  have hiff : ∀ s op, ChangesNumbered s ∧ RoutesFresh s →
      (RoutesFresh (routerStep s op) ↔ StoresFresh s op) :=
    fun s op h => (routerStep_fresh_iff h.1 h.2 op).2
  have hstep : ∀ s op, ChangesNumbered s ∧ RoutesFresh s → RoutesFresh (routerStep s op) →
      ChangesNumbered (routerStep s op) ∧ RoutesFresh (routerStep s op) :=
    fun s op h hnext => ⟨(routerStep_fresh_iff h.1 h.2 op).1, hnext⟩
  rw [good_always_iff_along, and_iff_right hinit]
  exact along_congr hiff hstep ⟨hnumbered, hinit⟩

def storeAfterEvent : List RouterOp :=
  [.setSession "a" 1 "phone" "c1", .receive 0, .resolve 0 [1] [⟨"a", "a:1"⟩, ⟨"b", "b:1"⟩],
    .advance 0 none, .advance 0 none, .advance 0 none, .setSession "b" 1 "phone" "c2", .receive 0,
    .advance 0 none, .advance 0 none]

/-- The next resolve is sent to node `a`. -/
theorem stale_route_after_event :
    ¬ RoutesFresh (run routerStep { sessions := fun _ => {} } storeAfterEvent) := by
  intro h
  have hset : Settled (run routerStep { sessions := fun _ => {} } storeAfterEvent) 1 := by
    unfold Settled
    decide
  have hhit : cacheHit 0 [⟨"a", "a:1"⟩] 1
      (run routerStep { sessions := fun _ => {} } storeAfterEvent).sessionCache =
        some ⟨["a"], 5, 1⟩ := by decide
  have hold : 1 < (run routerStep { sessions := fun _ => {} } storeAfterEvent).changes 1 := by
    decide
  exact h 1 [⟨"a", "a:1"⟩] _ hset hhit hold

end NonokaIM
