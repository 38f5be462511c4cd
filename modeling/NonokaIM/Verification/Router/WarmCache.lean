import NonokaIM.Verification.Router.Invalidation

/-! # A resolve with a warm cache

A node that was not alive when the cache was filled is missing from it, unless all cached nodes are
dead. -/

namespace NonokaIM

open GuardedRun List RouterState Function

def RouterState.advances (i k : ℕ) (s : RouterState) : RouterState :=
  run routerStep s (List.replicate k (.advance i none))

def RouterState.resolveUserNodesWithNodes (s : RouterState) (userIDs : List Int)
    (aliveNodes : List GatewayNodeInfo) : RouterState :=
  (routerStep s (.resolve 0 userIDs aliveNodes)).advances 0 (3 * userIDs.length + 3)

/-- The nodes on which a call finds a user: those of the cache if one of them is alive, and
otherwise those in Redis. -/
def RouterState.nodesOf (s : RouterState) (aliveNodes : List GatewayNodeInfo) (userID : Int) :
    List String :=
  match cacheHit s.now aliveNodes userID s.sessionCache with
  | some entry => entry.nodeIDs.filter (isAlive aliveNodes)
  | none => liveNodeIDs aliveNodes (getDevices userID s.sessions)

section

variable {i k l : ℕ} {s : RouterState}

theorem advances_succ : s.advances i (k + 1) = (s.advance i none).advances i k := rfl

theorem advances_add : s.advances i (k + l) = (s.advances i k).advances i l := by
  rw [advances, replicate_add, run_append]
  rfl

theorem advances_returned (h : (s.calls i).phase = .returned) : s.advances i k = s := by
  induction k with
  | zero => rfl
  | succ k ih =>
    have hsame : s.advance i none = s := by
      simp only [advance, h]
    rw [advances_succ, hsame, ih]

end

theorem mem_addToNodes {userID u : Int} {nodeIDs : List String} {result : String → List Int}
    {n : String} :
    u ∈ addToNodes userID nodeIDs result n ↔ u ∈ result n ∨ (u = userID ∧ n ∈ nodeIDs) := by
  induction nodeIDs generalizing result with
  | nil => simp [addToNodes]
  | cons nodeID nodeIDs ih =>
    have hcons : addToNodes userID (nodeID :: nodeIDs) result =
        addToNodes userID nodeIDs (update result nodeID (result nodeID ++ [userID])) := rfl
    rw [hcons, ih]
    by_cases hn : n = nodeID
    · subst hn
      simp only [update_self, mem_append, mem_cons, true_or, and_true]
      tauto
    · simp [hn]

theorem cacheHit_getCachedSession (now : ℕ) (aliveNodes : List GatewayNodeInfo) (u userID : Int)
    (cache : SessionCache) :
    cacheHit now aliveNodes u (getCachedSession now userID cache).2 =
      cacheHit now aliveNodes u cache := by
  by_cases hvalid : (validEntry now userID cache).isSome = true
  · rw [getCachedSession, if_pos hvalid]
  rw [getCachedSession, if_neg hvalid]
  by_cases hu : u = userID
  · subst hu
    have hnone : validEntry now u cache = none := by simpa using hvalid
    rw [cacheHit_of_none (by simp [invalidateSessionCache]), cacheHit, hnone]
    rfl
  · simp [cacheHit, validEntry, invalidateSessionCache, hu]

/-! ## The three loops of a call -/

/-- `gain` are the users that a part of a call adds to each node; what it caches is read from the
sessions and filtered by the alive nodes. -/
structure Progress (i : ℕ) (gain : String → Int → Prop) (s s' : RouterState) : Prop where
  now : s'.now = s.now
  sessions : s'.sessions = s.sessions
  aliveNodes : (s'.calls i).aliveNodes = (s.calls i).aliveNodes
  result : ∀ n u, u ∈ (s'.calls i).result n ↔ u ∈ (s.calls i).result n ∨ gain n u
  entries : ∀ u entry, s'.sessionCache u = some entry →
    s.sessionCache u = some entry ∨
      entry.nodeIDs = liveNodeIDs (s.calls i).aliveNodes (getDevices u s.sessions)

namespace Progress

variable {i : ℕ} {s s' s'' : RouterState} {gain gain' : String → Int → Prop}

theorem refl (i : ℕ) (s : RouterState) : Progress i (fun _ _ => False) s s where
  now := rfl
  sessions := rfl
  aliveNodes := rfl
  result := by simp
  entries := fun _ _ => .inl

theorem trans (h : Progress i gain s s') (h' : Progress i gain' s' s'') :
    Progress i (fun n u => gain n u ∨ gain' n u) s s'' where
  now := h'.now.trans h.now
  sessions := h'.sessions.trans h.sessions
  aliveNodes := h'.aliveNodes.trans h.aliveNodes
  result := by
    intro n u
    rw [h'.result, h.result, or_assoc]
  entries := by
    intro u entry hentry
    rcases h'.entries u entry hentry with hold | hnew
    · exact h.entries u entry hold
    · rw [h.aliveNodes, h.sessions] at hnew
      exact .inr hnew

theorem congr (h : Progress i gain s s') (hgain : ∀ n u, gain n u ↔ gain' n u) :
    Progress i gain' s s' :=
  { h with result := fun n u => (h.result n u).trans (or_congr_right (hgain n u)) }

theorem setPhase (i : ℕ) (s : RouterState) (phase : ResolvePhase) :
    Progress i (fun _ _ => False) s (s.setCall i { s.calls i with phase }) where
  now := rfl
  sessions := rfl
  aliveNodes := by simp [setCall]
  result := by simp [setCall]
  entries := fun _ _ => .inl

end Progress

section

variable {i : ℕ} {s : RouterState}

def FoundInCache (s : RouterState) (aliveNodes : List GatewayNodeInfo) (n : String) (u : Int) :
    Prop :=
  ∃ entry, cacheHit s.now aliveNodes u s.sessionCache = some entry ∧
    n ∈ entry.nodeIDs.filter (isAlive aliveNodes)

theorem lookUp_spec (userID : Int) (userIDs missing : List Int) :
    Progress i (fun n u => u = userID ∧ FoundInCache s (s.calls i).aliveNodes n u) s
        (s.lookUp i userID userIDs missing) ∧
      ((s.lookUp i userID userIDs missing).calls i).phase = .looking userIDs (missing ++
        [userID].filter fun u => (cacheHit s.now (s.calls i).aliveNodes u s.sessionCache).isNone) ∧
      ∀ aliveNodes u, cacheHit s.now aliveNodes u (s.lookUp i userID userIDs missing).sessionCache =
        cacheHit s.now aliveNodes u s.sessionCache := by
  have hentries : ∀ u entry, (getCachedSession s.now userID s.sessionCache).2 u = some entry →
      s.sessionCache u = some entry ∨
        entry.nodeIDs = liveNodeIDs (s.calls i).aliveNodes (getDevices u s.sessions) := by
    intro u entry hentry
    rcases getCachedSession_cache s.now userID s.sessionCache u with hnone | hsame
    · rw [hnone] at hentry
      cases hentry
    · exact .inl (hsame ▸ hentry)
  have hhits := fun aliveNodes u =>
    cacheHit_getCachedSession s.now aliveNodes u userID s.sessionCache
  cases hhit : cacheHit s.now (s.calls i).aliveNodes userID s.sessionCache with
  | none =>
    simp only [lookUp, hhit]
    refine ⟨⟨rfl, rfl, by simp [setCall], ?_, hentries⟩, ?_, hhits⟩
    · intro n u
      have hno : ¬ (u = userID ∧ FoundInCache s (s.calls i).aliveNodes n u) := by
        rintro ⟨rfl, entry, hentry, _⟩
        rw [hhit] at hentry
        cases hentry
      simp [setCall, hno]
    · simp [setCall, hhit]
  | some entry =>
    simp only [lookUp, hhit]
    refine ⟨⟨rfl, rfl, by simp [setCall], ?_, hentries⟩, ?_, hhits⟩
    · intro n u
      simp only [setCall, update_self, mem_addToNodes]
      apply or_congr_right
      apply and_congr_right
      rintro rfl
      simp [FoundInCache, hhit]
    · simp [setCall, hhit]

variable {missing : List Int}

theorem advances_looking {userIDs : List Int} (h : (s.calls i).phase = .looking userIDs missing) :
    Progress i (fun n u => u ∈ userIDs ∧ FoundInCache s (s.calls i).aliveNodes n u) s
        (s.advances i userIDs.length) ∧
      ((s.advances i userIDs.length).calls i).phase = .looking [] (missing ++
        userIDs.filter fun u =>
          (cacheHit s.now (s.calls i).aliveNodes u s.sessionCache).isNone) := by
  induction userIDs generalizing s missing with
  | nil =>
    refine ⟨(Progress.refl i s).congr fun n u => ?_, ?_⟩
    · simp
    · rw [filter_nil, append_nil]
      exact h
  | cons userID userIDs ih =>
    obtain ⟨hfirst, hphase, hhits⟩ := lookUp_spec (i := i) (s := s) userID userIDs missing
    have hadvance : s.advance i none = s.lookUp i userID userIDs missing := by
      simp only [advance, h]
    obtain ⟨hrest, hlast⟩ := ih hphase
    have hfound : ∀ n u, FoundInCache (s.lookUp i userID userIDs missing)
        ((s.lookUp i userID userIDs missing).calls i).aliveNodes n u ↔
          FoundInCache s (s.calls i).aliveNodes n u := by
      intro n u
      rw [FoundInCache, FoundInCache, hfirst.now, hfirst.aliveNodes, hhits]
    rw [length_cons, advances_succ, hadvance]
    refine ⟨(hfirst.trans hrest).congr fun n u => ?_, ?_⟩
    · rw [hfound, mem_cons, or_and_right]
    · rw [hlast, hfirst.now, hfirst.aliveNodes]
      simp only [hhits, append_assoc]
      rw [← filter_append, singleton_append]

theorem advances_reading {cmds : List DeviceRead} (h : (s.calls i).phase = .reading missing cmds) :
    ∃ more : List DeviceRead, more.map DeviceRead.userID = missing ∧
      (∀ cmd ∈ more, cmd.devices = getDevices cmd.userID s.sessions) ∧
      Progress i (fun _ _ => False) s (s.advances i missing.length) ∧
      ((s.advances i missing.length).calls i).phase = .reading [] (cmds ++ more) := by
  induction missing generalizing s cmds with
  | nil => exact ⟨[], rfl, by simp, Progress.refl i s, by rw [append_nil]; exact h⟩
  | cons userID missing ih =>
    let cmd : DeviceRead := ⟨userID, getDevices userID s.sessions, s.changes userID⟩
    have hadvance : s.advance i none =
        s.setCall i { s.calls i with phase := .reading missing (cmds ++ [cmd]) } := by
      simp only [advance, h]
      rfl
    have hfirst := Progress.setPhase i s (.reading missing (cmds ++ [cmd]))
    have hphase : ((s.setCall i { s.calls i with
        phase := .reading missing (cmds ++ [cmd]) }).calls i).phase =
          .reading missing (cmds ++ [cmd]) := by
      simp [setCall]
    obtain ⟨more, husers, hread, hrest, hlast⟩ := ih hphase
    rw [length_cons, advances_succ, hadvance]
    refine ⟨cmd :: more, by simp [cmd, husers], ?_, (hfirst.trans hrest).congr (by simp), ?_⟩
    · intro c hc
      rcases mem_cons.mp hc with rfl | hc
      · rfl
      · exact hread c hc
    · rw [hlast, append_assoc]
      rfl

theorem store_spec {cmd : DeviceRead} (cmds : List DeviceRead)
    (hread : cmd.devices = getDevices cmd.userID s.sessions) :
    Progress i (fun n u => u = cmd.userID ∧
      n ∈ liveNodeIDs (s.calls i).aliveNodes (getDevices u s.sessions)) s (s.store i cmd cmds) where
  now := rfl
  sessions := rfl
  aliveNodes := by simp [store]
  result := by
    intro n u
    simp only [store, update_self, mem_addToNodes]
    apply or_congr_right
    apply and_congr_right
    rintro rfl
    rw [hread]
  entries := by
    intro u entry hentry
    by_cases hu : u = cmd.userID
    · subst hu
      right
      simp only [store, setCachedSession, update_self, Option.some.injEq] at hentry
      rw [← hentry, hread]
    · left
      simpa [store, setCachedSession, hu] using hentry

theorem advances_storing {cmds : List DeviceRead} (h : (s.calls i).phase = .storing cmds)
    (hread : ∀ cmd ∈ cmds, cmd.devices = getDevices cmd.userID s.sessions) :
    Progress i (fun n u => u ∈ cmds.map DeviceRead.userID ∧
        n ∈ liveNodeIDs (s.calls i).aliveNodes (getDevices u s.sessions)) s
        (s.advances i cmds.length) ∧
      ((s.advances i cmds.length).calls i).phase = .storing [] := by
  induction cmds generalizing s with
  | nil => exact ⟨(Progress.refl i s).congr (by simp), h⟩
  | cons cmd cmds ih =>
    have hadvance : s.advance i none = s.store i cmd cmds := by
      simp only [advance, h]
    have hfirst := store_spec (i := i) cmds (hread cmd mem_cons_self)
    have hphase : ((s.store i cmd cmds).calls i).phase = .storing cmds := by
      simp [store]
    obtain ⟨hrest, hlast⟩ := ih hphase fun c hc => hread c (mem_cons_of_mem _ hc)
    rw [length_cons, advances_succ, hadvance]
    refine ⟨(hfirst.trans hrest).congr fun n u => ?_, hlast⟩
    rw [hfirst.aliveNodes, hfirst.sessions, map_cons, mem_cons, or_and_right]

theorem advances_next (phase : ResolvePhase)
    (h : s.advance i none = s.setCall i { s.calls i with phase }) :
    Progress i (fun _ _ => False) s (s.advances i 1) ∧
      ((s.advances i 1).calls i).phase = phase := by
  have hone : s.advances i 1 = s.setCall i { s.calls i with phase } := h
  rw [hone]
  exact ⟨Progress.setPhase i s phase, by simp [setCall]⟩

theorem advances_missing (h : (s.calls i).phase = .looking [] missing) :
    ∃ k ≤ 2 * missing.length + 3, Progress i (fun n u => u ∈ missing ∧
        n ∈ liveNodeIDs (s.calls i).aliveNodes (getDevices u s.sessions)) s (s.advances i k) ∧
      ((s.advances i k).calls i).phase = .returned := by
  cases missing with
  | nil =>
    obtain ⟨hstep, hphase⟩ := advances_next (i := i) (s := s) .returned (by simp only [advance, h])
    exact ⟨1, by omega, hstep.congr (by simp), hphase⟩
  | cons userID missing =>
    obtain ⟨h1, hphase1⟩ := advances_next (i := i) (s := s)
      (.reading (userID :: missing) []) (by simp only [advance, h])
    obtain ⟨cmds, husers, hdevices, h2, hphase2⟩ := advances_reading hphase1
    obtain ⟨h3, hphase3⟩ := advances_next (i := i)
      (s := (s.advances i 1).advances i (userID :: missing).length) (.storing cmds)
      (by simp only [advance, hphase2, nil_append])
    obtain ⟨h4, hphase4⟩ := advances_storing hphase3 fun cmd hcmd => by
      rw [h3.sessions, h2.sessions]
      exact hdevices cmd hcmd
    obtain ⟨h5, hphase5⟩ := advances_next (i := i)
      (s := (((s.advances i 1).advances i (userID :: missing).length).advances i 1).advances i
        cmds.length) .returned (by simp only [advance, hphase4])
    have hbefore := (h1.trans h2).trans h3
    have hlen : cmds.length = (userID :: missing).length := by
      rw [← husers, length_map]
    refine ⟨1 + (userID :: missing).length + 1 + cmds.length + 1, by omega, ?_, ?_⟩
    · simp only [advances_add]
      refine ((hbefore.trans h4).trans h5).congr fun n u => ?_
      rw [hbefore.aliveNodes, hbefore.sessions, husers]
      simp
    · simp only [advances_add]
      exact hphase5

end

section

variable (s : RouterState) (userIDs : List Int) (aliveNodes : List GatewayNodeInfo)

theorem mem_nodesOf {n : String} {u : Int} :
    n ∈ s.nodesOf aliveNodes u ↔ FoundInCache s aliveNodes n u ∨
      (cacheHit s.now aliveNodes u s.sessionCache = none ∧
        n ∈ liveNodeIDs aliveNodes (getDevices u s.sessions)) := by
  unfold nodesOf FoundInCache
  cases cacheHit s.now aliveNodes u s.sessionCache <;> simp

theorem resolve_spec :
    ((s.resolveUserNodesWithNodes userIDs aliveNodes).calls 0).phase = .returned ∧
      Progress 0 (fun n u => u ∈ userIDs ∧ n ∈ s.nodesOf aliveNodes u)
        (routerStep s (.resolve 0 userIDs aliveNodes))
        (s.resolveUserNodesWithNodes userIDs aliveNodes) := by
  let start := routerStep s (.resolve 0 userIDs aliveNodes)
  let missing := userIDs.filter fun u => (cacheHit s.now aliveNodes u s.sessionCache).isNone
  have hcall : start.calls 0 = { aliveNodes, phase := .looking userIDs [] } := by
    simp [start, routerStep, setCall]
  have hlooking : (start.calls 0).phase = .looking userIDs [] := by rw [hcall]
  obtain ⟨hlook, hphase⟩ := advances_looking hlooking
  rw [hcall] at hlook
  have hlooked : ((start.advances 0 userIDs.length).calls 0).phase = .looking [] missing := by
    rw [hphase, hcall]
    rfl
  obtain ⟨k, hk, hmissing, hreturned⟩ := advances_missing hlooked
  rw [← advances_add] at hmissing hreturned
  have hfew : missing.length ≤ userIDs.length := length_filter_le _ _
  obtain ⟨rest, hrest⟩ :=
    Nat.exists_eq_add_of_le (by omega : userIDs.length + k ≤ 3 * userIDs.length + 3)
  have hend : s.resolveUserNodesWithNodes userIDs aliveNodes =
      start.advances 0 (userIDs.length + k) := by
    rw [resolveUserNodesWithNodes, hrest, advances_add, advances_returned hreturned]
  rw [hend]
  refine ⟨hreturned, (hlook.trans hmissing).congr fun n u => ?_⟩
  rw [hlook.aliveNodes, hlook.sessions, hcall, mem_nodesOf, mem_filter,
    Option.isNone_iff_eq_none, and_assoc, ← and_or_left]
  rfl

theorem resolve_result {n : String} {u : Int} :
    u ∈ ((s.resolveUserNodesWithNodes userIDs aliveNodes).calls 0).result n ↔
      u ∈ userIDs ∧ n ∈ s.nodesOf aliveNodes u := by
  rw [(resolve_spec s userIDs aliveNodes).2.result]
  simp [routerStep, setCall]

end

/-! ## Warm and cold -/

/-- Every entry of the cache was read from the sessions as they are; `filled` are the nodes that
were alive when the entry of a user was stored. -/
def Warm (filled : Int → List GatewayNodeInfo) (s : RouterState) : Prop :=
  ∀ u entry, s.sessionCache u = some entry →
    entry.nodeIDs = liveNodeIDs (filled u) (getDevices u s.sessions)

variable {s : RouterState}

theorem warm_of_empty (filled : Int → List GatewayNodeInfo)
    (h : ∀ u, s.sessionCache u = none) : Warm filled s := by
  intro u entry hentry
  rw [h u] at hentry
  cases hentry

variable {filled : Int → List GatewayNodeInfo}

theorem Warm.sleep (h : Warm filled s) (d : ℕ) :
    Warm filled (routerStep s (.sleep d)) := h

theorem Warm.resolve (h : Warm filled s) (userIDs : List Int) (aliveNodes : List GatewayNodeInfo) :
    ∃ filled', (∀ u, filled' u = filled u ∨ filled' u = aliveNodes) ∧
      Warm filled' (s.resolveUserNodesWithNodes userIDs aliveNodes) := by
  classical
  have hspec := (resolve_spec s userIDs aliveNodes).2
  let kept (u : Int) : Prop :=
    (s.resolveUserNodesWithNodes userIDs aliveNodes).sessionCache u = s.sessionCache u
  refine ⟨fun u => if kept u then filled u else aliveNodes, ?_, ?_⟩
  · intro u
    by_cases hkept : kept u <;> simp [hkept]
  · intro u entry hentry
    rw [hspec.sessions]
    dsimp only
    by_cases hkept : kept u
    · rw [if_pos hkept]
      exact h u entry (hkept ▸ hentry)
    · rw [if_neg hkept]
      rcases hspec.entries u entry hentry with hold | hnew
      · exact absurd (hentry.trans hold.symm) hkept
      · simpa [routerStep, setCall] using hnew

/-- For each user who is answered from the cache, the nodes with devices that are alive now were
alive when the entry was stored. -/
def FilledWithLive (filled : Int → List GatewayNodeInfo) (s : RouterState)
    (aliveNodes : List GatewayNodeInfo) (u : Int) : Prop :=
  (cacheHit s.now aliveNodes u s.sessionCache).isSome →
    ∀ n ∈ liveNodeIDs aliveNodes (getDevices u s.sessions), isAlive (filled u) n = true

/-- The call returns the same users for each node as it would with an empty cache. -/
def WarmAgreesWithCold (s : RouterState) (userIDs : List Int) (aliveNodes : List GatewayNodeInfo) :
    Prop :=
  ∀ n u, u ∈ ((s.resolveUserNodesWithNodes userIDs aliveNodes).calls 0).result n ↔
    u ∈ ((resolveUserNodesWithNodes { s with sessionCache := fun _ => none }
      userIDs aliveNodes).calls 0).result n

theorem nodesOf_cold (s : RouterState) (aliveNodes : List GatewayNodeInfo) (u : Int) :
    nodesOf { s with sessionCache := fun _ => none } aliveNodes u =
      liveNodeIDs aliveNodes (getDevices u s.sessions) := by
  rw [nodesOf, cacheHit_of_none rfl]

theorem nodesOf_warm_iff (h : Warm filled s) (aliveNodes : List GatewayNodeInfo) (u : Int) :
    (∀ n, n ∈ s.nodesOf aliveNodes u ↔ n ∈ liveNodeIDs aliveNodes (getDevices u s.sessions)) ↔
      FilledWithLive filled s aliveNodes u := by
  unfold nodesOf FilledWithLive
  cases hhit : cacheHit s.now aliveNodes u s.sessionCache with
  | none => simp
  | some entry =>
    simp only [h u entry (cacheHit_eq_some.mp hhit).1, Option.isSome_some, forall_const, mem_filter]
    constructor
    · intro hsame n hn
      exact (mem_liveNodeIDs.mp ((hsame n).mpr hn).1).2
    · intro hlive n
      constructor
      · intro hn
        exact mem_liveNodeIDs.mpr ⟨(mem_liveNodeIDs.mp hn.1).1, hn.2⟩
      · intro hn
        have hboth := mem_liveNodeIDs.mp hn
        exact ⟨mem_liveNodeIDs.mpr ⟨hboth.1, hlive n hn⟩, hboth.2⟩

/-- A call with a warm cache agrees with a cold one exactly if, for each of its users, the cached
nodes were stored while all nodes with devices that are alive now were alive. -/
theorem warm_agrees_with_cold_iff {filled : Int → List GatewayNodeInfo} {s : RouterState}
    (h : Warm filled s) (userIDs : List Int) (aliveNodes : List GatewayNodeInfo) :
    WarmAgreesWithCold s userIDs aliveNodes ↔
      ∀ u ∈ userIDs, FilledWithLive filled s aliveNodes u := by
  simp only [WarmAgreesWithCold, resolve_result, nodesOf_cold, ← nodesOf_warm_iff h]
  constructor
  · intro hsame u hu n
    simpa [hu] using hsame n u
  · intro hsame n u
    apply and_congr_right
    intro hu
    exact hsame u hu n

def coldRouter : RouterState where
  sessions := fun _ => { devices := (AList.insert "laptop" "b|c2" ∅).insert "phone" "a|c1" }

def warmRouter (aliveNodes : List GatewayNodeInfo) : RouterState :=
  coldRouter.resolveUserNodesWithNodes [1] aliveNodes

theorem warm_warmRouter (aliveNodes : List GatewayNodeInfo) :
    Warm (fun _ => aliveNodes) (warmRouter aliveNodes) := by
  have hcold : Warm (fun _ => aliveNodes) coldRouter := warm_of_empty _ fun _ => rfl
  obtain ⟨filled, hfilled, hwarm⟩ := hcold.resolve [1] aliveNodes
  have hsame : filled = fun _ => aliveNodes := by
    funext u
    exact (hfilled u).elim id id
  rw [hsame] at hwarm
  exact hwarm

/-- The nodes are still the same three seconds later. -/
theorem same_nodes_agree :
    WarmAgreesWithCold (routerStep (warmRouter [⟨"a", "a:1"⟩, ⟨"b", "b:1"⟩]) (.sleep 3)) [1]
      [⟨"a", "a:1"⟩, ⟨"b", "b:1"⟩] := by
  apply (warm_agrees_with_cold_iff ((warm_warmRouter _).sleep 3) [1] _).mpr
  intro u _ _ n hn
  exact (mem_liveNodeIDs.mp hn).2

/-- Node `b` was not alive when the cache was filled and is alive now: its user is not found
there. -/
theorem returned_node_missed :
    Warm (fun _ => [⟨"a", "a:1"⟩]) (warmRouter [⟨"a", "a:1"⟩]) ∧
      ¬ WarmAgreesWithCold (warmRouter [⟨"a", "a:1"⟩]) [1] [⟨"a", "a:1"⟩, ⟨"b", "b:1"⟩] := by
  refine ⟨warm_warmRouter _, ?_⟩
  intro h
  have hsame := h "b" 1
  revert hsame
  decide

end NonokaIM
