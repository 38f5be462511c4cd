import NonokaIM.Model.Gateway
import NonokaIM.Verification.Gateway.ConnShards

/-! # The connection manager after any calls

The shards hold the registered connections; only the lookup by connection id asks another shard. -/

namespace NonokaIM

open AddRemove List GuardedRun ShardedManager ConnRef

/-! ## Calls -/

def registeredConns (calls : List ManagerCall) : Set ConnRef := {c | c ∈ live calls ∧ c.userID ≠ 0}

/-- Connections have ids of their own, and keep their user and device. -/
def FixedIDs (calls : List ManagerCall) : Prop :=
  ∀ a ∈ calls, ∀ b ∈ calls, a.arg.connID = b.arg.connID → a.arg = b.arg
  deriving Decidable

theorem registeredConns_nil : registeredConns [] = ∅ :=
  Set.eq_empty_of_forall_notMem fun _ hc => not_mem_nil (mem_of_live hc.1)

variable {calls : List ManagerCall}

theorem registeredConns_add_zero {c : ConnRef} (hzero : c.userID = 0) :
    registeredConns (calls ++ [.add c]) = registeredConns calls := by
  ext d
  rw [registeredConns, live_add]
  constructor
  · rintro ⟨rfl | hd, hne⟩
    · exact absurd hzero hne
    · exact ⟨hd, hne⟩
  · exact fun ⟨hd, hne⟩ => ⟨.inr hd, hne⟩

theorem registeredConns_add {c : ConnRef} (hzero : c.userID ≠ 0) :
    registeredConns (calls ++ [.add c]) = insert c (registeredConns calls) := by
  ext d
  rw [registeredConns, live_add]
  constructor
  · rintro ⟨rfl | hd, hne⟩
    · exact .inl rfl
    · exact .inr ⟨hd, hne⟩
  · rintro (rfl | ⟨hd, hne⟩)
    · exact ⟨.inl rfl, hzero⟩
    · exact ⟨.inr hd, hne⟩

theorem registeredConns_remove (calls : List ManagerCall) (c : ConnRef) :
    registeredConns (calls ++ [.remove c]) = registeredConns calls \ {c} := by
  ext d
  rw [registeredConns, live_remove]
  exact ⟨fun ⟨⟨hd, hne⟩, hzero⟩ => ⟨⟨hd, hzero⟩, hne⟩, fun ⟨⟨hd, hzero⟩, hne⟩ => ⟨⟨hd, hne⟩, hzero⟩⟩

theorem FixedIDs.of_concat {x : ManagerCall} (h : FixedIDs (calls ++ [x])) : FixedIDs calls :=
  fun a ha b hb => h a (mem_append_left _ ha) b (mem_append_left _ hb)

theorem FixedIDs.eq_of_registered {x : ManagerCall} (h : FixedIDs (calls ++ [x])) :
    ∀ d ∈ registeredConns calls, d.connID = x.arg.connID → d = x.arg :=
  fun _ hd => h _ (mem_append_left _ (mem_of_live hd.1)) _ (mem_append_right _ mem_cons_self)

theorem FixedIDs.distinct (h : FixedIDs calls) :
    DistinctConns (registeredConns calls) where
  authed _ hc := hc.2
  unique _ hc _ hd := h _ (mem_of_live hc.1) _ (mem_of_live hd.1)

namespace ShardedManager

theorem run_concat (calls : List ManagerCall) (x : ManagerCall) :
    run (calls ++ [x]) = (run calls).step x := by
  rw [run, run_append]
  rfl

theorem holds_run (calls : List ManagerCall) (h : FixedIDs calls) :
    (run calls).Holds (registeredConns calls) := by
  induction calls using reverseRecOn with
  | nil =>
    rw [registeredConns_nil]
    exact holds_empty
  | append_singleton calls x ih =>
    have hm := ih h.of_concat
    rw [run_concat]
    cases x with
    | add c =>
      by_cases hzero : c.userID = 0
      · rw [registeredConns_add_zero hzero, step, add, if_pos hzero]
        exact hm
      · rw [registeredConns_add hzero]
        exact hm.add hzero h.eq_of_registered
    | remove c =>
      rw [registeredConns_remove]
      exact hm.remove (fun d hd => hd.2) h.eq_of_registered

/-- The manager answers as a set of connections does. -/
structure Answers (m : ShardedManager) (S : Set ConnRef) : Prop where
  getAll : ∀ u, (m.getAll u).Nodup ∧ ∀ d, d ∈ m.getAll u ↔ d ∈ S ∧ d.userID = u
  range : (m.range fun _ => true).Nodup ∧ ∀ d, d ∈ m.range (fun _ => true) ↔ d ∈ S
  count : m.count = S.ncard
  userCount : m.userCount = (userID '' S).ncard

/-- What an added connection replaces: the others of its user and device. -/
def Replaces (replaced : List ConnRef) (S : Set ConnRef) (c : ConnRef) : Prop :=
  replaced.Nodup ∧
    ∀ d, d ∈ replaced ↔ d ∈ S ∧ d.userID = c.userID ∧ d.deviceID = c.deviceID ∧ d ≠ c

/-- After any calls the manager answers as the registered connections do, and each `Add` returned
those that it replaced. -/
theorem manager_answers (calls : List ManagerCall) (h : FixedIDs calls) :
    (run calls).Answers (registeredConns calls) ∧
      ∀ before c after, calls = before ++ .add c :: after →
        Replaces ((run before).add c).1 (registeredConns before) c := by
  constructor
  · have hm := holds_run calls h
    refine ⟨fun u => ⟨hm.nodup_getAll u, fun d => hm.mem_getAll h.distinct⟩, ?_, hm.count,
      hm.userCount⟩
    rw [range, visits_true]
    exact ⟨hm.nodup_conns, fun d => hm.mem_conns⟩
  · rintro before c after rfl
    have hfixed : FixedIDs (before ++ [.add c]) := by
      intro a ha b hb
      have hsub : ∀ x ∈ before ++ [Call.add c], x ∈ before ++ .add c :: after := by
        intro x hx
        rw [mem_append, mem_singleton] at hx
        rw [mem_append, mem_cons]
        exact hx.imp_right .inl
      exact h a (hsub a ha) b (hsub b hb)
    have hm := holds_run before hfixed.of_concat
    exact ⟨hm.nodup_replaced, fun d =>
      hm.mem_replaced hfixed.of_concat.distinct hfixed.eq_of_registered⟩

def deviceCalls : List ManagerCall :=
  [.add ⟨"old", 42, "web-a"⟩, .add ⟨"other", 42, "web-b"⟩, .add ⟨"new", 42, "web-a"⟩,
    .remove ⟨"old", 42, "web-a"⟩]

theorem deviceCalls_answered :
    FixedIDs deviceCalls ∧ (run deviceCalls).count = (registeredConns deviceCalls).ncard ∧
      Replaces ((run (deviceCalls.take 2)).add ⟨"new", 42, "web-a"⟩).1
        (registeredConns (deviceCalls.take 2)) ⟨"new", 42, "web-a"⟩ := by
  have hfixed : FixedIDs deviceCalls := by decide
  exact ⟨hfixed, (manager_answers deviceCalls hfixed).1.count,
    (manager_answers deviceCalls hfixed).2 _ _ [.remove ⟨"old", 42, "web-a"⟩] rfl⟩

/-! ## Lookups by connection id -/

/-- Every registered connection is found by its id, and nothing under other ids. -/
def FindsByConnID (m : ShardedManager) (S : Set ConnRef) : Prop :=
  (∀ c ∈ S, m.getByConnID c.connID = some c) ∧
    ∀ connID, (∀ c ∈ S, c.connID ≠ connID) → m.getByConnID connID = none

/-- Connections are found by their ids if the shard of the id is the shard of the user. -/
theorem findsByConnID_iff (calls : List ManagerCall) (h : FixedIDs calls) :
    FindsByConnID (run calls) (registeredConns calls) ↔
      ∀ c ∈ registeredConns calls, getShardByConnID c.connID = getShard c.userID := by
  have hm := holds_run calls h
  constructor
  · intro hfinds c hc
    exact (hm.getByConnID.mp (hfinds.1 c hc)).2.2.symm
  · intro hshards
    refine ⟨fun c hc => hm.getByConnID.mpr ⟨hc, rfl, (hshards c hc).symm⟩, ?_⟩
    intro connID hnone
    cases hfound : (run calls).getByConnID connID with
    | none => rfl
    | some c =>
      obtain ⟨hc, hid, -⟩ := hm.getByConnID.mp hfound
      exact absurd hid (hnone c hc)

theorem same_shard_found :
    FixedIDs [.add ⟨"conn-10", 42, "test"⟩] ∧
      FindsByConnID (run [.add ⟨"conn-10", 42, "test"⟩])
        (registeredConns [.add ⟨"conn-10", 42, "test"⟩]) := by
  refine ⟨by decide, (findsByConnID_iff _ (by decide)).mpr ?_⟩
  intro c hc
  have hmem := mem_of_live hc.1
  rw [mem_singleton, Call.add.injEq] at hmem
  subst hmem
  decide

/-- The id of this connection belongs to another shard than its user. -/
theorem registered_not_found :
    FixedIDs [.add ⟨"6ba7b810-9dad-41d1-80b4-00c04fd430c8", 42, "web"⟩] ∧
      ⟨"6ba7b810-9dad-41d1-80b4-00c04fd430c8", 42, "web"⟩ ∈
        registeredConns [.add ⟨"6ba7b810-9dad-41d1-80b4-00c04fd430c8", 42, "web"⟩] ∧
      (run [.add ⟨"6ba7b810-9dad-41d1-80b4-00c04fd430c8", 42, "web"⟩]).getByConnID
        "6ba7b810-9dad-41d1-80b4-00c04fd430c8" = none :=
  ⟨by decide, ⟨⟨[], [], rfl, not_mem_nil⟩, by decide⟩, by decide +kernel⟩

end ShardedManager

/-! ## One list of connections

`Model.Gateway` keeps one list where the source has shards. -/

def Connection.ref (x : Connection) : ConnRef := ⟨x.connID, x.userID, x.deviceID⟩

def Manager.Lists (m : Manager) (S : Set ConnRef) : Prop := ∀ r, r ∈ S ↔ ∃ x ∈ m.conns, x.ref = r

namespace Manager

variable {m : Manager} {S : Set ConnRef} {x : Connection}

theorem Lists.add (hm : m.Lists S) (hzero : x.userID ≠ 0)
    (hx : ∀ d ∈ S, d.connID = x.connID → d = x.ref) : (m.add x).Lists (insert x.ref S) := by
  intro r
  rw [Manager.add, dif_neg hzero, Set.mem_insert_iff, hm]
  constructor
  · rintro (rfl | ⟨y, hy, rfl⟩)
    · exact ⟨x, by simp, rfl⟩
    · by_cases hid : y.connID = x.connID
      · exact ⟨x, by simp, (hx y.ref ((hm _).mpr ⟨y, hy, rfl⟩) hid).symm⟩
      · exact ⟨y, mem_append_left _ (mem_filter.mpr ⟨hy, by simpa using hid⟩), rfl⟩
  · rintro ⟨y, hy, rfl⟩
    rcases mem_append.mp hy with hy | hy
    · exact .inr ⟨y, mem_of_mem_filter hy, rfl⟩
    · rw [mem_singleton.mp hy]
      exact .inl rfl

theorem Lists.remove (hm : m.Lists S) (hx : ∀ d ∈ S, d.connID = x.connID → d = x.ref) :
    (m.remove x).Lists (S \ {x.ref}) := by
  intro r
  rw [Manager.remove]
  constructor
  · rintro ⟨hr, hne⟩
    obtain ⟨y, hy, rfl⟩ := (hm r).mp hr
    refine ⟨y, mem_filter.mpr ⟨hy, ?_⟩, rfl⟩
    rw [decide_eq_true_eq]
    exact fun hids => hne (hx y.ref hr hids.2)
  · rintro ⟨y, hy, rfl⟩
    obtain ⟨hmem, hids⟩ := mem_filter.mp hy
    rw [decide_eq_true_eq] at hids
    refine ⟨(hm _).mpr ⟨y, hmem, rfl⟩, ?_⟩
    intro heq
    have href : y.ref = x.ref := heq
    exact hids ⟨congrArg userID href, congrArg connID href⟩

def call (m : Manager) : ManagerCall → Manager
  | .add c => m.add ⟨c.connID, c.userID, c.deviceID, .authed⟩
  | .remove c => m.remove ⟨c.connID, c.userID, c.deviceID, .closed⟩

theorem lists_run (hm : m.conns = []) (calls : List ManagerCall) (h : FixedIDs calls) :
    (run call m calls).Lists (registeredConns calls) := by
  induction calls using reverseRecOn with
  | nil =>
    intro r
    rw [registeredConns_nil, run_nil, hm]
    simp
  | append_singleton calls x ih =>
    have hlists := ih h.of_concat
    rw [run_append, run_cons, run_nil]
    cases x with
    | add c =>
      by_cases hzero : c.userID = 0
      · rw [registeredConns_add_zero hzero, call, Manager.add, dif_pos hzero]
        exact hlists
      · rw [registeredConns_add hzero]
        exact hlists.add hzero h.eq_of_registered
    | remove c =>
      rw [registeredConns_remove]
      exact hlists.remove h.eq_of_registered

theorem getAll_run (hm : m.conns = []) (calls : List ManagerCall) (h : FixedIDs calls) (u : Int)
    (r : ConnRef) :
    r ∈ ((run call m calls).getAll u).map Connection.ref ↔
      r ∈ (run calls).getAll u := by
  rw [(holds_run calls h).mem_getAll h.distinct, lists_run hm calls h, mem_map]
  constructor
  · rintro ⟨y, hy, rfl⟩
    obtain ⟨hmem, hu⟩ := mem_filter.mp hy
    exact ⟨⟨y, hmem, rfl⟩, of_decide_eq_true hu⟩
  · rintro ⟨⟨y, hy, rfl⟩, hu⟩
    exact ⟨y, mem_filter.mpr ⟨hy, decide_eq_true hu⟩, rfl⟩

/-- One of two connections of a user is removed, and another user has a connection too. -/
def connectionCalls : List ManagerCall :=
  [.add ⟨"conn-10", 42, "test"⟩, .add ⟨"conn-11", 42, "phone"⟩, .add ⟨"conn-12", 43, "test"⟩,
    .remove ⟨"conn-10", 42, "test"⟩]

theorem other_connection_listed :
    ⟨"conn-11", 42, "phone"⟩ ∈ (run connectionCalls).getAll 42 ∧
      ⟨"conn-10", 42, "test"⟩ ∉ (run connectionCalls).getAll 42 :=
  ⟨(getAll_run (m := {}) rfl connectionCalls (by decide) 42 _).mp (by decide),
    fun h => absurd ((getAll_run (m := {}) rfl connectionCalls (by decide) 42 _).mpr h) (by decide)⟩

end Manager

end NonokaIM
