import NonokaIM.Library.GuardedRun
import NonokaIM.Verification.Session.SocketMoves

/-! # The session index and the live socket

The manager knows the socket that was added last, the index the one that set its session last. -/

namespace NonokaIM

open GuardedRun List SessionManager SocketState AuthPhase

def SocketState.Quiet (s : SocketState) : Prop :=
  ∀ connID, ((s.socket connID).auth = .waiting ∨ (s.socket connID).auth = .done) ∧
    ((s.socket connID).close = .alive ∨ (s.socket connID).close = .closed)

def registered (g : GatewayDevice) (s : SocketState) : List Connection :=
  (s.manager.getAll g.userID).filter fun c => c.deviceID = g.deviceID

def deviceEntry (g : GatewayDevice) (s : SocketState) : Option String :=
  (s.sessions g.userID).devices.lookup g.deviceID

/-- The entry of the device is the value of the one registered connection, and absent if there is
none. -/
def IndexAgrees (g : GatewayDevice) (s : SocketState) : Prop :=
  registered g s = [] ∧ deviceEntry g s = none ∨
    ∃ c, registered g s = [c] ∧ deviceEntry g s = some (sessionValue g.nodeID c.connID)

/-- The socket that set its session last did so before its own cleanup, and it is the one that
was added last, or that one is closed. -/
def SetInOrder (s : SocketState) : Prop :=
  ∀ lastAdd lastSet, s.lastAdd = some lastAdd → s.lastSet = some lastSet →
    (s.socket lastSet).lateSet = false ∧
      (lastSet = lastAdd ∨ (s.socket lastAdd).close = .closed)

/-! ## The socket that was added last -/

structure KeepsLastAdd (s s' : SocketState) : Prop where
  lastAdd : s'.lastAdd = s.lastAdd
  added : ∀ c, (s'.socket c).auth.Added ↔ (s.socket c).auth.Added
  dying : ∀ c, (s.socket c).close ≠ .alive → (s'.socket c).close ≠ .alive
  replaced : ∀ c, (s'.socket c).auth.replaced ⊆ (s.socket c).auth.replaced
  closed : ∀ c, ∀ old ∈ (s.socket c).auth.replaced,
    old ∈ (s'.socket c).auth.replaced ∨ (s.socket old.connID).close = .closed

theorem KeepsLastAdd.refl (s : SocketState) : KeepsLastAdd s s :=
  ⟨rfl, fun _ => Iff.rfl, fun _ h => h, fun _ _ h => h, fun _ _ h => .inl h⟩

variable {s s' : SocketState} {x : Socket}

theorem keepsLastAdd_insert {connID : String} (hs : s'.sockets = s.sockets.insert connID x)
    (hlast : s'.lastAdd = s.lastAdd) (hadded : x.auth.Added ↔ (s.socket connID).auth.Added)
    (hdying : (s.socket connID).close ≠ .alive → x.close ≠ .alive)
    (hreplaced : x.auth.replaced ⊆ (s.socket connID).auth.replaced)
    (hclosed : ∀ old ∈ (s.socket connID).auth.replaced,
      old ∈ x.auth.replaced ∨ (s.socket old.connID).close = .closed) : KeepsLastAdd s s' := by
  have hsame := KeepsLastAdd.refl s
  exact {
    lastAdd := hlast
    added := forall_socket_insert (P := fun c y => y.auth.Added ↔ (s.socket c).auth.Added) hs
      hadded fun c _ => hsame.added c
    dying := forall_socket_insert (P := fun c y => (s.socket c).close ≠ .alive → y.close ≠ .alive)
      hs hdying fun c _ => hsame.dying c
    replaced := forall_socket_insert
      (P := fun c y => y.auth.replaced ⊆ (s.socket c).auth.replaced) hs hreplaced
      fun c _ => hsame.replaced c
    closed := forall_socket_insert (P := fun c y => ∀ old ∈ (s.socket c).auth.replaced,
        old ∈ y.auth.replaced ∨ (s.socket old.connID).close = .closed) hs hclosed
      fun c _ => hsame.closed c }

variable {g : GatewayDevice}

theorem SocketMove.keepsLastAdd_or_add (hmove : SocketMove g s s') :
    KeepsLastAdd s s' ∨ ∃ c, (s.socket c).auth = .authed ∧ s'.lastAdd = some c ∧
      s'.sockets = s.sockets.insert c
        { s.socket c with auth := .added (s.manager.replacedBy (s.socket c).conn) } := by
  cases hmove with
  | stay => exact .inl (.refl s)
  | add c hauth => exact .inr ⟨c, hauth, rfl, rfl⟩
  | setAuthed c hauth _ | finish c hauth =>
    exact .inl (keepsLastAdd_insert rfl rfl (by simp [hauth, Added]) id
      (by simp [replaced]) (by simp [hauth, replaced]))
  | set c replaced hauth =>
    exact .inl (keepsLastAdd_insert rfl rfl (by simp [hauth, Added]) id
      (by simp [hauth, AuthPhase.replaced]) (by simp +contextual [hauth, AuthPhase.replaced]))
  | next c old replaced hauth hclosed =>
    exact .inl (keepsLastAdd_insert rfl rfl (by simp [hauth, Added]) id
      (by simp [hauth, AuthPhase.replaced])
      (by simp +contextual [hauth, AuthPhase.replaced, hclosed]))
  | close c _ _ | forget c _ _ | remove c _ _ | delete c _ =>
    exact .inl (keepsLastAdd_insert rfl rfl Iff.rfl (by simp) (fun _ h => h) fun _ h => .inl h)

/-- Whatever was added before the last socket is being closed, or the last socket will close
it. -/
structure LastAddOk (s : SocketState) : Prop where
  replaced : ∀ c, ∀ old ∈ (s.socket c).auth.replaced, (s.socket old.connID).auth.Added
  isSome : ∀ c, (s.socket c).auth.Added → s.lastAdd.isSome
  added : ∀ last, s.lastAdd = some last → (s.socket last).auth.Added
  others : ∀ last c, s.lastAdd = some last → (s.socket c).auth.Added → c ≠ last →
    (s.socket c).close ≠ .alive ∨ c ∈ (s.socket last).auth.replaced.map Connection.connID

theorem LastAddOk.keep (h : LastAddOk s) (hkeep : KeepsLastAdd s s') :
    LastAddOk s' where
  replaced c old hold := (hkeep.added _).mpr (h.replaced c old (hkeep.replaced c hold))
  isSome c hc := hkeep.lastAdd ▸ h.isSome c ((hkeep.added c).mp hc)
  added last hlast := (hkeep.added last).mpr (h.added last (hkeep.lastAdd ▸ hlast))
  others last c hlast hc hne := by
    rcases h.others last c (hkeep.lastAdd ▸ hlast) ((hkeep.added c).mp hc) hne with hdying | hmem
    · exact .inl (hkeep.dying c hdying)
    · obtain ⟨old, hold, rfl⟩ := mem_map.mp hmem
      rcases hkeep.closed last old hold with hstill | hclosed
      · exact .inr (mem_map_of_mem hstill)
      · exact .inl (hkeep.dying _ (by simp [hclosed]))

theorem LastAddOk.move (h : LastAddOk s) (hok : ∀ c, SocketOk g c (s.socket c))
    (hreg : RegistryOk g s) (hmove : SocketMove g s s') : LastAddOk s' := by
  rcases hmove.keepsLastAdd_or_add with hkeep | ⟨c, hauth, hlast, hs⟩
  · exact h.keep hkeep
  · have howner := (hok c).owner (by simp [hauth])
    have hids : ∀ {connID : String},
        connID ∈ (s.manager.replacedBy (s.socket c).conn).map Connection.connID ↔
          connID ≠ c ∧ (s.socket connID).InManager := by
      intro connID
      rw [Manager.mem_connIDs_replacedBy fun x hx => ?_, (hok c).connID, hreg.mem]
      exact ⟨(hreg.owner x hx).1.trans howner.1.symm, (hreg.owner x hx).2.trans howner.2.symm⟩
    have hadded : ∀ c', (s'.socket c').auth.Added ↔ c' = c ∨ (s.socket c').auth.Added := by
      intro c'
      rw [socket_insert hs]
      split
      · simp [*, Added]
      · simp [*]
    have hlastEq : ∀ last, s'.lastAdd = some last → last = c := by
      intro last h'
      rw [hlast] at h'
      exact (Option.some.inj h').symm
    refine ⟨fun c' old hold => ?_, fun _ _ => by simp [hlast], fun last h' => ?_,
      fun last c' h' hc' hne => ?_⟩
    · rw [hadded]
      rw [socket_insert hs] at hold
      split at hold
      · exact .inr (hids.mp (mem_map_of_mem hold)).2.1
      · exact .inr (h.replaced c' old hold)
    · rw [hlastEq last h', hadded]
      exact .inl rfl
    · obtain rfl := hlastEq last h'
      have hold : (s.socket c').auth.Added := ((hadded c').mp hc').resolve_left hne
      rw [socket_insert hs, if_neg hne, socket_insert hs, if_pos rfl]
      by_cases halive : (s.socket c').close = .alive
      · exact .inr (hids.mpr ⟨hne, hold, .inl halive⟩)
      · exact .inl halive

/-! ## The entry of the device -/

def expectedEntry (g : GatewayDevice) (s : SocketState) : Option String :=
  s.lastSet.bind fun connID =>
    if (s.socket connID).close = .closed ∧ (s.socket connID).lateSet = false then none
    else some (sessionValue g.nodeID connID)

structure EntryOk (g : GatewayDevice) (s : SocketState) : Prop where
  isSome : ∀ c, (s.socket c).auth.HasSet → s.lastSet.isSome
  hasSet : ∀ last, s.lastSet = some last → (s.socket last).auth.HasSet
  entry : deviceEntry g s = expectedEntry g s

theorem sessionValue_inj {nodeID a b : String} :
    sessionValue nodeID a = sessionValue nodeID b ↔ a = b := by
  simp [sessionValue]

structure KeepsEntry (s s' : SocketState) : Prop where
  sessions : s'.sessions = s.sessions
  lastSet : s'.lastSet = s.lastSet
  hasSet : ∀ c, (s'.socket c).auth.HasSet ↔ (s.socket c).auth.HasSet
  closed : ∀ c, (s.socket c).auth.HasSet →
    ((s'.socket c).close = .closed ↔ (s.socket c).close = .closed)
  lateSet : ∀ c, (s'.socket c).lateSet = (s.socket c).lateSet

theorem keepsEntry_insert {connID : String} (hs : s'.sockets = s.sockets.insert connID x)
    (hsessions : s'.sessions = s.sessions) (hlast : s'.lastSet = s.lastSet)
    (hset : x.auth.HasSet ↔ (s.socket connID).auth.HasSet)
    (hclosed : (s.socket connID).auth.HasSet →
      (x.close = .closed ↔ (s.socket connID).close = .closed))
    (hlate : x.lateSet = (s.socket connID).lateSet) : KeepsEntry s s' := by
  exact {
    sessions := hsessions
    lastSet := hlast
    hasSet := forall_socket_insert (P := fun c y => y.auth.HasSet ↔ (s.socket c).auth.HasSet) hs
      hset fun _ _ => Iff.rfl
    closed := forall_socket_insert (P := fun c y => (s.socket c).auth.HasSet →
        (y.close = .closed ↔ (s.socket c).close = .closed)) hs hclosed fun _ _ _ => Iff.rfl
    lateSet := forall_socket_insert (P := fun c y => y.lateSet = (s.socket c).lateSet) hs hlate
      fun _ _ => rfl }

theorem EntryOk.keep (h : EntryOk g s) (hkeep : KeepsEntry s s') : EntryOk g s' := by
  refine ⟨fun c hc => ?_, fun last hlast => ?_, ?_⟩
  · rw [hkeep.lastSet]
    exact h.isSome c ((hkeep.hasSet c).mp hc)
  · exact (hkeep.hasSet last).mpr (h.hasSet last (hkeep.lastSet ▸ hlast))
  · have hentry : deviceEntry g s' = deviceEntry g s := by rw [deviceEntry, hkeep.sessions]; rfl
    rw [hentry, h.entry, expectedEntry, expectedEntry, hkeep.lastSet]
    cases hlast : s.lastSet with
    | none => rfl
    | some last =>
      have hset := h.hasSet last hlast
      simp [hkeep.closed last hset, hkeep.lateSet]

theorem entryOk_set {c : String} (hs : s'.sockets = s.sockets.insert c x)
    (hlast : s'.lastSet = some c) (hset : x.auth.HasSet)
    (hlate : x.lateSet = decide (x.close = .closed))
    (hentry : deviceEntry g s' = some (sessionValue g.nodeID c)) : EntryOk g s' := by
  refine ⟨fun _ _ => by simp [hlast], fun last hl => ?_, ?_⟩
  · rw [hlast] at hl
    obtain rfl := Option.some.inj hl
    rwa [socket_insert hs, if_pos rfl]
  · rw [hentry, expectedEntry, hlast]
    simp [socket_insert hs, hlate]

theorem deviceEntry_delSession (g : GatewayDevice) (s : SocketState) (connID : String) :
    (((delSession ⟨g.nodeID⟩ g.userID g.deviceID connID s.sessions).1
        g.userID).devices.lookup g.deviceID) =
      if deviceEntry g s = some (sessionValue g.nodeID connID) then none else deviceEntry g s := by
  by_cases hown : Owns ⟨g.nodeID⟩ g.userID g.deviceID connID s.sessions
  · have hentry : deviceEntry g s = some (sessionValue g.nodeID connID) := hown
    rw [delSession, if_pos hown, if_pos hentry]
    simp
  · have hentry : deviceEntry g s ≠ some (sessionValue g.nodeID connID) := hown
    rw [delSession, if_neg hown, if_neg hentry]
    rfl

theorem EntryOk.delete {c : String} (h : EntryOk g s)
    (hs : s'.sockets = s.sockets.insert c { s.socket c with close := .closed })
    (hlast : s'.lastSet = s.lastSet) (hclose : (s.socket c).close ≠ .closed)
    (hlate : (s.socket c).lateSet = false) (hentry : deviceEntry g s' =
      if deviceEntry g s = some (sessionValue g.nodeID c) then none else deviceEntry g s) :
    EntryOk g s' := by
  have hset : ∀ c', (s'.socket c').auth.HasSet ↔ (s.socket c').auth.HasSet := by
    intro c'
    rw [socket_insert hs]
    split
    · simp [*]
    · exact Iff.rfl
  refine ⟨fun c' hc' => ?_, fun last hl => ?_, ?_⟩
  · rw [hlast]
    exact h.isSome c' ((hset c').mp hc')
  · exact (hset last).mpr (h.hasSet last (hlast ▸ hl))
  · rw [hentry, h.entry, expectedEntry, expectedEntry, hlast]
    cases hl : s.lastSet with
    | none => simp
    | some last =>
      by_cases hc : last = c
      · -- the entry is this socket's own
        subst hc
        simp [socket_insert hs, hclose, hlate]
      · have hne : sessionValue g.nodeID last ≠ sessionValue g.nodeID c :=
          fun heq => hc (sessionValue_inj.mp heq)
        simp only [Option.bind_some, socket_insert hs, if_neg hc]
        split <;> simp [hne]

theorem EntryOk.move (h : EntryOk g s) (hok : ∀ c, SocketOk g c (s.socket c))
    (hmove : SocketMove g s s') : EntryOk g s' := by
  cases hmove with
  | stay => exact h
  | setAuthed c hauth _ | add c hauth | next c old replaced hauth _ | finish c hauth =>
    exact h.keep (keepsEntry_insert rfl rfl rfl (by simp [hauth, HasSet]) (fun _ => Iff.rfl) rfl)
  | set c replaced hauth =>
    have howner := (hok c).owner (by simp [hauth])
    refine entryOk_set rfl rfl trivial rfl ?_
    simp [deviceEntry, setSession, howner, (hok c).connID]
  | close c _ hclose | remove c hclose _ =>
    exact h.keep (keepsEntry_insert rfl rfl rfl Iff.rfl (fun _ => by simp [hclose]) rfl)
  | forget c _ huser =>
    have hauth := (hok c).waiting huser
    exact h.keep (keepsEntry_insert rfl rfl rfl Iff.rfl (by simp [hauth, HasSet]) rfl)
  | delete c hclose =>
    have howner := (hok c).owner ((hok c).removed hclose)
    have hlate : (s.socket c).lateSet = false := by
      by_contra hlate
      simpa [hclose] using (hok c).late (by simpa using hlate)
    refine h.delete rfl rfl (by simp [hclose]) hlate ?_
    have hdel := deviceEntry_delSession g s c
    simpa [deviceEntry, howner, (hok c).connID] using hdel

structure NodeOk (g : GatewayDevice) (s : SocketState) : Prop where
  sockets : ∀ c, SocketOk g c (s.socket c)
  registry : RegistryOk g s
  lastAdd : LastAddOk s
  entry : EntryOk g s

theorem NodeOk.step (h : NodeOk g s) (op : SocketOp) : NodeOk g (socketStep g s op) := by
  have hmove := socketStep_move g op h.lastAdd.replaced
  exact ⟨hmove.socketOk h.sockets, h.registry.move h.sockets hmove,
    h.lastAdd.move h.sockets h.registry hmove, h.entry.move h.sockets hmove⟩

theorem nodeOk_start (g : GatewayDevice) {sessions : Sessions}
    (hfree : (sessions g.userID).devices.lookup g.deviceID = none) : NodeOk g { sessions } := by
  have hsocket : ∀ c, socket { sessions } c = { conn := { connID := c } } :=
    fun c => by simp [socket]
  refine ⟨fun c => ?_, ⟨by simp, by simp, ?_⟩, ⟨?_, ?_, by simp, by simp⟩, ⟨?_, by simp, hfree⟩⟩
  · rw [hsocket]
    exact ⟨rfl, fun _ => rfl, by simp, fun _ => rfl, by simp, by simp, by simp⟩
  · simp [hsocket, Socket.InManager, Added]
  · simp [hsocket, replaced]
  · simp [hsocket, Added]
  · simp [hsocket, HasSet]

/-! ## When no handler runs -/

namespace NodeOk

variable {g : GatewayDevice} {s : SocketState}

theorem registered_eq (h : NodeOk g s) : registered g s = s.manager.conns := by
  rw [registered, Manager.getAll, filter_filter, filter_eq_self]
  intro x hx
  simp [h.registry.owner x hx]

theorem done_of_added (hquiet : s.Quiet) {c : String} (hc : (s.socket c).auth.Added) :
    (s.socket c).auth = .done := by
  rcases (hquiet c).1 with hwaiting | hdone
  · rw [hwaiting] at hc
    exact hc.elim
  · exact hdone

variable {last : String}

theorem closed_of_ne (h : NodeOk g s) (hquiet : s.Quiet) {c : String}
    (hlast : s.lastAdd = some last) (hc : (s.socket c).auth.Added) (hne : c ≠ last) :
    (s.socket c).close = .closed := by
  have hdone := done_of_added hquiet (h.lastAdd.added last hlast)
  have halive : (s.socket c).close ≠ .alive := by
    simpa [hdone, replaced] using h.lastAdd.others last c hlast hc hne
  exact (hquiet c).2.resolve_left halive

theorem registered_of_alive (h : NodeOk g s) (hquiet : s.Quiet) (hlast : s.lastAdd = some last)
    (halive : (s.socket last).close = .alive) :
    (registered g s).map Connection.connID = [last] := by
  rw [h.registered_eq, ← perm_singleton,
    perm_ext_iff_of_nodup h.registry.nodup (nodup_singleton last)]
  intro c
  rw [h.registry.mem, mem_singleton]
  constructor
  · rintro ⟨hadded, hkept⟩
    by_contra hne
    simp [ClosePhase.Kept, h.closed_of_ne hquiet hlast hadded hne] at hkept
  · rintro rfl
    exact ⟨h.lastAdd.added c hlast, .inl halive⟩

theorem registered_of_closed (h : NodeOk g s) (hall : ∀ c, (s.socket c).auth.Added →
    (s.socket c).close = .closed) : registered g s = [] := by
  rw [h.registered_eq, ← map_eq_nil_iff, eq_nil_iff_forall_not_mem]
  intro c hc
  obtain ⟨hadded, hkept⟩ := (h.registry.mem c).mp hc
  simp [ClosePhase.Kept, hall c hadded] at hkept

theorem agrees_iff_of_alive (h : NodeOk g s) (hquiet : s.Quiet) (hlast : s.lastAdd = some last)
    (halive : (s.socket last).close = .alive) :
    IndexAgrees g s ↔ deviceEntry g s = some (sessionValue g.nodeID last) := by
  obtain ⟨c, hreg, rfl⟩ := map_eq_singleton_iff.mp (h.registered_of_alive hquiet hlast halive)
  simp [IndexAgrees, hreg]

theorem agrees_iff_of_closed (h : NodeOk g s) (hall : ∀ c, (s.socket c).auth.Added →
    (s.socket c).close = .closed) : IndexAgrees g s ↔ deviceEntry g s = none := by
  simp [IndexAgrees, h.registered_of_closed hall]

theorem agrees_iff (h : NodeOk g s) (hquiet : s.Quiet) : IndexAgrees g s ↔ SetInOrder s := by
  cases hadd : s.lastAdd with
  | none =>
    have hnone : ∀ c, ¬ (s.socket c).auth.Added := by
      intro c hc
      simpa [hadd] using h.lastAdd.isSome c hc
    have hset : s.lastSet = none := by
      by_contra hset
      obtain ⟨last, hlast⟩ := Option.ne_none_iff_exists'.mp hset
      exact hnone last (h.entry.hasSet last hlast).added
    rw [h.agrees_iff_of_closed fun c hc => absurd hc (hnone c), h.entry.entry]
    simp [SetInOrder, hadd, expectedEntry, hset]
  | some n =>
    have hdone := done_of_added hquiet (h.lastAdd.added n hadd)
    obtain ⟨k, hset⟩ :=
      Option.isSome_iff_exists.mp (h.entry.isSome n (by simp [hdone, HasSet]))
    have hentry := h.entry.entry
    simp only [expectedEntry, hset, Option.bind_some] at hentry
    have horder : SetInOrder s ↔
        (s.socket k).lateSet = false ∧ (k = n ∨ (s.socket n).close = .closed) := by
      simp [SetInOrder, hadd, hset]
    rw [horder]
    rcases (hquiet n).2 with halive | hclosed
    · rw [h.agrees_iff_of_alive hquiet hadd halive, hentry]
      by_cases hk : k = n
      · subst hk
        have hlate : (s.socket k).lateSet = false := by
          by_contra hlate
          simpa [halive] using (h.sockets k).late (by simpa using hlate)
        simp [halive, hlate]
      · -- the entry is another socket's, or gone with it
        simp only [halive, hk, false_or, reduceCtorEq, and_false, iff_false]
        split <;> simp [sessionValue_inj, hk]
    · have hall : ∀ c, (s.socket c).auth.Added → (s.socket c).close = .closed := by
        intro c hc
        by_cases hcn : c = n
        · rwa [hcn]
        · exact h.closed_of_ne hquiet hadd hc hcn
      have hk := hall k (h.entry.hasSet k hset).added
      rw [h.agrees_iff_of_closed hall, hentry]
      simp [hk, hclosed]

end NodeOk

/-- From an index without an entry for the device, over any interleaving of the steps of any
number of sockets: in every state in which no handler runs, the entry names the one registered
socket, and is absent if there is none, exactly when the sessions were set in order. -/
theorem session_index_names_live_socket_iff (g : GatewayDevice) (sessions : Sessions)
    (hfree : (sessions g.userID).devices.lookup g.deviceID = none) (ops : List SocketOp)
    (hquiet : (run (socketStep g) { sessions } ops).Quiet) :
    IndexAgrees g (run (socketStep g) { sessions } ops) ↔
      SetInOrder (run (socketStep g) { sessions } ops) := by
  have hstep : ∀ s op, NodeOk g s → NodeOk g (socketStep g s op) := fun s op h => h.step op
  exact (invariant_run_all hstep ops (nodeOk_start g hfree)).agrees_iff hquiet

/-! ## Runs of two sockets -/

theorem quiet_of_entries {s : SocketState} (h : ∀ entry ∈ s.sockets.entries,
      (entry.2.auth = .waiting ∨ entry.2.auth = .done) ∧
        (entry.2.close = .alive ∨ entry.2.close = .closed)) : s.Quiet := by
  intro connID
  cases hlookup : s.sockets.lookup connID with
  | none => simp [socket, hlookup]
  | some x =>
    have hmem := h ⟨connID, x⟩ (AList.mem_lookup_iff.mp hlookup)
    simpa [socket, hlookup] using hmem

def phone : GatewayDevice where
  nodeID := "a"
  userID := 1
  deviceID := "phone"
  user := by decide

def replacedInTurn : List SocketOp :=
  [.auth "c1", .auth "c1", .auth "c1", .auth "c1", .auth "c2", .auth "c2", .auth "c2", .auth "c2",
    .cleanup "c1", .cleanup "c1", .auth "c2", .auth "c2"]

theorem live_socket_after_replacement :
    IndexAgrees phone (run (socketStep phone) { sessions := fun _ => {} } replacedInTurn) := by
  refine (session_index_names_live_socket_iff phone _ (by decide) replacedInTurn
    (quiet_of_entries (by decide))).mpr ?_
  have hadd : (run (socketStep phone) { sessions := fun _ => {} } replacedInTurn).lastAdd =
      some "c2" := by decide
  have hset : (run (socketStep phone) { sessions := fun _ => {} } replacedInTurn).lastSet =
      some "c2" := by decide
  have hlate : ((run (socketStep phone) { sessions := fun _ => {} } replacedInTurn).socket
      "c2").lateSet = false := by decide
  intro lastAdd lastSet ha hs
  obtain rfl := Option.some.inj (hadd.symm.trans ha)
  obtain rfl := Option.some.inj (hset.symm.trans hs)
  exact ⟨hlate, .inl rfl⟩

def setOutOfTurn : List SocketOp :=
  [.auth "c1", .auth "c1", .auth "c2", .auth "c2", .auth "c2", .auth "c1", .auth "c1", .auth "c2",
    .cleanup "c1", .cleanup "c1", .auth "c2", .auth "c2"]

/-- No handler runs, the second socket is registered, and the device has no entry. -/
theorem no_entry_for_live_socket :
    (run (socketStep phone) { sessions := fun _ => {} } setOutOfTurn).Quiet ∧
      ¬ IndexAgrees phone (run (socketStep phone) { sessions := fun _ => {} } setOutOfTurn) := by
  have hreg : registered phone (run (socketStep phone) { sessions := fun _ => {} } setOutOfTurn) =
      [⟨"c2", 1, "phone", .authed⟩] := by decide
  have hentry : deviceEntry phone
      (run (socketStep phone) { sessions := fun _ => {} } setOutOfTurn) = none := by
    decide
  refine ⟨quiet_of_entries (by decide), ?_⟩
  simp [IndexAgrees, hreg, hentry]

end NonokaIM
