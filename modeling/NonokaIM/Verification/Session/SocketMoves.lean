import NonokaIM.Model.Socket

/-! # The moves of a device's sockets

Every step is one of ten moves, each of one socket. -/

namespace NonokaIM

open List Manager SocketState Socket SessionManager

namespace AuthPhase

def Added : AuthPhase → Prop
  | .waiting => False
  | .authed => False
  | .added _ => True
  | .closing _ => True
  | .done => True

def HasSet : AuthPhase → Prop
  | .waiting => False
  | .authed => False
  | .added _ => False
  | .closing _ => True
  | .done => True

def replaced : AuthPhase → List Connection
  | .waiting => []
  | .authed => []
  | .added replaced => replaced
  | .closing replaced => replaced
  | .done => []

theorem HasSet.added {phase : AuthPhase} (h : phase.HasSet) : phase.Added := by
  cases phase with
  | waiting | authed => exact h
  | added _ | closing _ | done => trivial

end AuthPhase

def ClosePhase.Kept (phase : ClosePhase) : Prop := phase = .alive ∨ phase = .called

/-! ## What a step does -/

variable {s : SocketState} {connID : String} {x : Socket} {s' : SocketState}

theorem socket_insert (h : s'.sockets = s.sockets.insert connID x) (c : String) :
    s'.socket c = if c = connID then x else s.socket c := by
  by_cases hc : c = connID
  · subst hc
    simp [socket, h]
  · simp [socket, h, hc, AList.lookup_insert_ne hc]

theorem forall_socket_insert {P : String → Socket → Prop}
    (hs : s'.sockets = s.sockets.insert connID x) (hx : P connID x)
    (hother : ∀ c, c ≠ connID → P c (s.socket c)) (c : String) : P c (s'.socket c) := by
  rw [socket_insert hs]
  by_cases hc : c = connID
  · rw [if_pos hc, hc]
    exact hx
  · rw [if_neg hc]
    exact hother c hc

/-- The moves of a node, each with what it finds. -/
inductive SocketMove (g : GatewayDevice) (s : SocketState) : SocketState → Prop where
  | stay : SocketMove g s s
  | setAuthed (c : String) (hauth : (s.socket c).auth = .waiting)
      (hstate : (s.socket c).conn.state = .connected) :
      SocketMove g s (s.setSocket c
        { s.socket c with
          conn := (s.socket c).conn.setAuthed g.userID g.deviceID
          auth := .authed })
  | add (c : String) (hauth : (s.socket c).auth = .authed) :
      SocketMove g s
        { s.setSocket c
            { s.socket c with auth := .added (s.manager.replacedBy (s.socket c).conn) } with
          manager := s.manager.add (s.socket c).conn
          lastAdd := some c }
  | set (c : String) (replaced : List Connection) (hauth : (s.socket c).auth = .added replaced) :
      SocketMove g s
        { s.setSocket c
            { s.socket c with
              auth := .closing replaced
              lateSet := decide ((s.socket c).close = .closed) } with
          sessions := (setSession ⟨g.nodeID⟩ (s.socket c).conn.userID
            (s.socket c).conn.deviceID (s.socket c).conn.connID s.sessions).1
          lastSet := some c }
  | next (c : String) (old : Connection) (replaced : List Connection)
      (hauth : (s.socket c).auth = .closing (old :: replaced))
      (hclosed : (s.socket old.connID).close = .closed) :
      SocketMove g s (s.setSocket c { s.socket c with auth := .closing replaced })
  | finish (c : String) (hauth : (s.socket c).auth = .closing []) :
      SocketMove g s (s.setSocket c { s.socket c with auth := .done })
  | close (c : String) (hauth : (s.socket c).auth ≠ .authed)
      (hclose : (s.socket c).close = .alive) :
      SocketMove g s (s.setSocket c
        { s.socket c with
          conn := { (s.socket c).conn with state := .closed }
          close := .called })
  | forget (c : String) (hclose : (s.socket c).close = .called)
      (huser : (s.socket c).conn.userID = 0) :
      SocketMove g s (s.setSocket c { s.socket c with close := .closed })
  | remove (c : String) (hclose : (s.socket c).close = .called)
      (huser : (s.socket c).conn.userID ≠ 0) :
      SocketMove g s
        { s.setSocket c { s.socket c with close := .removed } with
          manager := s.manager.remove (s.socket c).conn }
  | delete (c : String) (hclose : (s.socket c).close = .removed) :
      SocketMove g s
        { s.setSocket c { s.socket c with close := .closed } with
          sessions := (delSession ⟨g.nodeID⟩ (s.socket c).conn.userID
            (s.socket c).conn.deviceID (s.socket c).conn.connID s.sessions).1 }

/-! ## Inversion of a step -/

variable (g : GatewayDevice)

theorem callClose_move {c : String} (hauth : (s.socket c).auth ≠ .authed) :
    SocketMove g s (s.callClose c) := by
  dsimp only [callClose]
  split
  · rename_i hclose
    exact .close c hauth hclose
  · exact .stay

theorem stepAuth_move (c : String)
    (hold : ∀ old ∈ (s.socket c).auth.replaced, (s.socket old.connID).auth.Added) :
    SocketMove g s (s.stepAuth g c) := by
  dsimp only [stepAuth]
  split
  · rename_i hauth
    split
    · rename_i hstate
      exact .setAuthed c hauth hstate
    · exact .stay
  · rename_i hauth
    exact .add c hauth
  · rename_i replaced hauth
    exact .set c replaced hauth
  · rename_i hauth
    exact .finish c hauth
  · rename_i old replaced hauth
    split
    · rename_i hclosed
      exact .next c old replaced hauth hclosed
    · apply callClose_move
      intro hauthed
      have hadded := hold old (by simp [hauth, AuthPhase.replaced])
      simp [hauthed, AuthPhase.Added] at hadded
  · exact .stay

theorem stepClose_move (s : SocketState) (c : String) : SocketMove g s (s.stepClose g c) := by
  dsimp only [stepClose]
  split
  · rename_i hclose
    split
    · rename_i huser
      exact .forget c hclose huser
    · rename_i huser
      exact .remove c hclose huser
  · rename_i hclose
    exact .delete c hclose
  · exact .stay
  · exact .stay

theorem socketStep_move (op : SocketOp)
    (hold : ∀ c, ∀ old ∈ (s.socket c).auth.replaced, (s.socket old.connID).auth.Added) :
    SocketMove g s (socketStep g s op) := by
  cases op with
  | auth c => exact stepAuth_move g c (hold c)
  | close c =>
    dsimp only [socketStep]
    split
    · exact .stay
    · rename_i hauth
      exact callClose_move g hauth
  | cleanup c => exact stepClose_move g s c
  | heartbeat c => exact .stay

/-! ## Each socket -/

structure SocketOk (g : GatewayDevice) (connID : String) (x : Socket) : Prop where
  connID : x.conn.connID = connID
  anonymous : x.auth = .waiting → x.conn.userID = 0
  owner : x.auth ≠ .waiting → x.conn.userID = g.userID ∧ x.conn.deviceID = g.deviceID
  connected : x.conn.state = .connected → x.close = .alive
  authed : x.auth = .authed → x.close = .alive
  removed : x.close = .removed → x.auth ≠ .waiting
  late : x.lateSet = true → x.close = .closed

namespace SocketOk

variable {g : GatewayDevice} {connID : String} {x : Socket}

theorem not_waiting (h : SocketOk g connID x) (huser : x.conn.userID ≠ 0) : x.auth ≠ .waiting :=
  fun hauth => huser (h.anonymous hauth)

theorem waiting (h : SocketOk g connID x) (huser : x.conn.userID = 0) : x.auth = .waiting := by
  by_contra hauth
  exact g.user ((h.owner hauth).1.symm.trans huser)

theorem setAuthed (h : SocketOk g connID x) (hstate : x.conn.state = .connected) :
    SocketOk g connID
      { x with
        conn := x.conn.setAuthed g.userID g.deviceID
        auth := .authed } where
  connID := h.connID
  anonymous := by simp
  owner _ := ⟨rfl, rfl⟩
  connected _ := h.connected hstate
  authed _ := h.connected hstate
  removed _ := by simp
  late := h.late

theorem setAuth (h : SocketOk g connID x) (hold : x.auth ≠ .waiting) {phase : AuthPhase}
    (hnew : phase.Added) {lateSet : Bool} (hlate : lateSet = true → x.close = .closed) :
    SocketOk g connID
      { x with
        auth := phase
        lateSet } where
  connID := h.connID
  anonymous hauth := by
    simp only at hauth
    subst hauth
    exact hnew.elim
  owner _ := h.owner hold
  connected := h.connected
  authed hauth := by
    simp only at hauth
    subst hauth
    exact hnew.elim
  removed _ hauth := by
    simp only at hauth
    subst hauth
    exact hnew.elim
  late := hlate

theorem callClose (h : SocketOk g connID x) (hauth : x.auth ≠ .authed) (hclose : x.close = .alive) :
    SocketOk g connID
      { x with
        conn := { x.conn with state := .closed }
        close := .called } where
  connID := h.connID
  anonymous := h.anonymous
  owner := h.owner
  connected := by simp
  authed hauthed := absurd hauthed hauth
  removed := by simp
  late hlate := by simpa [hclose] using h.late hlate

theorem setClose (h : SocketOk g connID x) (hclose : x.close = .called ∨ x.close = .removed)
    {phase : ClosePhase} (hphase : phase = .removed → x.auth ≠ .waiting) :
    SocketOk g connID { x with close := phase } := by
  have halive : x.close ≠ .alive := by rcases hclose with h | h <;> simp [h]
  have hclosed : x.close ≠ .closed := by rcases hclose with h | h <;> simp [h]
  exact ⟨h.connID, h.anonymous, h.owner, fun hstate => absurd (h.connected hstate) halive,
    fun hauth => absurd (h.authed hauth) halive, hphase, fun hlate => absurd (h.late hlate) hclosed⟩

end SocketOk

variable {g : GatewayDevice}

theorem SocketMove.socketOk {s : SocketState} (hmove : SocketMove g s s')
    (h : ∀ c, SocketOk g c (s.socket c)) : ∀ c, SocketOk g c (s'.socket c) := by
  -- the sockets that a move leaves alone keep what holds of them
  have hone : ∀ {s' : SocketState} {connID : String} {x : Socket},
      s'.sockets = s.sockets.insert connID x → SocketOk g connID x →
        ∀ c, SocketOk g c (s'.socket c) :=
    fun hs hx => forall_socket_insert hs hx fun c _ => h c
  cases hmove with
  | stay => exact h
  | setAuthed c hauth hstate => exact hone rfl ((h c).setAuthed hstate)
  | add c hauth | next c old replaced hauth _ | finish c hauth =>
    exact hone rfl ((h c).setAuth (by simp [hauth]) (by trivial) (h c).late)
  | set c replaced hauth => exact hone rfl ((h c).setAuth (by simp [hauth]) (by trivial) (by simp))
  | close c hauth hclose => exact hone rfl ((h c).callClose hauth hclose)
  | forget c hclose _ => exact hone rfl ((h c).setClose (.inl hclose) (by simp))
  | remove c hclose huser =>
    exact hone rfl ((h c).setClose (.inl hclose) fun _ => (h c).not_waiting huser)
  | delete c hclose => exact hone rfl ((h c).setClose (.inr hclose) (by simp))

/-! ## The manager -/

namespace Manager

variable {m : Manager} {c : Connection} {connID : String}

theorem mem_connIDs_add (hc : c.userID ≠ 0) :
    connID ∈ (m.add c).conns.map Connection.connID ↔
      connID = c.connID ∨ connID ∈ m.conns.map Connection.connID := by
  simp only [add, hc, dite_false, map_append, mem_append, mem_map, mem_filter, mem_singleton]
  by_cases h : connID = c.connID
  · subst h
    simp
  · simp only [h, false_or]
    constructor
    · rintro (⟨x, ⟨hx, -⟩, rfl⟩ | ⟨x, rfl, rfl⟩)
      · exact ⟨x, hx, rfl⟩
      · exact absurd rfl h
    · rintro ⟨x, hx, rfl⟩
      exact .inl ⟨x, ⟨hx, by simpa using h⟩, rfl⟩

theorem nodup_connIDs_add (h : (m.conns.map Connection.connID).Nodup) :
    ((m.add c).conns.map Connection.connID).Nodup := by
  unfold add
  split
  · exact h
  simp only [map_append, map_cons, map_nil]
  refine List.Nodup.append (h.sublist (filter_sublist.map _)) (nodup_singleton _) ?_
  intro connID hold hnew
  obtain ⟨x, hx, rfl⟩ := mem_map.mp hold
  simp at hnew
  simp [hnew] at hx

theorem mem_connIDs_remove (hm : ∀ x ∈ m.conns, x.userID = c.userID) :
    connID ∈ (m.remove c).conns.map Connection.connID ↔
      connID ≠ c.connID ∧ connID ∈ m.conns.map Connection.connID := by
  simp only [remove, mem_map, mem_filter]
  constructor
  · rintro ⟨x, ⟨hx, hne⟩, rfl⟩
    exact ⟨fun heq => by simp [hm x hx, heq] at hne, x, hx, rfl⟩
  · rintro ⟨hne, x, hx, rfl⟩
    exact ⟨x, ⟨hx, by simp [hne]⟩, rfl⟩

theorem mem_connIDs_replacedBy (hm : ∀ x ∈ m.conns, x.userID = c.userID ∧ x.deviceID = c.deviceID) :
    connID ∈ (m.replacedBy c).map Connection.connID ↔
      connID ≠ c.connID ∧ connID ∈ m.conns.map Connection.connID := by
  simp only [replacedBy, getAll, mem_map, mem_filter]
  constructor
  · rintro ⟨x, ⟨⟨hx, -⟩, hne⟩, rfl⟩
    simp only [decide_eq_true_eq] at hne
    exact ⟨hne.2, x, hx, rfl⟩
  · rintro ⟨hne, x, hx, rfl⟩
    exact ⟨x, ⟨⟨hx, by simp [hm x hx]⟩, by simp [hm x hx, hne]⟩, rfl⟩

end Manager

/-- The manager has got the connection and still has it. -/
def Socket.InManager (x : Socket) : Prop := x.auth.Added ∧ x.close.Kept

/-- The manager knows each connection of the device once, from `Add` to `Remove`. -/
structure RegistryOk (g : GatewayDevice) (s : SocketState) : Prop where
  owner : ∀ x ∈ s.manager.conns, x.userID = g.userID ∧ x.deviceID = g.deviceID
  nodup : (s.manager.conns.map Connection.connID).Nodup
  mem : ∀ c, c ∈ s.manager.conns.map Connection.connID ↔ (s.socket c).InManager

variable {s s' : SocketState}

theorem RegistryOk.of_insert (h : RegistryOk g s) (hs : s'.sockets = s.sockets.insert connID x)
    (howner : ∀ x ∈ s'.manager.conns, x.userID = g.userID ∧ x.deviceID = g.deviceID)
    (hnodup : (s'.manager.conns.map Connection.connID).Nodup)
    (hx : connID ∈ s'.manager.conns.map Connection.connID ↔ x.InManager)
    (hother : ∀ c, c ≠ connID → (c ∈ s'.manager.conns.map Connection.connID ↔
      c ∈ s.manager.conns.map Connection.connID)) : RegistryOk g s' := by
  refine ⟨howner, hnodup, ?_⟩
  apply forall_socket_insert
    (P := fun c y => c ∈ s'.manager.conns.map Connection.connID ↔ y.InManager) hs hx
  intro c hc
  rw [hother c hc, h.mem]

theorem RegistryOk.of_same (h : RegistryOk g s)
    (hs : s'.sockets = s.sockets.insert connID x) (hmanager : s'.manager = s.manager)
    (hx : x.InManager ↔ (s.socket connID).InManager) : RegistryOk g s' := by
  refine h.of_insert hs (hmanager ▸ h.owner) (hmanager ▸ h.nodup) ?_ fun c _ => ?_
  · rw [hmanager, h.mem, hx]
  · rw [hmanager]

theorem RegistryOk.move (h : RegistryOk g s)
    (hok : ∀ c, SocketOk g c (s.socket c)) (hmove : SocketMove g s s') : RegistryOk g s' := by
  cases hmove with
  | stay => exact h
  | setAuthed c hauth _ | set c replaced hauth | next c old replaced hauth _ | finish c hauth =>
    exact h.of_same rfl rfl (by simp [InManager, hauth, AuthPhase.Added])
  | add c hauth =>
    have howner := (hok c).owner (by simp [hauth])
    have hkept : (s.socket c).close.Kept := .inl ((hok c).authed hauth)
    have huser : (s.socket c).conn.userID ≠ 0 := howner.1 ▸ g.user
    refine h.of_insert rfl ?_ (nodup_connIDs_add h.nodup) ?_ fun c' hc => ?_
    · intro x hx
      simp only [add, huser, dite_false] at hx
      rcases mem_append.mp hx with hold | hnew
      · exact h.owner x (mem_of_mem_filter hold)
      · rw [mem_singleton.mp hnew]
        exact howner
    · simp [mem_connIDs_add huser, (hok c).connID, InManager, AuthPhase.Added, hkept]
    · simp [mem_connIDs_add huser, (hok c).connID, hc]
  | close c _ hclose | delete c hclose =>
    exact h.of_same rfl rfl (by simp [InManager, ClosePhase.Kept, hclose])
  | forget c hclose huser =>
    -- without a user the socket was never added
    have hauth := (hok c).waiting huser
    exact h.of_same rfl rfl (by simp [InManager, hauth, AuthPhase.Added])
  | remove c hclose huser =>
    have howner := (hok c).owner ((hok c).not_waiting huser)
    have hsame : ∀ x ∈ s.manager.conns, x.userID = (s.socket c).conn.userID :=
      fun x hx => (h.owner x hx).1.trans howner.1.symm
    refine h.of_insert rfl (fun x hx => h.owner x (mem_of_mem_filter hx))
      (h.nodup.sublist (filter_sublist.map _)) ?_ fun c' hc => ?_
    · simp [mem_connIDs_remove hsame, (hok c).connID, InManager, ClosePhase.Kept]
    · simp [mem_connIDs_remove hsame, (hok c).connID, hc]

end NonokaIM
