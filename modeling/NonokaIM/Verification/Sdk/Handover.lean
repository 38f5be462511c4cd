import NonokaIM.Model.SdkRealtime

/-! The hand-over of sockets between the read loop and the reconnect monitor, safe in those runs in
which the two take turns. -/

namespace NonokaIM.Sdk

open GuardedRun Sdk.Socket Option MonitorPhase

/-- The socket that the read loop is reading from, or whose error it is handling. -/
def ReaderPhase.on : ReaderPhase → Option ℕ
  | .reading k | .failed k | .storing k => some k
  | _ => none

/-- The socket is not authenticated yet when the monitor works on it. -/
def MonitorPhase.on : MonitorPhase → Option ℕ
  | .dialled k _ | .connected k _ | .send k _ | .read k _ | .accepted k | .rejected k _ => some k
  | _ => none

/-- The monitor has put its socket into the field. -/
def MonitorPhase.placed : MonitorPhase → Bool
  | .connected _ _ | .send _ _ | .read _ _ | .accepted _ | .rejected _ _ => true
  | _ => false

/-- The socket that the monitor is about to mark as authenticated. -/
def MonitorPhase.accepting : MonitorPhase → Option ℕ
  | .accepted k => some k
  | _ => none

def Socket.unread (k : Socket) : ℕ := k.incoming.countP Frame.isAuthReply

def Socket.Answered (k : Socket) : Prop := k.replied = true ∧ k.unread = 0

/-- There is one reply to a request for authentication, and it was read on an authenticated
socket. -/
structure Socket.Ok (k : Socket) : Prop where
  once : k.unread ≤ k.replied.toNat
  answered : k.authed = true → k.Answered

namespace RealtimeState

variable {s : RealtimeState} {opts : RealtimeOptions}

def Newest (s : RealtimeState) (k : ℕ) : Prop := ∀ n, (s.sockets n).authed = true → n ≤ k

/-- The read loop takes a socket only once it is authenticated, and a socket is authenticated
only while the read loop has no older one. -/
def TakesTurns (s : RealtimeState) : RealtimeOp → Prop
  | .reader _ => s.reader = .load → s.wsConn.all (fun k => (s.sockets k).authed) = true
  | .monitor _ => s.monitor.accepting.all (fun k => s.reader.on.all (k ≤ ·)) = true
  | _ => True

instance : (op : RealtimeOp) → Decidable (s.TakesTurns op)
  | .reader _ => inferInstanceAs (Decidable (s.reader = .load → _ = true))
  | .monitor _ => inferInstanceAs (Decidable (_ = true))
  | .reply _ _ | .frame _ | .drop _ | .disconnect => .isTrue trivial

/-- The read loop has neither read a reply to a request for authentication nor reset the state
because of an older socket. -/
def Safe (s : RealtimeState) : Prop := s.stolen = false ∧ s.lateDrop = false

structure Sound (s : RealtimeState) : Prop where
  safe : s.Safe
  socket : ∀ k, (s.sockets k).Ok
  authed : ∀ k, (s.sockets k).authed = true → k < s.dialled
  conn : ∀ k, s.wsConn = some k → s.Newest k
  reader : ∀ k, s.reader.on = some k → (s.sockets k).authed = true ∧ s.Newest k
  monitor : ∀ k, s.monitor.on = some k →
    k < s.dialled ∧ (∀ n, (s.sockets n).authed = true → n < k) ∧
      (s.monitor.placed = true → s.wsConn = some k)
  accepted : ∀ k, s.monitor = .accepted k → (s.sockets k).Answered

variable {k : ℕ} {rest : List Frame}

theorem eq_zero_of_authed_init (h : (init.sockets k).authed = true) : k = 0 := by
  by_contra hk
  simp [init, hk] at h

theorem sound_init : init.Sound where
  safe := ⟨rfl, rfl⟩
  socket := by
    intro k
    by_cases hk : k = 0
    · subst k
      exact ⟨by decide, fun _ => ⟨rfl, rfl⟩⟩
    · have hsocket : init.sockets k = {} := by simp [init, hk]
      rw [hsocket]
      exact ⟨by decide, nofun⟩
  authed := by
    intro k h
    rw [eq_zero_of_authed_init h]
    exact Nat.one_pos
  conn := by
    intro k _ n hn
    rw [eq_zero_of_authed_init hn]
    exact Nat.zero_le k
  reader := nofun
  monitor := nofun
  accepted := nofun

structure Carried (old new : Socket) : Prop where
  ok : old.Ok → new.Ok
  authed : new.authed = old.authed
  answered : old.Answered → new.Answered

theorem Sound.setSocket (hs : s.Sound) {new : Socket} (h : Carried (s.sockets k) new) :
    (s.setSocket k new).Sound := by
  have hauthed : ∀ n, ((s.setSocket k new).sockets n).authed = (s.sockets n).authed := by
    intro n
    by_cases hn : n = k
    · subst n
      simpa using h.authed
    · rw [sockets_setSocket_of_ne s new hn]
  have hnewest : ∀ n, (s.setSocket k new).Newest n ↔ s.Newest n := by
    intro n
    simp only [Newest, hauthed]
  refine ⟨hs.safe, ?_, ?_, ?_, ?_, ?_, ?_⟩
  · intro n
    by_cases hn : n = k
    · subst n
      simpa using h.ok (hs.socket k)
    · rw [sockets_setSocket_of_ne s new hn]
      exact hs.socket n
  · intro n hn
    rw [hauthed] at hn
    exact hs.authed n hn
  · intro n hn
    exact (hnewest n).mpr (hs.conn n hn)
  · intro n hn
    rw [hauthed, hnewest]
    exact hs.reader n hn
  · intro n hn
    simp only [hauthed]
    exact hs.monitor n hn
  · intro n hn
    by_cases hnk : n = k
    · subst n
      simpa using h.answered (hs.accepted k hn)
    · rw [sockets_setSocket_of_ne s new hnk]
      exact hs.accepted n hn

theorem carried_down (k : Socket) : Carried k { k with down := true } :=
  ⟨fun h => ⟨h.once, h.answered⟩, rfl, id⟩

theorem carried_asked (k : Socket) : Carried k { k with asked := true, deadline := true } :=
  ⟨fun h => ⟨h.once, h.answered⟩, rfl, id⟩

theorem carried_frame (k : Socket) : Carried k { k with incoming := k.incoming ++ [.other] } := by
  have hunread : unread { k with incoming := k.incoming ++ [.other] } = k.unread := by
    simp [unread, Frame.isAuthReply]
  refine ⟨fun h => ⟨hunread.trans_le h.once, fun ha => ?_⟩, rfl, fun h => ?_⟩
  · exact ⟨(h.answered ha).1, hunread.trans (h.answered ha).2⟩
  · exact ⟨h.1, hunread.trans h.2⟩

theorem carried_reply {k : Socket} {success : Bool} (hk : k.replied = false) (hok : k.Ok) :
    Carried k { k with incoming := k.incoming ++ [.authReply success], replied := true } := by
  have hnone : k.unread = 0 := by
    have honce := hok.once
    rw [hk] at honce
    exact Nat.le_zero.mp honce
  refine ⟨fun h => ⟨?_, fun ha => ?_⟩, rfl, fun h => ?_⟩
  · have hunread : unread
        { k with incoming := k.incoming ++ [.authReply success], replied := true } =
          k.unread + 1 := by
      simp [unread, Frame.isAuthReply]
    rw [hunread, hnone]
    exact Nat.le_refl 1
  · have hreplied := (h.answered ha).1
    rw [hk] at hreplied
    cases hreplied
  · rw [Socket.Answered, hk] at h
    cases h.1

variable {f : Frame}

theorem unread_pop {k : Socket} (hk : k.incoming = f :: rest) :
    k.unread = unread { k with incoming := rest } + if f.isAuthReply then 1 else 0 := by
  simp [unread, hk, List.countP_cons]

theorem carried_pop {k : Socket} (hk : k.incoming = f :: rest) :
    Carried k { k with incoming := rest } := by
  have hle : unread { k with incoming := rest } ≤ k.unread := by
    rw [unread_pop hk]
    exact Nat.le_add_right _ _
  refine ⟨fun h => ⟨hle.trans h.once, fun ha => ?_⟩, rfl, fun h => ?_⟩
  · have hanswered := h.answered ha
    exact ⟨hanswered.1, Nat.le_zero.mp (hanswered.2 ▸ hle)⟩
  · exact ⟨h.1, Nat.le_zero.mp (h.2 ▸ hle)⟩

theorem answered_pop {k : Socket} (hok : k.Ok) (hk : k.incoming = f :: rest)
    (hf : f.isAuthReply = true) : Socket.Answered { k with incoming := rest } := by
  have honce := hok.once
  rw [unread_pop hk, hf] at honce
  have hreplied : k.replied = true := by
    cases h : k.replied with
    | true => rfl
    | false =>
      rw [h] at honce
      cases honce
  rw [hreplied] at honce
  exact ⟨hreplied, Nat.le_zero.mp (Nat.le_of_succ_le_succ honce)⟩

theorem not_isAuthReply_of_authed {k : Socket} (hok : k.Ok) (ha : k.authed = true)
    (hk : k.incoming = f :: rest) : f.isAuthReply = false := by
  cases hf : f.isAuthReply with
  | false => rfl
  | true =>
    have hnone := (hok.answered ha).2
    rw [unread_pop hk, hf] at hnone
    cases hnone

theorem not_newerAuthed (h : s.Newest k) : s.newerAuthed k = false := by
  rw [newerAuthed, List.any_eq_false]
  intro n _ hn
  simp only [Bool.and_eq_true, decide_eq_true_eq] at hn
  exact absurd (h n hn.2) (Nat.not_le_of_lt hn.1)

theorem Sound.hold (hs : s.Sound) {r : ReaderPhase} (hr : r.on = some k)
    (hk : (s.sockets k).authed = true ∧ s.Newest k) : { s with reader := r }.Sound := by
  refine { hs with reader := ?_ }
  intro n hn
  obtain rfl : k = n := some.inj (hr.symm.trans hn)
  exact hk

theorem Sound.readerStep (hs : s.Sound) (fails : Bool) (hturn : s.TakesTurns (.reader fails)) :
    (s.readerStep fails).Sound := by
  unfold RealtimeState.readerStep
  cases hr : s.reader with
  | top =>
    dsimp only
    split
    · exact hs
    · exact { hs with reader := nofun }
  | load =>
    dsimp only
    split
    · exact { hs with reader := nofun }
    rename_i k hconn
    have hauthed := hturn hr
    rw [hconn] at hauthed
    exact hs.hold rfl ⟨hauthed, hs.conn k hconn⟩
  | reading k =>
    have hon := hs.reader k (by simp [hr, ReaderPhase.on])
    dsimp only
    split
    · exact hs.hold rfl hon
    split
    · exact hs
    rename_i f rest hk
    have hf := not_isAuthReply_of_authed (hs.socket k) hon.1 hk
    have hpop := hs.setSocket (carried_pop hk)
    exact { hpop with safe := ⟨by simp [hs.safe.1, hf], hs.safe.2⟩, reader := nofun }
  | failed k =>
    have hon := hs.reader k (by simp [hr, ReaderPhase.on])
    dsimp only
    split
    · exact hs.hold rfl hon
    · exact { hs with reader := nofun }
  | storing k =>
    have hon := hs.reader k (by simp [hr, ReaderPhase.on])
    exact { hs with
      safe := ⟨hs.safe.1, by simp [hs.safe.2, not_newerAuthed hon.2]⟩
      reader := nofun }
  | sleeping => exact { hs with reader := nofun }
  | panicked => exact hs

theorem Sound.leave (hs : s.Sound) {m : MonitorPhase} (hm : m.on = none) (state : RtState)
    (attempts : ℕ) :
    { s with state, reconnectAttempts := attempts, monitor := m }.Sound := by
  refine { hs with monitor := ?_, accepted := ?_ }
  · intro k hk
    simp [hm] at hk
  · rintro k rfl
    cases hm

theorem Sound.go (hs : s.Sound) {old m : MonitorPhase} (hold : s.monitor = old)
    (hon : old.on = some k) (hplaced : old.placed = true) (hm : m.on = some k)
    (haccepted : m = .accepted k → (s.sockets k).Answered) (state : RtState) :
    { s with state, monitor := m }.Sound := by
  subst old
  obtain ⟨hlt, habove, hconn⟩ := hs.monitor k hon
  refine { hs with monitor := ?_, accepted := ?_ }
  · intro n hn
    obtain rfl : k = n := some.inj (hm.symm.trans hn)
    exact ⟨hlt, habove, fun _ => hconn hplaced⟩
  · intro n hn
    change m = .accepted n at hn
    have hon : m.on = some n := by
      rw [hn]
      rfl
    obtain rfl : k = n := some.inj (hm.symm.trans hon)
    exact haccepted hn

theorem Sound.compareAndSwap (hs : s.Sound) {old new : RtState} {ok no : MonitorPhase}
    (hok : ok.on = none) (hno : no.on = none) : (s.compareAndSwap old new ok no).Sound := by
  unfold RealtimeState.compareAndSwap
  split
  · exact hs.leave hok new s.reconnectAttempts
  · exact hs.leave hno s.state s.reconnectAttempts

theorem Sound.dial (hs : s.Sound) (left : ℕ) :
    { s.setSocket s.dialled {} with
      dialled := s.dialled + 1, monitor := .dialled s.dialled left }.Sound := by
  have hsame : ∀ n, n ≠ s.dialled → (s.setSocket s.dialled {}).sockets n = s.sockets n :=
    fun n hn => sockets_setSocket_of_ne s {} hn
  have hold : ∀ n, ((s.setSocket s.dialled {}).sockets n).authed = true →
      (s.sockets n).authed = true ∧ n < s.dialled := by
    intro n hn
    by_cases hne : n = s.dialled
    · simp [hne] at hn
    · rw [hsame n hne] at hn
      exact ⟨hn, hs.authed n hn⟩
  refine ⟨hs.safe, ?_, ?_, ?_, ?_, ?_, nofun⟩
  · intro n
    by_cases hne : n = s.dialled
    · subst n
      rw [sockets_setSocket_self]
      exact ⟨by decide, nofun⟩
    · rw [hsame n hne]
      exact hs.socket n
  · intro n hn
    exact Nat.lt_succ_of_lt (hold n hn).2
  · intro n hn m hm
    exact hs.conn n hn m (hold m hm).1
  · intro n hn
    obtain ⟨hauthed, hnewest⟩ := hs.reader n hn
    refine ⟨?_, fun m hm => hnewest m (hold m hm).1⟩
    rw [hsame n (Nat.ne_of_lt (hs.authed n hauthed))]
    exact hauthed
  · intro n hn
    obtain rfl : s.dialled = n := by simpa [on] using hn
    exact ⟨Nat.lt_succ_self _, fun m hm => (hold m hm).2, nofun⟩

theorem Sound.accept (hs : s.Sound) (hm : s.monitor = .accepted k)
    (hturn : s.reader.on.all (k ≤ ·) = true) :
    { s.setSocket k { s.sockets k with deadline := false, authed := true } with
      state := .authed, monitor := .top, reconnectAttempts := 0 }.Sound := by
  obtain ⟨hlt, habove, hconn⟩ := hs.monitor k (by rw [hm]; rfl)
  have hfree : s.reader.on = none := by
    cases hr : s.reader.on with
    | none => rfl
    | some j =>
      rw [hr] at hturn
      have hle : k ≤ j := by simpa using hturn
      exact absurd (habove j (hs.reader j hr).1) (Nat.not_lt_of_le hle)
  have hold : ∀ n, ((s.setSocket k
      { s.sockets k with deadline := false, authed := true }).sockets n).authed = true →
      n ≤ k := by
    intro n hn
    by_cases hne : n = k
    · exact hne.le
    · rw [sockets_setSocket_of_ne s _ hne] at hn
      exact (habove n hn).le
  refine ⟨hs.safe, ?_, ?_, ?_, ?_, nofun, nofun⟩
  · intro n
    by_cases hne : n = k
    · subst n
      simp only [RealtimeState.setSocket, Function.update_self]
      exact ⟨(hs.socket k).once, fun _ => hs.accepted k hm⟩
    · simp only [RealtimeState.setSocket, Function.update_of_ne hne]
      exact hs.socket n
  · intro n hn
    exact Nat.lt_of_le_of_lt (hold n hn) hlt
  · intro n hn
    have hk : s.wsConn = some k := hconn (by rw [hm]; rfl)
    obtain rfl : k = n := some.inj (hk.symm.trans hn)
    exact hold
  · intro n hn
    change s.reader.on = some n at hn
    rw [hfree] at hn
    cases hn

theorem Sound.monitorStep (hs : s.Sound) (fails : Bool) (hturn : s.TakesTurns (.monitor fails)) :
    (s.monitorStep opts fails).Sound := by
  unfold RealtimeState.monitorStep
  cases hm : s.monitor with
  | top =>
    dsimp only
    split
    · exact hs
    · split
      · exact hs.leave rfl s.state s.reconnectAttempts
      · exact hs.leave rfl s.state s.reconnectAttempts
  | swap =>
    dsimp only
    split
    · exact hs.leave rfl .reconnecting (s.reconnectAttempts + 1)
    · exact hs.leave rfl s.state s.reconnectAttempts
  | enter => exact hs.leave rfl s.state s.reconnectAttempts
  | begin start target | again target => exact hs.compareAndSwap rfl rfl
  | refused target =>
    dsimp only
    split
    · exact hs.leave rfl s.state s.reconnectAttempts
    · exact hs.leave rfl s.state s.reconnectAttempts
  | closing target =>
    dsimp only
    split
    · exact hs.leave rfl s.state s.reconnectAttempts
    · exact (hs.setSocket (carried_down _)).leave rfl s.state s.reconnectAttempts
  | closed target | cleared left | exhausted => exact hs.leave rfl .disconnected s.reconnectAttempts
  | dial left =>
    cases left with
    | zero => exact hs.leave rfl s.state s.reconnectAttempts
    | succ left =>
      dsimp only
      split
      · exact hs.leave rfl s.state s.reconnectAttempts
      · exact hs.dial left
  | dialled k left =>
    obtain ⟨hlt, habove, _⟩ := hs.monitor k (by rw [hm]; rfl)
    refine { hs with conn := ?_, monitor := ?_, accepted := nofun }
    · intro n hn m hauthed
      obtain rfl : k = n := some.inj hn
      exact (habove m hauthed).le
    · intro n hn
      obtain rfl : k = n := by simpa [on] using hn
      exact ⟨hlt, habove, fun _ => rfl⟩
  | connected k left =>
    exact hs.go (m := .send k left) hm rfl rfl rfl nofun .connected
  | send k left =>
    dsimp only
    split
    · exact hs.go (m := .rejected k left) hm rfl rfl rfl nofun s.state
    · have hasked := hs.setSocket (carried_asked (s.sockets k))
      exact hasked.go (m := .read k left) hm rfl rfl rfl nofun s.state
  | read k left =>
    dsimp only
    split
    · exact hs.go (m := .rejected k left) hm rfl rfl rfl nofun s.state
    split
    · exact hs
    rename_i f rest hk
    have hpop := hs.setSocket (carried_pop hk)
    split
    · exact hpop
    · exact hpop.go (m := .rejected k left) hm rfl rfl rfl nofun s.state
    · refine hpop.go (m := .accepted k) hm rfl rfl rfl ?_ s.state
      intro _
      simpa using answered_pop (hs.socket k) hk rfl
  | accepted k =>
    refine hs.accept hm ?_
    simpa only [TakesTurns, hm, accepting, all_some] using hturn
  | rejected k left =>
    have hdown := hs.setSocket (carried_down (s.sockets k))
    exact { hdown with conn := nofun, monitor := nofun, accepted := nofun }
  | stopped => exact hs

theorem sound_step (hs : s.Sound) {op : RealtimeOp} (hturn : s.TakesTurns op) :
    (realtimeStep opts s op).Sound := by
  cases op with
  | reader fails => exact hs.readerStep fails hturn
  | monitor fails => exact hs.monitorStep fails hturn
  | reply k success =>
    rw [realtimeStep]
    split
    · rename_i hasked
      simp only [Bool.and_eq_true, Bool.not_eq_true'] at hasked
      exact hs.setSocket (carried_reply hasked.1.2 (hs.socket k))
    · exact hs
  | frame k =>
    rw [realtimeStep]
    split
    · exact hs
    · exact hs.setSocket (carried_frame _)
  | drop k => exact hs.setSocket (carried_down _)
  | disconnect =>
    rw [realtimeStep]
    split
    · exact { hs with }
    · exact { hs.setSocket (carried_down _) with }

end RealtimeState

open RealtimeState in
/-- As long as the read loop takes a socket only once it is authenticated, and a socket is
authenticated only while the read loop has no older one, the read loop neither reads a reply to a
request for authentication nor resets the state because of a socket older than an authenticated
one. -/
theorem handover_safe (opts : RealtimeOptions) {ops : List RealtimeOp}
    (hturns : Along (realtimeStep opts) TakesTurns init ops) :
    (run (realtimeStep opts) init ops).Safe := by
  have hstep : ∀ s op, Sound s → TakesTurns s op → Sound (realtimeStep opts s op) :=
    fun _ _ hs hturn => sound_step hs hturn
  exact (invariant_run hstep sound_init hturns).safe

/-- The read loop meets an error of the first socket and starts to sleep. -/
def readError : List RealtimeOp :=
  .drop 0 :: .replicate 2 (.reader false) ++ .replicate 3 (.reader true)

/-- The monitor dials the second socket and asks for authentication on it. -/
def redial : List RealtimeOp := .replicate 8 (.monitor false)

/-- The server accepts, and the monitor reads the answer. -/
def welcome : List RealtimeOp := .reply 1 true :: .replicate 2 (.monitor false)

/-- The second socket is authenticated while the read loop sleeps. -/
def replacedAsleep : List RealtimeOp :=
  readError ++ redial ++ welcome ++ .replicate 3 (.reader false)

/-- The read loop wakes up before the answer arrives. -/
def replacedAwake : List RealtimeOp :=
  readError ++ redial ++ .replicate 3 (.reader false) ++ [.reply 1 true, .reader false]

/-- The read loop has gone back to the first socket before it is replaced. -/
def erroredTwice : List RealtimeOp :=
  readError ++ .replicate 3 (.reader false) ++ redial ++ welcome ++ .replicate 3 (.reader true)

open RealtimeState in
theorem reconnect_while_reader_sleeps :
    (run (realtimeStep {}) init replacedAsleep).state = .authed ∧
      (run (realtimeStep {}) init replacedAsleep).reader = .reading 1 ∧
      (run (realtimeStep {}) init replacedAsleep).Safe :=
  ⟨by decide, by decide, handover_safe {} (by decide)⟩

open RealtimeState in
/-- The monitor waits for an answer that the read loop has taken, and a client with an authenticated
socket is disconnected by an error of the old one. -/
theorem reader_steals_reply_and_drops_new_socket :
    ((run (realtimeStep {}) init replacedAwake).stolen = true ∧
        (run (realtimeStep {}) init replacedAwake).monitor = .read 1 0 ∧
        ((run (realtimeStep {}) init replacedAwake).sockets 1).unread = 0) ∧
      (run (realtimeStep {}) init erroredTwice).lateDrop = true ∧
      (run (realtimeStep {}) init erroredTwice).state = .disconnected ∧
      ((run (realtimeStep {}) init erroredTwice).sockets 1).authed = true ∧
      ((run (realtimeStep {}) init erroredTwice).sockets 1).down = false := by
  decide

end NonokaIM.Sdk
