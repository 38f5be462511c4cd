import NonokaIM.Library.GuardedRun
import NonokaIM.Model.WebRealtime

/-! Whether the web client comes back after it has lost its connection. -/

namespace NonokaIM.Web

open GuardedRun Option

/-- A connection is being opened, or a reply to the request for authentication is awaited. -/
def WebSocket.attempting (k : WebSocket) : Bool :=
  k.readyState = .connecting || (k.readyState = .open && k.auth = .waiting)

namespace RealtimeClient

/-- The client is authenticated on an open socket. -/
def online (c : RealtimeClient) : Bool :=
  c.ws.any fun k => k.readyState = .open && k.auth = .done

/-- A gateway lookup, a dial or an authentication is in flight. -/
def attempting (c : RealtimeClient) : Bool := c.lookup || c.ws.any WebSocket.attempting

/-- The client is closed, or it is online or on its way there. -/
def NotStuck (c : RealtimeClient) : Prop :=
  c.closed = true ∨ c.online = true ∨ c.attempting = true ∨ c.refreshing = true ∨
    c.reconnectTimer.isSome = true
  deriving Decidable

/-! ## Phases -/

/-- What a client that is not stuck waits for. -/
inductive Phase where
  | lookup
  | dialling
  | authenticating
  | online
  | refreshing
  | waiting
  | ended
  deriving DecidableEq

def Phase.ws : Phase → Option WebSocket
  | .dialling => some {}
  | .authenticating => some { readyState := .open, auth := .waiting }
  | .online => some { readyState := .open, auth := .done }
  | _ => none

/-- In a phase the client waits for one thing only. -/
structure In (p : Phase) (c : RealtimeClient) : Prop where
  ws : c.ws = p.ws
  lookup : c.lookup = (p = .lookup : Bool)
  refreshing : c.refreshing = (p = .refreshing : Bool)
  timer : c.reconnectTimer.isSome = (p = .waiting : Bool)
  closed : c.closed = (p = .ended : Bool)

variable {env : Env} {c : RealtimeClient} {p : Phase}

theorem In.notStuck (h : In p c) : c.NotStuck := by
  cases p with
  | lookup => exact .inr (.inr (.inl (by simp [attempting, h.lookup])))
  | dialling | authenticating =>
    exact .inr (.inr (.inl (by simp [attempting, h.ws, Phase.ws, WebSocket.attempting])))
  | online => exact .inr (.inl (by simp [online, h.ws, Phase.ws]))
  | refreshing => exact .inr (.inr (.inr (.inl (by simp [h.refreshing]))))
  | waiting => exact .inr (.inr (.inr (.inr (by simp [h.timer]))))
  | ended => exact .inl (by simp [h.closed])

def authenticating (c : RealtimeClient) : Bool := c.ws.any (·.auth = .waiting)

/-- The URL of a gateway is accepted, no socket fails, and an authentication fails because of the
token only, and only once. -/
def Survives (env : Env) (c : RealtimeClient) : ClientEvent → Prop
  | .lookupFound gatewayUrl => c.lookup = true → env.accepts (env.url gatewayUrl) = true
  | .error => c.ws = none
  | .authReply success => c.authenticating = true → success = false → c.didTokenRefresh = false
  | .authError msg code =>
    c.authenticating = true →
      c.didTokenRefresh = false ∧ isTokenError (errorText msg code) = true
  | .authTimeout => c.authenticating = false
  | _ => True

theorem isTokenError_auth_failed : isTokenError "auth failed" = true := by decide

theorem isTokenError_auth_timeout : isTokenError "auth timeout" = false := by decide

theorem scheduleReconnect_in (hws : c.ws = none) (hlookup : c.lookup = false)
    (hrefreshing : c.refreshing = false) (htimer : c.reconnectTimer.isSome = false)
    (hclosed : c.closed = false) : In .waiting c.scheduleReconnect := by
  have heq : c.scheduleReconnect =
      { c with
        reconnectTimer := some (min (1000 * 2 ^ c.reconnectAttempt) maxReconnectDelayMs)
        reconnectAttempt := c.reconnectAttempt + 1 } := by
    simp [scheduleReconnect, hclosed, htimer]
  rw [heq]
  exact ⟨hws, hlookup, hrefreshing, rfl, hclosed⟩

theorem doConnect_in (hws : c.ws = none) (hrefreshing : c.refreshing = false)
    (htimer : c.reconnectTimer.isSome = false) (hclosed : c.closed = false) :
    In .lookup c.doConnect := by
  have heq : c.doConnect = { c with lookup := true } := by simp [doConnect, hclosed]
  rw [heq]
  exact ⟨hws, rfl, hrefreshing, htimer, hclosed⟩

theorem connect_in : In .lookup connect := ⟨rfl, rfl, rfl, rfl, rfl⟩

/-- Events of a socket need a socket, replies a request, and the others what they complete. -/
def Concerns (c : RealtimeClient) : ClientEvent → Bool
  | .lookupFailed | .lookupFound _ => c.lookup
  | .refreshed _ => c.refreshing
  | .reconnect => c.reconnectTimer.isSome
  | .opened | .error | .closed => c.ws.isSome
  | .authReply _ | .authError _ _ | .authTimeout => c.authenticating

variable {e : ClientEvent}

theorem step_of_not_concerns (h : c.Concerns e = false) : c.step env e = c := by
  cases e with
  | lookupFailed | lookupFound | refreshed | reconnect => simp_all [Concerns, step]
  | opened | error | closed =>
    have hws : c.ws = none := by simpa [Concerns] using h
    simp [step, hws]
  | authReply | authError | authTimeout =>
    cases hws : c.ws with
    | none => simp [step, hws]
    | some k =>
      have hk : k.auth ≠ .waiting := by simpa [Concerns, authenticating, hws] using h
      simp [step, hws, onSocket, authSettled, hk]

theorem survives_of_not_concerns (h : c.Concerns e = false) : c.Survives env e := by
  cases e with
  | lookupFound gatewayUrl => exact fun hlookup => absurd (hlookup.symm.trans h) nofun
  | error => simpa [Concerns, Survives] using h
  | authReply | authError | authTimeout =>
    have hauth : c.authenticating = false := h
    simp [Survives, hauth]
  | lookupFailed | opened | closed | refreshed | reconnect => trivial

theorem In.of_socket (h : In p c) (hws : c.ws.isSome = true) :
    p = .dialling ∨ p = .authenticating ∨ p = .online := by
  rw [h.ws] at hws
  cases p with
  | dialling => exact .inl rfl
  | authenticating => exact .inr (.inl rfl)
  | online => exact .inr (.inr rfl)
  | lookup | refreshing | waiting | ended => cases hws

theorem In.idle (h : In p c) (hws : c.ws.isSome = true) :
    c.lookup = false ∧ c.refreshing = false ∧ c.reconnectTimer.isSome = false ∧
      c.closed = false := by
  rcases h.of_socket hws with rfl | rfl | rfl <;> exact ⟨h.lookup, h.refreshing, h.timer, h.closed⟩

variable {k : WebSocket}

theorem In.stuck (h : In p c) (hws : c.ws.isSome = true) (hk : k.attempting = false)
    (hdone : k.auth ≠ .done ∨ k.readyState ≠ .open) : ¬ { c with ws := some k }.NotStuck := by
  have hopen : (decide (k.readyState = .open) && decide (k.auth = .done)) = false := by
    rcases hdone with hauth | hstate
    · simp [hauth]
    · simp [hstate]
  simp [NotStuck, online, attempting, h.idle hws, hk, hopen]

/-- What an event does: the client goes on in a phase, or it is stuck. -/
def Outcome (env : Env) (c : RealtimeClient) (e : ClientEvent) : Prop :=
  (c.Survives env e ∧ ∃ q, In q (c.step env e)) ∨ (¬ c.Survives env e ∧ ¬ (c.step env e).NotStuck)

theorem outcome_lookupFailed (h : In .lookup c) : c.Outcome env .lookupFailed := by
  refine .inl ⟨trivial, .waiting, ?_⟩
  have hstep : c.step env .lookupFailed = { c with lookup := false }.scheduleReconnect := by
    simp [step, lookupFailed, h.lookup]
  rw [hstep]
  exact scheduleReconnect_in h.ws rfl h.refreshing h.timer h.closed

theorem outcome_lookupFound (h : In .lookup c) (gatewayUrl : String) :
    c.Outcome env (.lookupFound gatewayUrl) := by
  by_cases haccepts : env.accepts (env.url gatewayUrl)
  · refine .inl ⟨fun _ => haccepts, .dialling, ?_⟩
    have hstep : c.step env (.lookupFound gatewayUrl) =
        { c with lookup := false, ws := some {} } := by
      simp [step, lookupFound, h.lookup, haccepts]
    rw [hstep]
    exact ⟨rfl, rfl, h.refreshing, h.timer, h.closed⟩
  · refine .inr ⟨fun hsurvives => haccepts (hsurvives (by simp [h.lookup])), ?_⟩
    have hstep : c.step env (.lookupFound gatewayUrl) = { c with lookup := false } := by
      simp [step, lookupFound, h.lookup, haccepts]
    rw [hstep]
    simp [NotStuck, online, attempting, h.ws, Phase.ws, h.refreshing, h.timer, h.closed]

theorem outcome_refreshed (h : In .refreshing c) (ok : Bool) : c.Outcome env (.refreshed ok) := by
  have hrefreshing : c.refreshing = true := h.refreshing
  cases ok with
  | true =>
    refine .inl ⟨trivial, .lookup, ?_⟩
    have hstep : c.step env (.refreshed true) = { c with refreshing := false }.doConnect := by
      simp [step, refreshDone, hrefreshing]
    rw [hstep]
    exact doConnect_in h.ws rfl h.timer h.closed
  | false =>
    refine .inl ⟨trivial, .ended, ?_⟩
    have hstep : c.step env (.refreshed false) =
        { c with refreshing := false, closed := true } := by
      simp [step, refreshDone, hrefreshing]
    rw [hstep]
    exact ⟨h.ws, h.lookup, rfl, h.timer, rfl⟩

theorem outcome_reconnect (h : In .waiting c) : c.Outcome env .reconnect := by
  refine .inl ⟨trivial, .lookup, ?_⟩
  have htimer : c.reconnectTimer.isSome = true := h.timer
  have hstep : c.step env .reconnect = { c with reconnectTimer := none }.doConnect := by
    simp [step, htimer]
  rw [hstep]
  exact doConnect_in h.ws h.refreshing rfl h.closed

/-! ## Events of a socket -/

theorem In.outcome_self (h : In p c) (hsurvives : c.Survives env e)
    (hstep : c.step env e = c) : c.Outcome env e :=
  .inl ⟨hsurvives, p, hstep.symm ▸ h⟩

theorem outcome_opened (h : In p c) (hws : c.ws.isSome = true) : c.Outcome env .opened := by
  rcases h.of_socket hws with rfl | rfl | rfl
  · refine .inl ⟨trivial, .authenticating, ?_⟩
    have hstep : c.step env .opened =
        { c with ws := some { readyState := .open, auth := .waiting } } := by
      simp [step, onSocket, onOpen, h.ws, Phase.ws]
    rw [hstep]
    exact ⟨rfl, h.lookup, h.refreshing, h.timer, h.closed⟩
  · exact h.outcome_self trivial (by simp [step, onSocket, onOpen, h.ws, Phase.ws])
  · exact h.outcome_self trivial (by simp [step, onSocket, onOpen, h.ws, Phase.ws])

theorem In.step_error (h : In p c) (hk : c.ws = some k) :
    c.step env .error =
      { c with ws := some { k with readyState := .failing, listening := false } } := by
  have hstate : k.readyState = .connecting ∨ k.readyState = .open := by
    rcases h.of_socket (by simp [hk]) with rfl | rfl | rfl <;> cases h.ws.symm.trans hk <;> simp
  simp [step, onSocket, onError, hk, hstate]

theorem outcome_error (h : In p c) (hws : c.ws.isSome = true) : c.Outcome env .error := by
  obtain ⟨k, hk⟩ := isSome_iff_exists.mp hws
  refine .inr ⟨fun hnone => by simp [Survives, hk] at hnone, ?_⟩
  rw [h.step_error hk]
  exact h.stuck hws (by simp [WebSocket.attempting]) (.inr (by simp))

theorem outcome_closed (h : In p c) (hws : c.ws.isSome = true) : c.Outcome env .closed := by
  refine .inl ⟨trivial, .waiting, ?_⟩
  have hstep : c.step env .closed = { c with ws := none }.scheduleReconnect := by
    rcases h.of_socket hws with rfl | rfl | rfl <;>
      simp [step, onSocket, onClose, handleDisconnect, h.ws, Phase.ws]
  rw [hstep]
  obtain ⟨hlookup, hrefreshing, htimer, hclosed⟩ := h.idle hws
  exact scheduleReconnect_in rfl hlookup hrefreshing htimer hclosed

theorem outcome_authFailed (h : In .authenticating c) (msg : String)
    (hk : c.ws = some k) (hstep : c.step env e = c.authFailed k msg)
    (hsurvives : c.Survives env e ↔ c.didTokenRefresh = false ∧ isTokenError msg = true) :
    c.Outcome env e := by
  rw [Outcome, hstep, hsurvives]
  by_cases htoken : c.didTokenRefresh = false ∧ isTokenError msg = true
  · refine .inl ⟨htoken, .refreshing, ?_⟩
    have heq : c.authFailed k msg =
        { c with didTokenRefresh := true, ws := none, refreshing := true } := by
      simp [authFailed, htoken]
    rw [heq]
    exact ⟨rfl, h.lookup, rfl, h.timer, h.closed⟩
  · refine .inr ⟨htoken, ?_⟩
    have heq : c.authFailed k msg = { c with ws := some { k with auth := .failed } } := by
      rw [authFailed, if_neg]
      simpa using htoken
    have hstate : k.readyState = .open := by
      rw [h.ws] at hk
      cases hk
      rfl
    rw [heq]
    exact h.stuck (by simp [hk]) (by simp [WebSocket.attempting, hstate]) (.inl (by simp))

theorem authenticating_of_in (h : In p c) : c.authenticating = (p = .authenticating : Bool) := by
  rw [authenticating, h.ws]
  cases p <;> rfl

theorem outcome_authReply (h : In .authenticating c) (success : Bool) :
    c.Outcome env (.authReply success) := by
  cases success with
  | true =>
    refine .inl ⟨fun _ => nofun, .online, ?_⟩
    have hstep : c.step env (.authReply true) =
        { c with
          ws := some { readyState := .open, auth := .done }
          reconnectAttempt := 0 } := by
      simp [step, onSocket, authSettled, h.ws, Phase.ws]
    rw [hstep]
    exact ⟨rfl, h.lookup, h.refreshing, h.timer, h.closed⟩
  | false =>
    refine outcome_authFailed h "auth failed" h.ws ?_ ?_
    · simp [step, onSocket, authSettled, h.ws, Phase.ws]
    · simp [Survives, authenticating_of_in h, isTokenError_auth_failed]

theorem outcome_authError (h : In .authenticating c) (msg : String) (code : ℕ) :
    c.Outcome env (.authError msg code) := by
  refine outcome_authFailed h (errorText msg code) h.ws ?_ ?_
  · simp [step, onSocket, authSettled, h.ws, Phase.ws]
  · simp [Survives, authenticating_of_in h]

theorem outcome_authTimeout (h : In .authenticating c) : c.Outcome env .authTimeout := by
  refine outcome_authFailed h "auth timeout" h.ws ?_ ?_
  · simp [step, onSocket, h.ws, Phase.ws]
  · simp [Survives, authenticating_of_in h, isTokenError_auth_timeout]

theorem In.outcome (h : In p c) (e : ClientEvent) : c.Outcome env e := by
  by_cases hconcerns : c.Concerns e
  · cases e with
    | lookupFailed =>
      obtain rfl : p = .lookup := by simpa using h.lookup.symm.trans hconcerns
      exact outcome_lookupFailed h
    | lookupFound gatewayUrl =>
      obtain rfl : p = .lookup := by simpa using h.lookup.symm.trans hconcerns
      exact outcome_lookupFound h gatewayUrl
    | refreshed ok =>
      obtain rfl : p = .refreshing := by simpa using h.refreshing.symm.trans hconcerns
      exact outcome_refreshed h ok
    | reconnect =>
      obtain rfl : p = .waiting := by simpa using h.timer.symm.trans hconcerns
      exact outcome_reconnect h
    | opened => exact outcome_opened h hconcerns
    | error => exact outcome_error h hconcerns
    | closed => exact outcome_closed h hconcerns
    | authReply success =>
      obtain rfl : p = .authenticating := by
        simpa using (authenticating_of_in h).symm.trans hconcerns
      exact outcome_authReply h success
    | authError msg code =>
      obtain rfl : p = .authenticating := by
        simpa using (authenticating_of_in h).symm.trans hconcerns
      exact outcome_authError h msg code
    | authTimeout =>
      obtain rfl : p = .authenticating := by
        simpa using (authenticating_of_in h).symm.trans hconcerns
      exact outcome_authTimeout h
  · have hnot : c.Concerns e = false := by simpa using hconcerns
    exact h.outcome_self (survives_of_not_concerns hnot) (step_of_not_concerns hnot)

/-! ## After an error -/

/-- No listener is attached to what is left of the socket, and nothing else is awaited. -/
structure Dead (c : RealtimeClient) : Prop where
  closed : c.closed = false
  lookup : c.lookup = false
  refreshing : c.refreshing = false
  timer : c.reconnectTimer.isSome = false
  listening : ∀ k ∈ c.ws, k.listening = false
  state : ∀ k ∈ c.ws, k.readyState = .failing ∨ k.readyState = .closed

theorem Dead.stuck (h : c.Dead) : ¬ c.NotStuck := by
  have hsocket : ∀ k ∈ c.ws, k.readyState ≠ .open ∧ k.readyState ≠ .connecting := by
    intro k hk
    rcases h.state k hk with hstate | hstate <;> simp [hstate]
  cases hws : c.ws with
  | none =>
    simp [NotStuck, online, attempting, hws, h.closed, h.lookup, h.refreshing, h.timer]
  | some k =>
    simp [NotStuck, online, attempting, WebSocket.attempting, hws, h.closed,
      h.lookup, h.refreshing, h.timer, hsocket k hws]

theorem Dead.setSocket (h : c.Dead) {k' : WebSocket} (hk : c.ws = some k)
    (hlistening : k'.listening = k.listening)
    (hstate : k'.readyState = k.readyState ∨ k'.readyState = .closed) :
    { c with ws := some k' }.Dead := by
  refine ⟨h.closed, h.lookup, h.refreshing, h.timer, ?_, ?_⟩
  · intro j hj
    obtain rfl : k' = j := some.inj hj
    exact hlistening.trans (h.listening k hk)
  · intro j hj
    obtain rfl : k' = j := some.inj hj
    rcases hstate with heq | heq
    · exact heq ▸ h.state k hk
    · exact .inr heq

theorem Dead.step (h : c.Dead) (e : ClientEvent) : (c.step env e).Dead := by
  cases hws : c.ws with
  | none =>
    have hnot : c.Concerns e = false := by
      cases e <;> simp [Concerns, authenticating, hws, h.lookup, h.refreshing, h.timer]
    rwa [step_of_not_concerns hnot]
  | some k =>
    have hlistening := h.listening k hws
    have hstate : k.readyState ≠ .open ∧ k.readyState ≠ .connecting := by
      rcases h.state k hws with hk | hk <;> simp [hk]
    cases e with
    | lookupFailed | lookupFound | refreshed | reconnect =>
      simpa [RealtimeClient.step, h.lookup, h.refreshing, h.timer] using h
    | opened | error | authReply | authError =>
      simpa [RealtimeClient.step, hws, onSocket, onOpen, onError, authSettled, hstate] using h
    | closed =>
      simp only [RealtimeClient.step, hws, onSocket, onClose, hlistening]
      split
      · exact h
      · exact h.setSocket hws hlistening.symm (.inr rfl)
    | authTimeout =>
      simp only [RealtimeClient.step, hws, onSocket, authFailed, isTokenError_auth_timeout,
        Bool.and_false, Bool.false_eq_true, if_false]
      split
      · exact h.setSocket hws rfl (.inl rfl)
      · exact h

theorem stuck_after_error (h : In p c) (hws : c.ws.isSome = true) (events : List ClientEvent) :
    ¬ (run (·.step env) (c.step env .error) events).NotStuck := by
  have hdead : (c.step env .error).Dead := by
    obtain ⟨k, hk⟩ := isSome_iff_exists.mp hws
    obtain ⟨hlookup, hrefreshing, htimer, hclosed⟩ := h.idle hws
    rw [h.step_error hk]
    exact ⟨hclosed, hlookup, hrefreshing, htimer, by simp, by simp⟩
  have hstep : ∀ c e, Dead c → Dead (c.step env e) := fun _ e hc => hc.step e
  exact (invariant_run_all hstep events hdead).stuck

end RealtimeClient

open RealtimeClient in
/-- After every event the client is online, on its way there or closed exactly if all gateway URLs
are accepted, no socket fails with an error, and an authentication fails because of the token
only, and only once. -/
theorem never_stuck_iff (env : Env) (events : List ClientEvent) :
    (∀ before, before <+: events → (run (·.step env) connect before).NotStuck) ↔
      Along (·.step env) (Survives env) connect events := by
  rw [good_always_iff_along, and_iff_right connect_in.notStuck]
  have hiff : ∀ c e, (∃ p, In p c) → (NotStuck (c.step env e) ↔ Survives env c e) := by
    rintro c e ⟨p, h⟩
    have houtcome : c.Outcome env e := h.outcome e
    rcases houtcome with ⟨hsurvives, q, hq⟩ | ⟨hnot, hstuck⟩
    · exact iff_of_true hq.notStuck hsurvives
    · exact iff_of_false hstuck hnot
  have hstep : ∀ c e, (∃ p, In p c) → NotStuck (c.step env e) → ∃ p, In p (c.step env e) := by
    rintro c e ⟨p, h⟩ hnotStuck
    have houtcome : c.Outcome env e := h.outcome e
    rcases houtcome with ⟨_, hq⟩ | ⟨_, hstuck⟩
    · exact hq
    · exact absurd hnotStuck hstuck
  exact along_congr hiff hstep ⟨.lookup, connect_in⟩

def anyUrl : Env where
  accepts := fun _ => true

theorem stuck_after_failed_dial :
    ¬ (run (·.step anyUrl)
      ((RealtimeClient.connect.step anyUrl (.lookupFound "")).step anyUrl .error)
      [.closed, .reconnect]).NotStuck :=
  RealtimeClient.stuck_after_error (p := .dialling) ⟨rfl, rfl, rfl, rfl, rfl⟩ rfl _

/-- The client is stuck after a socket has failed, while a socket stays open on which the
authentication timed out, and after a second authentication was refused. -/
theorem client_stuck_offline :
    ¬ (run (·.step anyUrl) RealtimeClient.connect [.lookupFound "", .error, .closed]).NotStuck ∧
      ¬ (run (·.step anyUrl) RealtimeClient.connect
        [.lookupFound "", .opened, .authTimeout]).NotStuck ∧
      ¬ (run (·.step anyUrl) RealtimeClient.connect
        [.lookupFound "", .opened, .authReply false, .refreshed true, .lookupFound "", .opened,
          .authReply false]).NotStuck := by
  decide

end NonokaIM.Web
