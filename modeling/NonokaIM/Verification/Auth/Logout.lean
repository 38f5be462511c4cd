import NonokaIM.Model.AuthService
import NonokaIM.Verification.Auth.SingleUse

/-! # Logging out

A logout finds the key of the login if the user id survives a `float64` and the device id is not
empty. -/

namespace NonokaIM

open DocumentStore GuardedRun Function StoreStep

/-! ## Revoked tokens -/

variable {src : TokenSource} {s s' : AuthState} {key : RefreshKey} {k : ℕ}

theorem StoreStep.setCall (h : StoreStep src s s') (id : ℕ) (c : RefreshCall) :
    StoreStep src s (s'.setCall id c) := ⟨h.issued, h.tokens⟩

theorem storeStep_authStep (s : AuthState) (op : AuthOp) : StoreStep src s (authStep src s op) := by
  cases op with
  | refresh id key refreshToken readFails =>
    simp only [authStep, refreshRead]
    split
    · split
      · exact (refl src s).setCall _ _
      · exact (refl src s).setCall _ _
    · exact .refl src s
  | delete id user fault =>
    simp only [authStep]
    split
    · exact .refl src s
    rename_i c _
    split
    · have hdelete := storeStep_deleteRefreshToken src c.key fault s
      unfold refreshDelete
      split
      · exact (refl src s).setCall _ _
      dsimp only
      split
      · exact hdelete.setCall _ _
      · exact hdelete.setCall _ _
    · exact .refl src s
  | issue id signed fault =>
    simp only [authStep]
    split
    · exact .refl src s
    rename_i c _
    split
    · have hissue := storeStep_issueTokenPair src c.key signed fault s
      unfold refreshIssue
      dsimp only
      split
      · exact hissue.setCall _ _
      · exact hissue.setCall _ _
    · exact .refl src s
  | login key signed fault => exact storeStep_issueTokenPair src key signed fault s
  | logout key fault => exact storeStep_deleteRefreshToken src key fault s

/-- The `k`-th token was drawn and is not stored for the key. -/
structure Revoked (src : TokenSource) (key : RefreshKey) (k : ℕ) (s : AuthState) : Prop where
  drawn : k < s.issued.length
  gone : s.tokens key ≠ some (src.hash (src.token k))

theorem Revoked.step (h : Revoked src key k s) (hstep : StoreStep src s s') :
    Revoked src key k s' where
  drawn := Nat.lt_of_lt_of_le h.drawn hstep.issued.length_le
  gone := by
    intro hs
    rcases hstep.tokens _ _ hs with hold | ⟨l, hl, -, he⟩
    · exact h.gone hold
    · have hkl := eq_of_hash_token he
      have hdrawn := h.drawn
      omega

theorem Revoked.run (h : Revoked src key k s) (ops : List AuthOp) :
    Revoked src key k (run (authStep src) s ops) :=
  invariant_run_all (fun s op hs => hs.step (storeStep_authStep s op)) ops h

theorem drawn_run (h : k < s.issued.length) (ops : List AuthOp) :
    k < (run (authStep src) s ops).issued.length := by
  induction ops generalizing s with
  | nil => exact h
  | cons op ops ih =>
    exact ih (Nat.lt_of_lt_of_le h (storeStep_authStep s op).issued.length_le)

theorem Revoked.rejects (h : Revoked src key k s) (readFails : Bool) :
    ∃ e, checkRefreshToken src key (src.token k) readFails s = .error e := by
  cases hcheck : checkRefreshToken src key (src.token k) readFails s with
  | error e => exact ⟨e, rfl⟩
  | ok _ => exact absurd (checkRefreshToken_ok hcheck) h.gone

/-! ## Login and logout -/

variable {user : AuthUser} {deviceID : String} {wide : Int → Int}

theorem drawn_of_login {env : LoginEnv} {reply : LoginReply} (huser : env.user = some user)
    (h : login src env deviceID s = (.ok reply, s')) :
    reply.token = signAccessToken user deviceID ∧
      reply.refreshToken = src.token s.issued.length ∧
      s'.issued = s.issued ++ [(user.id, deviceID)] := by
  unfold login at h
  rw [huser] at h
  dsimp only at h
  split at h
  · obtain ⟨hreply, rfl⟩ := Prod.mk.inj h
    cases hsigned : env.signed with
    | false =>
      rw [hsigned] at hreply
      cases hreply
    | true =>
      rw [hsigned] at hreply
      cases hfault : env.fault with
      | none =>
        rw [hfault] at hreply
        obtain rfl := (Except.ok.inj hreply).symm
        exact ⟨rfl, rfl, rfl⟩
      | failed | lost =>
        rw [hfault] at hreply
        cases hreply
  · cases (Prod.mk.inj h).1

theorem deleted_of_logout {claims : Option AccessClaims} {fault : CallFault}
    (h : logout wide claims fault s = (.ok (), s')) :
    extractUserIDFromContext wide claims ≠ 0 ∧
      s' = { s with
        tokens := update s.tokens
          (extractUserIDFromContext wide claims, extractDeviceIDFromContext claims) none } := by
  unfold logout at h
  dsimp only at h
  split at h
  · cases (Prod.mk.inj h).1
  rename_i hne
  refine ⟨hne, ?_⟩
  cases fault with
  | none => exact (Prod.mk.inj h).2.symm
  | failed | lost => cases (Prod.mk.inj h).1

/-- After a login and a logout with its access token, the refresh token is rejected, whatever else
happens. -/
def LogoutRevokes (src : TokenSource) (wide : Int → Int) (user : AuthUser) (deviceID : String) :
    Prop :=
  ∀ (before between after : List AuthOp) (env : LoginEnv) (fault : CallFault) (reply : LoginReply)
    (s₁ s₂ : AuthState),
    env.user = some user →
    login src env deviceID (run (authStep src) {} before) = (.ok reply, s₁) →
    logout wide (some reply.token) fault (run (authStep src) s₁ between) = (.ok (), s₂) →
    ∀ readFails, ∃ e, checkRefreshToken src (user.id, deviceID) reply.refreshToken readFails
      (run (authStep src) s₂ after) = .error e

/-- The user id that the service reads from an access token of the user. -/
def claimedUserID (wide : Int → Int) (user : AuthUser) : Int := readInt64 wide user.id

theorem logoutRevokes_of_key (hid : claimedUserID wide user = user.id) (hdevice : deviceID ≠ "") :
    LogoutRevokes src wide user deviceID := by
  intro before between after env fault reply s₁ s₂ huser hlogin hlogout
  obtain ⟨htoken, hrefresh, hissued⟩ := drawn_of_login huser hlogin
  obtain ⟨-, rfl⟩ := deleted_of_logout hlogout
  have hkey : (extractUserIDFromContext wide (some reply.token),
      extractDeviceIDFromContext (some reply.token)) = (user.id, deviceID) := by
    rw [htoken]
    exact Prod.ext hid (if_pos hdevice)
  rw [hkey, hrefresh]
  refine Revoked.rejects (Revoked.run ⟨?_, ?_⟩ after)
  · refine drawn_run ?_ between
    rw [hissued, List.length_append]
    exact Nat.lt_succ_self _
  · dsimp only
    rw [update_self]
    exact (Option.some_ne_none _).symm

theorem checkRefreshToken_of_stored {refreshToken : String} (hne : refreshToken ≠ "")
    (h : s.tokens key = some (src.hash refreshToken)) :
    checkRefreshToken src key refreshToken false s = .ok () := by
  simp [checkRefreshToken, getRefreshTokenHash, hne, h]

theorem exists_nonempty_token (src : TokenSource) (key : RefreshKey) :
    ∃ before, src.token (run (authStep src) {} before).issued.length ≠ "" := by
  by_cases hzero : src.token 0 = ""
  · refine ⟨[.login key true .none], ?_⟩
    rw [← hzero]
    exact src.distinct.ne (Nat.succ_ne_zero 0)
  · exact ⟨[], hzero⟩

theorem not_logoutRevokes (hzero : claimedUserID wide user ≠ 0)
    (hkey : claimedUserID wide user ≠ user.id ∨ deviceID = "") :
    ¬ LogoutRevokes src wide user deviceID := by
  intro hrevokes
  obtain ⟨before, htoken⟩ := exists_nonempty_token src (user.id, deviceID)
  let s₀ := run (authStep src) {} before
  let env : LoginEnv := { user := some user, passwordMatches := fun _ => true }
  let s₁ := (login src env deviceID s₀).2
  let loggedOut : RefreshKey := (claimedUserID wide user,
    extractDeviceIDFromContext (some (signAccessToken user deviceID)))
  have hother : (user.id, deviceID) ≠ loggedOut := by
    intro heq
    obtain ⟨hid, hdevice⟩ := Prod.mk.inj heq
    rcases hkey with hne | rfl
    · exact hne hid.symm
    · have hdefault : extractDeviceIDFromContext (some (signAccessToken user "")) = "default" := by
        simp [extractDeviceIDFromContext, signAccessToken]
      rw [hdefault] at hdevice
      exact absurd hdevice (by decide)
  obtain ⟨e, he⟩ := hrevokes before [] [] env .none
    ⟨user.id, signAccessToken user deviceID, src.token s₀.issued.length⟩ s₁
    { s₁ with tokens := update s₁.tokens loggedOut none } rfl rfl (if_neg hzero) false
  have hstored : (update s₁.tokens loggedOut none) (user.id, deviceID) =
      some (src.hash (src.token s₀.issued.length)) := by
    rw [update_of_ne hother]
    exact update_self ..
  rw [run_nil, checkRefreshToken_of_stored htoken hstored] at he
  cases he

/-- A logout revokes what the login issued exactly if it finds the key of the login in the access
token; where it reads the user id 0 it does not succeed. -/
theorem logoutRevokes_iff (src : TokenSource) (wide : Int → Int) (user : AuthUser)
    (deviceID : String) :
    LogoutRevokes src wide user deviceID ↔
      claimedUserID wide user = 0 ∨ claimedUserID wide user = user.id ∧ deviceID ≠ "" := by
  constructor
  · intro hrevokes
    by_contra hnot
    obtain ⟨hzero, hkey⟩ := not_or.mp hnot
    refine not_logoutRevokes hzero ?_ hrevokes
    by_cases hid : claimedUserID wide user = user.id
    · exact .inr (not_not.mp fun hdevice => hkey ⟨hid, hdevice⟩)
    · exact .inl hid
  · rintro (hzero | ⟨hid, hdevice⟩)
    · intro before between after env fault reply s₁ s₂ huser hlogin hlogout
      obtain ⟨htoken, -, -⟩ := drawn_of_login huser hlogin
      refine absurd ?_ (deleted_of_logout hlogout).1
      rw [htoken]
      exact hzero
    · exact logoutRevokes_of_key hid hdevice

/-- User 42 logs in without a device id and out again. -/
def loggedOutState : AuthState :=
  (logout id (some ⟨42, "ann", ""⟩) .none
    (login letters ⟨some ⟨42, "ann", "pw"⟩, fun _ => true, true, .none⟩ ""
      (run (authStep letters) {} [.login (7, "d") true .none])).2).2

theorem token_without_device_kept :
    (login letters ⟨some ⟨42, "ann", "pw"⟩, fun _ => true, true, .none⟩ ""
        (run (authStep letters) {} [.login (7, "d") true .none])).1 =
      .ok ⟨42, ⟨42, "ann", ""⟩, "a"⟩ ∧
    (logout id (some ⟨42, "ann", ""⟩) .none
      (login letters ⟨some ⟨42, "ann", "pw"⟩, fun _ => true, true, .none⟩ ""
        (run (authStep letters) {} [.login (7, "d") true .none])).2).1 = .ok () ∧
    checkRefreshToken letters (42, "") "a" false loggedOutState = .ok () := by
  decide

end NonokaIM
