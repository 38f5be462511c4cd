import NonokaIM.Library.GuardedRun
import NonokaIM.Model.Auth

/-! # Refresh tokens are used once unless two refreshes overlap

A drawn token is stored at most once, so that a second refresh can find it only before the first
one deletes it. -/

namespace NonokaIM

open DocumentStore GuardedRun List AuthState Function Option

def RefreshCall.Accepted (c : RefreshCall) : Prop := ∃ token, c.status = .accepted token

def RefreshCall.Live (c : RefreshCall) : Prop := ∀ e, c.status ≠ .failed e

def SingleUse (s : AuthState) : Prop :=
  ∀ i j a b, s.calls i = some a → s.calls j = some b → a.Accepted → b.Accepted →
    a.refreshToken = b.refreshToken → i = j

def AuthOp.IsRefresh : AuthOp → Prop
  | .refresh _ _ _ _ => True
  | _ => False

/-- However the refreshes go on that have begun, no token is accepted twice. -/
def EndsSingleUse (src : TokenSource) (s : AuthState) : Prop :=
  ∀ later : List AuthOp, (∀ op ∈ later, ¬ op.IsRefresh) → SingleUse (run (authStep src) s later)

/-- A refresh that finds its token reads it while no other one is between its own read of that
token and its delete. -/
def ReadsAlone (src : TokenSource) (s : AuthState) : AuthOp → Prop
  | .refresh id key refreshToken readFails =>
    s.calls id = none → checkRefreshToken src key refreshToken readFails s = .ok () →
      ∀ j b, s.calls j = some b → b.status = .matched → b.refreshToken ≠ refreshToken
  | _ => True

variable {c : RefreshCall} {key : RefreshKey}

theorem RefreshCall.Accepted.live (h : c.Accepted) : c.Live := by
  intro e he
  rcases h with ⟨token, ht⟩
  rw [ht] at he
  cases he

variable {src : TokenSource} {s s' : AuthState}

theorem eq_of_hash_token {k l : ℕ} (h : src.hash (src.token k) = src.hash (src.token l)) : k = l :=
  src.distinct (src.hash_injOn ⟨k, rfl⟩ ⟨l, rfl⟩ h)

/-! ## The store -/

/-- What an operation does to the store: tokens are only drawn, and a stored hash is an old one
or that of a token just drawn for its key. -/
structure StoreStep (src : TokenSource) (s s' : AuthState) : Prop where
  issued : s.issued <+: s'.issued
  tokens : ∀ key h, s'.tokens key = some h → s.tokens key = some h ∨
    ∃ k, s.issued.length ≤ k ∧ s'.issued[k]? = some key ∧ h = src.hash (src.token k)

theorem StoreStep.refl (src : TokenSource) (s : AuthState) : StoreStep src s s :=
  ⟨prefix_rfl, fun _ _ h => .inl h⟩

theorem storeStep_deleteRefreshToken (src : TokenSource) (key : RefreshKey) (fault : CallFault)
    (s : AuthState) : StoreStep src s (deleteRefreshToken key fault s).2 := by
  cases fault with
  | failed => exact .refl src s
  | none | lost =>
    refine ⟨prefix_rfl, ?_⟩
    intro other h hs
    by_cases ho : other = key
    · subst ho
      simp [deleteRefreshToken, CallFault.applied] at hs
    · left
      simpa [deleteRefreshToken, CallFault.applied, ho] using hs

theorem storeStep_issueTokenPair (src : TokenSource) (key : RefreshKey) (signed : Bool)
    (fault : CallFault) (s : AuthState) :
    StoreStep src s (issueTokenPair src key signed fault s).2 := by
  cases signed with
  | false => exact .refl src s
  | true =>
    cases fault with
    | failed => exact ⟨prefix_append _ _, fun _ _ h => .inl h⟩
    | none | lost =>
      refine ⟨prefix_append _ _, ?_⟩
      intro other h hs
      by_cases ho : other = key
      · subst ho
        right
        refine ⟨s.issued.length, le_rfl, ?_, ?_⟩
        · simp [issueTokenPair, saveRefreshTokenHash, CallFault.applied]
        · simpa [issueTokenPair, saveRefreshTokenHash, CallFault.applied] using hs.symm
      · left
        simpa [issueTokenPair, saveRefreshTokenHash, CallFault.applied, ho] using hs

theorem calls_issueTokenPair (key : RefreshKey) (signed : Bool) (fault : CallFault)
    (s : AuthState) : (issueTokenPair src key signed fault s).2.calls = s.calls := by
  cases signed <;> cases fault <;> rfl

theorem StoreStep.getElem? (h : StoreStep src s s') {k : ℕ} (hk : s.issued[k]? = some key) :
    s'.issued[k]? = some key := by
  rcases h.issued with ⟨drawn, hdrawn⟩
  rw [← hdrawn, getElem?_append_left (List.getElem?_eq_some_iff.mp hk).1, hk]

/-! ## The invariant -/

/-- A call that passed its check: its token was drawn for its key, and after its delete is
not stored any more. -/
structure CallInv (src : TokenSource) (s : AuthState) (c : RefreshCall) : Prop where
  drawn : ∃ k, s.issued[k]? = some c.key ∧ src.hash c.refreshToken = src.hash (src.token k)
  gone : c.status ≠ .matched → s.tokens c.key ≠ some (src.hash c.refreshToken)

structure AuthInv (src : TokenSource) (s : AuthState) : Prop where
  stored : ∀ key h, s.tokens key = some h →
    ∃ k, s.issued[k]? = some key ∧ h = src.hash (src.token k)
  call : ∀ id c, s.calls id = some c → c.Live → CallInv src s c
  alone : ∀ i j a b, s.calls i = some a → s.calls j = some b → a.Live → b.Live →
    a.refreshToken = b.refreshToken → i = j

theorem authInv_init (src : TokenSource) : AuthInv src {} where
  stored := by simp
  call := by simp
  alone := by simp

theorem AuthInv.singleUse (h : AuthInv src s) : SingleUse s :=
  fun i j a b ha hb hacca haccb => h.alone i j a b ha hb hacca.live haccb.live

theorem AuthInv.stored_step (h : AuthInv src s) (hstep : StoreStep src s s') :
    ∀ key hash, s'.tokens key = some hash →
      ∃ k, s'.issued[k]? = some key ∧ hash = src.hash (src.token k) := by
  intro key hash hs
  rcases hstep.tokens key hash hs with hold | ⟨k, _, hk, he⟩
  · rcases h.stored key hash hold with ⟨k, hk, he⟩
    exact ⟨k, hstep.getElem? hk, he⟩
  · exact ⟨k, hk, he⟩

theorem CallInv.step (h : CallInv src s c) (hstep : StoreStep src s s') : CallInv src s' c where
  drawn := by
    rcases h.drawn with ⟨k, hk, he⟩
    exact ⟨k, hstep.getElem? hk, he⟩
  gone := by
    intro hd hs
    rcases hstep.tokens _ _ hs with hold | ⟨l, hl, _, he⟩
    · exact h.gone hd hold
    · rcases h.drawn with ⟨k, hk, hc⟩
      have hlt : k < s.issued.length := (List.getElem?_eq_some_iff.mp hk).1
      rw [hc] at he
      have heq := eq_of_hash_token he
      omega

theorem AuthInv.setCall (h : AuthInv src s) (hstep : StoreStep src s s') {id : ℕ}
    (hcalls : s'.calls = update s.calls id (some c)) (hc : c.Live → CallInv src s' c)
    (hother : c.Live → ∀ j b, s.calls j = some b → b.Live →
      c.refreshToken = b.refreshToken → id = j) : AuthInv src s' where
  stored := h.stored_step hstep
  call := by
    intro i a ha hlive
    rw [hcalls] at ha
    by_cases hi : i = id
    · subst hi
      simp only [update_self, some.injEq] at ha
      subst ha
      exact hc hlive
    · rw [update_of_ne hi] at ha
      exact (h.call i a ha hlive).step hstep
  alone := by
    intro i j a b ha hb hla hlb htok
    rw [hcalls] at ha hb
    by_cases hi : i = id
    · subst hi
      simp only [update_self, some.injEq] at ha
      subst ha
      by_cases hj : j = i
      · exact hj.symm
      · rw [update_of_ne hj] at hb
        exact hother hla j b hb hlb htok
    · rw [update_of_ne hi] at ha
      by_cases hj : j = id
      · subst hj
        simp only [update_self, some.injEq] at hb
        subst hb
        exact (hother hlb i a ha hla htok.symm).symm
      · rw [update_of_ne hj] at hb
        exact h.alone i j a b ha hb hla hlb htok

/-! ## Operations -/

theorem AuthInv.store (h : AuthInv src s) (hstep : StoreStep src s s')
    (hcalls : s'.calls = s.calls) : AuthInv src s' where
  stored := h.stored_step hstep
  call := by
    intro id c hc hlive
    rw [hcalls] at hc
    exact (h.call id c hc hlive).step hstep
  alone := by
    rw [hcalls]
    exact h.alone

variable {refreshToken : String}

theorem checkRefreshToken_ok {readFails : Bool}
    (h : checkRefreshToken src key refreshToken readFails s = .ok ()) :
    s.tokens key = some (src.hash refreshToken) := by
  unfold checkRefreshToken getRefreshTokenHash at h
  cases readFails with
  | true => split at h <;> simp at h
  | false =>
    cases hstored : s.tokens key with
    | none => split at h <;> simp [hstored] at h
    | some hash =>
      by_cases heq : hash = src.hash refreshToken
      · rw [heq]
      · split at h <;> simp [hstored, heq] at h

/-- A token that is stored was not deleted by any call. -/
theorem AuthInv.matched (h : AuthInv src s)
    (hs : s.tokens key = some (src.hash refreshToken)) {id : ℕ} (hc : s.calls id = some c)
    (hlive : c.Live) (htok : refreshToken = c.refreshToken) : c.status = .matched := by
  have hcall := h.call id c hc hlive
  by_contra hne
  rcases h.stored key _ hs with ⟨k, hk, he⟩
  rcases hcall.drawn with ⟨l, hl, hel⟩
  rw [htok, hel] at he
  rw [eq_of_hash_token he, hk] at hl
  obtain rfl := some.inj hl
  rw [htok] at hs
  exact hcall.gone hne hs

theorem AuthInv.setFailed (h : AuthInv src s) (hstep : StoreStep src s s') {id : ℕ} {e : ApiError}
    (hcalls : s'.calls = update s.calls id (some { c with status := .failed e })) :
    AuthInv src s' := by
  have hdead : ¬ RefreshCall.Live { c with status := .failed e } := fun hlive => hlive e rfl
  exact h.setCall hstep hcalls (fun hl => absurd hl hdead) (fun hl => absurd hl hdead)

theorem authInv_refreshRead (h : AuthInv src s) {id : ℕ} (hid : s.calls id = none)
    {readFails : Bool} (halone : ReadsAlone src s (.refresh id key refreshToken readFails)) :
    AuthInv src (refreshRead src id key refreshToken readFails s) := by
  unfold refreshRead
  split
  · exact h.setFailed (c := ⟨key, refreshToken, .matched⟩) ⟨prefix_rfl, fun _ _ hs => .inl hs⟩ rfl
  rename_i hok
  have hs := checkRefreshToken_ok hok
  refine h.setCall ⟨prefix_rfl, fun _ _ hs => .inl hs⟩ rfl ?_ ?_
  · intro _
    exact ⟨h.stored key _ hs, fun hne => absurd rfl hne⟩
  · intro _ j b hb hlive htok
    exact absurd htok.symm (halone hid hok j b hb (h.matched hs hb hlive htok))

theorem live_of_status {status : RefreshStatus} (hstatus : c.status = status)
    (h : ∀ e, status ≠ .failed e) : c.Live := by
  intro e he
  exact h e (hstatus ▸ he)

theorem authInv_refreshDelete (h : AuthInv src s) {id : ℕ} (hc : s.calls id = some c)
    (hstatus : c.status = .matched) (user : UserLookup) (fault : CallFault) :
    AuthInv src (refreshDelete id c user fault s) := by
  have hlive : c.Live := live_of_status hstatus nofun
  have hstep := storeStep_deleteRefreshToken src c.key fault s
  cases user with
  | missing | failed => exact h.setFailed ⟨prefix_rfl, fun _ _ hs => .inl hs⟩ rfl
  | found =>
    cases fault with
    | failed | lost => exact h.setFailed ⟨hstep.issued, hstep.tokens⟩ rfl
    | none =>
      refine h.setCall ⟨hstep.issued, hstep.tokens⟩ rfl ?_ ?_
      · intro _
        refine ⟨(h.call id c hc hlive).drawn, fun _ => ?_⟩
        simp [refreshDelete, getUserByID, deleteRefreshToken, CallFault.applied,
          CallFault.reported, setCall]
      · intro _ j b hb hlb htok
        exact h.alone id j c b hc hb hlive hlb htok

theorem authInv_refreshIssue (h : AuthInv src s) {id : ℕ} (hc : s.calls id = some c)
    (hstatus : c.status = .deleted) (signed : Bool) (fault : CallFault) :
    AuthInv src (refreshIssue src id c signed fault s) := by
  have hlive : c.Live := live_of_status hstatus nofun
  have hstep := storeStep_issueTokenPair src c.key signed fault s
  have hcalls : ∀ c', ((issueTokenPair src c.key signed fault s).2.setCall id c').calls =
      update s.calls id (some c') := by
    intro c'
    rw [setCall, calls_issueTokenPair]
  simp only [refreshIssue]
  split
  · exact h.setFailed ⟨hstep.issued, hstep.tokens⟩ (hcalls _)
  -- the call is accepted, and keeps what was known about it
  have hcall := (h.call id c hc hlive).step hstep
  refine h.setCall ⟨hstep.issued, hstep.tokens⟩ (hcalls _) ?_ ?_
  · intro _
    exact ⟨hcall.drawn, fun _ => hcall.gone (by simp [hstatus])⟩
  · intro _ j b hb hlb htok
    exact h.alone id j c b hc hb hlive hlb htok

theorem authInv_step (h : AuthInv src s) {op : AuthOp} (halone : ReadsAlone src s op) :
    AuthInv src (authStep src s op) := by
  cases op with
  | refresh id key refreshToken readFails =>
    simp only [authStep]
    split
    · rename_i hid
      exact authInv_refreshRead h hid halone
    · exact h
  | delete id user fault =>
    simp only [authStep]
    split
    · exact h
    rename_i c hid
    split
    · rename_i hstatus
      exact authInv_refreshDelete h hid hstatus user fault
    · exact h
  | issue id signed fault =>
    simp only [authStep]
    split
    · exact h
    rename_i c hid
    split
    · rename_i hstatus
      exact authInv_refreshIssue h hid hstatus signed fault
    · exact h
  | login key signed fault =>
    exact h.store (storeStep_issueTokenPair src key signed fault s) (calls_issueTokenPair ..)
  | logout key fault =>
    have hcalls : (deleteRefreshToken key fault s).2.calls = s.calls := by
      cases fault <;> rfl
    exact h.store (storeStep_deleteRefreshToken src key fault s) hcalls

/-! ## Runs -/

theorem AuthInv.endsSingleUse (h : AuthInv src s) : EndsSingleUse src s := by
  intro later
  induction later generalizing s with
  | nil => exact fun _ => h.singleUse
  | cons op later ih =>
    intro hlater
    have halone : ReadsAlone src s op := by
      cases op with
      | refresh => exact absurd trivial (hlater _ mem_cons_self)
      | _ => trivial
    exact ih (authInv_step h halone) fun other hother => hlater other (mem_cons_of_mem op hother)

/-- The delete and the issue of a call that has found its token. -/
def finish (id : ℕ) : List AuthOp := [.delete id .found .none, .issue id true .none]

theorem calls_finish (src : TokenSource) {id : ℕ} (hc : s.calls id = some c)
    (hstatus : c.status = .matched) :
    ∃ token, (run (authStep src) s (finish id)).calls =
      update s.calls id (some { c with status := .accepted token }) := by
  refine ⟨src.token s.issued.length, ?_⟩
  simp [finish, authStep, hc, hstatus, refreshDelete, getUserByID, deleteRefreshToken,
    refreshIssue, issueTokenPair, saveRefreshTokenHash, CallFault.reported, CallFault.applied,
    setCall, Except.map]

/-- Two calls that have both found one token can both be accepted. -/
theorem not_endsSingleUse {i j : ℕ} {a b : RefreshCall} (ha : s.calls i = some a)
    (hb : s.calls j = some b) (hmatched : a.status = .matched) (hmatched' : b.status = .matched)
    (htok : a.refreshToken = b.refreshToken) (hne : i ≠ j) : ¬ EndsSingleUse src s := by
  intro h
  obtain ⟨token, hfirst⟩ := calls_finish src ha hmatched
  have hb' : (run (authStep src) s (finish i)).calls j = some b := by
    rw [hfirst, update_of_ne hne.symm, hb]
  obtain ⟨token', hsecond⟩ := calls_finish src hb' hmatched'
  have hlater : ∀ op ∈ finish i ++ finish j, ¬ op.IsRefresh := by
    simp [finish, AuthOp.IsRefresh]
  have hsingle := h _ hlater
  rw [run_append, SingleUse, hsecond, hfirst] at hsingle
  refine hne (hsingle i j { a with status := .accepted token }
    { b with status := .accepted token' } ?_ ?_ ⟨token, rfl⟩ ⟨token', rfl⟩ htok)
  · rw [update_of_ne hne, update_self]
  · exact update_self ..

theorem readsAlone_iff (h : AuthInv src s) (op : AuthOp) :
    ReadsAlone src s op ↔ EndsSingleUse src (authStep src s op) := by
  refine ⟨fun halone => (authInv_step h halone).endsSingleUse, fun hends => ?_⟩
  cases op with
  | refresh id key refreshToken readFails =>
    intro hid hok j b hb hmatched htok
    have hne : id ≠ j := by
      rintro rfl
      rw [hid] at hb
      cases hb
    have hstep : authStep src s (.refresh id key refreshToken readFails) =
        s.setCall id ⟨key, refreshToken, .matched⟩ := by
      simp only [authStep, hid, refreshRead, hok]
    rw [hstep] at hends
    refine not_endsSingleUse (i := id) (j := j) (a := ⟨key, refreshToken, .matched⟩) ?_ ?_ rfl
      hmatched htok.symm hne hends
    · exact update_self ..
    · exact (update_of_ne hne.symm ..).trans hb
  | _ => trivial

/-- Over any interleaving of the operations of any calls, no refresh token is ever accepted twice,
however the calls go on, exactly when no refresh finds its token while another one with that token
is between its read and its delete. -/
theorem refresh_token_single_use_iff (src : TokenSource) (ops : List AuthOp) :
    (∀ before, before <+: ops → EndsSingleUse src (run (authStep src) {} before)) ↔
      Along (authStep src) (ReadsAlone src) {} ops := by
  have hstep : ∀ s op, AuthInv src s → ReadsAlone src s op → AuthInv src (authStep src s op) :=
    fun _ _ h halone => authInv_step h halone
  rw [good_always_iff_along, and_iff_right (authInv_init src).endsSingleUse]
  exact (along_congr (fun _ op h => readsAlone_iff h op) hstep (authInv_init src)).symm

/-- The n-th token is a string of n letters, and its own hash. -/
def letters : TokenSource where
  token n := String.ofList (List.replicate n 'a')
  hash := id
  distinct := by
    intro m n h
    simpa using congrArg (fun text => text.toList.length) h
  hash_injOn := injective_id.injOn

/-- Two refreshes that read one token before either deletes it are both accepted. -/
theorem refresh_token_accepted_twice :
    ¬ SingleUse (run (authStep letters) {} [.login (1, "d") true .none, .login (1, "d") true .none,
        .refresh 0 (1, "d") "a" false, .refresh 1 (1, "d") "a" false,
        .delete 0 .found .none, .issue 0 true .none,
        .delete 1 .found .none, .issue 1 true .none]) := by
  intro h
  have heq : (0 : ℕ) = 1 := h 0 1 ⟨(1, "d"), "a", .accepted "aa"⟩
    ⟨(1, "d"), "a", .accepted "aaa"⟩ (by decide) (by decide)
    ⟨_, rfl⟩ ⟨_, rfl⟩ rfl
  cases heq

end NonokaIM
