import Mathlib.Algebra.Group.Nat.Defs
import NonokaIM.Model.SdkRequests

/-! # Responses and the calls that get them -/

namespace NonokaIM.Sdk

open GuardedRun Function RequestPhase Request

variable {P : Type} {seq : P → UInt64} {s : Requests P} {i : ℕ} {r : Request P}

/-- The packet is in the channel of the call, or the call has taken it. -/
def Request.Holds (r : Request P) (packet : P) : Prop :=
  r.buffer = some packet ∨ r.phase = .received packet ∨ r.phase = .returned (some packet)

/-- The call has registered and not left. -/
def RequestPhase.isOpen : RequestPhase P → Bool
  | .waiting | .received _ | .gaveUp => true
  | _ => false

namespace Requests

/-- Calls have the seqs in turn, the table has those that are open, and a packet is under way only
to a call of its seq. -/
structure Sound (seq : P → UInt64) (s : Requests P) : Prop where
  few : s.started < 2 ^ 64
  gen : s.seqGen = UInt64.ofNat s.started
  seqs : ∀ i < s.started, (s.calls i).seq = UInt64.ofNat (i + 1)
  unused : ∀ i, s.started ≤ i → s.calls i = {}
  pending : ∀ q i, s.pending q = some i ↔ (s.calls i).seq = q ∧ (s.calls i).phase.isOpen = true
  dispatching : ∀ i packet, s.dispatching = some (i, packet) →
    i < s.started ∧ (s.calls i).seq = seq packet
  held : ∀ i packet, (s.calls i).Holds packet → (s.calls i).seq = seq packet
  closed : ∀ i, (s.calls i).closed = true → ∃ answer, (s.calls i).phase = .returned answer

namespace Sound

theorem lt (h : Sound seq s) (hphase : (s.calls i).phase ≠ .unused) : i < s.started := by
  by_contra hle
  rw [h.unused i (Nat.le_of_not_lt hle)] at hphase
  exact hphase rfl

theorem inj (h : Sound seq s) {j : ℕ} (hi : i < s.started) (hj : j < s.started)
    (heq : (s.calls i).seq = (s.calls j).seq) : i = j := by
  have hfew := h.few
  rw [h.seqs i hi, h.seqs j hj] at heq
  have hnat := congrArg UInt64.toNat heq
  rw [UInt64.toNat_ofNat', UInt64.toNat_ofNat'] at hnat
  omega

theorem nextSeq (h : Sound seq s) {heartbeat : Bool} (hfew : s.started + 1 < 2 ^ 64) :
    Sound seq (s.nextSeq heartbeat) := by
  have hgen : s.seqGen + 1 = UInt64.ofNat (s.started + 1) := by rw [h.gen, UInt64.ofNat_add]; rfl
  obtain ⟨-, -, hseqs, hunused, hpending, hdispatching, hheld, hclosed⟩ := h
  have hnew : s.calls s.started = {} := hunused _ (Nat.le_refl _)
  refine ⟨hfew, hgen, ?_, ?_, ?_, ?_, ?_, ?_⟩ <;>
    simp only [Requests.nextSeq, update_apply, Holds] at *
  all_goals grind [isOpen]

end Sound

/-- Another state of one call, with the entry that belongs to it. -/
def replace (s : Requests P) (i : ℕ) (r : Request P) : Requests P :=
  { s with
    calls := update s.calls i r
    pending := update s.pending r.seq (if r.phase.isOpen then some i else none) }

namespace Sound

theorem replace (h : Sound seq s) (hi : i < s.started) (hseq : r.seq = (s.calls i).seq)
    (hheld : ∀ packet, r.Holds packet → r.seq = seq packet)
    (hclosed : r.closed = true → ∃ answer, r.phase = .returned answer) :
    Sound seq (s.replace i r) := by
  have hinj : ∀ j, (s.calls j).phase.isOpen = true → (s.calls j).seq = r.seq → j = i := by
    intro j hopen heq
    refine h.inj (h.lt fun hu => ?_) hi (heq.trans hseq)
    simp [hu, isOpen] at hopen
  obtain ⟨hfew, hgen, hseqs, hunused, hpending, hdispatching, hheld', hclosed'⟩ := h
  refine ⟨hfew, hgen, ?_, ?_, ?_, ?_, ?_, ?_⟩ <;> simp only [Requests.replace, update_apply]
  all_goals grind

theorem pending_seq (h : Sound seq s) (hi : i < s.started) :
    s.pending (s.calls i).seq = if (s.calls i).phase.isOpen then some i else none := by
  cases hentry : s.pending (s.calls i).seq with
  | none =>
    refine (if_neg fun hopen => ?_).symm
    rw [(h.pending _ i).mpr ⟨rfl, hopen⟩] at hentry
    cases hentry
  | some j =>
    obtain ⟨hseq, hopen⟩ := (h.pending _ j).mp hentry
    have hlt : j < s.started := h.lt fun hu => by simp [hu, isOpen] at hopen
    obtain rfl := h.inj hlt hi hseq
    rw [if_pos hopen]

theorem modify_eq (h : Sound seq s) (hi : i < s.started)
    {f : Request P → Request P} (hseq : (f (s.calls i)).seq = (s.calls i).seq)
    (hopen : (f (s.calls i)).phase.isOpen = (s.calls i).phase.isOpen) :
    s.modify i f = s.replace i (f (s.calls i)) := by
  rw [Requests.replace, hseq, hopen, ← h.pending_seq hi, update_eq_self]
  rfl

theorem leave (h : Sound seq s) (hopen : (s.calls i).phase.isOpen = true) {answer : Option P}
    (hanswer : ∀ packet, answer = some packet → (s.calls i).phase = .received packet) :
    Sound seq (s.leave i answer) := by
  have hi : i < s.started := h.lt fun hu => by simp [hu, isOpen] at hopen
  have hentry : s.pending (s.calls i).seq = some i := (h.pending _ i).mpr ⟨rfl, hopen⟩
  have heq : s.leave i answer = s.replace i
      { s.calls i with buffer := none, closed := true, phase := .returned answer } := by
    simp [Requests.leave, unregisterPending, hentry, Requests.modify, Requests.replace, isOpen]
  rw [heq]
  refine h.replace hi rfl (fun packet hp => h.held i packet ?_) fun _ => ⟨answer, rfl⟩
  exact .inr (.inl (hanswer packet (by simpa [Holds] using hp)))

/-- A call that waits, or is about to, gets another phase. -/
theorem setPhase (h : Sound seq s) (hi : i < s.started)
    (hphase : ∀ answer, (s.calls i).phase ≠ .returned answer) {phase : RequestPhase P}
    {buffer : Option P} (hbuffer : buffer = (s.calls i).buffer ∨ buffer = none)
    (hheld : ∀ packet, phase = .received packet ∨ phase = .returned (some packet) →
      (s.calls i).Holds packet) :
    Sound seq (s.replace i { s.calls i with phase, buffer }) := by
  refine h.replace hi rfl (fun packet hp => h.held i packet ?_) fun hc => ?_
  · rcases hp with hb | hp
    · rcases hbuffer with rfl | rfl
      · exact .inl hb
      · cases hb
    · exact hheld packet hp
  · obtain ⟨answer, ha⟩ := h.closed i hc
    exact absurd ha (hphase answer)

theorem step (h : Sound seq s) {e : RequestEvent P} (hfew : (s.step seq e).started < 2 ^ 64) :
    Sound seq (s.step seq e) := by
  cases e with
  | nextSeq heartbeat => exact h.nextSeq hfew
  | register i =>
    simp only [Requests.step]
    split
    · next hphase =>
      exact h.setPhase (h.lt (by simp [hphase])) (by simp [hphase]) (.inl rfl) (by simp)
    · exact h
  | lookup packet =>
    simp only [Requests.step]
    split
    · exact h
    refine ⟨h.few, h.gen, h.seqs, h.unused, h.pending, fun i packet' hd => ?_, h.held, h.closed⟩
    obtain ⟨j, hj, heq⟩ := Option.map_eq_some_iff.mp hd
    obtain ⟨rfl, rfl⟩ := Prod.mk.inj heq
    obtain ⟨hseq, hopen⟩ := (h.pending _ _).mp hj
    exact ⟨h.lt fun hu => by simp [hu, isOpen] at hopen, hseq⟩
  | dispatch =>
    simp only [Requests.step, dispatchResponse]
    split
    · exact h
    next i packet hd =>
    obtain ⟨hi, hseq⟩ := h.dispatching i packet hd
    have h' : Sound seq { s with dispatching := none } :=
      ⟨h.few, h.gen, h.seqs, h.unused, h.pending, nofun, h.held, h.closed⟩
    rw [h'.modify_eq hi (by split <;> rfl) (by split <;> rfl)]
    split
    · exact h'.replace hi rfl (h.held i) (h.closed i)
    refine h'.replace hi rfl (fun packet' hp => ?_) (h.closed i)
    rcases hp with hbuffer | hgot
    · exact Option.some.inj hbuffer ▸ hseq
    · exact h.held i packet' (.inr hgot)
  | receive i =>
    simp only [Requests.step]
    split
    · next packet hphase hbuffer =>
      have hi : i < s.started := h.lt (by simp [hphase])
      rw [h.modify_eq hi rfl (by rw [hphase]; rfl)]
      exact h.setPhase hi (by simp [hphase]) (.inr rfl) (by simp [Holds, hbuffer])
    · next hphase _ =>
      split
      · next hclosed =>
        obtain ⟨answer, ha⟩ := h.closed i hclosed
        rw [hphase] at ha
        cases ha
      · exact h
    · exact h
  | giveUp i =>
    simp only [Requests.step]
    split
    · next hphase =>
      have hi : i < s.started := h.lt (by simp [hphase])
      rw [h.modify_eq hi rfl (by rw [hphase]; rfl)]
      exact h.setPhase hi (by simp [hphase]) (.inl rfl) (by simp)
    · exact h
  | leave i =>
    simp only [Requests.step]
    split
    · next packet hphase =>
      split
      · exact h
      · exact h.leave (by rw [hphase]; rfl) (by simp [hphase])
    · next hphase => exact h.leave (by rw [hphase]; rfl) nofun
    · exact h

end Sound

theorem started_le_step (e : RequestEvent P) : s.started ≤ (s.step seq e).started := by
  cases e with
  | nextSeq heartbeat => exact Nat.le_succ _
  | _ =>
    refine Nat.le_of_eq ?_
    simp only [step, dispatchResponse, leave, unregisterPending]
    repeat' split
    all_goals rfl

/-- The state after some steps in some order. -/
def after (seq : P → UInt64) (es : List (RequestEvent P)) : Requests P := run (step seq) {} es

theorem sound_after {es : List (RequestEvent P)} (hfew : (after seq es).started < 2 ^ 64) :
    Sound seq (after seq es) := by
  have hinit : Sound seq ({} : Requests P) := ⟨Nat.two_pow_pos 64, rfl, by simp, fun _ _ => rfl,
    by simp [isOpen], by simp, by simp [Holds], by simp⟩
  have hstep : ∀ (s : Requests P) e, (s.started < 2 ^ 64 → Sound seq s) →
      (s.step seq e).started < 2 ^ 64 → Sound seq (s.step seq e) :=
    fun s e hs hlt => (hs (Nat.lt_of_le_of_lt (started_le_step e) hlt)).step hlt
  exact invariant_run_all hstep es (fun _ => hinit) hfew

end Requests

open Requests

/-- In every order of steps with fewer than 2^64 calls, a call gets only packets of its seq, and no
other call gets one of that seq. -/
theorem responses_correlated (seq : P → UInt64) (es : List (RequestEvent P))
    (hfew : (after seq es).started < 2 ^ 64) {i : ℕ} {packet : P}
    (hpacket : ((after seq es).calls i).Holds packet) :
    ((after seq es).calls i).seq = seq packet ∧
      ∀ j packet', ((after seq es).calls j).Holds packet' → seq packet' = seq packet → j = i := by
  have h := sound_after hfew
  have hlt {k : ℕ} {p : P} (hp : ((after seq es).calls k).Holds p) : k < (after seq es).started := by
    by_contra hle
    rw [h.unused k (Nat.le_of_not_lt hle)] at hp
    simp [Holds] at hp
  have hseq := h.held i packet hpacket
  refine ⟨hseq, fun j packet' hp heq => h.inj (hlt hp) (hlt hpacket) ?_⟩
  rw [h.held j packet' hp, hseq, heq]

/-- The table has exactly the calls that are registered and have not left, among them every
heartbeat that was answered. -/
theorem pending_exact (seq : P → UInt64) (es : List (RequestEvent P))
    (hfew : (after seq es).started < 2 ^ 64) (q : UInt64) (i : ℕ) :
    (after seq es).pending q = some i ↔
      ((after seq es).calls i).seq = q ∧ ((after seq es).calls i).phase.isOpen = true :=
  (sound_after hfew).pending q i

def answeredHeartbeat : List (RequestEvent UInt64) :=
  [.nextSeq true, .register 0, .lookup 1, .dispatch, .receive 0, .leave 0]

theorem heartbeat_gets_its_echo : ((after id answeredHeartbeat).calls 0).seq = 1 :=
  (responses_correlated id answeredHeartbeat (by decide) (.inr (.inl rfl))).1

theorem heartbeat_entry_kept : (after id answeredHeartbeat).pending 1 = some 0 :=
  (pending_exact id answeredHeartbeat (by decide) 1 0).mpr ⟨rfl, rfl⟩

end NonokaIM.Sdk
