import Mathlib.Data.List.TakeWhile
import NonokaIM.Library.CyclicCover
import NonokaIM.Model.SdkGateway

/-! Which gateways a call of `connectAndAuth` tries. The selector makes an index of the counter of
attempts, ignores it, or adds it to a 32-bit word. -/

namespace NonokaIM.Sdk

open CyclicCover List GatewayClient

section

variable {n : ℕ} (selector : GatewaySelector) (userID : Int) (attempt : Int64)

theorem gatewayIndex_lt (hn : 0 < n) : gatewayIndex n selector userID attempt < n := by
  have hcounter : attempt.toInt.tmod n < n := Int.tmod_lt_of_pos _ (by omega)
  have hword : ∀ w : ℕ, ((w % n : ℕ) : Int) < n := fun w => Int.ofNat_lt.mpr (Nat.mod_lt w hn)
  unfold gatewayIndex
  split
  · exact hword _
  · split
    · exact hcounter
    · exact hword _
  · exact hcounter
  · exact hcounter
  · exact hcounter

def indexAt (n i : ℕ) : Int := gatewayIndex n selector userID (attempt + Int64.ofNat i)

theorem toInt_add_ofNat (i : ℕ) :
    (attempt + Int64.ofNat i).toInt = (attempt.toInt + i).bmod (2 ^ 64) := by
  rw [Int64.toInt_add, Int64.toInt_ofNat']
  exact Int.add_bmod_bmod

end

section

variable {rt start : GatewayClient} {dials : ℕ → Dial} {i : ℕ}

namespace GatewayClient

/-- The index that a call of this client selects in a pass. -/
def passIndex (start : GatewayClient) (i : ℕ) : Int :=
  indexAt start.opts.gatewaySelector start.opts.userID start.connectAttempt
    start.gatewayURLs.length i

/-- The URLs of the passes up to the first index that is out of range. -/
def passURLs (start : GatewayClient) (i left : ℕ) : List String :=
  ((range' i left).takeWhile fun k => 0 ≤ start.passIndex k).filterMap fun k =>
    start.gatewayURLs[(start.passIndex k).toNat]?

end GatewayClient

theorem lt_length_of_passIndex (hne : start.gatewayURLs ≠ []) (i : ℕ) :
    (start.passIndex i).toNat < start.gatewayURLs.length := by
  have hpos := length_pos_iff.mpr hne
  have hlt : start.passIndex i < start.gatewayURLs.length := gatewayIndex_lt _ _ _ hpos
  omega

theorem passURLs_succ (i left : ℕ) :
    start.passURLs i (left + 1) =
      if 0 ≤ start.passIndex i then
        (start.gatewayURLs[(start.passIndex i).toNat]?).toList ++ start.passURLs (i + 1) left
      else [] := by
  rw [passURLs, range'_succ, takeWhile_cons]
  by_cases hi : 0 ≤ start.passIndex i
  · rw [if_pos (decide_eq_true hi), if_pos hi]
    cases hurl : start.gatewayURLs[(start.passIndex i).toNat]? with
    | none => exact filterMap_cons_none hurl
    | some url => exact filterMap_cons_some hurl
  · rw [if_neg (by simpa using hi), if_neg hi]
    rfl

structure AtPass (start : GatewayClient) (i : ℕ) (rt : GatewayClient) : Prop where
  opts : rt.opts = start.opts
  urls : rt.gatewayURLs = start.gatewayURLs
  attempt : rt.connectAttempt = start.connectAttempt + Int64.ofNat i

theorem atPass_rotated (h : AtPass start (i - 1) rt) (hne : start.gatewayURLs ≠ []) :
    AtPass start i (if 0 < i then rt.rotateGateway else rt) := by
  cases i with
  | zero => exact h
  | succ i =>
    have hurls : ¬ rt.gatewayURLs = [] := by rwa [h.urls]
    have hcount : rt.connectAttempt + 1 = start.connectAttempt + Int64.ofNat (i + 1) := by
      rw [h.attempt, Nat.add_sub_cancel, Int64.add_assoc]
      exact congrArg _ (Int64.ofNat_add i 1).symm
    rw [if_pos (Nat.succ_pos i), rotateGateway, if_neg hurls]
    exact ⟨h.opts, h.urls, hcount⟩

theorem nextGatewayURL_atPass (h : AtPass start i rt) (hne : start.gatewayURLs ≠ []) :
    rt.nextGatewayURL =
      if start.passIndex i < 0 then none
      else
        (start.gatewayURLs[(start.passIndex i).toNat]?).map fun url =>
          (url, { rt with gatewayIndex := start.passIndex i }) := by
  have hidx : gatewayIndex rt.gatewayURLs.length rt.opts.gatewaySelector rt.opts.userID
      rt.connectAttempt = start.passIndex i := by
    rw [h.opts, h.urls, h.attempt]
    rfl
  have hurls : ¬ rt.gatewayURLs = [] := by rwa [h.urls]
  rw [nextGatewayURL, if_neg hurls, selectGatewayURL, if_neg hurls]
  dsimp only
  rw [hidx, h.urls]
  split
  · rfl
  · rw [Option.map_map]
    rfl

theorem dialled_dialLoop (hne : start.gatewayURLs ≠ []) (hfails : ∀ k, dials k = .fails)
    (left : ℕ) (h : AtPass start (i - 1) rt) (dialled : List String) :
    (dialLoop dials i left rt dialled).2.1 = dialled ++ start.passURLs i left := by
  induction left generalizing i rt dialled with
  | zero => exact (append_nil dialled).symm
  | succ left ih =>
    have hpass := atPass_rotated h hne
    have hurl := getElem?_eq_getElem (lt_length_of_passIndex hne i)
    rw [dialLoop, nextGatewayURL_atPass hpass hne, passURLs_succ, hurl]
    by_cases hidx : start.passIndex i < 0
    · rw [if_pos hidx, if_neg (Int.not_le.mpr hidx), append_nil]
    have hnext : AtPass start (i + 1 - 1)
        { (if 0 < i then rt.rotateGateway else rt) with gatewayIndex := start.passIndex i } :=
      ⟨hpass.opts, hpass.urls, hpass.attempt⟩
    rw [if_neg hidx, if_pos (Int.not_lt.mp hidx)]
    simp only [Option.map_some, hfails, Option.toList_some]
    rw [ih hnext, append_assoc]

theorem dialled_of_fails (hne : start.gatewayURLs ≠ []) (hstate : start.state ≠ .connecting)
    (hfails : ∀ k, dials k = .fails) :
    start.dialled dials = start.passURLs 0 start.gatewayURLs.length := by
  have hpos : max start.gatewayURLs.length 1 = start.gatewayURLs.length :=
    Nat.max_eq_left (length_pos_iff.mpr hne)
  have hzero : start.connectAttempt = start.connectAttempt + Int64.ofNat (0 - 1) :=
    (Int64.add_zero _).symm
  have hfirst : ∀ state, AtPass start (0 - 1) { start with state := state } :=
    fun _ => ⟨rfl, rfl, hzero⟩
  have hloop : ∀ state, (dialLoop dials 0 start.gatewayURLs.length
      { start with state := state } []).2.1 = start.passURLs 0 start.gatewayURLs.length :=
    fun state => dialled_dialLoop hne hfails _ (hfirst state) []
  rw [dialled, connectAndAuth, hpos]
  cases hs : start.state with
  | connecting => exact absurd hs hstate
  | disconnected | connected | authed | reconnecting => exact hloop _

end

section

variable {start : GatewayClient}

theorem count_passURLs_iff (hnodup : start.gatewayURLs.Nodup) :
    (∀ url ∈ start.gatewayURLs, (start.passURLs 0 start.gatewayURLs.length).count url = 1) ↔
      (∀ i < start.gatewayURLs.length, 0 ≤ start.passIndex i) ∧
        Covers start.gatewayURLs.length fun i => (start.passIndex i).toNat := by
  by_cases hidx : ∀ i < start.gatewayURLs.length, 0 ≤ start.passIndex i
  · have hall : start.passURLs 0 start.gatewayURLs.length =
        visits start.gatewayURLs (fun i => (start.passIndex i).toNat) start.gatewayURLs.length := by
      rw [passURLs, ← range_eq_range', takeWhile_eq_self_iff.mpr]
      · rfl
      · intro i hi
        exact decide_eq_true (hidx i (mem_range.mp hi))
    rw [hall, count_visits_iff hnodup, and_iff_right hidx]
  · refine iff_of_false ?_ fun h => hidx h.1
    -- a pass that panics leaves too few dials for all gateways
    intro hcount
    have hsub : start.gatewayURLs ⊆ start.passURLs 0 start.gatewayURLs.length := by
      intro url hurl
      exact count_pos_iff.mp (by rw [hcount url hurl]; exact Nat.one_pos)
    have hlen := (subperm_of_subset hnodup hsub).length_le
    have hfilter := length_filterMap_le (fun k => start.gatewayURLs[(start.passIndex k).toNat]?)
      ((range' 0 start.gatewayURLs.length).takeWhile fun k => 0 ≤ start.passIndex k)
    have htake := takeWhile_prefix (l := range' 0 start.gatewayURLs.length)
      fun k => decide (0 ≤ start.passIndex k)
    have heq := htake.eq_of_length (by
      have hle := htake.length_le
      simp only [length_range'] at hle ⊢
      exact Nat.le_antisymm hle (hlen.trans hfilter))
    refine hidx fun i hi => ?_
    have hmem : i ∈ range' 0 start.gatewayURLs.length := by simpa using hi
    rw [← heq] at hmem
    simpa using mem_takeWhile_imp hmem

end

/-! ## The selectors -/

/-- The indices of a call are all the positions of the list. -/
def AllIndices (n : ℕ) (idx : ℕ → Int) : Prop :=
  (∀ i < n, 0 ≤ idx i) ∧ Covers n fun i => (idx i).toNat

theorem allIndices_natCast {n : ℕ} {f : ℕ → ℕ} : AllIndices n (fun i => (f i : Int)) ↔ Covers n f :=
  and_iff_right fun _ _ => Int.natCast_nonneg _

/-- The counter stays in the range of an `int`, or leaves it in the last pass with a power of two of
gateways. -/
def CountsUp (n : ℕ) (attempt : Int64) : Prop :=
  0 ≤ attempt.toInt ∧
    (attempt.toInt + n ≤ 2 ^ 63 ∨ (attempt.toInt + n = 2 ^ 63 + 1 ∧ (n : Int) ∣ 2 ^ 63))

section

variable {n : ℕ} {attempt : Int64}

theorem counter_eq {i : ℕ} (hattempt : 0 ≤ attempt.toInt) (hi : attempt.toInt + i < 2 ^ 63) :
    (attempt + Int64.ofNat i).toInt = attempt.toInt + i := by
  rw [toInt_add_ofNat, Int.bmod_def]
  omega

theorem counter_wrapped {i : ℕ} (hi : attempt.toInt + i = 2 ^ 63) :
    (attempt + Int64.ofNat i).toInt = -2 ^ 63 := by
  rw [toInt_add_ofNat, Int.bmod_def]
  omega

theorem tmod_neg_natCast (w : ℕ) : (-(w : Int)).tmod n = -((w % n : ℕ) : Int) := by
  rw [Int.neg_tmod]
  rfl

theorem dvd_of_tmod_nonneg {w : ℕ} (h : 0 ≤ (-(w : Int)).tmod n) : n ∣ w := by
  rw [tmod_neg_natCast] at h
  exact Nat.dvd_of_mod_eq_zero (by omega)

theorem nonneg_of_indices (hn : 1 < n) (h : ∀ i < n, 0 ≤ (attempt + Int64.ofNat i).toInt.tmod n) :
    0 ≤ attempt.toInt := by
  by_contra hneg
  have hlow := Int64.le_toInt attempt
  have hzero : (attempt + Int64.ofNat 0).toInt = -((-attempt.toInt).toNat : Int) := by
    rw [toInt_add_ofNat, Int.bmod_def]
    omega
  have hone : (attempt + Int64.ofNat 1).toInt = -((-attempt.toInt).toNat - 1 : ℕ) := by
    rw [toInt_add_ofNat, Int.bmod_def]
    omega
  -- two numbers in a row would be multiples
  have hdvd := dvd_of_tmod_nonneg (hzero ▸ h 0 (by omega))
  have hdvd' := dvd_of_tmod_nonneg (hone ▸ h 1 hn)
  have hsub := Nat.dvd_sub hdvd hdvd'
  have hdiff : (-attempt.toInt).toNat - ((-attempt.toInt).toNat - 1) = 1 := by omega
  rw [hdiff, Nat.dvd_one] at hsub
  omega

theorem countsUp_of_indices (hn : 1 < n)
    (h : ∀ i < n, 0 ≤ (attempt + Int64.ofNat i).toInt.tmod n) : CountsUp n attempt := by
  have hattempt := nonneg_of_indices hn h
  refine ⟨hattempt, ?_⟩
  by_cases hin : attempt.toInt + n ≤ 2 ^ 63
  · exact .inl hin
  right
  have hlt := Int64.toInt_lt attempt
  obtain ⟨k, hk⟩ : ∃ k : ℕ, attempt.toInt + k = 2 ^ 63 := ⟨(2 ^ 63 - attempt.toInt).toNat, by omega⟩
  have hwrapped : n ∣ 2 ^ 63 := by
    apply dvd_of_tmod_nonneg
    have hidx := h k (by omega)
    rwa [counter_wrapped hk] at hidx
  refine ⟨?_, Int.natCast_dvd_natCast.mpr hwrapped⟩
  by_contra hmore
  have hnext : n ∣ 2 ^ 63 - 1 := by
    apply dvd_of_tmod_nonneg
    have hidx := h (k + 1) (by omega)
    have hcount : (attempt + Int64.ofNat (k + 1)).toInt = -((2 ^ 63 - 1 : ℕ) : Int) := by
      rw [toInt_add_ofNat, Int.bmod_def]
      omega
    rwa [hcount] at hidx
  have hsub := Nat.dvd_sub hwrapped hnext
  rw [show 2 ^ 63 - (2 ^ 63 - 1) = 1 from rfl, Nat.dvd_one] at hsub
  omega

theorem index_of_countsUp (h : CountsUp n attempt) {i : ℕ} (hi : i < n) :
    (attempt + Int64.ofNat i).toInt.tmod n = ((attempt.toInt.toNat + i) % n : ℕ) := by
  obtain ⟨hattempt, hend⟩ := h
  by_cases hin : attempt.toInt + i < 2 ^ 63
  · rw [counter_eq hattempt hin, Int.tmod_eq_emod_of_nonneg (by omega), Int.natCast_emod]
    congr 1
    omega
  · obtain ⟨hlast, hdvd⟩ := hend.resolve_left (by omega)
    have hcount : attempt.toInt.toNat + i = 2 ^ 63 := by omega
    have hmod := Nat.mod_eq_zero_of_dvd (Int.natCast_dvd_natCast.mp hdvd)
    rw [counter_wrapped (by omega), hcount, hmod]
    exact Int.tmod_eq_zero_of_dvd (Int.dvd_neg.mpr hdvd)

theorem allIndices_counter_iff (hn : 0 < n) :
    AllIndices n (fun i => (attempt + Int64.ofNat i).toInt.tmod n) ↔
      n = 1 ∨ CountsUp n attempt := by
  constructor
  · intro h
    by_cases hone : n = 1
    · exact .inl hone
    · exact .inr (countsUp_of_indices (by omega) h.1)
  · rintro (rfl | h)
    · have hzero : ∀ i, (attempt + Int64.ofNat i).toInt.tmod (1 : ℕ) = (0 : ℕ) :=
        fun i => Int.tmod_one _
      simp only [hzero]
      exact allIndices_natCast.mpr ((covers_const_iff Nat.one_pos Nat.one_pos).mpr rfl)
    · have hidx : ∀ i < n, (attempt + Int64.ofNat i).toInt.tmod n =
          ((attempt.toInt.toNat + i) % n : ℕ) := fun i hi => index_of_countsUp h hi
      refine ⟨fun i hi => ?_, (covers_mod attempt.toInt.toNat n).congr fun i hi => ?_⟩
      · dsimp only
        rw [hidx i hi]
        exact Int.natCast_nonneg _
      · dsimp only
        rw [hidx i hi, Int.toNat_natCast]

end

theorem ofInt_counter (attempt : Int64) (i : ℕ) :
    UInt32.ofInt (attempt + Int64.ofNat i).toInt =
      UInt32.ofInt attempt.toInt + UInt32.ofNat i := by
  have hmod : (attempt.toInt + i).bmod (2 ^ 64) % 2 ^ 32 = (attempt.toInt + i) % 2 ^ 32 := by
    rw [Int.bmod_def]
    omega
  have hnat : UInt32.ofInt i = UInt32.ofNat i := by
    rw [UInt32.ofInt]
    apply UInt32.toNat.inj
    simp only [UInt32.toNat_ofNat']
    omega
  rw [toInt_add_ofNat, ← hnat, ← UInt32.ofInt_add, UInt32.ofInt, UInt32.ofInt, hmod]

theorem toNat_randomSum (userID : Int) (attempt : Int64) (i : ℕ) :
    (randomSum userID (attempt + Int64.ofNat i)).toNat =
      ((randomSum userID attempt).toNat + i) % 2 ^ 32 := by
  rw [randomSum, ofInt_counter, ← UInt32.add_assoc, ← randomSum, UInt32.toNat_add,
    UInt32.toNat_ofNat', Nat.add_mod_mod]

/-- The selector gets to every gateway, from the counter at the start of the call. -/
def TriesAll (n : ℕ) (selector : GatewaySelector) (userID : Int) (attempt : Int64) : Prop :=
  n = 1 ∨
    match selector with
    | .hashUserID => False
    | .random =>
      if userID = 0 then CountsUp n attempt
      else (randomSum userID attempt).toNat + n ≤ 2 ^ 32 ∨ n ∣ 2 ^ 32
    | .unset | .roundRobin | .other _ => CountsUp n attempt

theorem allIndices_indexAt_iff {n : ℕ} (hn : 0 < n) (selector : GatewaySelector) (userID : Int)
    (attempt : Int64) :
    AllIndices n (indexAt selector userID attempt n) ↔ TriesAll n selector userID attempt := by
  have hcounter : AllIndices n (fun i => (attempt + Int64.ofNat i).toInt.tmod n) ↔
      n = 1 ∨ CountsUp n attempt := allIndices_counter_iff hn
  unfold TriesAll
  cases selector with
  | hashUserID =>
    rw [or_false]
    exact allIndices_natCast.trans (covers_const_iff hn (Nat.mod_lt _ hn))
  | random =>
    by_cases huser : userID = 0
    · have hidx : indexAt .random userID attempt n =
          fun i => (attempt + Int64.ofNat i).toInt.tmod n := by
        funext i
        exact if_pos huser
      rw [hidx, hcounter, if_pos huser]
    · have hidx : indexAt .random userID attempt n =
          fun i => ((((randomSum userID attempt).toNat + i) % 2 ^ 32 % n : ℕ) : Int) := by
        funext i
        rw [← toNat_randomSum]
        exact if_neg huser
      have hword : (randomSum userID attempt).toNat < 2 ^ 32 := UInt32.toNat_lt _
      rw [hidx, allIndices_natCast, covers_wrap_iff hword, if_neg huser]
      refine (or_iff_right_of_imp ?_).symm
      rintro rfl
      exact .inr (Nat.one_dvd _)
  | unset | roundRobin | other name => exact hcounter

theorem dialled_of_connecting {rt : GatewayClient} (h : rt.state = .connecting)
    (dials : ℕ → Dial) : rt.dialled dials = [] := by
  rw [dialled, connectAndAuth, h]

/-- When every dial of a call fails, the call has dialled every gateway of the list once exactly if
no other call is at work, and the list has one gateway or the selector counts: not the one by user
id, and the random one only as long as its 32-bit sum does not start again at zero on the way. -/
theorem every_gateway_dialled_iff (rt : GatewayClient) (hne : rt.gatewayURLs ≠ [])
    (hnodup : rt.gatewayURLs.Nodup) (dials : ℕ → Dial) (hfails : ∀ k, dials k = .fails) :
    (∀ url ∈ rt.gatewayURLs, (rt.dialled dials).count url = 1) ↔
      rt.state ≠ .connecting ∧
        TriesAll rt.gatewayURLs.length rt.opts.gatewaySelector rt.opts.userID
          rt.connectAttempt := by
  by_cases hstate : rt.state = .connecting
  · refine iff_of_false ?_ fun h => h.1 hstate
    intro hall
    obtain ⟨url, hurl⟩ := exists_mem_of_ne_nil _ hne
    have hcount := hall url hurl
    rw [dialled_of_connecting hstate] at hcount
    cases hcount
  · rw [and_iff_right hstate, dialled_of_fails hne hstate hfails, count_passURLs_iff hnodup]
    exact allIndices_indexAt_iff (length_pos_iff.mpr hne) _ _ _

def hashingClient : GatewayClient :=
  newGatewayClient
    { gatewayURLs := ["ws://g1/ws", "ws://g2/ws"], gatewaySelector := .hashUserID, userID := 42 }

theorem round_robin_tries_all :
    hashingClient.gatewayURLs = ["ws://g1/ws", "ws://g2/ws"] ∧
    (∀ url ∈ ["ws://g1/ws", "ws://g2/ws"],
      (({ hashingClient with
          opts := { hashingClient.opts with gatewaySelector := .roundRobin } } :
            GatewayClient).dialled fun _ => .fails).count url = 1) :=
  ⟨rfl, (every_gateway_dialled_iff
    { hashingClient with opts := { hashingClient.opts with gatewaySelector := .roundRobin } }
    (by decide) (by decide) (fun _ => .fails) (fun _ => rfl)).mpr
    ⟨by decide, .inr ⟨by decide, .inl (by decide)⟩⟩⟩

def wrappingClient : GatewayClient :=
  newGatewayClient
    { gatewayURLs := ["ws://g1/ws", "ws://g2/ws", "ws://g3/ws"]
      gatewaySelector := .random
      userID := 3609743693 }

/-- The second gateway of the one client and the third of the other are not tried. -/
theorem same_gateway_dialled_again :
    ((hashingClient.connectAndAuth fun _ => .fails).1 = .dialFailed ∧
      hashingClient.dialled (fun _ => .fails) = ["ws://g1/ws", "ws://g1/ws"]) ∧
    (wrappingClient.connectAndAuth fun _ => .fails).1 = .dialFailed ∧
      wrappingClient.dialled (fun _ => .fails) = ["ws://g1/ws", "ws://g1/ws", "ws://g2/ws"] := by
  decide

/-! ## The HTTP address -/

def gatewayAddress (secure : Bool) (authority : String) (path : Option String) : String :=
  (if secure then "wss://" else "ws://") ++ authority ++ (path.map ("/" ++ ·)).getD ""

def httpAddress (secure : Bool) (authority : String) : String :=
  (if secure then "https://" else "http://") ++ authority

variable (secure : Bool) (rest : String)

theorem httpScheme_eq :
    httpScheme ((if secure then "wss://" else "ws://") ++ rest) = httpAddress secure rest := by
  cases secure with
  | false | true => simp [httpScheme, hasPrefix, httpAddress, String.toList_append]

theorem takeWhile_httpAddress :
    (httpAddress secure rest).toList.takeWhile (· ≠ '/') =
      (if secure then "https:" else "http:").toList := by
  cases secure with
  | false | true => simp [httpAddress, String.toList_append]

theorem deriveBaseURL_eq :
    deriveBaseURLFromGateway ((if secure then "wss://" else "ws://") ++ rest) =
      httpAddress secure rest := by
  have hshort : ¬ "https://".utf8ByteSize <
      (String.ofList (if secure then "https:" else "http:").toList).utf8ByteSize := by
    cases secure with
    | false | true => decide
  unfold deriveBaseURLFromGateway
  dsimp only
  rw [httpScheme_eq, takeWhile_httpAddress]
  exact if_neg fun h => hshort h.2

/-- The path of a gateway's URL is never removed: the address is right only for a URL without
one. -/
theorem base_url_iff (secure : Bool) (authority : String) (path : Option String) :
    deriveBaseURLFromGateway (gatewayAddress secure authority path) =
      httpAddress secure authority ↔ path = none := by
  rw [gatewayAddress, String.append_assoc, deriveBaseURL_eq, httpAddress, httpAddress,
    ← String.append_assoc]
  cases path with
  | none | some path => simp

theorem base_url_keeps_path :
    deriveBaseURLFromGateway "ws://127.0.0.1:18000/ws" = "http://127.0.0.1:18000/ws" ∧
      deriveBaseURLFromGateway "wss://example.com/ws" = "https://example.com/ws" := by
  decide

end NonokaIM.Sdk
