import NonokaIM.Model.HashRing

/-! # The consistent hash ring

Its three fields are views of one set of nodes, as long as no two virtual points have the same
hash. -/

namespace NonokaIM

open AddRemove CyclicSearch List AList

section

variable (hash : String → ℕ) (replicas : ℕ)

def OwnsPoint (S : Set String) (p : ℕ) (node : String) : Prop :=
  node ∈ S ∧ ∃ i < replicas, virtualPoint hash node i = p

def ringPoints (S : Set String) : Set ℕ := {p | ∃ node, OwnsPoint hash replicas S p node}

def KeyOwner (S : Set String) (key node : String) : Prop :=
  ∃ p, Next (ringPoints hash replicas S) (hash key) p ∧ OwnsPoint hash replicas S p node

/-- No two virtual points of the nodes have the same hash. -/
def DistinctPoints (S : Set String) : Prop :=
  ∀ node ∈ S, ∀ node' ∈ S, ∀ i < replicas, ∀ i' < replicas,
    virtualPoint hash node i = virtualPoint hash node' i' → node = node' ∧ i = i'

end

variable {hash : String → ℕ} {replicas : ℕ} {S T : Set String} {p : ℕ} {key node node' : String}

theorem DistinctPoints.mono (h : DistinctPoints hash replicas T) (hsub : S ⊆ T) :
    DistinctPoints hash replicas S :=
  fun n hn m hm => h n (hsub hn) m (hsub hm)

theorem distinctPoints_of_nodup (nodes : List String)
    (h : (nodes.flatMap fun n => (range replicas).map (virtualPoint hash n)).Nodup) :
    DistinctPoints hash replicas {n | n ∈ nodes} := by
  obtain ⟨hown, hothers⟩ := nodup_flatMap.mp h
  intro n hn m hm i hi j hj heq
  have hmem : ∀ n i, i < replicas →
      virtualPoint hash n i ∈ (range replicas).map (virtualPoint hash n) :=
    fun n i hi => mem_map_of_mem (mem_range.mpr hi)
  by_cases hnm : n = m
  · subst hnm
    exact ⟨rfl, inj_on_of_nodup_map (hown n hn) (mem_range.mpr hi) (mem_range.mpr hj) heq⟩
  · have hsymm : Std.Symm fun n m => Disjoint ((range replicas).map (virtualPoint hash n))
        ((range replicas).map (virtualPoint hash m)) := ⟨fun _ _ hd => hd.symm⟩
    have hdisjoint := hothers.forall hn hm hnm
    exact absurd (heq ▸ hmem m j hj) (hdisjoint (hmem n i hi))

theorem OwnsPoint.mono (h : OwnsPoint hash replicas S p node) (hsub : S ⊆ T) :
    OwnsPoint hash replicas T p node := ⟨hsub h.1, h.2⟩

theorem OwnsPoint.unique (hdist : DistinctPoints hash replicas S)
    (h : OwnsPoint hash replicas S p node) (h' : OwnsPoint hash replicas S p node') :
    node = node' := by
  obtain ⟨hn, i, hi, rfl⟩ := h
  obtain ⟨hn', i', hi', heq⟩ := h'
  exact (hdist node hn node' hn' i hi i' hi' heq.symm).1

theorem ringPoints_mono (hsub : S ⊆ T) : ringPoints hash replicas S ⊆ ringPoints hash replicas T :=
  fun _ ⟨node, hp⟩ => ⟨node, hp.mono hsub⟩

theorem KeyOwner.mem (h : KeyOwner hash replicas S key node) : node ∈ S := by
  obtain ⟨p, -, hp⟩ := h
  exact hp.1

theorem KeyOwner.unique (hdist : DistinctPoints hash replicas S)
    (h : KeyOwner hash replicas S key node) (h' : KeyOwner hash replicas S key node') :
    node = node' := by
  obtain ⟨p, hnext, hp⟩ := h
  obtain ⟨p', hnext', hp'⟩ := h'
  obtain rfl := hnext.unique hnext'
  exact hp.unique hdist hp'

theorem KeyOwner.of_subset (h : KeyOwner hash replicas T key node) (hsub : S ⊆ T)
    (hnode : node ∈ S) : KeyOwner hash replicas S key node := by
  obtain ⟨p, hnext, hp⟩ := h
  have hpS : OwnsPoint hash replicas S p node := ⟨hnode, hp.2⟩
  exact ⟨p, hnext.of_subset (ringPoints_mono hsub) ⟨node, hpS⟩, hpS⟩

/-! ## The loops -/

namespace ConsistentHash

theorem foldl_addPoint (hash : String → ℕ) (node : String) (ch : ConsistentHash) (is : List ℕ) :
    ∃ nodes, is.foldl (addPoint hash node) ch =
        { ch with ring := ch.ring ++ is.map (virtualPoint hash node), nodes } ∧
      ∀ p, nodes.lookup p =
        if p ∈ is.map (virtualPoint hash node) then some node else ch.nodes.lookup p := by
  induction is generalizing ch with
  | nil => exact ⟨ch.nodes, by simp, fun _ => rfl⟩
  | cons i is ih =>
    obtain ⟨nodes, hfold, hlookup⟩ := ih (addPoint hash node ch i)
    refine ⟨nodes, ?_, fun p => ?_⟩
    · rw [foldl_cons, hfold, map_cons, addPoint, append_assoc, singleton_append]
    · rw [hlookup, map_cons, addPoint]
      by_cases hp : p = virtualPoint hash node i
      · subst hp
        rw [lookup_insert, ite_self, if_pos mem_cons_self]
      · rw [lookup_insert_ne hp]
        simp only [mem_cons, hp, false_or]

theorem nodeAt_erase_of_ne {nodes : GoMap ℕ String} {h : ℕ} (hne : p ≠ h) :
    nodeAt (nodes.erase h) p = nodeAt nodes p := by
  rw [nodeAt, lookup_erase_ne hne, nodeAt]

theorem foldl_removePoint (node : String) {l : List ℕ} (hl : l.Nodup) (kept : List ℕ)
    (nodes : GoMap ℕ String) :
    (l.foldl (removePoint node) (kept, nodes)).1 =
        kept ++ l.filter (fun h => nodeAt nodes h ≠ node) ∧
      ∀ p, (l.foldl (removePoint node) (kept, nodes)).2.lookup p =
        if p ∈ l ∧ nodeAt nodes p = node then none else nodes.lookup p := by
  induction l generalizing kept nodes with
  | nil => simp
  | cons h l ih =>
    obtain ⟨hh, hl⟩ := nodup_cons.mp hl
    rw [foldl_cons]
    by_cases hnode : nodeAt nodes h = node
    · have hstep : removePoint node (kept, nodes) h = (kept, nodes.erase h) :=
        if_neg (not_not.mpr hnode)
      have hsame : ∀ p ∈ l, nodeAt (nodes.erase h) p = nodeAt nodes p :=
        fun p hp => nodeAt_erase_of_ne (ne_of_mem_of_not_mem hp hh)
      obtain ⟨hring, hlookup⟩ := ih hl kept (nodes.erase h)
      rw [hstep]
      refine ⟨?_, fun p => ?_⟩
      · rw [hring, filter_cons_of_neg (by simpa using hnode)]
        congr 1
        refine filter_congr fun p hp => ?_
        rw [hsame p hp]
      · rw [hlookup p]
        by_cases hp : p = h
        · subst hp
          simp [hh, hnode]
        · rw [nodeAt_erase_of_ne hp, lookup_erase_ne hp]
          simp only [mem_cons, hp, false_or]
    · have hstep : removePoint node (kept, nodes) h = (kept ++ [h], nodes) := if_pos hnode
      obtain ⟨hring, hlookup⟩ := ih hl (kept ++ [h]) nodes
      rw [hstep]
      refine ⟨?_, fun p => ?_⟩
      · rw [hring, filter_cons_of_pos (by simpa using hnode), append_assoc, singleton_append]
      · rw [hlookup p]
        by_cases hp : p = h
        · subst hp
          simp [hh, hnode]
        · simp only [mem_cons, hp, false_or]

/-! ## The invariant -/

/-- The ring, the map and the set of a `ConsistentHash` are those of a set of nodes. -/
structure Holds (hash : String → ℕ) (ch : ConsistentHash) (S : Set String) : Prop where
  nodeSet : ∀ node, node ∈ ch.nodeSet ↔ node ∈ S
  sorted : ch.ring.Pairwise (· ≤ ·)
  nodup : ch.ring.Nodup
  ring : ∀ p, p ∈ ch.ring ↔ p ∈ ringPoints hash ch.replicas S
  nodes : ∀ p node, ch.nodes.lookup p = some node ↔ OwnsPoint hash ch.replicas S p node

variable {ch : ConsistentHash}

theorem Holds.new (replicas : Int) : Holds hash (newConsistentHash replicas) ∅ where
  nodeSet node := by simp [newConsistentHash]
  sorted := Pairwise.nil
  nodup := nodup_nil
  ring p := by simp [newConsistentHash, ringPoints, OwnsPoint]
  nodes p node := by simp [newConsistentHash, OwnsPoint]

theorem replicas_add (ch : ConsistentHash) (node : String) :
    (ch.add hash node).replicas = ch.replicas := by
  unfold add
  split
  · rfl
  obtain ⟨nodes, hfold, -⟩ := foldl_addPoint hash node
    { ch with nodeSet := ch.nodeSet.insert node () } (range ch.replicas)
  dsimp only
  rw [hfold]

theorem mem_map_virtualPoint :
    p ∈ (range replicas).map (virtualPoint hash node) ↔
      ∃ i < replicas, virtualPoint hash node i = p := by
  simp only [mem_map, mem_range]

theorem ownsPoint_insert :
    OwnsPoint hash replicas (insert node S) p node' ↔
      (node' = node ∧ ∃ i < replicas, virtualPoint hash node i = p) ∨
        OwnsPoint hash replicas S p node' := by
  constructor
  · rintro ⟨rfl | hS, hp⟩
    · exact .inl ⟨rfl, hp⟩
    · exact .inr ⟨hS, hp⟩
  · rintro (⟨rfl, hp⟩ | ⟨hS, hp⟩)
    · exact ⟨.inl rfl, hp⟩
    · exact ⟨.inr hS, hp⟩

theorem mem_ringPoints_insert :
    p ∈ ringPoints hash replicas (insert node S) ↔
      p ∈ ringPoints hash replicas S ∨ ∃ i < replicas, virtualPoint hash node i = p := by
  constructor
  · rintro ⟨m, hm⟩
    rcases ownsPoint_insert.mp hm with ⟨-, hp⟩ | hm
    · exact .inr hp
    · exact .inl ⟨m, hm⟩
  · rintro (⟨m, hm⟩ | hp)
    · exact ⟨m, ownsPoint_insert.mpr (.inr hm)⟩
    · exact ⟨node, ownsPoint_insert.mpr (.inl ⟨rfl, hp⟩)⟩

theorem Holds.add (h : Holds hash ch S) (hdist : DistinctPoints hash ch.replicas (insert node S)) :
    Holds hash (ch.add hash node) (insert node S) := by
  by_cases hmem : node ∈ ch.nodeSet
  · rw [ConsistentHash.add, if_pos hmem, Set.insert_eq_of_mem ((h.nodeSet node).mp hmem)]
    exact h
  have hnode : node ∉ S := mt (h.nodeSet node).mpr hmem
  -- a point of the new node is no point of the others
  have hnew : ∀ p, p ∈ ringPoints hash ch.replicas S →
      ¬ ∃ i < ch.replicas, virtualPoint hash node i = p := by
    rintro p ⟨m, hm⟩ hp
    have hown : OwnsPoint hash ch.replicas (insert node S) p node := ⟨.inl rfl, hp⟩
    exact hnode (hown.unique hdist (hm.mono (Set.subset_insert node S)) ▸ hm.1)
  obtain ⟨nodes, hfold, hlookup⟩ := foldl_addPoint hash node
    { ch with nodeSet := ch.nodeSet.insert node () } (range ch.replicas)
  rw [ConsistentHash.add, if_neg hmem]
  dsimp only
  rw [hfold]
  constructor
  case nodeSet =>
    intro m
    rw [mem_insert, h.nodeSet, Set.mem_insert_iff]
  case sorted => exact pairwise_insertionSort _ _
  case nodup =>
    rw [(perm_insertionSort _ _).nodup_iff, nodup_append]
    refine ⟨h.nodup, ?_, ?_⟩
    · refine Nodup.map_on ?_ nodup_range
      intro i hi j hj hij
      rw [mem_range] at hi hj
      exact (hdist node (.inl rfl) node (.inl rfl) i hi j hj hij).2
    · rintro p hp _ hp' rfl
      exact hnew p ((h.ring p).mp hp) (mem_map_virtualPoint.mp hp')
  case ring =>
    intro p
    rw [mem_insertionSort, mem_append, mem_map_virtualPoint, mem_ringPoints_insert, h.ring]
  case nodes =>
    intro p m
    rw [hlookup, ownsPoint_insert]
    by_cases hp : p ∈ (range ch.replicas).map (virtualPoint hash node)
    · have hpoint := mem_map_virtualPoint.mp hp
      rw [if_pos hp, Option.some.injEq, eq_comm]
      refine ⟨fun hm => .inl ⟨hm, hpoint⟩, ?_⟩
      rintro (⟨hm, -⟩ | hm)
      · exact hm
      · exact absurd hpoint (hnew p ⟨m, hm⟩)
    · rw [if_neg hp, h.nodes]
      refine ⟨.inr, ?_⟩
      rintro (⟨-, hpoint⟩ | hm)
      · exact absurd (mem_map_virtualPoint.mpr hpoint) hp
      · exact hm

theorem remove_eq (ch : ConsistentHash) (hmem : node ∈ ch.nodeSet) :
    ch.remove node =
      { ch with
        nodeSet := ch.nodeSet.erase node
        ring := (ch.ring.foldl (removePoint node) ([], ch.nodes)).1
        nodes := (ch.ring.foldl (removePoint node) ([], ch.nodes)).2 } :=
  if_pos hmem

theorem replicas_remove (ch : ConsistentHash) (node : String) :
    (ch.remove node).replicas = ch.replicas := by
  by_cases hmem : node ∈ ch.nodeSet
  · rw [remove_eq ch hmem]
  · rw [remove, if_neg hmem]

theorem ownsPoint_diff :
    OwnsPoint hash replicas (S \ {node}) p node' ↔
      OwnsPoint hash replicas S p node' ∧ node' ≠ node := by
  rw [OwnsPoint, OwnsPoint, Set.mem_sdiff, Set.mem_singleton_iff, and_right_comm]

theorem Holds.nodeAt_eq (h : Holds hash ch S) (hp : OwnsPoint hash ch.replicas S p node) :
    nodeAt ch.nodes p = node := by
  rw [nodeAt, (h.nodes p node).mpr hp, Option.getD_some]

theorem Holds.remove (h : Holds hash ch S) : Holds hash (ch.remove node) (S \ {node}) := by
  by_cases hmem : node ∈ ch.nodeSet
  swap
  · rw [ConsistentHash.remove, if_neg hmem,
      Set.sdiff_singleton_eq_self (mt (h.nodeSet node).mpr hmem)]
    exact h
  obtain ⟨hring, hlookup⟩ := foldl_removePoint node h.nodup [] ch.nodes
  rw [nil_append] at hring
  rw [remove_eq ch hmem]
  constructor
  case nodeSet =>
    intro m
    rw [mem_erase, h.nodeSet, Set.mem_sdiff, Set.mem_singleton_iff, and_comm]
  case sorted =>
    rw [hring]
    exact h.sorted.filter _
  case nodup =>
    rw [hring]
    exact h.nodup.filter _
  case ring =>
    intro p
    rw [hring, mem_filter, decide_eq_true_eq, h.ring]
    constructor
    · rintro ⟨⟨m, hm⟩, hne⟩
      rw [h.nodeAt_eq hm] at hne
      exact ⟨m, ownsPoint_diff.mpr ⟨hm, hne⟩⟩
    · rintro ⟨m, hm⟩
      obtain ⟨hm, hne⟩ := ownsPoint_diff.mp hm
      exact ⟨⟨m, hm⟩, by rwa [h.nodeAt_eq hm]⟩
  case nodes =>
    intro p m
    rw [hlookup, ownsPoint_diff, ← h.nodes]
    split
    · rename_i hp
      refine ⟨fun hm => absurd hm (Option.some_ne_none m).symm, ?_⟩
      rintro ⟨hm, hne⟩
      exact absurd ((h.nodeAt_eq ((h.nodes p m).mp hm)).symm.trans hp.2) hne
    · rename_i hp
      refine ⟨fun hm => ⟨hm, ?_⟩, And.left⟩
      rintro rfl
      have hown := (h.nodes p m).mp hm
      exact hp ⟨(h.ring p).mpr ⟨m, hown⟩, h.nodeAt_eq hown⟩

/-! ## Runs -/

theorem replicas_step (ch : ConsistentHash) (x : RingCall) :
    (step hash ch x).replicas = ch.replicas := by
  cases x with
  | add node => exact replicas_add ch node
  | remove node => exact replicas_remove ch node

theorem run_concat (ch : ConsistentHash) (calls : List RingCall) (x : RingCall) :
    run hash ch (calls ++ [x]) = step hash (run hash ch calls) x := by
  rw [run, foldl_append]
  rfl

theorem replicas_run (hash : String → ℕ) (ch : ConsistentHash) (calls : List RingCall) :
    (run hash ch calls).replicas = ch.replicas := by
  induction calls generalizing ch with
  | nil => rfl
  | cons x calls ih => exact (ih (step hash ch x)).trans (replicas_step ch x)

theorem replicas_pos (replicas : Int) : 0 < (newConsistentHash replicas).replicas := by
  unfold newConsistentHash
  dsimp only
  split
  · exact Nat.succ_pos 149
  · omega

def addedNodes (calls : List RingCall) : Set String := {node | .add node ∈ calls}

theorem live_subset_addedNodes (calls : List RingCall) : live calls ⊆ addedNodes calls :=
  fun _ h => mem_of_live h

theorem holds_run (hash : String → ℕ) (replicas : Int) (calls : List RingCall)
    (hdist : DistinctPoints hash (newConsistentHash replicas).replicas (addedNodes calls)) :
    Holds hash (run hash (newConsistentHash replicas) calls) (live calls) := by
  induction calls using reverseRecOn with
  | nil =>
    rw [live_nil]
    exact .new replicas
  | append_singleton calls x ih =>
    have hcalls : addedNodes calls ⊆ addedNodes (calls ++ [x]) :=
      fun node h => mem_append_left _ h
    have hrun := ih (hdist.mono hcalls)
    rw [run_concat]
    cases x with
    | add node =>
      rw [live_add]
      refine hrun.add ?_
      rw [replicas_run, ← live_add]
      exact hdist.mono (live_subset_addedNodes _)
    | remove node =>
      rw [live_remove]
      exact hrun.remove

/-! ## Answers -/

theorem Holds.get_of_empty (h : Holds hash ch ∅) (key : String) : ch.get hash key = "" := by
  have hring : ch.ring = [] := by
    refine eq_nil_iff_forall_not_mem.mpr fun p hp => ?_
    obtain ⟨node, hnode, -⟩ := (h.ring p).mp hp
    exact hnode
  rw [get, hring]
  rfl

theorem Holds.keyOwner_get (h : Holds hash ch S) (hpos : 0 < ch.replicas) (hS : S.Nonempty)
    (key : String) : KeyOwner hash ch.replicas S key (ch.get hash key) := by
  have hne : ch.ring ≠ [] := by
    obtain ⟨node, hnode⟩ := hS
    exact ne_nil_of_mem ((h.ring _).mpr ⟨node, hnode, 0, hpos, rfl⟩)
  obtain ⟨p, hp⟩ := exists_nextIn hne (hash key)
  have hnext := next_of_nextIn h.sorted hp
  rw [show {q | q ∈ ch.ring} = ringPoints hash ch.replicas S from Set.ext h.ring] at hnext
  obtain ⟨node, hnode⟩ := hnext.1
  have hget : ch.get hash key = node := by
    rw [get, hp]
    exact h.nodeAt_eq hnode
  rw [hget]
  exact ⟨p, hnext, hnode⟩

theorem Holds.get_eq {ch' : ConsistentHash} (h : Holds hash ch S) (h' : Holds hash ch' S)
    (hreplicas : ch'.replicas = ch.replicas) (hpos : 0 < ch.replicas)
    (hdist : DistinctPoints hash ch.replicas S) (key : String) :
    ch'.get hash key = ch.get hash key := by
  rcases S.eq_empty_or_nonempty with rfl | hS
  · rw [h.get_of_empty, h'.get_of_empty]
  · have howner' := h'.keyOwner_get (hreplicas ▸ hpos) hS key
    rw [hreplicas] at howner'
    exact howner'.unique hdist (h.keyOwner_get hpos hS key)

def ringAfter (hash : String → ℕ) (replicas : Int) (calls : List RingCall) : ConsistentHash :=
  run hash (newConsistentHash replicas) calls

theorem ringAfter_pos (replicas : Int) (calls : List RingCall) :
    0 < (ringAfter hash replicas calls).replicas := by
  rw [ringAfter, replicas_run]
  exact replicas_pos replicas

theorem live_add_remove {calls : List RingCall} (h : node ∉ live calls) :
    live (calls ++ [.add node, .remove node]) = live calls := by
  rw [append_cons, live_remove, live_add]
  exact Set.insert_sdiff_self_of_notMem h

/-- The answers of the ring after any calls: the owner of the key among the nodes that were added
and not removed since, and the same ones again once a new node has come and gone. -/
theorem get_refines_owner (hash : String → ℕ) (replicas : Int) (calls : List RingCall)
    (hdist : DistinctPoints hash (newConsistentHash replicas).replicas (addedNodes calls)) :
    (∀ key, (live calls).Nonempty →
      KeyOwner hash (newConsistentHash replicas).replicas (live calls) key
        ((ringAfter hash replicas calls).get hash key)) ∧
    (∀ key, (ringAfter hash replicas calls).get hash key = "" ↔
      live calls = ∅ ∨
        KeyOwner hash (newConsistentHash replicas).replicas (live calls) key "") ∧
    ∀ node, node ∉ live calls →
      DistinctPoints hash (newConsistentHash replicas).replicas
        (addedNodes (calls ++ [.add node, .remove node])) →
      ∀ key, (ringAfter hash replicas (calls ++ [.add node, .remove node])).get hash key =
        (ringAfter hash replicas calls).get hash key := by
  have hholds := holds_run hash replicas calls hdist
  have hreplicas := replicas_run hash (newConsistentHash replicas) calls
  have hlive := hdist.mono (live_subset_addedNodes calls)
  have howner : ∀ key, (live calls).Nonempty →
      KeyOwner hash (newConsistentHash replicas).replicas (live calls) key
        ((ringAfter hash replicas calls).get hash key) := by
    intro key hne
    rw [← hreplicas]
    exact hholds.keyOwner_get (ringAfter_pos replicas calls) hne key
  refine ⟨howner, fun key => ?_, fun node hnode hdist' key => ?_⟩
  · rcases (live calls).eq_empty_or_nonempty with hempty | hne
    · rw [hempty] at hholds
      exact iff_of_true (hholds.get_of_empty key) (.inl hempty)
    · constructor
      · intro hget
        exact .inr (hget ▸ howner key hne)
      · rintro (hempty | hkey)
        · exact absurd hempty hne.ne_empty
        · exact (howner key hne).unique hlive hkey
  · have hholds' := holds_run hash replicas _ hdist'
    rw [live_add_remove hnode] at hholds'
    refine hholds.get_eq hholds' ?_ (ringAfter_pos replicas calls) ?_ key
    · rw [replicas_run, hreplicas]
    · rw [hreplicas]
      exact hlive

end ConsistentHash

/-! ## Two gateways -/

/-- The numbers differ modulo `m` from each other and from the bits of `seen`. -/
def distinctMod (m : ℕ) : ℕ → List ℕ → Bool
  | _, [] => true
  | seen, p :: ps => !seen.testBit (p % m) && distinctMod m (seen ||| 2 ^ (p % m)) ps

theorem nodup_of_distinctMod {m seen : ℕ} {ps : List ℕ} (h : distinctMod m seen ps = true) :
    ps.Nodup ∧ ∀ p ∈ ps, seen.testBit (p % m) = false := by
  induction ps generalizing seen with
  | nil => simp
  | cons p ps ih =>
    obtain ⟨hp, hps⟩ : seen.testBit (p % m) = false ∧
        distinctMod m (seen ||| 2 ^ (p % m)) ps = true := by
      simpa [distinctMod] using h
    obtain ⟨hnodup, hseen⟩ := ih hps
    have hnew : ∀ q ∈ ps, seen.testBit (q % m) = false ∧ p % m ≠ q % m := by
      simpa [Nat.testBit_or, Nat.testBit_two_pow] using hseen
    refine ⟨nodup_cons.mpr ⟨fun hmem => (hnew p hmem).2 rfl, hnodup⟩, ?_⟩
    exact forall_mem_cons.mpr ⟨hp, fun q hq => (hnew q hq).1⟩

theorem gateway_points_distinct :
    DistinctPoints xxhashSum64 defaultVirtualReplicas {n | n ∈ ["gw-1", "gw-2"]} := by
  have hmod : distinctMod 5050 0 (["gw-1", "gw-2"].flatMap fun n =>
      (range defaultVirtualReplicas).map (virtualPoint xxhashSum64 n)) = true := by
    decide +kernel
  exact distinctPoints_of_nodup _ (nodup_of_distinctMod hmod).1

namespace ConsistentHash

def gatewayCalls : List RingCall := [.add "gw-1", .add "gw-2", .add "gw-2", .remove "gw-3"]

theorem addedNodes_gatewayCalls : addedNodes gatewayCalls ⊆ {n | n ∈ ["gw-1", "gw-2"]} := by
  intro node h
  simpa [addedNodes, gatewayCalls] using h

theorem gatewayCalls_owner :
    DistinctPoints xxhashSum64 (newConsistentHash 0).replicas (addedNodes gatewayCalls) ∧
      KeyOwner xxhashSum64 (newConsistentHash 0).replicas (live gatewayCalls) "42"
        ((ringAfter xxhashSum64 0 gatewayCalls).get xxhashSum64 "42") := by
  have hdist := gateway_points_distinct.mono addedNodes_gatewayCalls
  refine ⟨hdist, (get_refines_owner xxhashSum64 0 gatewayCalls hdist).1 "42" ?_⟩
  exact ⟨"gw-1", [], _, rfl, by decide⟩

/-- A ring whose only node has the empty id answers with that id. Removing a node that was added
twice leaves none. -/
theorem empty_id_answer :
    DistinctPoints xxhashSum64 (newConsistentHash 3).replicas (addedNodes [.add ""]) ∧
      (live [.add ""] : Set String).Nonempty ∧
      (ringAfter xxhashSum64 3 [.add ""]).get xxhashSum64 "42" = "" ∧
      (ringAfter xxhashSum64 3 [.add "gw-1"]).get xxhashSum64 "42" = "gw-1" ∧
      (ringAfter xxhashSum64 3 [.add "gw-1", .add "gw-1", .remove "gw-1"]).get xxhashSum64 "42" =
        "" := by
  refine ⟨?_, ⟨"", [], [], rfl, not_mem_nil⟩, by decide, by decide, by decide⟩
  refine DistinctPoints.mono (distinctPoints_of_nodup [""] (by decide)) ?_
  intro node h
  simpa [addedNodes] using h

end ConsistentHash

end NonokaIM
