import NonokaIM.Model.ConnManager

/-! # What the shards of the connection manager hold

Together they are one set of connections. -/

namespace NonokaIM

open Spread GoMap AList Option

/-! ## One shard -/

/-- The maps of a shard hold a set of connections, and no user without one. -/
structure ConnShard.Holds (s : ConnShard) (T : Set ConnRef) : Prop where
  conns : ∀ connID c, s.conns.lookup connID = some c ↔ c ∈ T ∧ c.connID = connID
  users : ∀ u connID, connID ∈ (s.users.lookup u).getD ∅ ↔
    ∃ c ∈ T, c.connID = connID ∧ c.userID = u
  nonempty : ∀ u ids, s.users.lookup u = some ids → ids.keys ≠ []

namespace ConnShard

variable {s : ConnShard} {T : Set ConnRef} {c : ConnRef}

theorem Holds.empty : (({} : ConnShard)).Holds ∅ where
  conns := by simp
  users := by simp
  nonempty := by simp

theorem Holds.add (hs : s.Holds T) (hc : ∀ d ∈ T, d.connID = c.connID → d = c) :
    (s.add c).Holds (insert c T) where
  conns := by
    intro connID d
    by_cases h : connID = c.connID
    · subst h
      rw [ConnShard.add, lookup_insert, some.injEq]
      constructor
      · rintro rfl
        exact ⟨.inl rfl, rfl⟩
      · rintro ⟨rfl | hd, hid⟩
        · rfl
        · exact (hc d hd hid).symm
    · rw [ConnShard.add, lookup_insert_ne h, hs.conns]
      constructor
      · exact fun hd => ⟨.inr hd.1, hd.2⟩
      · rintro ⟨rfl | hd, hid⟩
        · exact absurd hid.symm h
        · exact ⟨hd, hid⟩
  users := by
    intro u connID
    by_cases h : u = c.userID
    · subst h
      rw [ConnShard.add, lookup_insert, getD_some, mem_insert, hs.users]
      constructor
      · rintro (rfl | ⟨d, hd, hid⟩)
        · exact ⟨c, .inl rfl, rfl, rfl⟩
        · exact ⟨d, .inr hd, hid⟩
      · rintro ⟨d, rfl | hd, hid⟩
        · exact .inl hid.1.symm
        · exact .inr ⟨d, hd, hid⟩
    · rw [ConnShard.add, lookup_insert_ne h, hs.users]
      constructor
      · exact fun ⟨d, hd, hid⟩ => ⟨d, .inr hd, hid⟩
      · rintro ⟨d, rfl | hd, hid⟩
        · exact absurd hid.2.symm h
        · exact ⟨d, hd, hid⟩
  nonempty := by
    intro u ids hids
    by_cases h : u = c.userID
    · subst h
      rw [ConnShard.add, lookup_insert, some.injEq] at hids
      rw [← hids, keys_insert]
      exact List.cons_ne_nil _ _
    · rw [ConnShard.add, lookup_insert_ne h] at hids
      exact hs.nonempty u ids hids

variable {users : GoMap Int (GoMap String Unit)} {userID : Int} {connID : String}

variable {u : Int} {d : ConnRef}

theorem lookup_removeID_of_ne (h : u ≠ userID) :
    (removeID users userID connID).lookup u = users.lookup u := by
  unfold removeID
  split
  · rfl
  · split
    · exact lookup_erase_ne h
    · exact lookup_insert_ne h

theorem mem_removeID {id : String} :
    id ∈ ((removeID users userID connID).lookup userID).getD ∅ ↔
      id ∈ (users.lookup userID).getD ∅ ∧ id ≠ connID := by
  unfold removeID
  cases hids : users.lookup userID with
  | none => simp [hids]
  | some ids =>
    rw [getD_some, and_comm, ← mem_erase]
    dsimp only
    split
    · rename_i hnil
      rw [lookup_erase, getD_none]
      refine iff_of_false (notMem_empty _) ?_
      rw [mem_keys, hnil]
      exact List.not_mem_nil
    · rw [lookup_insert, getD_some]

theorem removeID_nonempty (h : ∀ u ids, users.lookup u = some ids → ids.keys ≠ [])
    {ids : GoMap String Unit} (hids : (removeID users userID connID).lookup u = some ids) :
    ids.keys ≠ [] := by
  by_cases hu : u = userID
  · subst u
    unfold removeID at hids
    split at hids
    · exact h _ _ hids
    split at hids
    · rw [lookup_erase] at hids
      cases hids
    · rename_i hne
      rw [lookup_insert] at hids
      cases hids
      exact hne
  · rw [lookup_removeID_of_ne hu] at hids
    exact h _ _ hids

theorem Holds.remove (hs : s.Holds T) (hc : ∀ d ∈ T, d.connID = c.connID → d = c)
    (hzero : ∀ d ∈ T, d.userID ≠ 0) : (s.remove c).Holds (T \ {c}) where
  conns := by
    intro connID d
    by_cases h : connID = c.connID
    · subst h
      rw [ConnShard.remove, lookup_erase]
      refine iff_of_false (by simp) ?_
      rintro ⟨⟨hd, hne⟩, hid⟩
      exact hne (hc d hd hid)
    · rw [ConnShard.remove, lookup_erase_ne h, hs.conns]
      constructor
      · rintro ⟨hd, hid⟩
        refine ⟨⟨hd, ?_⟩, hid⟩
        rintro rfl
        exact h hid.symm
      · exact fun ⟨hd, hid⟩ => ⟨hd.1, hid⟩
  users := by
    intro u connID
    -- a connection without a user is in no shard
    by_cases hzero' : c.userID = 0
    · have hnot : c ∉ T := fun hT => hzero c hT hzero'
      rw [ConnShard.remove, if_pos hzero', Set.sdiff_singleton_eq_self hnot]
      exact hs.users u connID
    · rw [ConnShard.remove, if_neg hzero']
      by_cases h : u = c.userID
      · subst h
        rw [mem_removeID, hs.users]
        constructor
        · rintro ⟨⟨d, hd, hid, hu⟩, hne⟩
          refine ⟨d, ⟨hd, ?_⟩, hid, hu⟩
          rintro rfl
          exact hne hid.symm
        · rintro ⟨d, ⟨hd, hne⟩, hid, hu⟩
          exact ⟨⟨d, hd, hid, hu⟩, fun heq => hne (hc d hd (hid.trans heq))⟩
      · rw [lookup_removeID_of_ne h, hs.users]
        constructor
        · rintro ⟨d, hd, hid, hu⟩
          refine ⟨d, ⟨hd, ?_⟩, hid, hu⟩
          rintro rfl
          exact h hu.symm
        · exact fun ⟨d, hd, hid⟩ => ⟨d, hd.1, hid⟩
  nonempty := by
    intro u ids hids
    unfold ConnShard.remove at hids
    split at hids
    · exact hs.nonempty u ids hids
    · exact removeID_nonempty hs.nonempty hids

/-! ### Lists of a shard -/

theorem Holds.mem_userConns (hs : s.Holds T)
    (hunique : ∀ a ∈ T, ∀ b ∈ T, a.connID = b.connID → a = b) :
    d ∈ s.userConns u ↔ d ∈ T ∧ d.userID = u := by
  have hmem : d ∈ s.userConns u ↔
      ∃ connID ∈ (s.users.lookup u).getD ∅, s.conns.lookup connID = some d := by
    unfold userConns
    cases s.users.lookup u with
    | none => simp
    | some ids => exact List.mem_filterMap
  rw [hmem]
  constructor
  · rintro ⟨connID, hid, hd⟩
    obtain ⟨hdT, rfl⟩ := (hs.conns connID d).mp hd
    obtain ⟨a, ha, haid, rfl⟩ := (hs.users u _).mp hid
    rw [hunique a ha d hdT haid]
    exact ⟨hdT, rfl⟩
  · rintro ⟨hd, rfl⟩
    exact ⟨d.connID, (hs.users _ _).mpr ⟨d, hd, rfl, rfl⟩, (hs.conns _ _).mpr ⟨hd, rfl⟩⟩

theorem Holds.connID_of_lookup (hs : s.Holds T) {connID : String}
    (h : s.conns.lookup connID = some d) : d.connID = connID :=
  ((hs.conns connID d).mp h).2

theorem Holds.nodup_userConns (hs : s.Holds T) (u : Int) : (s.userConns u).Nodup := by
  unfold userConns
  split
  · exact List.nodup_nil
  · rename_i ids _
    exact nodup_filterMap_lookup ids.keys_nodup fun _ _ h => hs.connID_of_lookup h

theorem Holds.mem_conns (hs : s.Holds T) : d ∈ values s.conns ↔ d ∈ T := by
  rw [mem_values]
  constructor
  · exact fun ⟨_, h⟩ => ((hs.conns _ d).mp h).1
  · exact fun h => ⟨d.connID, (hs.conns _ d).mpr ⟨h, rfl⟩⟩

theorem Holds.nodup_conns (hs : s.Holds T) : (values s.conns).Nodup :=
  nodup_values fun _ _ h => hs.connID_of_lookup h

theorem Holds.mem_users (hs : s.Holds T) : u ∈ s.users.keys ↔ ∃ d ∈ T, d.userID = u := by
  rw [← mem_keys, ← lookup_isSome]
  constructor
  · intro h
    obtain ⟨ids, hids⟩ := isSome_iff_exists.mp h
    obtain ⟨connID, rest, hkeys⟩ := List.exists_cons_of_ne_nil (hs.nonempty u ids hids)
    have hmem : connID ∈ (s.users.lookup u).getD ∅ := by
      rw [hids, getD_some, mem_keys, hkeys]
      exact List.mem_cons_self
    obtain ⟨d, hd, -, hu⟩ := (hs.users u connID).mp hmem
    exact ⟨d, hd, hu⟩
  · rintro ⟨d, hd, rfl⟩
    have hmem := (hs.users d.userID d.connID).mpr ⟨d, hd, rfl, rfl⟩
    cases hlookup : s.users.lookup d.userID with
    | none =>
      rw [hlookup] at hmem
      exact absurd hmem (notMem_empty _)
    | some ids => rfl

end ConnShard

/-! ## All shards -/

def inShard (S : Set ConnRef) (i : Fin shardCount) : Set ConnRef :=
  {c | c ∈ S ∧ getShard c.userID = i}

/-- A set of connections of authenticated users, no two of them with the same id. -/
structure DistinctConns (S : Set ConnRef) : Prop where
  authed : ∀ c ∈ S, c.userID ≠ 0
  unique : ∀ c ∈ S, ∀ d ∈ S, c.connID = d.connID → c = d

namespace ShardedManager

variable {m : ShardedManager} {S : Set ConnRef} {c : ConnRef}

/-- The shards hold a set of connections, each its part. -/
def Holds (m : ShardedManager) (S : Set ConnRef) : Prop :=
  ∀ i, (m.shards i).Holds (inShard S i)

theorem holds_empty : Holds {} ∅ := by
  intro i
  have hnone : inShard ∅ i = ∅ := Set.eq_empty_of_forall_notMem fun c hc => hc.1
  rw [hnone]
  exact ConnShard.Holds.empty

theorem Holds.setShard (hm : m.Holds S) {S' : Set ConnRef} {i : Fin shardCount} {s : ConnShard}
    (hs : s.Holds (inShard S' i)) (hother : ∀ j, j ≠ i → inShard S' j = inShard S j) :
    (m.setShard i s).Holds S' := by
  intro j
  unfold ShardedManager.setShard
  dsimp only
  by_cases h : j = i
  · subst h
    rwa [Function.update_self]
  · rw [Function.update_of_ne h, hother j h]
    exact hm j

theorem Holds.add (hm : m.Holds S) (hzero : c.userID ≠ 0)
    (hc : ∀ d ∈ S, d.connID = c.connID → d = c) : (m.add c).2.Holds (insert c S) := by
  rw [ShardedManager.add, if_neg hzero]
  refine hm.setShard ?_ ?_
  · have hpart : inShard (insert c S) (getShard c.userID) =
        insert c (inShard S (getShard c.userID)) := by
      ext d
      constructor
      · rintro ⟨rfl | hd, hshard⟩
        · exact .inl rfl
        · exact .inr ⟨hd, hshard⟩
      · rintro (rfl | ⟨hd, hshard⟩)
        · exact ⟨.inl rfl, rfl⟩
        · exact ⟨.inr hd, hshard⟩
    rw [hpart]
    exact (hm _).add fun d hd => hc d hd.1
  · intro j hj
    ext d
    constructor
    · rintro ⟨rfl | hd, hshard⟩
      · exact absurd hshard.symm hj
      · exact ⟨hd, hshard⟩
    · exact fun ⟨hd, hshard⟩ => ⟨.inr hd, hshard⟩

theorem Holds.remove (hm : m.Holds S) (hauthed : ∀ d ∈ S, d.userID ≠ 0)
    (hc : ∀ d ∈ S, d.connID = c.connID → d = c) : (m.remove c).Holds (S \ {c}) := by
  refine hm.setShard ?_ ?_
  · have hpart : inShard (S \ {c}) (getShard c.userID) =
        inShard S (getShard c.userID) \ {c} := by
      ext d
      exact ⟨fun ⟨⟨hd, hne⟩, hshard⟩ => ⟨⟨hd, hshard⟩, hne⟩,
        fun ⟨⟨hd, hshard⟩, hne⟩ => ⟨⟨hd, hne⟩, hshard⟩⟩
    rw [hpart]
    exact (hm _).remove (fun d hd => hc d hd.1) fun d hd => hauthed d hd.1
  · intro j hj
    ext d
    constructor
    · exact fun ⟨hd, hshard⟩ => ⟨hd.1, hshard⟩
    · rintro ⟨hd, hshard⟩
      refine ⟨⟨hd, ?_⟩, hshard⟩
      rintro rfl
      exact hj hshard.symm

/-! ### Queries -/

variable {d : ConnRef}

theorem Holds.mem_getAll (hm : m.Holds S) (hS : DistinctConns S) {u : Int} :
    d ∈ m.getAll u ↔ d ∈ S ∧ d.userID = u := by
  rw [getAll, (hm _).mem_userConns fun a ha b hb => hS.unique a ha.1 b hb.1]
  constructor
  · exact fun ⟨hd, hu⟩ => ⟨hd.1, hu⟩
  · rintro ⟨hd, rfl⟩
    exact ⟨⟨hd, rfl⟩, rfl⟩

theorem Holds.nodup_getAll (hm : m.Holds S) (u : Int) : (m.getAll u).Nodup :=
  (hm _).nodup_userConns u

theorem Holds.mem_replaced (hm : m.Holds S) (hS : DistinctConns S)
    (hc : ∀ d ∈ S, d.connID = c.connID → d = c) :
    d ∈ (m.add c).1 ↔
      d ∈ S ∧ d.userID = c.userID ∧ d.deviceID = c.deviceID ∧ d ≠ c := by
  by_cases hzero : c.userID = 0
  · rw [ShardedManager.add, if_pos hzero]
    refine iff_of_false List.not_mem_nil ?_
    rintro ⟨hd, hu, -⟩
    exact hS.authed d hd (hu.trans hzero)
  · have hall : d ∈ (m.shards (getShard c.userID)).userConns c.userID ↔
        d ∈ S ∧ d.userID = c.userID := hm.mem_getAll hS
    rw [ShardedManager.add, if_neg hzero, List.mem_filter, hall, decide_eq_true_eq]
    constructor
    · rintro ⟨⟨hd, hu⟩, hdev, hne⟩
      refine ⟨hd, hu, hdev, ?_⟩
      rintro rfl
      exact hne rfl
    · rintro ⟨hd, hu, hdev, hne⟩
      exact ⟨⟨hd, hu⟩, hdev, fun hid => hne (hc d hd hid)⟩

theorem Holds.nodup_replaced (hm : m.Holds S) : (m.add c).1.Nodup := by
  unfold ShardedManager.add
  split
  · exact List.nodup_nil
  · exact ((hm _).nodup_userConns _).filter _

theorem Holds.mem_conns (hm : m.Holds S) : d ∈ m.conns ↔ d ∈ S := by
  rw [conns, mem_all_iff fun c : ConnRef => getShard c.userID, (hm _).mem_conns]
  · exact ⟨fun hd => hd.1, fun hd => ⟨hd, rfl⟩⟩
  · exact fun i a ha => ((hm i).mem_conns.mp ha).2

theorem Holds.nodup_conns (hm : m.Holds S) : m.conns.Nodup :=
  nodup_all (fun c => getShard c.userID)
    (fun i _ ha => ((hm i).mem_conns.mp ha).2) fun i => (hm i).nodup_conns

theorem visits_true (cs : List ConnRef) : visits (fun _ => true) cs = cs := by
  induction cs with
  | nil => rfl
  | cons c cs ih => rw [visits, if_pos rfl, ih]

theorem Holds.count (hm : m.Holds S) : m.count = S.ncard := by
  have hlength : m.count = m.conns.length := by
    rw [ShardedManager.count, conns, length_all]
    simp only [length_values]
  rw [hlength, length_eq_ncard hm.nodup_conns fun d => hm.mem_conns]

theorem Holds.userCount (hm : m.Holds S) : m.userCount = (ConnRef.userID '' S).ncard := by
  have hhome : ∀ i, ∀ u ∈ (m.shards i).users.keys, getShard u = i := by
    intro i u hu
    obtain ⟨d, hd, rfl⟩ := (hm i).mem_users.mp hu
    exact hd.2
  have hlength : m.userCount = (all fun i => (m.shards i).users.keys).length := by
    rw [ShardedManager.userCount, length_all]
  rw [hlength, length_eq_ncard]
  · exact nodup_all getShard hhome fun i => (m.shards i).users.keys_nodup
  · intro u
    rw [mem_all_iff getShard hhome, (hm _).mem_users]
    constructor
    · exact fun ⟨d, hd, hu⟩ => ⟨d, hd.1, hu⟩
    · rintro ⟨d, hd, rfl⟩
      exact ⟨d, ⟨hd, rfl⟩, rfl⟩

theorem Holds.getByConnID (hm : m.Holds S) {connID : String} :
    m.getByConnID connID = some d ↔
      d ∈ S ∧ d.connID = connID ∧ getShard d.userID = getShardByConnID connID := by
  rw [ShardedManager.getByConnID, (hm _).conns]
  exact ⟨fun ⟨hd, hid⟩ => ⟨hd.1, hid, hd.2⟩, fun ⟨hd, hid, hshard⟩ => ⟨⟨hd, hshard⟩, hid⟩⟩

end ShardedManager

end NonokaIM
