import Mathlib.Data.List.AList
import Mathlib.Data.List.Flatten

/-! A buffer with a list of entries for each key, taken as a whole in some order of the keys. -/

namespace KeyedBuffer

open List Prod

variable {κ α : Type*} [DecidableEq κ]

abbrev Buffer (κ α : Type*) := AList (fun _ : κ => List α)

/-- The entries of a key. -/
def get (b : Buffer κ α) (k : κ) : List α := (b.lookup k).getD []

/-- Append an entry to those of its key. -/
def add (b : Buffer κ α) (k : κ) (x : α) : Buffer κ α := b.insert k (get b k ++ [x])

/-- The entries of some keys, with their keys. -/
def listed (order : List κ) (b : Buffer κ α) : List (κ × α) :=
  order.flatMap fun k => (get b k).map (mk k)

/-- All entries, in some order of the keys. -/
def items (b : Buffer κ α) : List (κ × α) := listed b.keys b

/-- The number of entries. -/
def size (b : Buffer κ α) : ℕ := b.entries.foldl (fun count e => count + e.2.length) 0

section

variable (b : Buffer κ α) (k : κ) (x : α)

@[simp] theorem get_empty : get (∅ : Buffer κ α) k = [] := rfl

@[simp] theorem get_add_self : get (add b k x) k = get b k ++ [x] := by
  simp [get, add]

variable {k}

theorem get_add_of_ne {k' : κ} (h : k' ≠ k) : get (add b k x) k' = get b k' := by
  simp [get, add, AList.lookup_insert_ne h]

theorem get_of_notMem (h : k ∉ b.keys) : get b k = [] := by
  rw [get, AList.lookup_eq_none.mpr (by rwa [AList.mem_keys])]
  rfl

end

section

variable {b : Buffer κ α}

@[simp] theorem items_empty : items (∅ : Buffer κ α) = [] := rfl

variable {order : List κ}

theorem listed_congr {b' : Buffer κ α} (h : ∀ k ∈ order, get b k = get b' k) :
    listed order b = listed order b' := by
  induction order with
  | nil => rfl
  | cons k order ih =>
    rw [listed, flatMap_cons, h k mem_cons_self]
    exact congrArg _ (ih fun k' hk' => h k' (mem_cons_of_mem _ hk'))

theorem listed_perm_items (h : order.Perm b.keys) : (listed order b).Perm (items b) :=
  h.flatMap_right _

theorem filter_listed (h : order.Nodup) (k : κ) :
    (listed order b).filter (fun x => x.1 = k) =
      if k ∈ order then (get b k).map (mk k) else [] := by
  induction order with
  | nil => rfl
  | cons k' order ih =>
    have hcons : listed (k' :: order) b = (get b k').map (mk k') ++ listed order b :=
      flatMap_cons
    have hnodup := nodup_cons.mp h
    rw [hcons, filter_append, ih hnodup.2]
    by_cases hk : k' = k
    · subst hk
      have hself : ((get b k').map (mk k')).filter (fun x => x.1 = k') =
          (get b k').map (mk k') := by
        apply filter_eq_self.mpr
        simp
      rw [hself, if_neg hnodup.1, if_pos mem_cons_self, append_nil]
    · have hother : ((get b k').map (mk k')).filter (fun x => x.1 = k) = [] := by
        apply filter_eq_nil_iff.mpr
        simp [hk]
      rw [hother, nil_append]
      simp [Ne.symm hk]

theorem filter_listed_keys (h : order.Perm b.keys) (k : κ) :
    (listed order b).filter (fun x => x.1 = k) = (get b k).map (mk k) := by
  rw [filter_listed (h.nodup_iff.mpr b.keys_nodup)]
  split
  · rfl
  · rename_i hnot
    rw [get_of_notMem b (fun hk => hnot (h.mem_iff.mpr hk)), map_nil]

theorem items_perm (b : Buffer κ α) (k : κ) :
    (items b).Perm ((get b k).map (mk k) ++ listed (b.keys.erase k) b) := by
  by_cases hk : k ∈ b.keys
  · exact (perm_cons_erase hk).flatMap_right _
  · rw [get_of_notMem b hk, erase_of_not_mem hk]
    exact List.Perm.refl _

theorem items_add_perm (b : Buffer κ α) (k : κ) (x : α) :
    (items (add b k x)).Perm ((k, x) :: items b) := by
  have hkeys : (add b k x).keys = k :: b.keys.erase k := AList.keys_insert b
  have hrest : listed (b.keys.erase k) (add b k x) = listed (b.keys.erase k) b := by
    apply listed_congr
    intro k' hk'
    apply get_add_of_ne
    rintro rfl
    exact (b.keys_nodup.mem_erase_iff.mp hk').1 rfl
  have hnew : items (add b k x) =
      (get b k).map (mk k) ++ (k, x) :: listed (b.keys.erase k) b := by
    rw [items, hkeys, listed, flatMap_cons, get_add_self, map_append, append_assoc]
    exact congrArg _ (congrArg _ hrest)
  rw [hnew]
  exact perm_middle.trans ((items_perm b k).symm.cons _)

end

/-! ## Lots

The log of all added entries is spread over lots: the buffer and what was taken from it. -/

/-- The entries of each key are in the order of the log. -/
def InOrder (log lot : List (κ × α)) : Prop := ∀ k, (lot.filter fun x => x.1 = k).Sublist log

/-- The lots together are the log, and each of them is in order. -/
structure Accounts (log : List (κ × α)) (lots : List (List (κ × α))) : Prop where
  complete : lots.flatten.Perm log
  ordered : ∀ lot ∈ lots, InOrder log lot

section

variable {log lot : List (κ × α)} {lots lots' : List (List (κ × α))} {b : Buffer κ α}

theorem inOrder_nil (log : List (κ × α)) : InOrder log [] := fun _ => nil_sublist _

theorem InOrder.snoc (h : InOrder log lot) (x : κ × α) : InOrder (log ++ [x]) lot :=
  fun k => (h k).trans (sublist_append_left _ _)

variable {order : List κ}

theorem inOrder_listed_iff (h : order.Perm b.keys) :
    InOrder log (listed order b) ↔ ∀ k, ((get b k).map (mk k)).Sublist log := by
  simp only [InOrder, filter_listed_keys h]

theorem InOrder.listed (h : InOrder log (items b)) (horder : order.Perm b.keys) :
    InOrder log (listed order b) :=
  (inOrder_listed_iff horder).mpr ((inOrder_listed_iff (List.Perm.refl _)).mp h)

theorem InOrder.add (h : InOrder log (items b)) (k : κ) (x : α) :
    InOrder (log ++ [(k, x)]) (items (add b k x)) := by
  have hold := (inOrder_listed_iff (List.Perm.refl _)).mp h
  apply (inOrder_listed_iff (List.Perm.refl _)).mpr
  intro k'
  by_cases hk : k' = k
  · subst hk
    rw [get_add_self, map_append]
    exact (hold k').append (List.Sublist.refl _)
  · rw [get_add_of_ne b x hk]
    exact (hold k').trans (sublist_append_left _ _)

theorem Accounts.perm (h : Accounts log lots) (hperm : lots.Perm lots') : Accounts log lots' :=
  ⟨hperm.symm.flatten.trans h.complete, fun lot hlot => h.ordered lot (hperm.mem_iff.mpr hlot)⟩

theorem accounts_nil_cons : Accounts log ([] :: lots) ↔ Accounts log lots := by
  constructor
  · intro h
    exact ⟨h.complete, fun lot hlot => h.ordered lot (mem_cons_of_mem _ hlot)⟩
  · intro h
    refine ⟨h.complete, ?_⟩
    intro lot hlot
    rcases mem_cons.mp hlot with rfl | hlot
    · exact inOrder_nil log
    · exact h.ordered lot hlot

theorem Accounts.take (h : Accounts log (items b :: lots)) (horder : order.Perm b.keys) :
    Accounts log (listed order b :: lots) := by
  refine ⟨((listed_perm_items horder).append_right _).trans h.complete, ?_⟩
  intro lot hlot
  rcases mem_cons.mp hlot with rfl | hlot
  · exact (h.ordered _ mem_cons_self).listed horder
  · exact h.ordered lot (mem_cons_of_mem _ hlot)

theorem Accounts.add (h : Accounts log (items b :: lots)) (k : κ) (x : α) :
    Accounts (log ++ [(k, x)]) (items (add b k x) :: lots) := by
  refine ⟨?_, ?_⟩
  · have hnew := ((items_add_perm b k x).append_right lots.flatten).trans (h.complete.cons (k, x))
    exact hnew.trans (perm_append_singleton _ _).symm
  · intro lot hlot
    rcases mem_cons.mp hlot with rfl | hlot
    · exact (h.ordered _ mem_cons_self).add k x
    · exact (h.ordered lot (mem_cons_of_mem _ hlot)).snoc _

theorem Accounts.exists_unique_lot [DecidableEq α] (h : Accounts log lots) (hnodup : log.Nodup)
    {x : κ × α} (hx : x ∈ log) :
    ∃ (i : ℕ) (lot : List (κ × α)), lots[i]? = some lot ∧ lot.count x = 1 ∧
      ∀ (j : ℕ) lot', lots[j]? = some lot' → x ∈ lot' → j = i := by
  have hflat := nodup_flatten.mp (h.complete.nodup_iff.mpr hnodup)
  obtain ⟨lot, hlot, hmem⟩ := mem_flatten.mp (h.complete.mem_iff.mpr hx)
  obtain ⟨i, hi⟩ := mem_iff_getElem?.mp hlot
  refine ⟨i, lot, hi, count_eq_one_of_mem (hflat.1 lot hlot) hmem, ?_⟩
  intro j lot' hj hmem'
  by_contra hne
  obtain ⟨hilt, hieq⟩ := List.getElem?_eq_some_iff.mp hi
  obtain ⟨hjlt, hjeq⟩ := List.getElem?_eq_some_iff.mp hj
  subst hieq hjeq
  rcases Nat.lt_or_gt_of_ne hne with hlt | hlt
  · exact pairwise_iff_getElem.mp hflat.2 j i hjlt hilt hlt hmem' hmem
  · exact pairwise_iff_getElem.mp hflat.2 i j hilt hjlt hlt hmem hmem'

end

end KeyedBuffer
