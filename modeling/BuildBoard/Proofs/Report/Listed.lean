import BuildBoard.Proofs.Report.Refusal

/-!
# The builds that a history lists

A history document lists a build by an object under the build's name. The reserved key points to a
build and lists none.

Results:
1. `builds_ascend`: the builds of a history are in the order of their names, each once.
2. `lookup_builds`, `mem_builds_iff`: they are the ones that the document lists.
-/

namespace BuildBoard

namespace HistoryReport

/-- The summary that a document with these fields lists a build with. -/
def listed? (fields : List (String × Document)) (name : String) : Option BuildSummary :=
  if name = latestKey then none
  else
    match fields.lookup "builds" with
    | some (.object builds) =>
      match builds.lookup name with
      | some (.object summary) => BuildSummary.decode? (.object summary)
      | _ => none
    | _ => none

/-! ## One list of builds -/

variable {builds : List (String × Document)} {name : String}

/-- What is decoded keeps its name. -/
theorem fst_of_buildOf {entry : String × Document} {build : String × BuildSummary}
    (h : buildOf entry = some build) : build.1 = entry.1 := by
  unfold buildOf at h
  split at h
  · split at h
    · cases h
    · obtain ⟨summary, -, rfl⟩ := Option.map_eq_some_iff.mp h
      rfl
  · cases h

theorem names_filterMap_sublist (builds : List (String × Document)) :
    ((builds.filterMap buildOf).map Prod.fst).Sublist (builds.map Prod.fst) := by
  induction builds with
  | nil => exact .slnil
  | cons entry rest ih =>
    cases hentry : buildOf entry with
    | none =>
      rw [List.filterMap_cons_none hentry]
      exact ih.cons _
    | some build =>
      rw [List.filterMap_cons_some hentry, List.map_cons, List.map_cons, fst_of_buildOf hentry]
      exact ih.cons_cons _

theorem lookup_eq_none_of_notMem {β : Type} {l : List (String × β)} (h : name ∉ l.map Prod.fst) :
    l.lookup name = none := by
  rw [List.lookup_eq_none_iff]
  intro p hp
  exact bne_iff_ne.mpr fun heq => h (heq ▸ List.mem_map_of_mem hp)

/-- Where names are distinct, decoding and looking up may change places. -/
theorem lookup_filterMap (h : (builds.map Prod.fst).Nodup) (name : String) :
    (builds.filterMap buildOf).lookup name =
      (builds.lookup name).bind fun d => (buildOf (name, d)).map Prod.snd := by
  induction builds with
  | nil => rfl
  | cons entry rest ih =>
    obtain ⟨key, d⟩ := entry
    obtain ⟨hkey, hrest⟩ := List.nodup_cons.mp h
    by_cases heq : name = key
    · subst heq
      rw [List.lookup_cons_self, Option.bind_some]
      have hnone : (rest.filterMap buildOf).lookup name = none :=
        lookup_eq_none_of_notMem fun hmem => hkey ((names_filterMap_sublist rest).subset hmem)
      cases hentry : buildOf (name, d) with
      | none => rw [List.filterMap_cons_none hentry, hnone]; rfl
      | some build =>
        obtain ⟨key, summary⟩ := build
        obtain rfl : key = name := fst_of_buildOf hentry
        rw [List.filterMap_cons_some hentry, List.lookup_cons_self, Option.map_some]
    · have hbeq : (name == key) = false := beq_false_of_ne heq
      rw [List.lookup_cons, hbeq, ← ih hrest]
      cases hentry : buildOf (key, d) with
      | none => rw [List.filterMap_cons_none hentry]
      | some build =>
        have hne : (name == build.1) = false := fst_of_buildOf hentry ▸ hbeq
        rw [List.filterMap_cons_some hentry, List.lookup_cons, hne]

theorem mem_iff_lookup_of_nodup {β : Type} {l : List (String × β)} (h : (l.map Prod.fst).Nodup)
    {b : β} : (name, b) ∈ l ↔ l.lookup name = some b := by
  constructor
  · intro hmem
    obtain ⟨before, after, rfl⟩ := List.append_of_mem hmem
    refine List.lookup_eq_some_iff.mpr ⟨before, after, rfl, fun p hp => ?_⟩
    rw [List.map_append, List.nodup_append] at h
    exact bne_iff_ne.mpr (Ne.symm
      (h.2.2 _ (List.mem_map_of_mem hp) _ (List.mem_map_of_mem List.mem_cons_self)))
  · intro hlookup
    obtain ⟨before, after, rfl, -⟩ := List.lookup_eq_some_iff.mp hlookup
    exact List.mem_append_right _ List.mem_cons_self

/-! ## The builds of a document -/

variable {fields : List (String × Document)}

theorem builds_ascend (h : (Document.object fields).Ordered) :
    ((decode fields).builds.map Prod.fst).Pairwise (· < ·) := by
  unfold decode
  dsimp only
  split
  · next builds hbuilds =>
    exact (Report.namesAscend_of_lookup h hbuilds).sublist (names_filterMap_sublist builds)
  · exact .nil

theorem nodup_builds (h : (Document.object fields).Ordered) :
    ((decode fields).builds.map Prod.fst).Nodup :=
  (builds_ascend h).imp fun hlt => ne_of_lt hlt

theorem snd_buildOf (name : String) (d : Document) :
    (buildOf (name, d)).map Prod.snd =
      if name = latestKey then none
      else
        match d with
        | .object summary => BuildSummary.decode? (.object summary)
        | _ => none := by
  unfold buildOf
  cases d with
  | object summary =>
    by_cases hkey : name = latestKey
    · simp only [hkey, if_true, Option.map_none]
    · simp only [hkey, if_false, Option.map_map]
      exact Option.map_id'
  | _ => simp

/-- A history has exactly the builds that its document lists. -/
theorem lookup_builds (h : (Document.object fields).Ordered) (name : String) :
    (decode fields).builds.lookup name = listed? fields name := by
  unfold decode listed?
  dsimp only
  cases hlist : fields.lookup "builds" with
  | none => exact (ite_self none).symm
  | some d =>
    cases d with
    | object builds =>
      have hnodup := (Report.namesAscend_of_lookup h hlist).imp fun hlt => ne_of_lt hlt
      dsimp only
      rw [lookup_filterMap hnodup]
      cases builds.lookup name with
      | none => exact (ite_self none).symm
      | some d =>
        rw [Option.bind_some, snd_buildOf]
        cases d <;> rfl
    | _ => exact (ite_self none).symm

theorem mem_builds_iff (h : (Document.object fields).Ordered) (name : String)
    (summary : BuildSummary) :
    (name, summary) ∈ (decode fields).builds ↔ listed? fields name = some summary := by
  rw [mem_iff_lookup_of_nodup (nodup_builds h), lookup_builds h]

/-- A document that is taken for a history is decoded as one. -/
theorem exists_of_ofDocument {doc : Document} {r : HistoryReport}
    (h : Report.ofDocument doc = .ok (.history r)) :
    ∃ fields, doc = .object fields ∧ decode fields = r := by
  unfold Report.ofDocument at h
  split at h
  · next fields =>
    refine ⟨fields, rfl, ?_⟩
    split at h
    · cases h
    · split at h
      · cases h
      · cases hdecode : BuildReport.decode fields <;> rw [hdecode] at h <;> cases h
    · exact Report.history.inj (Except.ok.inj h)
    · cases h
  · cases h

end HistoryReport

end BuildBoard
