import BuildBoard.Page.History
import BuildBoard.Proofs.Report.Listed
import BuildBoard.Proofs.Table.Distinct

/-!
# The page of a history and its documents

The page of a history keeps the builds of every document it was given. Nothing of it depends on how
it was updated: all rows, their order, their highlights and the panel can be told from the documents.
A build that a document does not list any more stays as the last one listed it, and one that comes
back is compared with that.

Results:
1. `lastOf_rowsOf`: the rows of one report are those that its document lists.
2. `Follows.update`: rows, order and panel after one document more.
3. `Follows.highlight_update`: what that document changed and added.
4. `page_of_documents`: the page after any documents.
-/

namespace BuildBoard

namespace HistoryPage

/-! ## Definitions -/

/-- The page that was given the documents with these fields. -/
def after (docs : List (List (String × Document))) : HistoryPage :=
  docs.foldl (fun p fields => p.update (HistoryReport.decode fields)) new

/-- The row of a build that a document lists. -/
def listedRow? (fields : List (String × Document)) (name : String) : Option BuildRow :=
  (HistoryReport.listed? fields name).map fun summary =>
    BuildRow.ofSummary (Document.textOr (fields.lookup "mastername")) (name, summary)

/-- The panel of a document whose latest build is one that it lists. -/
def listedPanel? (fields : List (String × Document)) : Option LatestInfo := do
  let name ← (HistoryReport.decode fields).latest
  let latest ← HistoryReport.listed? fields name
  LatestInfo.ofSummary (Document.textOr (fields.lookup "mastername")) latest

section

variable (docs : List (List (String × Document)))

/-- The row of a build in the last document that lists it. -/
def lastRow? (name : String) : Option BuildRow := docs.reverse.findSome? (listedRow? · name)

/-- The panel of the last document that has one. -/
def lastPanel? : Option LatestInfo := docs.reverse.findSome? listedPanel?

/-- The position of the first document that lists a build. -/
def firstListed (name : String) : Nat :=
  docs.findIdx fun fields => (HistoryReport.listed? fields name).isSome

/-- A build was listed by an earlier document than another, or by the same one under a lesser
name. -/
def ListedBefore (a b : String) : Prop :=
  firstListed docs a < firstListed docs b ∨ firstListed docs a = firstListed docs b ∧ a < b

end

/-- Rows, their order and the panel of a page are those of these documents. -/
structure Follows (p : HistoryPage) (docs : List (List (String × Document))) : Prop where
  indexed : p.builds.Indexed
  nodup : p.builds.ids.Nodup
  row : ∀ name, p.builds.row? name = lastRow? docs name
  order : p.builds.ids.Pairwise (ListedBefore docs)
  latest : p.latest = lastPanel? docs

/-! ## One document -/

variable {docs : List (List (String × Document))} {fields : List (String × Document)}

theorem ids_rowsOf (r : HistoryReport) : (rowsOf r).map Keyed.id = r.builds.map Prod.fst := by
  rw [rowsOf, List.map_map]
  rfl

theorem ids_ascend (h : (Document.object fields).Ordered) :
    ((rowsOf (HistoryReport.decode fields)).map Keyed.id).Pairwise (· < ·) :=
  ids_rowsOf _ ▸ HistoryReport.builds_ascend h

theorem nodup_ids_rowsOf (h : (Document.object fields).Ordered) :
    ((rowsOf (HistoryReport.decode fields)).map Keyed.id).Nodup :=
  (ids_ascend h).imp fun hlt => ne_of_lt hlt

theorem mem_rowsOf_iff (h : (Document.object fields).Ordered) (row : BuildRow) :
    row ∈ rowsOf (HistoryReport.decode fields) ↔ listedRow? fields row.buildname = some row := by
  rw [rowsOf, List.mem_map, listedRow?, Option.map_eq_some_iff]
  constructor
  · rintro ⟨⟨name, summary⟩, hmem, rfl⟩
    exact ⟨summary, (HistoryReport.mem_builds_iff h name summary).mp hmem, rfl⟩
  · rintro ⟨summary, hlisted, hrow⟩
    exact ⟨_, (HistoryReport.mem_builds_iff h row.buildname summary).mpr hlisted, hrow⟩

theorem buildname_of_listedRow? {name : String} {row : BuildRow}
    (h : listedRow? fields name = some row) : row.buildname = name := by
  obtain ⟨summary, -, rfl⟩ := Option.map_eq_some_iff.mp h
  rfl

/-- The rows of a report are those that its document lists. -/
theorem lastOf_rowsOf (h : (Document.object fields).Ordered) (name : String) :
    KeyedTable.lastOf name (rowsOf (HistoryReport.decode fields)) = listedRow? fields name := by
  cases hrow : listedRow? fields name with
  | none =>
    refine (KeyedTable.lastOf_eq_none_iff _ _).mpr fun row hmem hid => ?_
    rw [mem_rowsOf_iff h, show row.buildname = name from hid, hrow] at hmem
    cases hmem
  | some row =>
    obtain rfl := buildname_of_listedRow? hrow
    exact KeyedTable.lastOf_of_mem (nodup_ids_rowsOf h) ((mem_rowsOf_iff h row).mpr hrow)

theorem isSome_listedRow? (fields : List (String × Document)) (name : String) :
    (listedRow? fields name).isSome = (HistoryReport.listed? fields name).isSome :=
  Option.isSome_map

theorem mem_ids_rowsOf_iff (h : (Document.object fields).Ordered) (name : String) :
    name ∈ (rowsOf (HistoryReport.decode fields)).map Keyed.id ↔
      (HistoryReport.listed? fields name).isSome := by
  rw [← isSome_listedRow?, ← lastOf_rowsOf h, ← not_iff_not, Option.not_isSome_iff_eq_none,
    KeyedTable.lastOf_eq_none_iff, List.mem_map]
  simp only [not_exists, not_and]

/-- A report has a latest build if its document has a panel. -/
theorem map_latestSummary? (h : (Document.object fields).Ordered) :
    (HistoryReport.decode fields).latestSummary?.map
      (LatestInfo.ofSummary (HistoryReport.decode fields).mastername) = listedPanel? fields := by
  unfold HistoryReport.latestSummary? listedPanel?
  cases (HistoryReport.decode fields).latest with
  | none => rfl
  | some name =>
    rw [Option.bind_some, HistoryReport.lookup_builds h, Option.map_eq_bind]
    rfl

theorem latest_update (h : (Document.object fields).Ordered) (p : HistoryPage) :
    (p.update (HistoryReport.decode fields)).latest = (listedPanel? fields).or p.latest := by
  rw [← map_latestSummary? h]
  unfold HistoryPage.update
  cases (HistoryReport.decode fields).latestSummary? <;> rfl

/-! ## One document more -/

/-- What is searched from the end is found in the last element first. -/
theorem findSome?_reverse_concat {α β : Type} (f : α → Option β) (l : List α) (a : α) :
    (l ++ [a]).reverse.findSome? f = (f a).or (l.reverse.findSome? f) := by
  rw [List.reverse_append, List.findSome?_append, List.reverse_singleton,
    List.findSome?_singleton]

theorem lastRow?_concat (docs : List (List (String × Document)))
    (fields : List (String × Document)) (name : String) :
    lastRow? (docs ++ [fields]) name = (listedRow? fields name).or (lastRow? docs name) :=
  findSome?_reverse_concat _ docs fields

theorem lastPanel?_concat (docs : List (List (String × Document)))
    (fields : List (String × Document)) :
    lastPanel? (docs ++ [fields]) = (listedPanel? fields).or (lastPanel? docs) :=
  findSome?_reverse_concat _ docs fields

theorem lastRow?_isSome_iff (docs : List (List (String × Document))) (name : String) :
    (lastRow? docs name).isSome ↔ ∃ fields ∈ docs, (HistoryReport.listed? fields name).isSome := by
  simp only [lastRow?, List.findSome?_isSome_iff, List.mem_reverse, isSome_listedRow?]

theorem firstListed_lt_iff (docs : List (List (String × Document))) (name : String) :
    firstListed docs name < docs.length ↔ (lastRow? docs name).isSome := by
  rw [firstListed, List.findIdx_lt_length, lastRow?_isSome_iff]

/-- A later document does not change which one listed a build first. -/
theorem firstListed_concat_of_listed (fields : List (String × Document)) {name : String}
    (h : (lastRow? docs name).isSome) :
    firstListed (docs ++ [fields]) name = firstListed docs name := by
  have hlt := (firstListed_lt_iff docs name).mpr h
  rw [firstListed, List.findIdx_append]
  exact if_pos hlt

theorem firstListed_concat_of_new {name : String} (hnew : lastRow? docs name = none)
    (h : (HistoryReport.listed? fields name).isSome) :
    firstListed (docs ++ [fields]) name = docs.length := by
  have hge : ¬ firstListed docs name < docs.length := by
    rw [firstListed_lt_iff, hnew]
    exact Bool.false_ne_true
  rw [firstListed, List.findIdx_append]
  rw [firstListed] at hge
  rw [if_neg hge, List.findIdx_cons, h, cond_true, Nat.zero_add]

namespace Follows

variable {p : HistoryPage}

theorem mem_ids_iff (h : p.Follows docs) (name : String) :
    name ∈ p.builds.ids ↔ (lastRow? docs name).isSome := by
  rw [← h.row, ← not_iff_not, ← h.indexed.row?_eq_none_iff_notMem, Option.not_isSome_iff_eq_none]

/-- Builds that are new come behind the others, in the order of their names. -/
theorem order_update (h : p.Follows docs) (hfields : (Document.object fields).Ordered) :
    (p.update (HistoryReport.decode fields)).builds.ids.Pairwise (ListedBefore (docs ++ [fields])) := by
  have hfirst : ∀ {name}, name ∈ p.builds.ids →
      firstListed (docs ++ [fields]) name = firstListed docs name := fun hname =>
    firstListed_concat_of_listed fields ((h.mem_ids_iff _).mp hname)
  have hnew : ∀ {name}, name ∈ ((rowsOf (HistoryReport.decode fields)).map Keyed.id).filter
      (fun id => decide (id ∉ p.builds.ids)) →
      firstListed (docs ++ [fields]) name = docs.length := by
    intro name hname
    obtain ⟨hlisted, hnotMem⟩ := List.mem_filter.mp hname
    refine firstListed_concat_of_new ?_ ((mem_ids_rowsOf_iff hfields name).mp hlisted)
    rw [← h.row, h.indexed.row?_eq_none_iff_notMem]
    exact of_decide_eq_true hnotMem
  show (p.builds.update _).ids.Pairwise _
  rw [h.indexed.ids_update, List.pairwise_append]
  refine ⟨?_, ?_, ?_⟩
  · refine h.order.imp_of_mem fun {a b} ha hb hbefore => ?_
    rwa [ListedBefore, hfirst ha, hfirst hb]
  · refine ((ids_ascend hfields).filter _).imp_of_mem fun {a b} ha hb hlt => ?_
    exact .inr ⟨(hnew ha).trans (hnew hb).symm, hlt⟩
  · intro a ha b hb
    left
    rw [hfirst ha, hnew hb, firstListed_lt_iff]
    exact (h.mem_ids_iff a).mp ha

theorem update (h : p.Follows docs) (hfields : (Document.object fields).Ordered) :
    (p.update (HistoryReport.decode fields)).Follows (docs ++ [fields]) where
  indexed := h.indexed.update _
  nodup :=
    (h.indexed.nodup_ids_update_iff _).mpr ⟨h.nodup, (nodup_ids_rowsOf hfields).filter _⟩
  row name := by
    rw [lastRow?_concat, ← lastOf_rowsOf hfields, ← h.row]
    exact h.indexed.row?_update _ name
  order := h.order_update hfields
  latest := by rw [lastPanel?_concat, latest_update hfields, h.latest]

/-- A row flashes if the document changes it, and fades in if the document adds it to other
rows. -/
theorem highlight_update (h : p.Follows docs) (hfields : (Document.object fields).Ordered)
    {e : MarkedRow BuildRow} (he : e ∈ (p.update (HistoryReport.decode fields)).builds.entries) :
    (e.highlight = .flash ↔ ∃ old, lastRow? docs e.row.buildname = some old ∧ old ≠ e.row) ∧
      (e.highlight = .fadeIn ↔
        lastRow? docs e.row.buildname = none ∧ p.builds.entries ≠ []) := by
  rw [← h.row]
  exact h.indexed.highlight_update h.nodup (nodup_ids_rowsOf hfields) he

end Follows

/-! ## All documents -/

theorem after_concat (docs : List (List (String × Document)))
    (fields : List (String × Document)) :
    after (docs ++ [fields]) = (after docs).update (HistoryReport.decode fields) :=
  List.foldl_append

theorem follows_new : new.Follows [] where
  indexed := KeyedTable.indexed_empty
  nodup := .nil
  row _ := rfl
  order := .nil
  latest := rfl

theorem follows_after (hdocs : ∀ fields ∈ docs, (Document.object fields).Ordered) :
    (after docs).Follows docs := by
  induction docs using List.reverseRecOn with
  | nil => exact follows_new
  | append_singleton docs fields ih =>
    rw [List.forall_mem_append, List.forall_mem_singleton] at hdocs
    rw [after_concat]
    exact (ih hdocs.1).update hdocs.2

/-- The page after any documents, told from the documents: it has one row for each build that some
document lists, as the last of them lists it, in the order in which they were first listed; the panel
is that of the last document that has one; and the highlights tell what the last document changed in
the rows before it and what it added to them. -/
theorem page_of_documents (hdocs : ∀ fields ∈ docs, (Document.object fields).Ordered) :
    let p := after docs
    p.builds.ids.Nodup ∧
    (∀ name, name ∈ p.builds.ids ↔
      ∃ fields ∈ docs, (HistoryReport.listed? fields name).isSome) ∧
    (∀ e ∈ p.builds.entries, lastRow? docs e.row.buildname = some e.row) ∧
    p.builds.ids.Pairwise (ListedBefore docs) ∧
    (∀ before last, docs = before ++ [last] → ∀ e ∈ p.builds.entries,
      (e.highlight = .flash ↔
        ∃ old, lastRow? before e.row.buildname = some old ∧ old ≠ e.row) ∧
      (e.highlight = .fadeIn ↔
        lastRow? before e.row.buildname = none ∧ (after before).builds.entries ≠ [])) ∧
    p.latest = lastPanel? docs := by
  intro p
  have hfollows : p.Follows docs := follows_after hdocs
  refine ⟨hfollows.nodup, fun name => ?_, fun e he => ?_, hfollows.order, ?_, hfollows.latest⟩
  · rw [hfollows.mem_ids_iff, lastRow?_isSome_iff]
  · rw [← hfollows.row]
    exact hfollows.indexed.row?_of_mem hfollows.nodup he
  · rintro before last rfl e he
    rw [List.forall_mem_append, List.forall_mem_singleton] at hdocs
    exact (follows_after hdocs.1).highlight_update hdocs.2 (after_concat before last ▸ he)

/-- A build that is not listed any more, one that changes, and one that comes later. -/
theorem builds_come_and_go :
    let summary (name status : String) : String × Document :=
      (name, .object [("buildname", .text name), ("status", .text status)])
    let first := [summary "b1" "stopped:done:", summary "b2" "parallel_build:"]
    let second := [summary "b2" "stopped:done:", summary "b3" "parallel_build:"]
    let docs : List (List (String × Document)) :=
      [[("builds", .object (first ++ [("latest", .text "b2")]))],
        [("builds", .object (second ++ [("latest", .text "b4")]))]]
    let p := after docs
    (∀ fields ∈ docs, (Document.object fields).Ordered) ∧
      p.builds.entries.map (fun e => (e.row.buildname, e.highlight)) =
        [("b1", .none), ("b2", .flash), ("b3", .fadeIn)] ∧
      p.latest.map LatestInfo.buildname = some "b2" ∧
      p.builds.ids.Pairwise (ListedBefore docs) ∧
      (∀ e ∈ p.builds.entries, lastRow? docs e.row.buildname = some e.row) ∧
      p.latest = lastPanel? docs := by
  intro summary first second docs p
  have hsummary (name status : String) : (summary name status).2.Ordered :=
    .object (show ["buildname", "status"].Pairwise (· < ·) by decide)
      (by simp [Document.Ordered.text])
  have hfirst : (Document.object (first ++ [("latest", .text "b2")])).Ordered :=
    .object (by decide) (by simp [first, hsummary, Document.Ordered.text])
  have hsecond : (Document.object (second ++ [("latest", .text "b4")])).Ordered :=
    .object (by decide) (by simp [second, hsummary, Document.Ordered.text])
  have hordered : ∀ fields ∈ docs, (Document.object fields).Ordered := by
    intro fields hmem
    rcases List.mem_pair.mp hmem with rfl | rfl
    · exact .object (by decide) (List.forall_mem_singleton.mpr hfirst)
    · exact .object (by decide) (List.forall_mem_singleton.mpr hsecond)
  have hpage := page_of_documents hordered
  exact ⟨hordered, by decide +kernel, by decide +kernel, hpage.2.2.2.1, hpage.2.2.1,
    hpage.2.2.2.2.2⟩

end HistoryPage

end BuildBoard
