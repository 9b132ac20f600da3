import BuildBoard.Proofs.Page.Parts
import Mathlib.Data.List.Induction
import Mathlib.Order.MinMax

/-!
# Package tables over a run

A page is fed with any reports, each in the context of its moment. The lists in them may grow,
shrink or be missing. The table of a category that is only appended to holds for each position the
element of the first report that had so many, as it was formatted then.

Results:
1. `took_update`: a report changes the table and the cursor of a category as its own list asks.
2. `grown_after`: table and cursor after any run.
3. `rows_prefix_after`: no later report takes back or changes a row.
4. `appends_update`: what one report appends, and which rows fade in.
5. `package_tables_grow`: the last three together.
-/

namespace BuildBoard

/-! ## Definitions -/

/-- A report as it reaches a page. -/
structure Arrival where
  ctx : PageContext
  report : BuildReport
  width : Nat
  wallClock : Int

namespace Arrival

/-- The length of a category's list, zero for a report without packages. -/
def length (a : Arrival) (c : Category) : Nat :=
  match a.report.packages with
  | some packages => packages.length c
  | none => 0

/-- The element at a position of a category's list, formatted as a row with its number. -/
def row? (a : Arrival) (c : Category) (k : Nat) : Option (List String) :=
  a.report.packages.bind fun packages => (packages.list c)[k]?.map fun e =>
    decimalText (k + 1 : Nat) :: PackageRow.cells a.ctx.dataUrl a.report.skippedCount c e

end Arrival

/-- The page after these reports. -/
def BuildPage.after (window : RateWindow) (as : List Arrival) : BuildPage :=
  as.foldl (fun p a => p.update a.ctx a.report a.width a.wallClock) (BuildPage.new window)

namespace PackageTables

/-- The greatest length that a category's list has had. -/
def longest (as : List Arrival) (c : Category) : Nat := (as.map (·.length c)).foldl max 0

/-- The element at a position, from the first report whose list got that far. -/
def firstRow? (as : List Arrival) (c : Category) (k : Nat) : Option (List String) :=
  (as.find? fun a => decide (k < a.length c)).bind (·.row? c k)

/-- A category's table and cursor, as these reports leave them. -/
structure Grown (as : List Arrival) (c : Category) (table : Option Listing) (cursor : Option Nat) :
    Prop where
  exists_iff : table.isSome ↔ ∃ a ∈ as, 0 < a.length c
  cursor : cursor = table.map Listing.length
  length : ∀ t, table = some t → t.length = longest as c
  rows : ∀ t, table = some t → ∀ k, t.rows[k]? = firstRow? as c k
  visible : ∀ t, table = some t → t.visible

/-- The rows of a category, none without a table. -/
def rowsOf (table : Option Listing) : List (List String) := (table.getD Listing.empty).rows

/-- What a report with packages does to the table of a category. -/
structure Appends (a : Arrival) (packages : Packages) (c : Category) (p p' : BuildPage) : Prop where
  /-- The slice that the cursor gives is appended. -/
  rows : let range := (p.cursors.advance c (packages.length c)).1
    rowsOf (p'.tables.get c) =
      rowsOf (p.tables.get c) ++ PackageRow.rows a.ctx a.report packages c range.1 range.2
  /-- The slice lies inside the list. -/
  inside : let range := (p.cursors.advance c (packages.length c)).1
    range.1 < range.2 → range.2 ≤ packages.length c
  /-- The appended rows fade in, unless there was no table before. -/
  fresh : ∀ t, p'.tables.get c = some t → ∀ i row highlight,
    t.marked[i]? = some (row, highlight) →
    highlight =
      if (p.tables.get c).isSome ∧ (rowsOf (p.tables.get c)).length ≤ i then .fadeIn else .none

/-! ## What a report changes -/

/-- A category's table and cursor. -/
def slot (p : BuildPage) (c : Category) : Option Listing × Option Nat :=
  (p.tables.get c, p.cursors.get c)

/-- What packages do to a category's table and cursor. -/
inductive Took (ctx : PageContext) (r : BuildReport) (packages : Packages) (c : Category) :
    Option Listing × Option Nat → Option Listing × Option Nat → Prop
  /-- The list is no longer than what was taken over. -/
  | nothing {table : Option Listing} {cursor : Option Nat} :
      packages.length c ≤ cursor.getD 0 → Took ctx r packages c (table, cursor) (table, cursor)
  | rows {table : Option Listing} {cursor : Option Nat} :
      cursor.getD 0 < packages.length c →
      Took ctx r packages c (table, cursor)
        (some ((table.getD Listing.empty).append
          (PackageRow.rows ctx r packages c (cursor.getD 0) (packages.length c))),
          some (packages.length c))

variable {ctx : PageContext} {r : BuildReport} {packages : Packages} {c : Category}

theorem isAppendOnly_of_ne (h : c ≠ .remaining) : c.isAppendOnly := by
  cases c with
  | remaining => exact absurd rfl h
  | _ => rfl

theorem slot_updateTable_ne (p : BuildPage) {d : Category} (h : c ≠ d) :
    slot (p.updateTable ctx r packages d) c = slot p c := by
  unfold BuildPage.updateTable Cursors.advance
  dsimp only
  split
  · split
    · rfl
    · split <;> simp [slot, h]
  · simp [slot, h]

theorem took_updateTable (p : BuildPage) (hc : c.isAppendOnly) :
    Took ctx r packages c (slot p c) (slot (p.updateTable ctx r packages c) c) := by
  unfold BuildPage.updateTable Cursors.advance
  dsimp only
  rw [if_pos hc]
  split
  · next hlen => exact .nothing (by omega)
  · next hlen =>
    split
    · next hle =>
      -- a cursor that is not behind has taken something over, so it is there
      cases hcursor : p.cursors.get c with
      | none =>
        simp only [hcursor, Option.getD_none] at hle
        omega
      | some n =>
        simp only [hcursor, Option.getD_some] at hle
        have hmax : max (packages.length c) n = n := by omega
        simp only [slot, hcursor, PerCategory.get_set_self, Option.getD_some, hmax]
        exact .nothing (by simp only [Option.getD_some]; omega)
    · next hlt =>
      have hmax : max (packages.length c) ((p.cursors.get c).getD 0) = packages.length c := by
        omega
      simp only [slot, PerCategory.get_set_self, hmax]
      exact .rows (by omega)

theorem slot_foldl_updateTable {ds : List Category} (h : c ∉ ds) (p : BuildPage) :
    slot (ds.foldl (BuildPage.updateTable ctx r packages) p) c = slot p c := by
  induction ds generalizing p with
  | nil => rfl
  | cons d ds ih =>
    obtain ⟨hne, hds⟩ := not_or.mp (mt List.mem_cons.mpr h)
    show slot (ds.foldl _ _) c = _
    rw [ih hds, slot_updateTable_ne p hne]

/-- Each category has one turn, and the others leave its slot alone before and after it. -/
theorem exists_turn (ctx : PageContext) (r : BuildReport) (packages : Packages)
    {ds : List Category} (hnodup : ds.Nodup) (hmem : c ∈ ds) (p : BuildPage) :
    ∃ q : BuildPage, slot q c = slot p c ∧
      slot (ds.foldl (BuildPage.updateTable ctx r packages) p) c =
        slot (q.updateTable ctx r packages c) c := by
  induction ds generalizing p with
  | nil => cases hmem
  | cons d ds ih =>
    obtain ⟨hd, hds⟩ := List.nodup_cons.mp hnodup
    rcases List.mem_cons.mp hmem with rfl | hmem
    · exact ⟨p, rfl, slot_foldl_updateTable hd _⟩
    · have hne : c ≠ d := fun heq => hd (heq ▸ hmem)
      obtain ⟨q, hq, hturn⟩ := ih hds hmem (p.updateTable ctx r packages d)
      exact ⟨q, hq.trans (slot_updateTable_ne p hne), hturn⟩

theorem took_updateTables (hc : c.isAppendOnly) (p : BuildPage) :
    Took ctx r packages c ((p.tables.get c).map Listing.settle, p.cursors.get c)
      (slot (p.updateTables ctx r packages) c) := by
  obtain ⟨q, hq, hturn⟩ := exists_turn ctx r packages (show Category.all.Nodup by decide) c.mem_all
    { p with tables := p.tables.map (Option.map Listing.settle) }
  have hslot : slot q c = ((p.tables.get c).map Listing.settle, p.cursors.get c) := by
    rw [hq]
    simp only [slot, PerCategory.get_map]
  rw [← hslot, BuildPage.updateTables, hturn]
  exact took_updateTable q hc

theorem slot_relayout (p : BuildPage) (width : Nat) : slot (p.relayout width) c = slot p c := by
  obtain ⟨percent, bar, heq⟩ := BuildPage.relayout_eq p width
  rw [heq]
  rfl

/-- Only packages touch the tables. -/
theorem slot_update (p : BuildPage) (a : Arrival) :
    ∃ q : BuildPage, slot q c = slot p c ∧
      p.update a.ctx a.report a.width a.wallClock = q.updatePackages a.ctx a.report := by
  obtain ⟨q, hupdate, htables, hcursors, -⟩ :=
    BuildPage.update_eq a.ctx a.report p a.width a.wallClock
  refine ⟨q, ?_, hupdate⟩
  rw [slot, htables, hcursors]
  rfl

theorem slot_update_of_none (p : BuildPage) {a : Arrival} (h : a.report.packages = none) :
    slot (p.update a.ctx a.report a.width a.wallClock) c = slot p c := by
  obtain ⟨q, hq, heq⟩ := slot_update (c := c) p a
  rw [heq, ← hq]
  unfold BuildPage.updatePackages
  rw [h]

theorem took_update (hc : c.isAppendOnly) (p : BuildPage) {a : Arrival}
    (h : a.report.packages = some packages) :
    Took a.ctx a.report packages c ((p.tables.get c).map Listing.settle, p.cursors.get c)
      (slot (p.update a.ctx a.report a.width a.wallClock) c) := by
  obtain ⟨q, hq, heq⟩ := slot_update (c := c) p a
  obtain ⟨htable, hcursor⟩ := Prod.mk.inj hq
  rw [heq, ← htable, ← hcursor]
  unfold BuildPage.updatePackages
  rw [h]
  exact took_updateTables hc q

/-! ## Rows by position -/

theorem numbered_getElem? {α : Type} (f : α → List String) (start : Nat) (l : List α) (k : Nat) :
    (PackageRow.numbered f start l)[k]? =
      l[k]?.map fun e => decimalText (start + k + 1 : Nat) :: f e := by
  simp only [PackageRow.numbered, List.getElem?_map, List.getElem?_zipIdx, Option.map_map]
  rfl

theorem rows_getElem? {a : Arrival} (h : a.report.packages = some packages) (first k : Nat) :
    (PackageRow.rows a.ctx a.report packages c first (packages.length c))[k]? =
      a.row? c (first + k) := by
  have htake : (packages.list c).take (packages.length c) = packages.list c := List.take_length
  simp only [PackageRow.rows, numbered_getElem?, htake, List.getElem?_drop, Arrival.row?, h,
    Option.bind_some]

theorem length_rows {ctx : PageContext} {r : BuildReport} (first : Nat) :
    (PackageRow.rows ctx r packages c first (packages.length c)).length =
      packages.length c - first := by
  have htake : (packages.list c).take (packages.length c) = packages.list c := List.take_length
  simp only [PackageRow.rows, PackageRow.numbered, List.length_map, List.length_zipIdx, htake,
    List.length_drop]
  rfl

/-! ## Greatest lengths -/

theorem row?_eq_none {a : Arrival} {k : Nat} (h : a.length c ≤ k) : a.row? c k = none := by
  unfold Arrival.length at h
  unfold Arrival.row?
  split at h
  · next packages hpackages =>
    rw [hpackages, Option.bind_some, List.getElem?_eq_none h, Option.map_none]
  · next hpackages => rw [hpackages, Option.bind_none]

theorem longest_concat (as : List Arrival) (a : Arrival) :
    longest (as ++ [a]) c = max (longest as c) (a.length c) := by
  simp only [longest, List.map_append, List.foldl_append, List.map_cons, List.map_nil,
    List.foldl_cons, List.foldl_nil]

theorem lt_longest_iff (as : List Arrival) (k : Nat) :
    k < longest as c ↔ ∃ a ∈ as, k < a.length c := by
  induction as using List.reverseRecOn with
  | nil => simp [longest]
  | append_singleton as a ih =>
    rw [longest_concat, lt_max_iff, ih]
    simp only [List.mem_append, List.mem_singleton, or_and_right, exists_or, exists_eq_left]

theorem find?_eq_none {as : List Arrival} {k : Nat} (h : longest as c ≤ k) :
    (as.find? fun a => decide (k < a.length c)) = none := by
  refine List.find?_eq_none.mpr fun b hb hk => ?_
  exact Nat.not_lt.mpr h ((lt_longest_iff as k).mpr ⟨b, hb, of_decide_eq_true hk⟩)

theorem firstRow?_eq_none {as : List Arrival} {k : Nat} (h : longest as c ≤ k) :
    firstRow? as c k = none := by
  rw [firstRow?, find?_eq_none h, Option.bind_none]

theorem firstRow?_concat (as : List Arrival) (a : Arrival) (k : Nat) :
    firstRow? (as ++ [a]) c k =
      if k < longest as c then firstRow? as c k else a.row? c k := by
  simp only [firstRow?, List.find?_append]
  split
  · next h =>
    obtain ⟨b, hb, hk⟩ := (lt_longest_iff as k).mp h
    have hsome : (as.find? fun a => decide (k < a.length c)).isSome :=
      List.find?_isSome.mpr ⟨b, hb, decide_eq_true hk⟩
    rw [Option.or_of_isSome hsome]
  · next h =>
    rw [find?_eq_none (Nat.not_lt.mp h), Option.none_or, List.find?_singleton]
    split
    · rfl
    · next hk =>
      rw [Option.bind_none, row?_eq_none]
      exact Nat.not_lt.mp fun hlt => hk (decide_eq_true hlt)

/-! ## One more report -/

namespace Grown

variable {as : List Arrival} {table : Option Listing} {cursor : Option Nat} {a : Arrival}

theorem rowsOf_length (h : Grown as c table cursor) : (rowsOf table).length = longest as c := by
  cases table with
  | some t => exact h.length t rfl
  | none =>
    refine (Nat.eq_zero_of_not_pos fun hpos => ?_).symm
    exact nomatch h.exists_iff.mpr ((lt_longest_iff as 0).mp hpos)

theorem cursor_getD (h : Grown as c table cursor) : cursor.getD 0 = longest as c := by
  rw [← h.rowsOf_length, h.cursor]
  cases table <;> rfl

theorem rowsOf_getElem? (h : Grown as c table cursor) (k : Nat) :
    (rowsOf table)[k]? = firstRow? as c k := by
  cases table with
  | some t => exact h.rows t rfl k
  | none =>
    rw [firstRow?_eq_none (h.rowsOf_length ▸ Nat.zero_le k)]
    rfl

theorem new : Grown [] c none none where
  exists_iff := by simp
  cursor := rfl
  length := nofun
  rows := nofun
  visible := nofun

theorem settle (h : Grown as c table cursor) : Grown as c (table.map Listing.settle) cursor := by
  cases table with
  | none => exact h
  | some t =>
    refine ⟨h.exists_iff, h.cursor, ?_, ?_, ?_⟩ <;> rintro _ ⟨⟩
    · exact h.length t rfl
    · exact h.rows t rfl
    · exact h.visible t rfl

/-- A list that is no longer than what was taken over leaves everything as it is. -/
theorem stay (h : Grown as c table cursor) (hle : a.length c ≤ longest as c) :
    Grown (as ++ [a]) c table cursor where
  exists_iff := by
    rw [h.exists_iff, ← lt_longest_iff, ← lt_longest_iff, longest_concat, Nat.max_eq_left hle]
  cursor := h.cursor
  length t ht := by rw [longest_concat, Nat.max_eq_left hle, h.length t ht]
  rows t ht k := by
    rw [firstRow?_concat, h.rows t ht]
    split
    · rfl
    · next hk =>
      have hlong : longest as c ≤ k := Nat.not_lt.mp hk
      rw [firstRow?_eq_none hlong, row?_eq_none (Nat.le_trans hle hlong)]
  visible := h.visible

theorem length_of_packages (h : a.report.packages = some packages) :
    a.length c = packages.length c := by
  rw [Arrival.length, h]

/-- A longer list adds what it has more. -/
theorem grow (h : Grown as c table cursor) (ha : a.report.packages = some packages)
    (hlt : longest as c < packages.length c) :
    Grown (as ++ [a]) c
      (some ((table.getD Listing.empty).append
        (PackageRow.rows a.ctx a.report packages c (longest as c) (packages.length c))))
      (some (packages.length c)) := by
  have hlongest : longest (as ++ [a]) c = packages.length c := by
    rw [longest_concat, length_of_packages ha, Nat.max_eq_right (Nat.le_of_lt hlt)]
  have hold : (table.getD Listing.empty).rows.length = longest as c := h.rowsOf_length
  have hlength : ((table.getD Listing.empty).append
      (PackageRow.rows a.ctx a.report packages c (longest as c) (packages.length c))).length =
        packages.length c := by
    rw [Listing.length, Listing.rows_append, List.length_append, length_rows]
    omega
  refine ⟨?_, ?_, ?_, ?_, ?_⟩
  · rw [← lt_longest_iff, hlongest]
    exact iff_of_true rfl (Nat.zero_lt_of_lt hlt)
  · rw [Option.map_some, hlength]
  · rintro _ ⟨⟩
    rw [hlength, hlongest]
  · rintro _ ⟨⟩ k
    -- positions that were filled before are not this report's
    rw [Listing.rows_append, List.getElem?_append, firstRow?_concat, hold]
    split
    · exact h.rowsOf_getElem? k
    · next hk => rw [rows_getElem? ha, Nat.add_sub_cancel' (Nat.not_lt.mp hk)]
  · rintro _ ⟨⟩
    exact Listing.visible_append _ _

/-- What a report with packages does keeps table and cursor grown. -/
theorem took (h : Grown as c table cursor) (ha : a.report.packages = some packages)
    {after : Option Listing × Option Nat}
    (htook : Took a.ctx a.report packages c (table, cursor) after) :
    Grown (as ++ [a]) c after.1 after.2 := by
  cases htook with
  | nothing hle => exact h.stay (by rwa [length_of_packages ha, ← h.cursor_getD])
  | rows hlt =>
    rw [h.cursor_getD] at hlt ⊢
    exact h.grow ha hlt

/-- One report more. -/
theorem update (hc : c.isAppendOnly) {p : BuildPage}
    (h : Grown as c (p.tables.get c) (p.cursors.get c)) (a : Arrival) :
    let p' := p.update a.ctx a.report a.width a.wallClock
    Grown (as ++ [a]) c (p'.tables.get c) (p'.cursors.get c) := by
  cases ha : a.report.packages with
  | none =>
    obtain ⟨htable, hcursor⟩ := Prod.mk.inj (slot_update_of_none (c := c) p ha)
    simp only [htable, hcursor]
    exact h.stay (by rw [Arrival.length, ha]; exact Nat.zero_le _)
  | some packages => exact h.settle.took ha (took_update hc p ha)

end Grown

/-- The tables and cursors after any reports. -/
theorem grown_after (window : RateWindow) (hc : c.isAppendOnly) (as : List Arrival) :
    Grown as c ((BuildPage.after window as).tables.get c)
      ((BuildPage.after window as).cursors.get c) := by
  induction as using List.reverseRecOn with
  | nil =>
    simp only [BuildPage.after, List.foldl_nil, BuildPage.new, Cursors.start, PerCategory.get_all]
    exact Grown.new
  | append_singleton as a ih =>
    rw [BuildPage.after, List.foldl_append]
    exact ih.update hc a

/-! ## Rows that stay -/

theorem after_append (window : RateWindow) (as bs : List Arrival) :
    BuildPage.after window (as ++ bs) =
      bs.foldl (fun p a => p.update a.ctx a.report a.width a.wallClock)
        (BuildPage.after window as) := List.foldl_append

theorem rowsOf_settle (table : Option Listing) :
    rowsOf (table.map Listing.settle) = rowsOf table := by
  cases table <;> rfl

theorem rows_self (ctx : PageContext) (r : BuildReport) (packages : Packages) (c : Category)
    (n : Nat) : PackageRow.rows ctx r packages c n n = [] := by
  simp only [PackageRow.rows, List.drop_take_self]
  rfl

/-- The rows from the cursor on are added, and no others. -/
theorem rowsOf_of_took {table : Option Listing} {cursor : Option Nat}
    {after : Option Listing × Option Nat} (htook : Took ctx r packages c (table, cursor) after) :
    rowsOf after.1 =
      rowsOf table ++
        PackageRow.rows ctx r packages c (cursor.getD 0)
          (max (packages.length c) (cursor.getD 0)) := by
  cases htook with
  | nothing hle => rw [Nat.max_eq_right hle, rows_self, List.append_nil]
  | rows hlt => rw [Nat.max_eq_left (Nat.le_of_lt hlt)]; exact Listing.rows_append _ _

theorem rowsOf_update (hc : c.isAppendOnly) (p : BuildPage) {a : Arrival}
    (ha : a.report.packages = some packages) :
    let range := (p.cursors.advance c (packages.length c)).1
    rowsOf ((p.update a.ctx a.report a.width a.wallClock).tables.get c) =
      rowsOf (p.tables.get c) ++ PackageRow.rows a.ctx a.report packages c range.1 range.2 := by
  have hrows := rowsOf_of_took (took_update hc p ha)
  rwa [rowsOf_settle] at hrows

/-- No report takes back or changes a row. -/
theorem rows_prefix_update (hc : c.isAppendOnly) (p : BuildPage) (a : Arrival) :
    rowsOf (p.tables.get c) <+:
      rowsOf ((p.update a.ctx a.report a.width a.wallClock).tables.get c) := by
  cases ha : a.report.packages with
  | none =>
    obtain ⟨htable, -⟩ := Prod.mk.inj (slot_update_of_none (c := c) p ha)
    exact htable.symm ▸ List.prefix_rfl
  | some packages =>
    rw [rowsOf_update hc p ha]
    exact List.prefix_append _ _

theorem rows_prefix_after (window : RateWindow) (hc : c.isAppendOnly) (as bs : List Arrival) :
    rowsOf ((BuildPage.after window as).tables.get c) <+:
      rowsOf ((BuildPage.after window (as ++ bs)).tables.get c) := by
  rw [after_append]
  generalize BuildPage.after window as = p
  induction bs generalizing p with
  | nil => exact List.prefix_rfl
  | cons b bs ih => exact (rows_prefix_update hc p b).trans (ih _)

/-! ## Rows that are added -/

theorem highlightAt_of_took {table : Option Listing} {cursor : Option Nat}
    {after : Option Listing × Option Nat} (hvisible : ∀ t, table = some t → t.visible)
    (htook : Took ctx r packages c (table.map Listing.settle, cursor) after)
    {t : Listing} (ht : after.1 = some t) {i : Nat} (hi : i < t.rows.length) :
    t.highlightAt i =
      if table.isSome ∧ (rowsOf table).length ≤ i then .fadeIn else .none := by
  cases htook with
  | nothing =>
    obtain ⟨old, rfl, rfl⟩ := Option.map_eq_some_iff.mp ht
    rw [if_neg fun hnew => Nat.not_le.mpr hi hnew.2]
    exact old.highlightAt_settle hi
  | rows =>
    obtain rfl := Option.some.inj ht
    cases table with
    | none => exact Listing.highlightAt_reveal rfl hi
    | some old =>
      show (old.settle.append _).highlightAt i = _
      rw [Listing.highlightAt_append (hvisible old rfl)]
      by_cases hlt : i < old.rows.length
      · rw [if_pos hlt, if_neg fun hnew => Nat.not_le.mpr hlt hnew.2]
      · rw [if_neg hlt, if_pos ⟨rfl, Nat.not_lt.mp hlt⟩]

/-- What one report appends to a table, and which rows fade in. -/
theorem appends_update (hc : c.isAppendOnly) {p : BuildPage}
    (hvisible : ∀ t, p.tables.get c = some t → t.visible) {a : Arrival}
    (ha : a.report.packages = some packages) :
    Appends a packages c p (p.update a.ctx a.report a.width a.wallClock) where
  rows := rowsOf_update hc p ha
  inside := by
    simp only [Cursors.advance]
    omega
  fresh t ht i row highlight hmarked := by
    obtain ⟨hi, rfl⟩ := Listing.highlight_of_marked hmarked
    exact highlightAt_of_took hvisible (took_update hc p ha) ht hi

end PackageTables

open PackageTables

/-- Package tables only grow: the rows are those of the first report that had them, none is ever
taken back, and a report with packages appends the part of its list that is new. -/
theorem package_tables_grow (window : RateWindow) (as : List Arrival) {c : Category}
    (hc : c ≠ .remaining) :
    let p := BuildPage.after window as
    Grown as c (p.tables.get c) (p.cursors.get c) ∧
    (∀ bs t, p.tables.get c = some t →
      ∃ t', (BuildPage.after window (as ++ bs)).tables.get c = some t' ∧ t.rows <+: t'.rows) ∧
    ∀ a packages, a.report.packages = some packages →
      Appends a packages c p (BuildPage.after window (as ++ [a])) := by
  have hc := isAppendOnly_of_ne hc
  have hgrown := grown_after window hc as
  refine ⟨hgrown, fun bs t ht => ?_, fun a packages ha => ?_⟩
  · -- a table that was there is still there
    have hlater := grown_after window hc (as ++ bs)
    obtain ⟨b, hb, hpos⟩ := hgrown.exists_iff.mp (by rw [ht]; rfl)
    obtain ⟨t', ht'⟩ := Option.isSome_iff_exists.mp
      (hlater.exists_iff.mpr ⟨b, List.mem_append_left bs hb, hpos⟩)
    have hprefix := rows_prefix_after window hc as bs
    rw [ht, ht'] at hprefix
    exact ⟨t', ht', hprefix⟩
  · rw [after_append]
    exact appends_update hc hgrown.visible ha

/-- A list of two and then one of one leave a table of two rows. -/
theorem fetched_table_after_two_and_one :
    let arrival (pkgnames : List String) : Arrival :=
      { ctx := PageContext.new .build .inline none none
        report :=
          { BuildReport.ofFields [] [] with
            packages := some ⟨[], [], [], [], pkgnames.map fun s => ⟨⟨s, "", none⟩⟩, [], []⟩ }
        width := 0
        wallClock := 0 }
    let p := BuildPage.after (RateWindow.new 1 0 1) [arrival ["a", "b"], arrival ["c"]]
    Category.fetched ≠ .remaining ∧ ∃ t, p.tables.get .fetched = some t ∧ t.length = 2 := by
  intro arrival p
  have hne : Category.fetched ≠ .remaining := by decide
  obtain ⟨hgrown, -, -⟩ :=
    package_tables_grow (RateWindow.new 1 0 1) [arrival ["a", "b"], arrival ["c"]] hne
  obtain ⟨t, ht⟩ := Option.isSome_iff_exists.mp
    (hgrown.exists_iff.mpr ⟨arrival ["c"], by simp, Nat.zero_lt_one⟩)
  exact ⟨hne, t, ht, hgrown.length t ht⟩

end BuildBoard
