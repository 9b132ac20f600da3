import BuildBoard.Proofs.Number.Rounding
import BuildBoard.Proofs.Progress.Geometry

/-!
# Which outcomes are seen

Each outcome that has a count is to have its share of the bar, rounded, and a pixel at least. But
the outcomes are drawn one after the other, and the earlier ones, which may have been rounded up,
are not cut for the sake of the later ones: what they leave may be nothing.

Results:
1. `exists_mem_segments_iff`: an outcome is drawn if it has a count and the earlier ones leave a
   pixel.
2. `share_lt`: a share is rounded up by less than a pixel.
3. `shown_outcomes`: what is seen of consistent counters, and how much is enough to be seen.
4. `failure_not_shown`: a package that failed and is not seen.
-/

namespace BuildBoard.Progress

open Binary64

/-! ## Definitions -/

/-- The outcomes in the order in which they are drawn. -/
def drawn : List Category := palette.map Prod.fst

/-- The pixels that an outcome with a count is to have. -/
def wanted (stats : Stats) (inner : Nat) (c : Category) : Nat :=
  max 1 (share (stats.count c) inner stats.queued)

/-- The outcomes of a list before `c` that have a count. -/
def earlier (stats : Stats) (outcomes : List Category) (c : Category) : List Category :=
  (outcomes.takeWhile (· != c)).filter fun o => 0 < stats.count o

/-- The pixels that some outcomes are to have together. -/
def due (stats : Stats) (inner : Nat) (outcomes : List Category) : Nat :=
  (outcomes.map (wanted stats inner)).sum

/-- The packages of some outcomes. -/
def counted (stats : Stats) (outcomes : List Category) : Int := (outcomes.map stats.count).sum

/-- The bar has a pixel at least for an outcome. -/
def Bar.Shows (bar : Bar) (c : Category) : Prop :=
  ∃ s ∈ bar.segments, s.category = c ∧ 1 ≤ s.width

/-- Counters that do not contradict each other: no outcome has less than no packages, and all
together no more than are queued. -/
structure Consistent (stats : Stats) : Prop where
  queued : 0 < stats.queued
  fits : stats.queued ≤ int64Max
  nonneg : ∀ n ∈ stats.outcomes, 0 ≤ n
  total : stats.outcomes.sum ≤ stats.queued

/-! ## One outcome after the other -/

variable {stats : Stats} {inner limit filled : Nat}

theorem mem_map_fst_of_mem_segments {entries : List (Category × String)} {s : Segment}
    (hs : s ∈ segments stats inner limit entries filled) : s.category ∈ entries.map Prod.fst :=
  (laid_segments stats inner limit entries filled).categories.subset (List.mem_map_of_mem hs)

theorem earlier_cons_self (c : Category) (rest : List Category) :
    earlier stats (c :: rest) c = [] := by
  rw [earlier, List.takeWhile_cons_of_neg (by simp), List.filter_nil]

theorem earlier_cons_of_ne {o c : Category} (hne : o ≠ c) (rest : List Category) :
    earlier stats (o :: rest) c =
      if 0 < stats.count o then o :: earlier stats rest c else earlier stats rest c := by
  rw [earlier, List.takeWhile_cons_of_pos (by simpa using hne), List.filter_cons, earlier]
  simp only [decide_eq_true_eq]

theorem due_cons (o : Category) (outcomes : List Category) :
    due stats inner (o :: outcomes) = wanted stats inner o + due stats inner outcomes := by
  rw [due, List.map_cons, List.sum_cons, due]

/-- The induction is on the outcomes that are still to be drawn; those before have taken `filled`
pixels. -/
theorem exists_mem_segments_iff {entries : List (Category × String)}
    (hnodup : (entries.map Prod.fst).Nodup) {c : Category} (hc : c ∈ entries.map Prod.fst)
    (filled : Nat) :
    (∃ s ∈ segments stats inner limit entries filled, s.category = c) ↔
      0 < stats.count c ∧
        filled + due stats inner (earlier stats (entries.map Prod.fst) c) < limit := by
  induction entries generalizing filled with
  | nil => exact absurd hc List.not_mem_nil
  | cons entry rest ih =>
    obtain ⟨o, color⟩ := entry
    rw [List.map_cons] at hc hnodup ⊢
    obtain ⟨hfirst, hnodup⟩ := List.nodup_cons.mp hnodup
    unfold segments
    dsimp only at hfirst ⊢
    have hwanted : max 1 (share (stats.count o) inner stats.queued) = wanted stats inner o := rfl
    rw [hwanted]
    have hpixel : 1 ≤ wanted stats inner o := Nat.le_max_left _ _
    by_cases heq : o = c
    · subst heq
      rw [earlier_cons_self]
      show _ ↔ _ ∧ filled + 0 < limit
      split
      · next hpassed =>
        simp only [Bool.or_eq_true, decide_eq_true_eq] at hpassed
        refine iff_of_false ?_ (by omega)
        rintro ⟨s, hs, hcategory⟩
        exact hfirst (hcategory ▸ mem_map_fst_of_mem_segments hs)
      · next hdrawn =>
        simp only [Bool.or_eq_true, decide_eq_true_eq, not_or] at hdrawn
        exact iff_of_true ⟨_, List.mem_cons_self, rfl⟩ (by omega)
    · have hrest : c ∈ rest.map Prod.fst := (List.mem_cons.mp hc).resolve_left (Ne.symm heq)
      rw [earlier_cons_of_ne heq]
      split
      · next hpassed =>
        simp only [Bool.or_eq_true, decide_eq_true_eq] at hpassed
        rw [ih hnodup hrest]
        split
        · -- there is no room left, neither for this outcome nor for a later one
          rw [due_cons]
          omega
        · rfl
      · next hdrawn =>
        simp only [Bool.or_eq_true, decide_eq_true_eq, not_or, not_le] at hdrawn
        rw [if_pos hdrawn.1, due_cons, List.exists_mem_cons_iff, or_iff_right heq,
          ih hnodup hrest]
        omega

/-! ## Shares -/

/-- A share as a number, before it is rounded to whole pixels, is hardly greater than the exact
one. -/
theorem value_share_le {count queued : Int} (hcount : 0 < count) (hle : count ≤ queued)
    (hfits : queued ≤ int64Max) (hinner : 0 < inner) (hwidth : inner < wordCount) :
    (((ofInt count).mul (ofInt inner)).div (ofInt queued)).value ≤
      (1 + (2 : ℚ) ^ (-50 : Int)) * (count * inner / queued) := by
  have hcount₀ : (1 : ℚ) ≤ count := by exact_mod_cast hcount
  have hinner₀ : (1 : ℚ) ≤ inner := by exact_mod_cast hinner
  have hqueued₀ : (0 : ℚ) < queued := by exact_mod_cast hcount.trans_le hle
  have hqueued₁ : (queued : ℚ) ≤ 9223372036854775807 := by exact_mod_cast hfits
  have hspace : (ofInt inner).value = inner := by
    unfold wordCount at hwidth
    have hvalue := value_ofInt (n := inner) (by norm_num at hwidth; omega)
    rwa [Int.cast_natCast] at hvalue
  obtain ⟨ha₀, ha₁⟩ := value_ofInt_bounds hcount
  obtain ⟨hb₀, hb₁⟩ := value_ofInt_bounds (hcount.trans_le hle)
  have ha : 1 / 2 ≤ (ofInt count).value := by
    norm_num at ha₀
    linarith
  have hb : 0 < (ofInt queued).value ∧ (ofInt queued).value ≤ 18446744073709551616 := by
    norm_num at hb₀ hb₁
    constructor <;> linarith
  have hspan : 1 / 2 ≤ (ofInt count).value * (ofInt inner).value := by
    rw [hspace]
    nlinarith
  obtain ⟨hp₀, hp₁⟩ := value_mul_bounds (hspan.trans' (by norm_num))
  have hproduct : 1 / 4 ≤ ((ofInt count).mul (ofInt inner)).value := by
    norm_num at hp₀
    linarith
  have hquotient : (2 : ℚ) ^ (-100 : Int) ≤
      ((ofInt count).mul (ofInt inner)).value / (ofInt queued).value := by
    rw [le_div_iff₀ hb.1]
    norm_num
    linarith [hb.2]
  obtain ⟨-, hd₁⟩ := value_div_bounds hquotient
  rw [hspace] at hp₁
  have hunit : (0 : ℚ) < 1 - (2 : ℚ) ^ (-53 : Int) := by norm_num
  calc (((ofInt count).mul (ofInt inner)).div (ofInt queued)).value
      ≤ (1 + (2 : ℚ) ^ (-53 : Int)) *
          ((1 + (2 : ℚ) ^ (-53 : Int)) * ((1 + (2 : ℚ) ^ (-53 : Int)) * count * inner) /
            ((1 - (2 : ℚ) ^ (-53 : Int)) * queued)) := by
        refine hd₁.trans ?_
        gcongr
        exact hp₁.trans (by gcongr)
    _ = (1 + (2 : ℚ) ^ (-53 : Int)) ^ 3 / (1 - (2 : ℚ) ^ (-53 : Int)) *
          (count * inner / queued) := by
      field_simp
    _ ≤ (1 + (2 : ℚ) ^ (-50 : Int)) * (count * inner / queued) := by
      gcongr
      norm_num

/-- A share is rounded up by less than a pixel, whatever its counters are. -/
theorem share_lt {count queued : Int} (hcount : 0 < count) (hle : count ≤ queued)
    (hfits : queued ≤ int64Max) (hinner : 0 < inner) (hwidth : inner < wordCount) :
    (share count inner queued : ℚ) < (count : ℚ) * inner / queued + 1 := by
  have hnegative : (((ofInt count).mul (ofInt inner)).div (ofInt queued)).negative = false := by
    rw [negative_div, negative_mul, negative_ofInt, negative_ofInt, negative_ofInt,
      decide_eq_false (by omega), decide_eq_false (by omega), decide_eq_false (by omega)]
    rfl
  have hround := round_le hnegative
  have hvalue := value_share_le hcount hle hfits hinner hwidth
  have hqueued : (0 : ℚ) < queued := by exact_mod_cast hcount.trans_le hle
  have hexact : (count : ℚ) * inner / queued ≤ 4294967296 := by
    rw [div_le_iff₀ hqueued, mul_comm]
    have hinner' : (inner : ℚ) ≤ 4294967296 := by
      unfold wordCount at hwidth
      exact_mod_cast hwidth.le
    have hle' : (count : ℚ) ≤ queued := by exact_mod_cast hle
    gcongr
  have hexact₀ : (0 : ℚ) ≤ (count : ℚ) * inner / queued := by
    have hcount' : (0 : ℚ) < count := by exact_mod_cast hcount
    positivity
  have hshare : (share count inner queued : ℚ) ≤
      max (((ofInt count).mul (ofInt inner)).div (ofInt queued)).round 0 := by
    rw [share, ← Int.toNat_eq_max, Int.cast_natCast]
  rw [Int.cast_max, Int.cast_zero] at hshare
  refine hshare.trans_lt (max_lt ?_ (by linarith))
  norm_num at hvalue
  linarith

/-! ## What is due -/

theorem count_le_queued (h : Consistent stats) {c : Category} (hc : c ∈ drawn) :
    stats.count c ≤ stats.queued := by
  obtain ⟨-, -, hnonneg, htotal⟩ := h
  simp only [Stats.outcomes, List.forall_mem_cons, List.sum_cons, List.sum_nil] at hnonneg htotal
  simp only [drawn, palette, List.map_cons, List.map_nil, List.mem_cons, List.not_mem_nil,
    or_false] at hc
  rcases hc with rfl | rfl | rfl | rfl | rfl <;> simp only [Stats.count] <;> omega

theorem wanted_mul_lt (h : Consistent stats) {c : Category} (hc : c ∈ drawn)
    (hcount : 0 < stats.count c) (hinner : 0 < inner) (hwidth : inner < wordCount) :
    wanted stats inner c * stats.queued < stats.count c * inner + stats.queued := by
  have hqueued : (0 : ℚ) < stats.queued := by exact_mod_cast h.queued
  have hshare : share (stats.count c) inner stats.queued * stats.queued <
      stats.count c * inner + stats.queued := by
    have hlt := share_lt hcount (count_le_queued h hc) h.fits hinner hwidth
    rw [div_add_one hqueued.ne', lt_div_iff₀ hqueued] at hlt
    exact_mod_cast hlt
  have hpixel : 0 < stats.count c * inner := by positivity
  rcases max_choice 1 (share (stats.count c) inner stats.queued) with hone | hmore
  · rw [wanted, hone]
    omega
  · rwa [wanted, hmore]

theorem due_mul_le (h : Consistent stats) (hinner : 0 < inner) (hwidth : inner < wordCount)
    {outcomes : List Category} (hdrawn : ∀ c ∈ outcomes, c ∈ drawn ∧ 0 < stats.count c) :
    due stats inner outcomes * stats.queued + outcomes.length ≤
      counted stats outcomes * inner + outcomes.length * stats.queued := by
  induction outcomes with
  | nil => simp [due, counted]
  | cons c rest ih =>
    obtain ⟨⟨hc, hcount⟩, hrest⟩ := List.forall_mem_cons.mp hdrawn
    have hfirst := wanted_mul_lt h hc hcount hinner hwidth
    have hlater := ih hrest
    rw [due_cons, counted, List.map_cons, List.sum_cons, ← counted, List.length_cons]
    push_cast
    linarith

theorem mem_earlier {outcomes : List Category} {c o : Category}
    (ho : o ∈ earlier stats outcomes c) : o ∈ outcomes ∧ 0 < stats.count o := by
  obtain ⟨hbefore, hcount⟩ := List.mem_filter.mp ho
  exact ⟨(List.takeWhile_sublist _).subset hbefore, of_decide_eq_true hcount⟩

/-! ## What is seen -/

variable {width : Nat} {bar : Bar}

theorem segments_of_layout (hqueued : 0 < stats.queued) (hlayout : layout stats width = some bar) :
    bar.segments = segments stats (width - 2) (room stats width) palette 0 := by
  unfold layout at hlayout
  split at hlayout
  · cases hlayout
  · rw [← Option.some.inj hlayout]
    exact if_pos hqueued

theorem shows_iff (hqueued : 0 < stats.queued) (hlayout : layout stats width = some bar)
    {c : Category} (hc : c ∈ drawn) :
    bar.Shows c ↔ 0 < stats.count c ∧
      due stats (width - 2) (earlier stats drawn c) < room stats width := by
  have hnonempty := (shape_of_layout hlayout).nonempty
  have hnodup : (palette.map Prod.fst).Nodup := by decide
  have hdrawn := @exists_mem_segments_iff stats (width - 2) (room stats width) _ hnodup _ hc 0
  rw [← segments_of_layout hqueued hlayout, Nat.zero_add] at hdrawn
  rw [drawn, ← hdrawn]
  exact exists_congr fun s => and_congr_right fun hs => and_iff_left (hnonempty s hs)

/-- An outcome is seen if it has a count and those before it leave a pixel. They do if it, those
after it and the remaining packages are due a pixel more than there are outcomes before it. -/
theorem shown_outcomes (h : Consistent stats) (hwidth : 8 ≤ width) (hword : width < wordCount) :
    ∃ bar, layout stats width = some bar ∧ ∀ c ∈ drawn, 0 < stats.count c →
      (bar.Shows c ↔ due stats (width - 2) (earlier stats drawn c) < room stats width) ∧
      (((earlier stats drawn c).length + 1) * stats.queued ≤
        (stats.queued - counted stats (earlier stats drawn c)) * (width - 2 : Nat) →
          bar.Shows c) := by
  obtain ⟨bar, hlayout⟩ := Option.ne_none_iff_exists'.mp
    (mt (layout_eq_none_iff stats width).mp (by omega))
  refine ⟨bar, hlayout, fun c hc hcount => ?_⟩
  have hshows := shows_iff h.queued hlayout hc
  rw [and_iff_right hcount] at hshows
  refine ⟨hshows, fun hroom => hshows.mpr ?_⟩
  have hpixels : width - 3 ≤ room stats width := by
    unfold room
    split <;> omega
  have hqueued := h.queued
  have hinner : 0 < width - 2 ∧ width - 2 < wordCount := by omega
  have hdue := due_mul_le h hinner.1 hinner.2 fun o (ho : o ∈ earlier stats drawn c) =>
    mem_earlier ho
  obtain hnone | hsome := Nat.eq_zero_or_pos (earlier stats drawn c).length
  · rw [List.length_eq_zero_iff.mp hnone]
    show 0 < room stats width
    omega
  · refine lt_of_lt_of_le ?_ hpixels
    by_contra hfull
    have hfull' : ((width - 3 : Nat) : Int) * stats.queued ≤
        due stats (width - 2) (earlier stats drawn c) * stats.queued := by
      gcongr
      omega
    have hwide : ((width - 2 : Nat) : Int) = (width - 3 : Nat) + 1 := by omega
    rw [hwide] at hdue hroom
    linarith

/-- A build that is half done: packages that failed are seen behind those that were built. -/
theorem failures_of_half_a_build :
    let half : Stats := ⟨10, 4, 1, 0, 0, 0, none⟩
    Consistent half ∧ 8 ≤ 102 ∧ 102 < wordCount ∧ earlier half drawn .failed = [.built] ∧
      (1 + 1) * half.queued ≤ (half.queued - 4) * (100 : Nat) ∧
      ∃ bar, layout half 102 = some bar ∧ bar.Shows .failed := by
  intro half
  have hconsistent : Consistent half := by constructor <;> decide
  have hroom : (([Category.built].length : Int) + 1) * half.queued ≤
      (half.queued - counted half [.built]) * (102 - 2 : Nat) := by decide
  have hwidth : 8 ≤ 102 ∧ 102 < wordCount := by decide
  refine ⟨hconsistent, hwidth.1, hwidth.2, by decide, by decide, ?_⟩
  obtain ⟨bar, hlayout, hshown⟩ := shown_outcomes hconsistent hwidth.1 hwidth.2
  exact ⟨bar, hlayout, (hshown .failed (by decide) (by decide)).2 hroom⟩

/-- One of a thousand packages failed and all others were built: they take the whole bar. -/
theorem failure_not_shown :
    ¬ ∀ (stats : Stats) (width : Nat), Consistent stats → 8 ≤ width →
      ∀ bar, layout stats width = some bar → ∀ c ∈ drawn, 0 < stats.count c → bar.Shows c := by
  intro hall
  have hsegments : segments ⟨1000, 999, 1, 0, 0, 0, none⟩ 100 100 palette 0 =
      [⟨.built, 1, 100, "#00CC00"⟩] := by decide +kernel
  obtain ⟨s, hs, hcategory, -⟩ := hall ⟨1000, 999, 1, 0, 0, 0, none⟩ 102
    (by constructor <;> decide) (by decide) _ rfl .failed (by decide) (by decide)
  have hs' : s ∈ segments ⟨1000, 999, 1, 0, 0, 0, none⟩ 100 100 palette 0 := hs
  rw [hsegments, List.mem_singleton] at hs'
  rw [hs'] at hcategory
  exact absurd hcategory (by decide)

end BuildBoard.Progress
