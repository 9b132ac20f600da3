import BuildBoard.Rate.Window
import Mathlib.Data.List.Induction

/-!
# The rate window and the whole history

A window keeps no more samples than its ring has slots. What it reads is nevertheless a matter of
the whole history: at poll `t` the difference between sample `t` and the one `capacity - 1` polls
before it, or the first one if there is none so old.

Results:
1. `Keeps.record`: the ring holds the last samples of the history, each in the slot of its poll.
2. `reading_after`: so the slots of head and tail hold the two samples that are asked for.
3. `minutes_le_of_le`: a later poll covers no less time.
4. `readings_of_history`: readings, slots and minutes over any run.
-/

namespace BuildBoard

/-- The minutes that a title names. -/
def Horizon.minutes? : Horizon → Option Nat
  | .calculating => none
  | .filling minutes | .full minutes => some minutes

namespace RateWindow

/-! ## Definitions -/

/-- The window after these samples. -/
def after (w : RateWindow) (samples : List Sample) : RateWindow :=
  samples.foldl (fun w sample => (w.record sample).2) w

/-- What the polls that record these samples read. -/
def readings (w : RateWindow) : List Sample → List TrailingRate
  | [] => []
  | sample :: rest => (w.record sample).1 :: (w.record sample).2.readings rest

/-- The trailing rate at poll `t` of a history, told from the whole of it. -/
def ofHistory (interval firstPeriod targetPeriod : Nat) (history : List Sample) (t : Nat) :
    TrailingRate :=
  let interval := max interval 1
  let capacity := max (targetPeriod / interval) 1
  if t < firstPeriod / interval then ⟨none, .calculating⟩
  else
    { rate := do
        let newest ← history[t]?
        let oldest ← history[t - (capacity - 1)]?
        let now ← newest.elapsed
        let before ← oldest.elapsed
        Rate.perHour (newest.attempted - oldest.attempted) (now - before)
      horizon :=
        if t < capacity then .filling (t * interval / 60) else .full (targetPeriod / 60) }

/-- The ring holds the last samples of this history, each in the slot of its poll. -/
structure Keeps (w : RateWindow) (history : List Sample) : Prop where
  recorded : w.recorded = history.length
  length : w.slots.length = min history.length w.capacity
  slot : ∀ t, t < history.length → history.length ≤ t + w.capacity →
    w.slots[t % w.capacity]? = history[t]?

/-! ## Slots -/

variable {w : RateWindow} {history : List Sample} {sample : Sample}

/-- Polls that are less than a whole ring apart have different slots. -/
theorem slot_ne_of_lt {t n capacity : Nat} (hlt : t < n) (hnear : n < t + capacity) :
    t % capacity ≠ n % capacity := by
  intro heq
  have hdvd : capacity ∣ n - t := Nat.dvd_of_mod_eq_zero (Nat.sub_mod_eq_zero_of_mod_eq heq.symm)
  have hle : capacity ≤ n - t := Nat.le_of_dvd (by omega) hdvd
  omega

/-- While the ring fills, the tail is the first slot, which is that of poll zero. -/
theorem tailIndex_eq (w : RateWindow) :
    w.tailIndex = (w.recorded - (w.capacity - 1)) % w.capacity := by
  unfold tailIndex
  split
  · next hfilling =>
    have hzero : w.recorded - (w.capacity - 1) = 0 := by omega
    rw [hzero, Nat.zero_mod]
  · rfl

theorem keeps_new (interval firstPeriod targetPeriod : Nat) :
    (new interval firstPeriod targetPeriod).Keeps [] where
  recorded := rfl
  length := (Nat.zero_min _).symm
  slot t ht := absurd ht (Nat.not_lt_zero t)

theorem capacity_new_pos (interval firstPeriod targetPeriod : Nat) :
    0 < (new interval firstPeriod targetPeriod).capacity := Nat.le_max_right _ 1

namespace Keeps

/-- The next sample goes over an older one or right behind the last. -/
theorem headIndex_le (h : w.Keeps history) (hpos : 0 < w.capacity) :
    w.headIndex ≤ w.slots.length := by
  have hlt : w.headIndex < w.capacity := Nat.mod_lt _ hpos
  have hle : w.headIndex ≤ history.length := h.recorded ▸ Nat.mod_le _ _
  rw [h.length]
  exact Nat.le_min.mpr ⟨hle, Nat.le_of_lt hlt⟩

theorem getElem?_place (h : w.Keeps history) (hpos : 0 < w.capacity) (sample : Sample) (i : Nat) :
    (w.place sample)[i]? = if i = w.headIndex then some sample else w.slots[i]? := by
  have hhead := h.headIndex_le hpos
  unfold place
  split
  · next hlt =>
    split
    · next heq => rw [heq, List.getElem?_set_self hlt]
    · next hne => rw [List.getElem?_set_ne (Ne.symm hne)]
  · next hge =>
    have hend : w.headIndex = w.slots.length := Nat.le_antisymm hhead (Nat.not_lt.mp hge)
    split
    · next heq => rw [heq, hend, List.getElem?_concat_length]
    · next hne =>
      rcases Nat.lt_or_ge i w.slots.length with hlt | hge
      · rw [List.getElem?_append_left hlt]
      · rw [List.getElem?_eq_none hge, List.getElem?_eq_none]
        rw [List.length_append, List.length_singleton]
        omega

theorem length_place (h : w.Keeps history) (hpos : 0 < w.capacity) (sample : Sample) :
    (w.place sample).length = min (history.length + 1) w.capacity := by
  have hlength := h.length
  unfold place
  rcases Nat.lt_or_ge history.length w.capacity with hfilling | hfull
  · have hhead : w.headIndex = history.length := by
      rw [headIndex, h.recorded, Nat.mod_eq_of_lt hfilling]
    rw [if_neg (by omega), List.length_append, List.length_singleton]
    omega
  · have hhead : w.headIndex < w.capacity := Nat.mod_lt _ hpos
    rw [if_pos (by omega), List.length_set]
    omega

/-- The ring with the next sample holds the last samples of the history with that sample. -/
theorem getElem?_place_slot (h : w.Keeps history) (hpos : 0 < w.capacity) (sample : Sample)
    {t : Nat} (hlt : t ≤ history.length) (hnear : history.length < t + w.capacity) :
    (w.place sample)[t % w.capacity]? = (history ++ [sample])[t]? := by
  rw [h.getElem?_place hpos, headIndex, h.recorded]
  rcases Nat.lt_or_eq_of_le hlt with hold | rfl
  · rw [if_neg (slot_ne_of_lt hold hnear), h.slot t hold (Nat.le_of_lt hnear),
      List.getElem?_append_left hold]
  · rw [if_pos rfl, List.getElem?_concat_length]

theorem record (h : w.Keeps history) (hpos : 0 < w.capacity) (sample : Sample) :
    (w.record sample).2.Keeps (history ++ [sample]) where
  recorded := by
    rw [List.length_append]
    exact congrArg (· + 1) h.recorded
  length := by
    rw [List.length_append]
    exact h.length_place hpos sample
  slot t ht hnear := by
    rw [List.length_append, List.length_singleton] at ht hnear
    exact h.getElem?_place_slot hpos sample (Nat.le_of_lt_succ ht) hnear

/-- The slot of the head holds the newest sample. -/
theorem getElem?_headIndex (h : w.Keeps history) (hpos : 0 < w.capacity) (sample : Sample) :
    (w.place sample)[w.headIndex]? = some sample := by
  rw [h.getElem?_place hpos, if_pos rfl]

/-- The slot of the tail holds the oldest sample that is kept. -/
theorem getElem?_tailIndex (h : w.Keeps history) (hpos : 0 < w.capacity) (sample : Sample) :
    (w.place sample)[w.tailIndex]? =
      (history ++ [sample])[history.length - (w.capacity - 1)]? := by
  rw [tailIndex_eq, h.recorded]
  exact h.getElem?_place_slot hpos sample (Nat.sub_le _ _) (by omega)

theorem tailIndex_lt (h : w.Keeps history) (hpos : 0 < w.capacity) (sample : Sample) :
    w.tailIndex < (w.place sample).length := by
  rw [tailIndex_eq, h.recorded, h.length_place hpos]
  refine Nat.lt_min.mpr ⟨?_, Nat.mod_lt _ hpos⟩
  have hle := Nat.mod_le (history.length - (w.capacity - 1)) w.capacity
  omega

end Keeps

/-! ## Runs -/

theorem after_concat (w : RateWindow) (samples : List Sample) (sample : Sample) :
    w.after (samples ++ [sample]) = ((w.after samples).record sample).2 := List.foldl_append

theorem readings_concat (w : RateWindow) (samples : List Sample) (sample : Sample) :
    w.readings (samples ++ [sample]) = w.readings samples ++ [(w.after samples).reading sample] := by
  induction samples generalizing w with
  | nil => rfl
  | cons first samples ih => exact congrArg ((w.record first).1 :: ·) (ih _)

/-- Recording changes the slots and the count alone. -/
theorem after_eq (w : RateWindow) (samples : List Sample) :
    ∃ slots recorded, w.after samples = { w with slots, recorded } := by
  induction samples using List.reverseRecOn with
  | nil => exact ⟨_, _, rfl⟩
  | append_singleton samples sample ih =>
    obtain ⟨slots, recorded, heq⟩ := ih
    rw [after_concat, heq]
    exact ⟨_, _, rfl⟩

theorem keeps_after (interval firstPeriod targetPeriod : Nat) (samples : List Sample) :
    ((new interval firstPeriod targetPeriod).after samples).Keeps samples := by
  induction samples using List.reverseRecOn with
  | nil => exact keeps_new interval firstPeriod targetPeriod
  | append_singleton samples sample ih =>
    rw [after_concat]
    refine ih.record ?_ sample
    obtain ⟨slots, recorded, heq⟩ := after_eq (new interval firstPeriod targetPeriod) samples
    rw [heq]
    exact capacity_new_pos interval firstPeriod targetPeriod

section

variable (interval firstPeriod targetPeriod : Nat)

/-- What is read at a poll follows from the history up to it. -/
theorem ofHistory_append {history : List Sample} {t : Nat} (ht : t < history.length)
    (later : List Sample) :
    ofHistory interval firstPeriod targetPeriod (history ++ later) t =
      ofHistory interval firstPeriod targetPeriod history t := by
  have hold (n : Nat) : (history ++ later)[t - n]? = history[t - n]? :=
    List.getElem?_append_left (Nat.lt_of_le_of_lt (Nat.sub_le t n) ht)
  simp only [ofHistory, List.getElem?_append_left ht, hold]

theorem rateBetween_eq (newest : Sample) :
    rateBetween newest = fun oldest => newest.elapsed.bind fun now => oldest.elapsed.bind fun before =>
      Rate.perHour (newest.attempted - oldest.attempted) (now - before) := by
  funext oldest
  unfold rateBetween
  cases newest.elapsed with
  | none => rfl
  | some now => cases oldest.elapsed <;> rfl

/-- The next poll reads off the ring what the whole history says. -/
theorem reading_after (samples : List Sample) (sample : Sample) :
    ((new interval firstPeriod targetPeriod).after samples).reading sample =
      ofHistory interval firstPeriod targetPeriod (samples ++ [sample]) samples.length := by
  have hkeeps := keeps_after interval firstPeriod targetPeriod samples
  obtain ⟨slots, recorded, heq⟩ := after_eq (new interval firstPeriod targetPeriod) samples
  rw [heq] at hkeeps ⊢
  obtain rfl : recorded = samples.length := hkeeps.recorded
  have hpos := capacity_new_pos interval firstPeriod targetPeriod
  unfold reading
  rw [hkeeps.getElem?_tailIndex hpos sample, rateBetween_eq]
  simp only [ofHistory, List.getElem?_concat_length, new]
  rfl

/-- The readings of a run are those of its history. -/
theorem readings_eq (samples : List Sample) :
    (new interval firstPeriod targetPeriod).readings samples =
      (List.range samples.length).map (ofHistory interval firstPeriod targetPeriod samples) := by
  induction samples using List.reverseRecOn with
  | nil => rfl
  | append_singleton samples sample ih =>
    have hold : (List.range samples.length).map
        (ofHistory interval firstPeriod targetPeriod samples) =
        (List.range samples.length).map
          (ofHistory interval firstPeriod targetPeriod (samples ++ [sample])) :=
      List.map_congr_left fun t ht =>
        (ofHistory_append interval firstPeriod targetPeriod (List.mem_range.mp ht) [sample]).symm
    rw [readings_concat, ih, hold, reading_after, List.length_append, List.length_singleton,
      List.range_succ, List.map_append, List.map_singleton]

/-! ## Minutes -/

/-- While the ring fills, the time that the samples cover is part of the target period. -/
theorem mul_interval_le {t : Nat} (ht : t < (new interval firstPeriod targetPeriod).capacity) :
    t * max interval 1 ≤ targetPeriod := by
  rcases Nat.eq_zero_or_pos t with rfl | hpos
  · rw [Nat.zero_mul]
    exact Nat.zero_le _
  · have hle : t ≤ targetPeriod / max interval 1 := by
      simp only [new] at ht
      omega
    exact Nat.mul_le_of_le_div _ _ _ hle

/-- A later poll covers no less time. -/
theorem minutes_le_of_le (history : List Sample) {s t m n : Nat} (hst : s ≤ t)
    (hm : (ofHistory interval firstPeriod targetPeriod history s).horizon.minutes? = some m)
    (hn : (ofHistory interval firstPeriod targetPeriod history t).horizon.minutes? = some n) :
    m ≤ n := by
  simp only [ofHistory] at hm hn
  split at hm
  · cases hm
  · split at hn
    · cases hn
    · dsimp only at hm hn
      split at hm
      · next hs =>
        obtain rfl := Option.some.inj hm
        split at hn
        · -- both rings are filling
          obtain rfl := Option.some.inj hn
          exact Nat.div_le_div_right (Nat.mul_le_mul_right _ hst)
        · obtain rfl := Option.some.inj hn
          exact Nat.div_le_div_right (mul_interval_le interval firstPeriod targetPeriod hs)
      · next hs =>
        -- a full ring stays full
        rw [if_neg fun ht => hs (Nat.lt_of_le_of_lt hst ht)] at hn
        obtain rfl := Option.some.inj hm
        exact Nat.le_of_eq (Option.some.inj hn)

end

/-- What a window reads over any run, told from the whole history; no more samples are kept than the
ring has slots, and head and tail are among those; and the minutes shown never go down. -/
theorem readings_of_history (interval firstPeriod targetPeriod : Nat) (samples : List Sample) :
    let w := new interval firstPeriod targetPeriod
    w.readings samples =
      (List.range samples.length).map (ofHistory interval firstPeriod targetPeriod samples) ∧
    (w.after samples).slots.length ≤ w.capacity ∧
    (∀ sample,
      (w.after samples).headIndex < ((w.after samples).place sample).length ∧
      (w.after samples).tailIndex < ((w.after samples).place sample).length) ∧
    ((w.readings samples).filterMap fun reading => reading.horizon.minutes?).Pairwise (· ≤ ·) := by
  intro w
  have hreadings := readings_eq interval firstPeriod targetPeriod samples
  have hkeeps := keeps_after interval firstPeriod targetPeriod samples
  have hcapacity : (w.after samples).capacity = w.capacity := by
    obtain ⟨slots, recorded, heq⟩ := after_eq w samples
    rw [heq]
  have hpos : 0 < (w.after samples).capacity :=
    hcapacity ▸ capacity_new_pos interval firstPeriod targetPeriod
  refine ⟨hreadings, ?_, fun sample => ⟨?_, hkeeps.tailIndex_lt hpos sample⟩, ?_⟩
  · rw [hkeeps.length, hcapacity]
    exact Nat.min_le_right _ _
  · exact (List.getElem?_eq_some_iff.mp (hkeeps.getElem?_headIndex hpos sample)).1
  · rw [hreadings, List.pairwise_filterMap, List.pairwise_map]
    refine List.pairwise_lt_range.imp ?_
    intro s t hst m hm n hn
    exact minutes_le_of_le interval firstPeriod targetPeriod samples (Nat.le_of_lt hst) hm hn

end RateWindow

end BuildBoard
