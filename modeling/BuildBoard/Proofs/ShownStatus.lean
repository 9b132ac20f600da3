import BuildBoard.Status

/-!
# Shown statuses

A status is shown cut before its second colon, or before its third if the build has stopped. Cutting
is done by fields: the first fields are put together again with what stood between them, so nothing
but the end of the status is lost. The first field stays as it is, and with it what the status says
of the build.

Results:
1. `Fields.cutBefore_join_take`: the first fields are the text before a separator.
2. `Fields.CutBefore.eq_of_count_lt`: a text with fewer separators is not cut.
3. `Status.cutBefore_abridge`, `Status.abridge_of_notMem`: what is shown of a status.
4. `Status.shown_status`: all of it, with what a second cut does and when the build has stopped.
-/

namespace BuildBoard

/-! ## The first fields of a text -/

namespace Fields

/-- What is left of a text that is cut before its `n`-th separator: all of it if it has fewer. -/
inductive CutBefore (sep : Char) (n : Nat) : List Char → List Char → Prop
  | cut {front rest : List Char} :
      front.count sep + 1 = n → CutBefore sep n (front ++ sep :: rest) front
  | uncut {cs : List Char} : cs.count sep < n → CutBefore sep n cs cs

variable {sep : Char} {n : Nat} {cs front : List Char}

/-- Fields that are put together again end where the separator after them stood. -/
theorem cutBefore_join_take (sep : Char) (n : Nat) (cs : List Char) :
    CutBefore sep (n + 1) cs (join sep ((split sep cs).take (n + 1))) := by
  induction n generalizing cs with
  | zero =>
    by_cases h : sep ∈ cs
    · obtain ⟨first, rest, rfl, hfirst⟩ := List.eq_append_cons_of_mem h
      rw [split_append_sep hfirst]
      exact .cut (by rw [List.count_eq_zero.mpr hfirst])
    · rw [split_of_notMem h]
      exact .uncut (by rw [List.count_eq_zero.mpr h]; exact Nat.one_pos)
  | succ n ih =>
    by_cases h : sep ∈ cs
    · obtain ⟨first, rest, rfl, hfirst⟩ := List.eq_append_cons_of_mem h
      have hjoin : join sep ((split sep (first ++ sep :: rest)).take (n + 1 + 1)) =
          first ++ sep :: join sep ((split sep rest).take (n + 1)) := by
        obtain ⟨fields, hfields⟩ := split_eq_cons sep rest
        rw [split_append_sep hfirst, hfields]
        rfl
      rw [hjoin]
      have hrest := ih rest
      generalize join sep ((split sep rest).take (n + 1)) = kept at hrest
      cases hrest with
      | @cut _ behind hcount =>
        rw [← List.cons_append, ← List.append_assoc]
        refine .cut ?_
        rw [List.count_append, List.count_cons_self, List.count_eq_zero.mpr hfirst, hcount,
          Nat.zero_add]
      | uncut hcount =>
        refine .uncut ?_
        rw [List.count_append, List.count_cons_self, List.count_eq_zero.mpr hfirst, Nat.zero_add]
        exact Nat.succ_lt_succ hcount
    · rw [split_of_notMem h]
      exact .uncut (by rw [List.count_eq_zero.mpr h]; exact Nat.succ_pos _)

namespace CutBefore

theorem count_lt (h : CutBefore sep n cs front) : front.count sep < n := by
  cases h with
  | cut hcount => exact Nat.lt_of_succ_le (Nat.le_of_eq hcount)
  | uncut hcount => exact hcount

theorem eq_of_count_lt (h : CutBefore sep n cs front) (hcount : cs.count sep < n) : front = cs := by
  cases h with
  | cut heq =>
    rw [List.count_append, List.count_cons_self] at hcount
    omega
  | uncut _ => rfl

end CutBefore

end Fields

/-! ## Statuses -/

namespace Status

open Fields

/-- The number of the colon that a status is cut before. -/
def lastColon (s : String) : Nat := if state s = "stopped" then 3 else 2

theorem shown_some (s : String) : shown (some s) = abridge s := rfl

/-- A bare state is shown with a colon. -/
theorem abridge_of_notMem {s : String} (h : ':' ∉ s.toList) : abridge s = s ++ ":" := by
  rw [abridge, split_of_notMem h]
  rfl

theorem head?_split_iff (s : String) :
    (split ':' s.toList).head? = some stopped ↔ state s = "stopped" := by
  obtain ⟨fields, hsplit⟩ := split_eq_cons ':' s.toList
  rw [hsplit, List.head?_cons, Option.some_inj, state, ← String.toList_inj, String.toList_ofList]
  rfl

theorem cutBefore_abridge {s : String} (h : ':' ∈ s.toList) :
    CutBefore ':' (lastColon s) s.toList (abridge s).toList := by
  have hfields : ¬ (split ':' s.toList).length ≤ 1 := by
    obtain ⟨first, rest, hs, hfirst⟩ := List.eq_append_cons_of_mem h
    obtain ⟨fields, hrest⟩ := split_eq_cons ':' rest
    rw [hs, split_append_sep hfirst, hrest]
    simp only [List.length_cons]
    omega
  have habridge : (abridge s).toList = join ':' ((split ':' s.toList).take (lastColon s)) := by
    rw [abridge, if_neg hfields, String.toList_ofList]
    simp only [head?_split_iff, lastColon]
  obtain ⟨n, hn⟩ : ∃ n, lastColon s = n + 1 := by
    unfold lastColon
    split <;> exact ⟨_, rfl⟩
  rw [habridge, hn]
  exact cutBefore_join_take ':' n s.toList

/-- The state is shown as it is. -/
theorem state_abridge (s : String) : state (abridge s) = state s := by
  obtain ⟨rest, hrest⟩ := abridge_toList s
  rw [state, hrest, takeWhile_append_sep (sep_notMem_takeWhile ':' _), state]

theorem count_abridge_lt (s : String) : (abridge s).toList.count ':' < lastColon s := by
  by_cases h : ':' ∈ s.toList
  · exact (cutBefore_abridge h).count_lt
  · rw [abridge_of_notMem h, String.toList_append, List.count_append, List.count_eq_zero.mpr h]
    unfold lastColon
    split <;> decide

/-- What is shown has a colon and is short enough, so it is not cut again. -/
theorem abridge_abridge (s : String) : abridge (abridge s) = abridge s := by
  obtain ⟨rest, hrest⟩ := abridge_toList s
  have hcolon : ':' ∈ (abridge s).toList := by
    rw [hrest]
    exact List.mem_append_right _ List.mem_cons_self
  have hcut := cutBefore_abridge hcolon
  rw [lastColon, state_abridge, ← lastColon] at hcut
  exact String.toList_inj.mp (hcut.eq_of_count_lt (count_abridge_lt s))

/-- What is shown of a status. One without a colon gets it at its end; any other is cut before its
second colon, or before its third if its first field is exactly the one of a build that has stopped,
and stays whole if it has not so many. A status that is shown is shown as it is, and tells just then
that the build has stopped when its first field does. -/
theorem shown_status (s : String) :
    (':' ∉ s.toList → shown (some s) = s ++ ":") ∧
    (':' ∈ s.toList → CutBefore ':' (if state s = "stopped" then 3 else 2) s.toList
      (shown (some s)).toList) ∧
    shown (some (shown (some s))) = shown (some s) ∧
    (isStopped (shown (some s)) ↔ state s = "stopped") := by
  rw [shown_some, shown_some]
  exact ⟨abridge_of_notMem, cutBefore_abridge, abridge_abridge s, isStopped_abridge s⟩

/-- The fields of a crash, and a state that only begins like one that has stopped. -/
theorem shown_of_crash :
    let crash := "stopped:crashed:signal:11"
    let other := "stopped_jobs:1:2"
    ':' ∈ crash.toList ∧ ':' ∈ other.toList ∧
      CutBefore ':' 3 crash.toList (shown (some crash)).toList ∧
      CutBefore ':' 2 other.toList (shown (some other)).toList ∧
      isStopped (shown (some crash)) ∧ ¬ isStopped (shown (some other)) ∧
      ':' ∉ "idle".toList ∧ shown (some "idle") = "idle:" := by
  intro crash other
  have hcrash : ':' ∈ crash.toList := by decide
  have hother : ':' ∈ other.toList := by decide
  have hidle : ':' ∉ "idle".toList := by decide
  have hstopped : state crash = "stopped" := by decide +kernel
  have hrunning : state other ≠ "stopped" := by decide +kernel
  obtain ⟨-, hcut, -, hends⟩ := shown_status crash
  obtain ⟨-, hcut', -, hends'⟩ := shown_status other
  rw [if_pos hstopped] at hcut
  rw [if_neg hrunning] at hcut'
  exact ⟨hcrash, hother, hcut hcrash, hcut' hother, hends.mpr hstopped, mt hends'.mp hrunning, hidle,
    (shown_status "idle").1 hidle⟩

end Status

end BuildBoard
