import BuildBoard.Text.Fields

/-!
# Build status

A status is a list of fields between colons, a state and details of it. It is shown cut to two
fields, or to three when the build has stopped, and a bare state is shown with a colon after it.
-/

namespace BuildBoard.Status

/-- The state that ends a build. -/
def stopped : List Char := "stopped".toList

/-- The fields that are shown. -/
def abridge (status : String) : String :=
  let fields := Fields.split ':' status.toList
  let keep := if fields.head? = some stopped then 3 else 2
  if fields.length ≤ 1 then status ++ ":"
  else String.ofList (Fields.join ':' (fields.take keep))

/-- The shown status, empty where there is none. -/
def shown (status : Option String) : String := (status.map abridge).getD ""

/-- Whether a shown status is that of a build that has ended. -/
def isStopped (shown : String) : Bool := (stopped ++ [':']).isPrefixOf shown.toList

/-- The first field. -/
def state (status : String) : String := String.ofList (status.toList.takeWhile (· != ':'))

example : abridge "stopped:crashed:signal:11" = "stopped:crashed:signal" := by decide +kernel
example : abridge "build:misc/a:x" = "build:misc/a" := by decide +kernel
example : abridge "idle" = "idle:" := by decide +kernel

/-- A shown status begins with the state and a colon. -/
theorem abridge_toList (status : String) :
    ∃ rest, (abridge status).toList = status.toList.takeWhile (· != ':') ++ ':' :: rest := by
  obtain ⟨fields, hsplit⟩ := Fields.split_eq_cons ':' status.toList
  have hjoin := Fields.join_split ':' status.toList
  rw [hsplit] at hjoin
  simp only [abridge, hsplit]
  cases fields with
  | nil =>
    -- a bare state is the whole status
    have hbare : status.toList.takeWhile (· != ':') = status.toList := hjoin
    have hlength : [status.toList.takeWhile (· != ':')].length ≤ 1 := Nat.le_refl 1
    refine ⟨[], ?_⟩
    rw [if_pos hlength, String.toList_append, hbare]
    rfl
  | cons next fields =>
    have hkeep : ∀ keep, 2 ≤ keep → ∃ rest,
        Fields.join ':' ((status.toList.takeWhile (· != ':') :: next :: fields).take keep) =
          status.toList.takeWhile (· != ':') ++ ':' :: rest := by
      rintro (_ | _ | keep) h
      · omega
      · omega
      · exact ⟨_, Fields.join_cons_cons ':' _ next (fields.take keep)⟩
    rw [if_neg (by simp only [List.length_cons]; omega), String.toList_ofList]
    exact hkeep _ (by split <;> omega)

/-- A shown status is that of a build that has ended where its state says so. -/
theorem isStopped_abridge (status : String) :
    isStopped (abridge status) ↔ state status = "stopped" := by
  obtain ⟨rest, hrest⟩ := abridge_toList status
  have hstate : state status = "stopped" ↔ stopped = status.toList.takeWhile (· != ':') := by
    rw [state, ← String.toList_inj, String.toList_ofList]
    exact eq_comm
  rw [isStopped, List.isPrefixOf_iff_prefix, hrest, hstate]
  exact Fields.field_sep_prefix_iff (by decide) (Fields.sep_notMem_takeWhile ':' _)

end BuildBoard.Status
