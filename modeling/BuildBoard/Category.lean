/-!
# Result categories

Every queued package ends up in one of the result categories, or is remaining. The package tables
of a page are shown in the order of `Category.all`.
-/

namespace BuildBoard

inductive Category where
  | built | failed | skipped | ignored | fetched | remaining | queued
deriving DecidableEq, Inhabited

namespace Category

/-- The categories in the order in which they are shown. -/
def all : List Category := [.built, .failed, .skipped, .ignored, .fetched, .remaining, .queued]

theorem mem_all (c : Category) : c ∈ all := by cases c <;> decide

def name : Category → String
  | .built => "built"
  | .failed => "failed"
  | .skipped => "skipped"
  | .ignored => "ignored"
  | .fetched => "fetched"
  | .remaining => "remaining"
  | .queued => "queued"

/-- The name with a capital, as a heading has it. -/
def heading : Category → String
  | .built => "Built"
  | .failed => "Failed"
  | .skipped => "Skipped"
  | .ignored => "Ignored"
  | .fetched => "Fetched"
  | .remaining => "Remaining"
  | .queued => "Queued"

def ofName? (s : String) : Option Category := all.find? fun c => c.name == s

@[simp] theorem ofName?_name (c : Category) : ofName? c.name = some c := by cases c <;> decide

/-- What is wrong with a name that no category has. -/
def unknownName (s : String) : String := "Unknown port category: " ++ s

/-- Whether the list of a category only grows while a build runs. Packages leave the remaining
ones, and each of the others keeps what it has. -/
def isAppendOnly : Category → Bool
  | .remaining => false
  | _ => true

/-- The column headings of a category's table. -/
def columns : Category → List String
  | .built => ["#", "Package", "Origin", "Log", "Duration"]
  | .failed => ["#", "Package", "Origin", "Phase", "Skipped", "Log", "Duration"]
  | .skipped => ["#", "Package", "Origin", "Reason"]
  | .ignored => ["#", "Package", "Origin", "Skipped", "Reason"]
  | .fetched => ["#", "Package", "Origin"]
  | .remaining => ["#", "Package", "Status"]
  | .queued => ["#", "Package", "Origin", "Reason"]

end Category

/-! ## One value for each category -/

/-- A value of `α` for each category. -/
structure PerCategory (α : Type u) where
  built : α
  failed : α
  skipped : α
  ignored : α
  fetched : α
  remaining : α
  queued : α

namespace PerCategory

def all (a : α) : PerCategory α := ⟨a, a, a, a, a, a, a⟩

def get (p : PerCategory α) : Category → α
  | .built => p.built
  | .failed => p.failed
  | .skipped => p.skipped
  | .ignored => p.ignored
  | .fetched => p.fetched
  | .remaining => p.remaining
  | .queued => p.queued

def set (p : PerCategory α) (c : Category) (a : α) : PerCategory α :=
  match c with
  | .built => { p with built := a }
  | .failed => { p with failed := a }
  | .skipped => { p with skipped := a }
  | .ignored => { p with ignored := a }
  | .fetched => { p with fetched := a }
  | .remaining => { p with remaining := a }
  | .queued => { p with queued := a }

def map (f : α → β) (p : PerCategory α) : PerCategory β :=
  ⟨f p.built, f p.failed, f p.skipped, f p.ignored, f p.fetched, f p.remaining, f p.queued⟩

@[simp] theorem get_all (a : α) (c : Category) : (all a).get c = a := by cases c <;> rfl

@[simp] theorem get_map (f : α → β) (p : PerCategory α) (c : Category) :
    (p.map f).get c = f (p.get c) := by cases c <;> rfl

@[simp] theorem get_set_self (p : PerCategory α) (c : Category) (a : α) :
    (p.set c a).get c = a := by cases c <;> rfl

@[simp] theorem get_set_ne (p : PerCategory α) {c d : Category} (a : α) (h : d ≠ c) :
    (p.set c a).get d = p.get d := by
  cases c <;> cases d <;> simp_all [get, set]

end PerCategory

end BuildBoard
