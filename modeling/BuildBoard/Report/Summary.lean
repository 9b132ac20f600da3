import BuildBoard.Report.Build

/-!
# History and overview reports

The history of a master lists summaries of its builds; the overview lists the masters, each with
the summary of its latest build.
-/

namespace BuildBoard

/-- What the history and the overview say of one build. -/
structure BuildSummary where
  mastername : String
  buildname : String
  jailname : String
  setname : String
  ptname : String
  status : Option String
  stats : Option Stats
  /-- Seconds, or a text that the producer has formatted. -/
  elapsed : Option Document

namespace BuildSummary

def fieldNames : List String :=
  ["mastername", "buildname", "jailname", "setname", "ptname", "status", "stats", "elapsed"]

def ofFields (field : String → Option Document) : BuildSummary where
  mastername := Document.textOr (field "mastername")
  buildname := Document.textOr (field "buildname")
  jailname := Document.textOr (field "jailname")
  setname := Document.textOr (field "setname")
  ptname := Document.textOr (field "ptname")
  status := Document.text? (field "status")
  stats := Document.optional Stats.decode? (field "stats")
  elapsed := Document.optional some (field "elapsed")

def decode? (d : Document) : Option BuildSummary := (d.record? fieldNames).map ofFields

/-- Packages that wait for a result; none without stats. -/
def remaining (b : BuildSummary) : Int := (b.stats.map Stats.remaining).getD 0

def checkedRemaining (b : BuildSummary) : Checked Int :=
  match b.stats with
  | some stats => stats.checkedRemaining
  | none => pure 0

end BuildSummary

/-! ## History -/

structure HistoryReport where
  mastername : String
  /-- The name of the most recent build. -/
  latest : Option String
  /-- The builds by name, in the order of names. -/
  builds : List (String × BuildSummary)

namespace HistoryReport

/-- The key of the list of builds that does not name a build but points to one. -/
def latestKey : String := "latest"

/-- The build pointed to: a name, or an object that has one. -/
def latestOf : Document → Option String
  | .text name => some name
  | .object fields =>
    match fields.lookup "buildname" with
    | some (.text name) => some name
    | _ => none
  | _ => none

/-- The summary under a key; a build is always written as an object. -/
def buildOf : String × Document → Option (String × BuildSummary)
  | (key, .object fields) =>
    if key = latestKey then none
    else (BuildSummary.decode? (.object fields)).map fun b => (key, b)
  | _ => none

def decode (fields : List (String × Document)) : HistoryReport :=
  let builds := match fields.lookup "builds" with
    | some (.object builds) => builds
    | _ => []
  { mastername := Document.textOr (fields.lookup "mastername")
    latest := (builds.lookup latestKey).bind latestOf
    builds := builds.filterMap buildOf }

/-- The summary of the most recent build, if it is listed. -/
def latestSummary? (r : HistoryReport) : Option BuildSummary :=
  r.latest.bind fun name => r.builds.lookup name

end HistoryReport

/-! ## Overview -/

structure OverviewReport where
  /-- The masters by name, each with its latest build if it has one. -/
  masters : List (String × Option BuildSummary)

namespace OverviewReport

/-- The masters that have a build. -/
def built (r : OverviewReport) : List (String × BuildSummary) :=
  r.masters.filterMap fun (key, latest) => latest.map (key, ·)

/-- A master's entry: a record of one field. -/
def masterOf (entry : String × Document) : Option (String × Option BuildSummary) :=
  (entry.2.record? ["latest"]).map fun field =>
    (entry.1, Document.optional BuildSummary.decode? (field "latest"))

def decode (fields : List (String × Document)) : OverviewReport :=
  match fields.lookup "masternames" with
  | some (.object masters) => ⟨masters.filterMap masterOf⟩
  | _ => ⟨[]⟩

end OverviewReport

end BuildBoard
