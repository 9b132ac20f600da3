import BuildBoard.Report.Entry
import BuildBoard.Report.Job
import BuildBoard.Report.Stats

/-!
# Build reports

The status document of one build. Older producers have no list of jobs and write the workers where
the status stands; such a report is brought into the newer form.
-/

namespace BuildBoard

/-- The status of a build, or the list of workers in its place. -/
inductive BuildStatus where
  | text (s : String)
  | workers (jobs : List Job)
deriving DecidableEq

/-- A decoded field that may be missing; one that does not decode counts as missing. -/
def Document.optional (decode : Document → Option α) (field : Option Document) : Option α :=
  match field with
  | none | some .null => none
  | some d => decode d

structure BuildReport where
  mastername : String
  buildname : String
  jailname : String
  setname : String
  ptname : String
  status : Option BuildStatus
  stats : Option Stats
  snap : Option Snap
  jobs : Option (List Job)
  packages : Option Packages
  /-- Packages with the number of others skipped because of them. -/
  skipped : List (String × Int)
  overlays : Option String
  gitHash : Option String
  gitDirty : Option String
  svnUrl : Option String
deriving DecidableEq

/-- What makes a build document unreadable. -/
inductive Malformation where
  /-- The jail is named twice, as `jail` and as `jailname`. -/
  | jailTwice
  /-- The skip counts are not given as an object. -/
  | skippedNotMap (found : Document)

namespace BuildReport

/-! ## The status -/

/-- Numbers are taken for text, arrays for the workers of an older producer. -/
def statusOf (field : Option Document) : Option BuildStatus :=
  match field with
  | some (.text s) => some (.text s)
  | some (.int n) => some (.text (decimalText n))
  | some (.double x) => some (.text (documentStyle.text x))
  | some (.array items) => some (.workers (Document.rows Job.decode? (.array items)))
  | _ => none

/-- The raw status, where it is one text. -/
def statusText? (r : BuildReport) : Option String :=
  match r.status with
  | some (.text s) => some s
  | _ => none

/-- Moves workers from the status to the jobs, unless there are jobs. A first worker named `main`
is no builder: its status is that of the build. -/
def normalize (r : BuildReport) : BuildReport :=
  match r.jobs, r.status with
  | none, some (.workers (main :: jobs)) =>
    if main.id = "main" then { r with status := some (.text main.status), jobs := some jobs }
    else { r with status := none, jobs := some (main :: jobs) }
  | none, some (.workers []) => { r with status := none, jobs := some [] }
  | _, _ => r

/-! ## Decoding -/

/-- The jail's name, under the newer or the older name of the field. -/
def jailField (fields : List (String × Document)) : Option Document :=
  match fields.lookup "jailname" with
  | some d => some d
  | none => fields.lookup "jail"

/-- The fields as they are written. -/
def ofFields (fields : List (String × Document)) (skipped : List (String × Int)) :
    BuildReport where
  mastername := Document.textOr (fields.lookup "mastername")
  buildname := Document.textOr (fields.lookup "buildname")
  jailname := Document.textOr (jailField fields)
  setname := Document.textOr (fields.lookup "setname")
  ptname := Document.textOr (fields.lookup "ptname")
  status := statusOf (fields.lookup "status")
  stats := Document.optional Stats.decode? (fields.lookup "stats")
  snap := Document.optional Snap.decode? (fields.lookup "snap")
  jobs := Document.rows? Job.decode? (fields.lookup "jobs")
  packages := Document.optional Packages.decode? (fields.lookup "ports")
  skipped := skipped
  overlays := Document.text? (fields.lookup "overlays")
  gitHash := Document.text? (fields.lookup "git_hash")
  gitDirty := Document.text? (fields.lookup "git_dirty")
  svnUrl := Document.text? (fields.lookup "svn_url")

/-- The report of a build document with these fields. -/
def decode (fields : List (String × Document)) : Except Malformation BuildReport :=
  if (fields.lookup "jail").isSome && (fields.lookup "jailname").isSome then .error .jailTwice
  else match Document.counts? (fields.lookup "skipped") with
    | some skipped => .ok (ofFields fields skipped).normalize
    | none => .error (.skippedNotMap ((fields.lookup "skipped").getD .null))

/-- The number of packages skipped because of this one. -/
def skippedCount (r : BuildReport) (pkgname : String) : Int := (r.skipped.lookup pkgname).getD 0

end BuildReport

end BuildBoard
