import BuildBoard.PageKind
import BuildBoard.Report

/-!
# Page contexts

Which page is shown, and in which directory its data lies.
-/

namespace BuildBoard

/-- What ends monitoring with a message. -/
inductive MonitorError where
  | missingBuild
  | missingMaster
  | noData
  | report (e : ReportError)

def MonitorError.message : MonitorError → String
  | .missingBuild => "Invalid request. Mastername and Build required."
  | .missingMaster => "Invalid request. Mastername required."
  | .noData => "Invalid request or no data available yet."
  | .report e => e.message

structure PageContext where
  kind : PageKind
  hosting : Hosting
  mastername : Option String
  buildname : Option String
  /-- The data directory below the root of all data, with a slash at the end unless empty. -/
  dataUrl : String
deriving DecidableEq, Inhabited

namespace PageContext

/-- The data directory of a page. A page that stands next to its data has none. -/
def dataUrlOf (kind : PageKind) (hosting : Hosting) (mastername buildname : Option String) :
    String :=
  match hosting with
  | .inline => ""
  | .hosted =>
    let master := mastername.getD ""
    let build := buildname.getD ""
    match kind with
    | .build => "data/" ++ master ++ "/" ++ build ++ "/"
    | .jail => "data/" ++ master ++ "/"
    | .index => "data/"

def new (kind : PageKind) (hosting : Hosting) (mastername buildname : Option String) :
    PageContext :=
  ⟨kind, hosting, mastername, buildname, dataUrlOf kind hosting mastername buildname⟩

/-- The context with its data directory computed again. -/
def relocate (ctx : PageContext) : PageContext :=
  { ctx with dataUrl := dataUrlOf ctx.kind ctx.hosting ctx.mastername ctx.buildname }

/-- The context of a requested page. A hosted page is found by its master, and a build also by
its own name, so those must be given; empty names count as not given. -/
def ofRequest (kind : PageKind) (hosting : Hosting) (mastername buildname : Option String) :
    Except MonitorError PageContext :=
  let master := nonEmpty mastername
  let build := nonEmpty buildname
  match hosting, kind with
  | .hosted, .build =>
    if master.isNone || build.isNone then .error .missingBuild
    else .ok (new kind hosting master build)
  | .hosted, .jail =>
    if master.isNone then .error .missingMaster else .ok (new kind hosting master build)
  | _, _ => .ok (new kind hosting master build)

end PageContext

end BuildBoard
