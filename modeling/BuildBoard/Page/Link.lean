import BuildBoard.Duration
import BuildBoard.Page.Context
import BuildBoard.Text.Html
import BuildBoard.Text.Percent

/-!
# Links and cells

The pieces of markup that tables and panels are made of. Whatever comes from a report is escaped
here; the data directory is put into links as it is.
-/

namespace BuildBoard

open Html (escape)

/-! ## Addresses -/

namespace Link

/-- The history page of a master. -/
def historyUrl (hosting : Hosting) (mastername : String) : String :=
  match hosting with
  | .hosted =>
    if mastername.isEmpty then "#" else "jail.html?mastername=" ++ Percent.encode mastername
  | .inline => "../"

/-- The page of a build. -/
def buildUrl (mastername buildname : String) : String :=
  if mastername.isEmpty || buildname.isEmpty then ""
  else
    "build.html?mastername=" ++ Percent.encode mastername ++ "&build=" ++ Percent.encode buildname

/-- A link to the top of the page one is on. -/
def top (text : String) : String := "<a href=\"#top\">" ++ escape text ++ "</a>"

def titled (title url text : String) : String :=
  "<a title=\"" ++ title ++ "\" href=\"" ++ url ++ "\">" ++ text ++ "</a>"

/-- A master's name, as a link to its history. -/
def master (ctx : PageContext) (mastername : String) : String :=
  if mastername.isEmpty then ""
  else if ctx.kind = .jail && ctx.mastername == some mastername then top mastername
  else
    titled ("List builds for " ++ escape mastername)
      (escape (historyUrl ctx.hosting mastername)) (escape mastername)

/-- A build's name, as a link to its page. -/
def build (ctx : PageContext) (mastername buildname : String) : String :=
  if mastername.isEmpty then escape buildname
  else if buildname.isEmpty then ""
  else if ctx.kind = .build && ctx.mastername == some mastername &&
      ctx.buildname == some buildname then top buildname
  else
    titled ("Show build results for " ++ escape buildname)
      (escape (buildUrl mastername buildname)) (escape buildname)

/-- A package's build log below the data directory, among the logs of errors or all logs. -/
def log (dataUrl pkgname : String) (errors : Bool) (text : String) : String :=
  "<a target=\"logs\" title=\"Log for " ++ escape pkgname ++ "\" href=\"" ++ dataUrl ++ "logs/" ++
    (if errors then "errors/" else "") ++ escape pkgname ++
    ".log\"><span class=\"glyphicon glyphicon-file\"></span>" ++ escape text ++ "</a>"

def catalogUrl : String := "https://www.freshports.org"

/-- The name of an origin (`category/name`) as a link to the public catalogue. -/
def origin (origin flavor : Option String) : String :=
  match nonEmpty origin with
  | none => ""
  | some origin =>
    let chars := origin.toList
    let category := String.ofList (chars.takeWhile (· != '/'))
    let name := String.ofList ((chars.dropWhile (· != '/')).drop 1)
    let flavor := match nonEmpty flavor with
      | some f => "@" ++ escape f
      | none => ""
    "<a target=\"_new\" title=\"freshports for " ++ escape origin ++ "\" href=\"" ++ catalogUrl ++
      "/" ++ escape category ++ "/" ++ escape name ++
      "/\"><span class=\"glyphicon glyphicon-tasks\"></span>" ++ escape origin ++ flavor ++ "</a>"

/-- A count of skipped packages, as a link to the table of skipped ones unless it is zero. -/
def skipped (count : Int) (pkgname : String) : String :=
  if count = 0 then "0"
  else
    "<a href=\"#skipped\" title=\"Packages skipped due to " ++ escape pkgname ++
      "\" data-filter=\"" ++ escape pkgname ++
      "\"><span class=\"glyphicon glyphicon-filter\"></span>" ++ decimalText count ++ "</a>"

end Link

/-- The name of a package tree, with the set's name after it if there is one. -/
def treeAndSet (ptname setname : String) : String :=
  if setname.isEmpty then escape ptname else escape (ptname ++ "-" ++ setname)

end BuildBoard
