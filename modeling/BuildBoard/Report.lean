import BuildBoard.PageKind
import BuildBoard.Report.Summary
import BuildBoard.Text.Quoted

/-!
# Reports

A fetched document is a build, a history or an overview, whatever was asked for: its kind shows in
the fields that are set.

A document is refused for three causes: it is none of the three, it lists packages under a
category that does not exist, or it is a build document that contradicts itself. Nothing else in it
is ever an error.
-/

namespace BuildBoard

inductive Report where
  | build (r : BuildReport)
  | history (r : HistoryReport)
  | overview (r : OverviewReport)

/-- Why a document is refused. -/
inductive ReportError where
  | unknownDataType
  | unknownCategory (name : String)
  | malformed (cause : Malformation)

/-! ## Error texts -/

/-- What a value is called where another type was expected. -/
def Document.describe : Document → String
  | .null => "null"
  | .bool b => "boolean `" ++ (if b then "true" else "false") ++ "`"
  | .int n => "integer `" ++ decimalText n ++ "`"
  | .double x => "floating point `" ++ documentStyle.text x ++ "`"
  | .text s => "string " ++ Quoted.quote s
  | .array _ => "sequence"
  | .object _ => "map"

def Malformation.message : Malformation → String
  | .jailTwice => "duplicate field `jailname`"
  | .skippedNotMap found => "invalid type: " ++ found.describe ++ ", expected a map"

def ReportError.message : ReportError → String
  | .unknownDataType => "Invalid request. Unknown data type."
  | .unknownCategory name => "Unknown data type \"" ++ name ++ "\". Try flushing cache."
  | .malformed cause => "Malformed snapshot: " ++ cause.message

/-! ## Classification -/

namespace Report

def kind : Report → PageKind
  | .build _ => .build
  | .history _ => .jail
  | .overview _ => .index

/-- The first key of a build's package lists that names no category. -/
def unknownCategory? (fields : List (String × Document)) : Option String :=
  match fields.lookup "ports" with
  | some (.object lists) => (lists.map Prod.fst).find? fun key => !Packages.isKnownKey key
  | _ => none

/-- The kind of a document with these fields: that of the first naming field that is set. -/
def kindOf? (fields : List (String × Document)) : Option PageKind :=
  if Document.isSet (fields.lookup "buildname") then some .build
  else if Document.isSet (fields.lookup "builds") then some .jail
  else if Document.isSet (fields.lookup "masternames") then some .index
  else none

/-- The report that a document gives. -/
def ofDocument : Document → Except ReportError Report
  | .object fields =>
    match kindOf? fields with
    | none => .error .unknownDataType
    | some .build =>
      match unknownCategory? fields with
      | some name => .error (.unknownCategory name)
      | none => ((BuildReport.decode fields).map Report.build).mapError ReportError.malformed
    | some .jail => .ok (.history (HistoryReport.decode fields))
    | some .index => .ok (.overview (OverviewReport.decode fields))
  | _ => .error .unknownDataType

end Report

end BuildBoard
