import BreakpointProps.Config.Json
import BreakpointProps.Report
import BreakpointProps.Timestamp.Read

/-!
Reports as JSON. A field that may be missing is left out where it is.
-/

namespace BreakpointProps

open Json (Tree Fault Origin)

/-- A field that is left out if it is missing. -/
def Json.optionalField {α : Type} (name : String) (encode : α → Json) : Option α → List (String × Json)
  | some value => [(name, encode value)]
  | none => []

/-- The outcome for a file as JSON. -/
def FileOutcome.toJson (file : FileOutcome) : Json :=
  .object
    ([("rewritten", .bool file.rewritten), ("elements", .ofNat file.elements)]
      ++ Json.optionalField "output" .string file.output ++ Json.optionalField "map" .string file.map
      ++ Json.optionalField "error" .string file.error)

namespace Report

/-- What a report says about the whole build, as JSON. -/
def metadataJson (report : Report) : Json :=
  .object
    ([("version", .string report.version), ("generated_at", .string report.generatedAt.text),
        ("files_processed", .ofNat report.processed), ("files_rewritten", .ofNat report.rewritten),
        ("elements_rewritten", .ofNat report.elements), ("files_failed", .ofNat report.failed),
        ("mode", .string report.mode.name)]
      ++ Json.optionalField "tool_version" .string report.toolVersion)

/-- The report as JSON. -/
def toJson (report : Report) : Json :=
  .object
    ([("metadata", report.metadataJson),
        ("files", .object (report.files.map fun (path, file) => (path, file.toJson)))]
      ++ Json.optionalField "processing_time_ms" .ofNat report.elapsed)

def text (report : Report) : String := report.toJson.pretty

end Report

/-- The point in time that a tree tells. -/
def Timestamp.decode (tree : Tree) : Except Fault Timestamp :=
  match tree with
  | .string s stop =>
    match Timestamp.ofText s with
    | .ok time => .ok time
    | .error flaw => .error ⟨.noTime flaw.message, stop⟩
  | tree => .error (tree.mismatch "an RFC 3339 formatted date and time string")

def FileOutcome.shape : Tree.Shape :=
  ⟨"FileReport", ["rewritten", "elements", "output", "map", "error"], false⟩

/-- The outcome for a file as far as it is known. -/
structure FileOutcome.Draft where
  rewritten : Option Bool := none
  elements : Option Nat := none
  file : FileOutcome := {}

def FileOutcome.Draft.store (draft : Draft) (name : String) (value : Tree) : Except Fault Draft :=
  match name with
  | "rewritten" => do return { draft with rewritten := some (← value.asBool) }
  | "elements" => do return { draft with elements := some (← value.asNat "usize") }
  | "output" => do
    let output ← value.asOption Tree.asString
    return { draft with file := { draft.file with output } }
  | "map" => do
    let map ← value.asOption Tree.asString
    return { draft with file := { draft.file with map } }
  | _ => do
    let error ← value.asOption Tree.asString
    return { draft with file := { draft.file with error } }

def FileOutcome.decode (origin : Origin) (tree : Tree) : Except Fault FileOutcome := do
  let (draft, stop) ← tree.asRecord origin FileOutcome.shape Draft.store {}
  let rewritten ← Tree.required "rewritten" stop draft.rewritten
  let elements ← Tree.required "elements" stop draft.elements
  return { draft.file with rewritten, elements }

namespace Report

/-- What a report says about the whole build, as far as it is known. -/
structure Metadata where
  version : Option String := none
  generatedAt : Option Timestamp := none
  processed : Option Nat := none
  rewritten : Option Nat := none
  elements : Option Nat := none
  failed : Option Nat := none
  mode : Option Mode := none
  toolVersion : Option String := none

/-- The fields that tell about the whole build. -/
def metadataShape : Tree.Shape :=
  ⟨"ReportMetadata",
    ["version", "generated_at", "files_processed", "files_rewritten", "elements_rewritten",
      "files_failed", "mode", "tool_version"], false⟩

/-- Fill in a field about the whole build. -/
def Metadata.store (data : Metadata) (name : String) (value : Tree) : Except Fault Metadata :=
  match name with
  | "version" => do return { data with version := some (← value.asString) }
  | "generated_at" => do return { data with generatedAt := some (← Timestamp.decode value) }
  | "files_processed" => do return { data with processed := some (← value.asNat "usize") }
  | "files_rewritten" => do return { data with rewritten := some (← value.asNat "usize") }
  | "elements_rewritten" => do return { data with elements := some (← value.asNat "usize") }
  | "files_failed" => do return { data with failed := some (← value.asNat "usize") }
  | "mode" => do return { data with mode := some (← Mode.decode .text value) }
  | _ => do return { data with toolVersion := ← value.asOption Tree.asString }

/-- A report without files from what a tree tells about the whole build. -/
def decodeMetadata (tree : Tree) : Except Fault Report := do
  let (data, stop) ← tree.asRecord .text metadataShape Metadata.store {}
  return {
    version := ← Tree.required "version" stop data.version
    generatedAt := ← Tree.required "generated_at" stop data.generatedAt
    processed := ← Tree.required "files_processed" stop data.processed
    rewritten := ← Tree.required "files_rewritten" stop data.rewritten
    elements := ← Tree.required "elements_rewritten" stop data.elements
    failed := ← Tree.required "files_failed" stop data.failed
    mode := ← Tree.required "mode" stop data.mode
    toolVersion := data.toolVersion
    files := []
    elapsed := none }

/-- A report as far as it is known. -/
structure Draft where
  metadata : Option Report := none
  files : Option (List (String × FileOutcome)) := none
  elapsed : Option Nat := none

def shape : Tree.Shape := ⟨"BuildReport", ["metadata", "files", "processing_time_ms"], false⟩

/-- The outcomes for the files, in the order in which the paths first came. -/
def decodeFiles (tree : Tree) : Except Fault (List (String × FileOutcome)) := do
  let members ← tree.asMembers (FileOutcome.decode .text)
  return members.foldl (fun files (path, file) => setFile path file files) []

def Draft.store (draft : Draft) (name : String) (value : Tree) : Except Fault Draft :=
  match name with
  | "metadata" => do return { draft with metadata := some (← decodeMetadata value) }
  | "files" => do return { draft with files := some (← decodeFiles value) }
  | _ => do return { draft with elapsed := ← value.asOption (Tree.asNat "u64") }

def decode (tree : Tree) : Except Fault Report := do
  let (draft, stop) ← tree.asRecord .text shape Draft.store {}
  let metadata ← Tree.required "metadata" stop draft.metadata
  let files ← Tree.required "files" stop draft.files
  return { metadata with files, elapsed := draft.elapsed }

def ofText (text : String) : Except Fault Report := Json.decodeText decode text

end Report

end BreakpointProps
