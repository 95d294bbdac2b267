import Mathlib.Algebra.Order.BigOperators.Group.List
import Mathlib.Data.List.Nodup
import BreakpointProps.Proofs.Json.Taking
import BreakpointProps.Proofs.Report
import BreakpointProps.Proofs.Timestamp.Reading
import BreakpointProps.Report.Json

/-!
Reports and their JSON. A report is read back from its text: what it says about the whole build, its point in
time, the outcomes in their order, and for each field that may be missing whether it is there.
-/

namespace BreakpointProps

open Json (Tree Fault Decodes Stored Spacing optionalField)

section Fields

theorem Json.map_fst_optionalField_sublist {α : Type} (name : String) (encode : α → Json) (value : Option α) :
    ((optionalField name encode value).map Prod.fst).Sublist [name] := by
  cases value with
  | none => exact List.nil_sublist _
  | some a => exact List.Sublist.refl _

theorem Json.forall_mem_optionalField {α : Type} {holds : String × Json → Prop} {name : String} {encode : α → Json}
    {value : Option α} :
    (∀ m ∈ optionalField name encode value, holds m) ↔ ∀ a ∈ value, holds (name, encode a) := by
  cases value <;> simp [optionalField]

theorem Json.hasWholeNumbers_string (s : String) : (Json.string s).HasWholeNumbers := nofun

theorem Json.hasWholeNumbers_ofNat {n : Nat} (hn : n < 2 ^ 64) : (Json.ofNat n).HasWholeNumbers := by
  intro number hnumber
  obtain rfl := List.mem_singleton.mp hnumber
  exact ⟨by omega, by omega⟩

/-- A field that may be missing is filled in if it is there. -/
theorem Json.stored_optionalField {α σ : Type} {store : σ → String → Tree → Except Fault σ} {name : String}
    {decode : Tree → Except Fault α} {encode : α → Json} (state : Option α → σ)
    (hstore : store (state none) name = fun tree => do return state (← tree.asOption decode))
    (hdecode : ∀ a, Decodes decode (encode a) a) (hnull : ∀ a, encode a ≠ .null) (value : Option α) :
    Stored store (state none) (optionalField name encode value) (state value) := by
  cases value with
  | none => exact .nil _
  | some a =>
      have hfield := (Json.decodes_asOption (hdecode a) (hnull a)).map state
      rw [← hstore] at hfield
      exact .cons hfield (.nil _)

theorem Mode.decodes_name (mode : Mode) : Decodes (Mode.decode .text) (.string mode.name) mode := by
  have hname : mode.name ∈ Mode.names := by cases mode <;> decide
  have hmode : (Mode.ofName? mode.name).getD .production = mode := by cases mode <;> rfl
  have hdecodes := (Json.decodes_asChoiceOfText hname).map fun name => (Mode.ofName? name).getD .production
  rwa [hmode] at hdecodes

theorem Timestamp.decodes_text {time : Timestamp} (hcommon : time.IsCommon) :
    Decodes Timestamp.decode (.string time.text) time := by
  rintro _ ⟨⟩
  rw [Timestamp.decode, Timestamp.ofText_text hcommon]

end Fields

section Outcomes

namespace FileOutcome

/-- The fields of the outcome for a file as they are written. -/
def fields (file : FileOutcome) : List (String × Json) :=
  [("rewritten", .bool file.rewritten), ("elements", .ofNat file.elements)]
    ++ optionalField "output" .string file.output ++ optionalField "map" .string file.map
    ++ optionalField "error" .string file.error

theorem toJson_eq (file : FileOutcome) : file.toJson = .object file.fields := rfl

theorem map_fst_fields_sublist (file : FileOutcome) : (file.fields.map Prod.fst).Sublist shape.fields := by
  simp only [fields, List.map_append]
  exact (((List.Sublist.refl _).append (Json.map_fst_optionalField_sublist _ _ _)).append
    (Json.map_fst_optionalField_sublist _ _ _)).append (Json.map_fst_optionalField_sublist _ _ _)

/-- The fields of the outcome for a file fill in what is known of it. -/
theorem stored_fields (file : FileOutcome) :
    Stored Draft.store {} file.fields
      ⟨some file.rewritten, some file.elements, { file with rewritten := false, elements := 0 }⟩ := by
  obtain ⟨rewritten, elements, output, map, error⟩ := file
  have hrequired : Stored Draft.store {} [("rewritten", .bool rewritten), ("elements", .ofNat elements)]
      ⟨some rewritten, some elements, {}⟩ :=
    .field (fun rewritten => ⟨some rewritten, none, {}⟩) rfl (Json.decodes_asBool rewritten)
      (.field (fun elements => ⟨some rewritten, some elements, {}⟩) rfl (Json.decodes_asNat _ elements) (.nil _))
  have houtput : Stored Draft.store _ (optionalField "output" .string output) _ :=
    Json.stored_optionalField (fun output => ⟨some rewritten, some elements, { output }⟩) rfl
      Json.decodes_asString nofun output
  have hmap : Stored Draft.store _ (optionalField "map" .string map) _ :=
    Json.stored_optionalField (fun map => ⟨some rewritten, some elements, { output, map }⟩) rfl
      Json.decodes_asString nofun map
  have herror : Stored Draft.store _ (optionalField "error" .string error) _ :=
    Json.stored_optionalField (fun error => ⟨some rewritten, some elements, { output, map, error }⟩) rfl
      Json.decodes_asString nofun error
  exact ((hrequired.append houtput).append hmap).append herror

/-- The outcome for a file is found in a reading of its JSON. -/
theorem decodes_toJson (file : FileOutcome) : Decodes (FileOutcome.decode .text) file.toJson file := by
  intro tree htells
  rw [toJson_eq] at htells
  obtain ⟨stop, hrecord⟩ := Json.exists_asRecord file.stored_fields file.map_fst_fields_sublist (by decide) .text htells
  rw [FileOutcome.decode, hrecord]
  rfl

theorem hasWholeNumbers_toJson {file : FileOutcome} (helements : file.elements < 2 ^ 64) :
    file.toJson.HasWholeNumbers := by
  rw [toJson_eq, Json.hasWholeNumbers_object]
  simp only [fields, List.forall_mem_append, List.forall_mem_cons, Json.forall_mem_optionalField]
  exact ⟨⟨⟨⟨nofun, Json.hasWholeNumbers_ofNat helements, List.forall_mem_nil _⟩,
    fun s _ => Json.hasWholeNumbers_string s⟩, fun s _ => Json.hasWholeNumbers_string s⟩,
    fun s _ => Json.hasWholeNumbers_string s⟩

theorem depth_toJson_le (file : FileOutcome) : file.toJson.depth ≤ 1 := by
  rw [toJson_eq, Json.depth, Nat.add_le_add_iff_right, Json.depthOfMembers_le_iff]
  simp only [fields, List.forall_mem_append, List.forall_mem_cons, Json.forall_mem_optionalField]
  exact ⟨⟨⟨⟨Nat.le_refl 0, Nat.le_refl 0, List.forall_mem_nil _⟩, fun _ _ => Nat.le_refl 0⟩, fun _ _ => Nat.le_refl 0⟩,
    fun _ _ => Nat.le_refl 0⟩

end FileOutcome

end Outcomes

namespace Report

section Whole

/-- The fields about the whole build as they are written. -/
def metadataFields (report : Report) : List (String × Json) :=
  [("version", .string report.version), ("generated_at", .string report.generatedAt.text),
      ("files_processed", .ofNat report.processed), ("files_rewritten", .ofNat report.rewritten),
      ("elements_rewritten", .ofNat report.elements), ("files_failed", .ofNat report.failed),
      ("mode", .string report.mode.name)]
    ++ optionalField "tool_version" .string report.toolVersion

theorem metadataJson_eq (report : Report) : report.metadataJson = .object report.metadataFields := rfl

theorem map_fst_metadataFields_sublist (report : Report) :
    (report.metadataFields.map Prod.fst).Sublist metadataShape.fields := by
  rw [metadataFields, List.map_append]
  exact (List.Sublist.refl _).append (Json.map_fst_optionalField_sublist _ _ _)

variable {report : Report}

/-- The fields about the whole build fill in what is known of it. -/
theorem stored_metadataFields (hcommon : report.generatedAt.IsCommon) :
    Stored Metadata.store {} report.metadataFields
      ⟨some report.version, some report.generatedAt, some report.processed, some report.rewritten,
        some report.elements, some report.failed, some report.mode, report.toolVersion⟩ := by
  obtain ⟨version, time, processed, rewritten, elements, failed, mode, toolVersion, files, elapsed⟩ := report
  refine Stored.append ?_ (Json.stored_optionalField (Metadata.mk (some version) (some time) (some processed)
    (some rewritten) (some elements) (some failed) (some mode)) rfl Json.decodes_asString nofun toolVersion)
  exact .field (fun version => { version := some version }) rfl (Json.decodes_asString version)
    (.field (fun time => { version := some version, generatedAt := some time }) rfl (Timestamp.decodes_text hcommon)
    (.field (fun processed => ⟨some version, some time, some processed, none, none, none, none, none⟩) rfl
      (Json.decodes_asNat _ processed)
    (.field (fun rewritten => ⟨some version, some time, some processed, some rewritten, none, none, none, none⟩) rfl
      (Json.decodes_asNat _ rewritten)
    (.field (fun elements => ⟨some version, some time, some processed, some rewritten, some elements, none, none, none⟩)
      rfl (Json.decodes_asNat _ elements)
    (.field (fun failed => ⟨some version, some time, some processed, some rewritten, some elements, some failed, none,
        none⟩) rfl (Json.decodes_asNat _ failed)
    (.field (fun mode => ⟨some version, some time, some processed, some rewritten, some elements, some failed,
        some mode, none⟩) rfl mode.decodes_name (.nil _)))))))

/-- What a report says about the whole build is found in a reading of its JSON. -/
theorem decodes_metadataJson (hcommon : report.generatedAt.IsCommon) :
    Decodes decodeMetadata report.metadataJson { report with files := [], elapsed := none } := by
  intro tree htells
  rw [metadataJson_eq] at htells
  obtain ⟨stop, hrecord⟩ := Json.exists_asRecord (stored_metadataFields hcommon) report.map_fst_metadataFields_sublist
    (by decide) .text htells
  rw [decodeMetadata, hrecord]
  rfl

theorem depth_metadataJson_le (report : Report) : report.metadataJson.depth ≤ 1 := by
  rw [metadataJson_eq, Json.depth, Nat.add_le_add_iff_right, Json.depthOfMembers_le_iff, metadataFields]
  rw [List.forall_mem_append, Json.forall_mem_optionalField]
  exact ⟨by simp [Json.depth, Json.ofNat], fun _ _ => Nat.le_refl 0⟩

/-- Outcomes for paths that all differ stay as they are. -/
theorem foldl_setFile_of_nodup {files : List (String × FileOutcome)} (hdistinct : (files.map Prod.fst).Nodup) :
    files.foldl (fun files (path, file) => setFile path file files) [] = files := by
  induction files using List.reverseRecOn with
  | nil => rfl
  | append_singleton front entry ih =>
      rw [List.map_append, List.nodup_append] at hdistinct
      have hpath : entry.1 ∉ front.map Prod.fst := fun hmem =>
        hdistinct.2.2 _ hmem _ (List.mem_singleton.mpr rfl) rfl
      rw [List.foldl_append, ih hdistinct.1]
      exact setFile_of_not_mem hpath

/-- The outcomes for files are found in their order. -/
theorem decodes_files {files : List (String × FileOutcome)} (hdistinct : (files.map Prod.fst).Nodup) :
    Decodes decodeFiles (.object (files.map fun (path, file) => (path, file.toJson))) files := by
  have hfiles := (Json.decodes_asMembers fun (entry : String × FileOutcome) (_ : entry ∈ files) =>
    entry.2.decodes_toJson).map fun members => members.foldl (fun files (path, file) => setFile path file files) []
  rwa [foldl_setFile_of_nodup hdistinct] at hfiles

/-- The fields of a report as they are written. -/
def fields (report : Report) : List (String × Json) :=
  [("metadata", report.metadataJson), ("files", .object (report.files.map fun (path, file) => (path, file.toJson)))]
    ++ optionalField "processing_time_ms" .ofNat report.elapsed

theorem toJson_eq (report : Report) : report.toJson = .object report.fields := rfl

/-- Can a report be told in JSON? Its point in time is a common one, it has one outcome for each path, and all
counts fit into 64 bits. -/
structure IsTellable (report : Report) : Prop where
  isCommon : report.generatedAt.IsCommon
  distinct : (report.files.map Prod.fst).Nodup
  processed : report.processed < 2 ^ 64
  rewritten : report.rewritten < 2 ^ 64
  elements : report.elements < 2 ^ 64
  failed : report.failed < 2 ^ 64
  files : ∀ entry ∈ report.files, entry.2.elements < 2 ^ 64
  elapsed : ∀ n ∈ report.elapsed, n < 2 ^ 64

theorem decodes_toJson (htellable : report.IsTellable) : Decodes decode report.toJson report := by
  intro tree htells
  rw [toJson_eq] at htells
  have hnames : (report.fields.map Prod.fst).Sublist shape.fields := by
    rw [fields, List.map_append]
    exact (List.Sublist.refl _).append (Json.map_fst_optionalField_sublist _ _ _)
  have hstored : Stored Draft.store {} report.fields
      ⟨some { report with files := [], elapsed := none }, some report.files, report.elapsed⟩ := by
    refine Stored.append ?_ (Json.stored_optionalField (Draft.mk (some { report with files := [], elapsed := none })
      (some report.files)) rfl (Json.decodes_asNat "u64") nofun report.elapsed)
    exact .field (fun metadata => ⟨some metadata, none, none⟩) rfl (decodes_metadataJson htellable.isCommon)
      (.field (fun files => ⟨some { report with files := [], elapsed := none }, some files, none⟩) rfl
        (decodes_files htellable.distinct) (.nil _))
  obtain ⟨stop, hrecord⟩ := Json.exists_asRecord hstored hnames (by decide) .text htells
  rw [decode, hrecord]
  rfl

theorem hasWholeNumbers_metadataJson (htellable : report.IsTellable) : report.metadataJson.HasWholeNumbers := by
  rw [metadataJson_eq, Json.hasWholeNumbers_object]
  simp only [metadataFields, List.forall_mem_append, List.forall_mem_cons, Json.forall_mem_optionalField]
  exact ⟨⟨Json.hasWholeNumbers_string _, Json.hasWholeNumbers_string _, Json.hasWholeNumbers_ofNat htellable.processed,
    Json.hasWholeNumbers_ofNat htellable.rewritten, Json.hasWholeNumbers_ofNat htellable.elements,
    Json.hasWholeNumbers_ofNat htellable.failed, Json.hasWholeNumbers_string _, List.forall_mem_nil _⟩,
    fun s _ => Json.hasWholeNumbers_string s⟩

theorem hasWholeNumbers_toJson (htellable : report.IsTellable) : report.toJson.HasWholeNumbers := by
  have hfiles : (Json.object (report.files.map fun (path, file) => (path, file.toJson))).HasWholeNumbers := by
    rw [Json.hasWholeNumbers_object, List.forall_mem_map]
    exact fun entry hentry => FileOutcome.hasWholeNumbers_toJson (htellable.files entry hentry)
  rw [toJson_eq, Json.hasWholeNumbers_object]
  simp only [fields, List.forall_mem_append, List.forall_mem_cons, Json.forall_mem_optionalField]
  exact ⟨⟨hasWholeNumbers_metadataJson htellable, hfiles, List.forall_mem_nil _⟩,
    fun n hn => Json.hasWholeNumbers_ofNat (htellable.elapsed n hn)⟩

theorem depth_toJson_le (report : Report) : report.toJson.depth ≤ 3 := by
  have hfiles : (Json.object (report.files.map fun (path, file) => (path, file.toJson))).depth ≤ 2 := by
    rw [Json.depth, Nat.add_le_add_iff_right, Json.depthOfMembers_le_iff, List.forall_mem_map]
    exact fun entry _ => entry.2.depth_toJson_le
  rw [toJson_eq, Json.depth, Nat.add_le_add_iff_right, Json.depthOfMembers_le_iff]
  simp only [fields, List.forall_mem_append, List.forall_mem_cons, Json.forall_mem_optionalField]
  exact ⟨⟨report.depth_metadataJson_le.trans (by decide), hfiles, List.forall_mem_nil _⟩, fun _ _ => Nat.zero_le 2⟩

/-- A report that can be told in JSON is read from its text. -/
theorem ofText_text_of_isTellable (htellable : report.IsTellable) : ofText report.text = .ok report := by
  rw [text, Spacing.pretty_eq]
  exact Json.decodeText_of_decodes (decodes_toJson htellable) .lines (hasWholeNumbers_toJson htellable)
    (report.depth_toJson_le.trans (by decide))

end Whole

section Recorded

variable {time : Timestamp} {told : List (String × FileOutcome)}

/-- Is a report one of some time with an outcome for each path that is among those told? -/
structure StemsFrom (report : Report) (time : Timestamp) (told : List (String × FileOutcome)) : Prop where
  generatedAt : report.generatedAt = time
  distinct : (report.files.map Prod.fst).Nodup
  entries : ∀ entry ∈ report.files, entry ∈ told

theorem mem_setFile {path : String} {file : FileOutcome} {files : List (String × FileOutcome)}
    {entry : String × FileOutcome} (hentry : entry ∈ setFile path file files) :
    entry ∈ files ∨ entry = (path, file) := by
  induction files with
  | nil => exact Or.inr (List.mem_singleton.mp hentry)
  | cons first rest ih =>
      obtain ⟨other, held⟩ := first
      rw [setFile] at hentry
      split at hentry
      · rcases List.mem_cons.mp hentry with hnew | hold
        · exact Or.inr hnew
        · exact Or.inl (List.mem_cons_of_mem _ hold)
      · rcases List.mem_cons.mp hentry with hfirst | hlater
        · exact Or.inl (hfirst ▸ List.mem_cons_self)
        · exact (ih hlater).imp_left (List.mem_cons_of_mem _)

theorem nodup_setFile {files : List (String × FileOutcome)} (hdistinct : (files.map Prod.fst).Nodup) (path : String)
    (file : FileOutcome) : ((setFile path file files).map Prod.fst).Nodup := by
  by_cases hpath : path ∈ files.map Prod.fst
  · rwa [map_fst_setFile_of_mem hpath]
  · rw [setFile_of_not_mem hpath, List.map_append, List.nodup_append]
    refine ⟨hdistinct, List.nodup_singleton _, fun other hother last hlast => ?_⟩
    rw [List.mem_singleton.mp hlast]
    rintro rfl
    exact hpath hother

/-- One more outcome is among those told. -/
theorem StemsFrom.addFile {report : Report} (hstems : report.StemsFrom time told) (path : String)
    (file : FileOutcome) : (report.addFile path file).StemsFrom time (told ++ [(path, file)]) where
  generatedAt := hstems.generatedAt
  distinct := nodup_setFile hstems.distinct path file
  entries entry hentry := by
    rcases mem_setFile hentry with hold | hnew
    · exact List.mem_append_left _ (hstems.entries entry hold)
    · exact List.mem_append_right _ (List.mem_singleton.mpr hnew)

theorem stemsFrom_addFiles (mode : Mode) (time : Timestamp) (told : List (String × FileOutcome)) :
    ((empty mode time).addFiles told).StemsFrom time told := by
  induction told using List.reverseRecOn with
  | nil => exact ⟨rfl, List.nodup_nil, fun _ hentry => hentry⟩
  | append_singleton front entry ih =>
      rw [addFiles_append_singleton]
      exact ih.addFile entry.1 entry.2

/-- What is recorded can be told if the totals fit into 64 bits. -/
theorem isTellable_addFiles (mode : Mode) (hcommon : time.IsCommon) (hcount : told.length < 2 ^ 64)
    (helements : (told.map fun entry => entry.2.elements).sum < 2 ^ 64) {elapsed : Option Nat}
    (helapsed : ∀ n ∈ elapsed, n < 2 ^ 64) : { (empty mode time).addFiles told with elapsed }.IsTellable := by
  have hcounts := counts_addFiles mode time told
  have hstems := stemsFrom_addFiles mode time told
  exact {
    isCommon := (congrArg Timestamp.IsCommon hstems.generatedAt).mpr hcommon
    distinct := hstems.distinct
    processed := hcounts.processed ▸ hcount
    rewritten := hcounts.rewritten ▸ Nat.lt_of_le_of_lt List.countP_le_length hcount
    elements := hcounts.elements ▸ helements
    failed := hcounts.failed ▸ Nat.lt_of_le_of_lt List.countP_le_length hcount
    files := fun entry hentry => Nat.lt_of_le_of_lt
      (List.le_sum_of_mem (List.mem_map.mpr ⟨entry, hstems.entries entry hentry, rfl⟩)) helements
    elapsed := helapsed }

/-- A report of any outcomes, recorded one after the other, is read from its text, and what is read has this text
again. -/
theorem ofText_text_addFiles (mode : Mode) (hcommon : time.IsCommon)
    (hcount : told.length < 2 ^ 64) (helements : (told.map fun entry => entry.2.elements).sum < 2 ^ 64)
    {elapsed : Option Nat} (helapsed : ∀ n ∈ elapsed, n < 2 ^ 64) :
    let report := { (empty mode time).addFiles told with elapsed }
    ofText report.text = .ok report ∧ (ofText report.text).map text = .ok report.text := by
  intro report
  have hread : ofText report.text = .ok report :=
    ofText_text_of_isTellable (isTellable_addFiles mode hcommon hcount helements helapsed)
  exact ⟨hread, by rw [hread]; rfl⟩

/-- At the end of a leap second, with a path that comes twice and no time for the build. -/
theorem ofText_text_addFiles_leapSecond :
    let told : List (String × FileOutcome) :=
      [("a\"b\\.js", { rewritten := true, elements := 3, output := some "", map := some "é\n😀" }),
        ("", { error := some "\x01 null" }), ("a\"b\\.js", { elements := 2, output := some "x" })]
    let report := { (empty .development ⟨1483228799, 1999999999⟩).addFiles told with elapsed := none }
    ofText report.text = .ok report ∧ (ofText report.text).map text = .ok report.text := by
  intro told
  have hcommon : (Timestamp.mk 1483228799 1999999999).IsCommon :=
    ⟨by decide +kernel, by decide +kernel, by decide, fun _ => by decide⟩
  exact ofText_text_addFiles .development hcommon (by decide) (by decide) nofun

end Recorded

end Report

end BreakpointProps
