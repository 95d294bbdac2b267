import BreakpointProps.Proofs.Build.DryRun

/-!
The totals of a build. No path is selected twice, so the report of a build has one entry for each selected
path, and its totals are those of its entries, whatever became of the files.
-/

namespace BreakpointProps

namespace Report

/-- Does a report have one entry for each of some paths, in their order, and the totals of its entries? -/
structure IsOn (report : Report) (paths : List Path) : Prop where
  entries : report.files.map Prod.fst = paths.map Path.text
  distinct : (report.files.map Prod.fst).Nodup
  counts : report.Counts report.files

theorem Counts.finished {report : Report} {told : List (String × FileOutcome)} (hcounts : report.Counts told)
    (elapsed : Nat) : (report.finished elapsed).Counts told :=
  ⟨hcounts.processed, hcounts.rewritten, hcounts.failed, hcounts.elements⟩

end Report

namespace BuildRequest

variable {request : BuildRequest} {policy : Policy} {files : FileSystem} {chosen : List Path}
variable {outcomes : List (String × FileOutcome)}

/-- The report on files with different texts lists their outcomes. -/
theorem files_reportOn (clock : BuildClock) (config : Config) (hnodup : (outcomes.map Prod.fst).Nodup) :
    (reportOn clock config outcomes).files = outcomes :=
  Report.files_addFiles_empty config.mode clock.start hnodup

/-- So its totals are those of its entries. -/
theorem isOn_reportOn (clock : BuildClock) (config : Config)
    (hchosen : request.inputs policy files = .ok chosen)
    (houtcomes : outcomes.map Prod.fst = chosen.map Path.text) :
    (reportOn clock config outcomes).IsOn chosen := by
  have hnodup : (outcomes.map Prod.fst).Nodup := houtcomes ▸ nodup_texts_of_inputs hchosen
  have hfiles := files_reportOn clock config hnodup
  refine ⟨by rw [hfiles, houtcomes], by rwa [hfiles], ?_⟩
  rw [hfiles]
  exact (Report.counts_addFiles _ _ outcomes).finished _

/-- After outcomes have been recorded one after the other, the totals of a report are the counts and sums over
them, and its entries are the last outcomes for the paths, in the order in which the paths first came. In a
build that selects files and can write its report, whatever becomes of the files, the report has one entry
for each of them, in the order of the selection, so the totals and the counts beside the report are
those of its entries. -/
theorem totals_match_entries :
    (∀ (mode : Mode) (time : Timestamp) (told : List (String × FileOutcome)),
      ((Report.empty mode time).addFiles told).Counts told ∧
        ((Report.empty mode time).addFiles told).KeepsLast told) ∧
    ∀ (request : BuildRequest) (clock : BuildClock) (config : Config) (policy : Policy) (files : FileSystem)
      (chosen : List Path), request.inputs policy files = .ok chosen →
      (∀ outcome : Path → FileOutcome,
        let told := chosen.map fun path => (path.text, outcome path)
        (reportOn clock config told).files = told ∧ (reportOn clock config told).IsOn chosen) ∧
      let done := (request.settings config policy).processAll files chosen
      let report := reportOn clock config done.2.1
      report.files = done.2.1 ∧ report.IsOn chosen ∧
        ((request.writeReport done.1 report).2 = .ok () →
          (request.runWith clock config policy files).returned = .ok {
            report
            processed := report.files.length
            rewritten := report.files.countP fun entry => entry.2.rewritten
            elements := (report.files.map fun entry => entry.2.elements).sum }) := by
  refine ⟨fun mode time told => ⟨Report.counts_addFiles mode time told, Report.keepsLast_addFiles mode time told⟩,
    fun request clock config policy files chosen hchosen => ⟨fun outcome => ?_, ?_⟩⟩
  · have htold : (chosen.map fun path => (path.text, outcome path)).map Prod.fst = chosen.map Path.text :=
      List.map_map
    exact ⟨files_reportOn clock config (htold ▸ nodup_texts_of_inputs hchosen),
      isOn_reportOn clock config hchosen htold⟩
  · intro done report
    have htold : done.2.1.map Prod.fst = chosen.map Path.text := BuildSettings.map_fst_processAll _ _ _
    have hon : report.IsOn chosen := isOn_reportOn clock config hchosen htold
    refine ⟨files_reportOn clock config (htold ▸ nodup_texts_of_inputs hchosen), hon, fun hwritten => ?_⟩
    have hresult : (request.runWith clock config policy files).result = .ok report := by
      rw [(runWith_of_ok clock config hchosen).2, hwritten]
      rfl
    rw [BuildOutcome.returned, hresult, ← hon.counts.processed, ← hon.counts.rewritten, ← hon.counts.elements]
    rfl

/-- The result for the first file takes the place of the link that leads to the second one, which fails and
counts all the same. -/
theorem totals_match_entries_detoured :
    (detouredRequest ⟨"dist"⟩).inputs { workingDirectory := ⟨"/w"⟩ } detouredFiles =
        .ok [⟨"x.jsx"⟩, ⟨"dist/x.jsx/b.jsx"⟩] ∧
      ∃ result, ((detouredRequest ⟨"dist"⟩).runWith ⟨default, 0⟩ (.standard .production)
          { workingDirectory := ⟨"/w"⟩ } detouredFiles).returned = .ok result ∧
        result.processed = 2 ∧ result.rewritten = 0 ∧ result.elements = 0 ∧ result.report.failed = 1 ∧
        result.report.files.map Prod.fst = ["x.jsx", "dist/x.jsx/b.jsx"] := by
  have hallowed : (detouredRequest ⟨"dist"⟩).outputViolation? detouredFiles { workingDirectory := ⟨"/w"⟩ } =
      none := by decide +kernel
  have hchosen := inputs_detouredFiles hallowed
  obtain ⟨hfiles, hon, hreturned⟩ := (totals_match_entries.2 _ ⟨default, 0⟩ (.standard .production) _ _ _ hchosen).2
  refine ⟨hchosen, _, hreturned rfl, ?_, ?_, ?_, hon.counts.failed.trans ?_, ?_⟩
  all_goals
    rw [hfiles]
    decide +kernel

end BuildRequest

end BreakpointProps
