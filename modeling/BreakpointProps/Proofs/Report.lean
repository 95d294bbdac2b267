import Mathlib.Algebra.GroupWithZero.Nat
import Mathlib.Data.List.Induction
import BreakpointProps.Report

/-!
What a report tells after outcomes have been recorded one after the other: totals over all of them, and for
each path the last outcome, where the path first came.
-/

namespace BreakpointProps.Report

/-- Are the totals of a report the counts and sums over outcomes? -/
structure Counts (report : Report) (told : List (String × FileOutcome)) : Prop where
  processed : report.processed = told.length
  rewritten : report.rewritten = told.countP fun entry => entry.2.rewritten
  failed : report.failed = told.countP fun entry => entry.2.error.isSome
  elements : report.elements = (told.map fun entry => entry.2.elements).sum

/-- Are the entries of a report the last outcomes for the paths, in the order in which the paths first came? -/
structure KeepsLast (report : Report) (told : List (String × FileOutcome)) : Prop where
  paths : report.files.map Prod.fst = (told.map Prod.fst).eraseDups
  last : ∀ path, report.files.lookup path = told.reverse.lookup path

section Entries

variable {path : String} {file : FileOutcome} {files : List (String × FileOutcome)}

theorem setFile_of_not_mem (hpath : path ∉ files.map Prod.fst) :
    setFile path file files = files ++ [(path, file)] := by
  induction files with
  | nil => rfl
  | cons entry rest ih =>
      obtain ⟨other, held⟩ := entry
      rw [List.map_cons, List.mem_cons, not_or] at hpath
      rw [setFile, if_neg (by simpa using Ne.symm hpath.1), ih hpath.2, List.cons_append]

/-- A path that is there stays in its place. -/
theorem map_fst_setFile_of_mem (hpath : path ∈ files.map Prod.fst) :
    (setFile path file files).map Prod.fst = files.map Prod.fst := by
  induction files with
  | nil => exact absurd hpath List.not_mem_nil
  | cons entry rest ih =>
      obtain ⟨other, held⟩ := entry
      rw [setFile]
      by_cases hsame : other = path
      · rw [if_pos (by simpa using hsame), List.map_cons, List.map_cons, hsame]
      · rw [if_neg (by simpa using hsame), List.map_cons, List.map_cons,
          ih ((List.mem_cons.mp hpath).resolve_left (Ne.symm hsame))]

theorem lookup_setFile (path : String) (file : FileOutcome) (files : List (String × FileOutcome))
    (wanted : String) :
    (setFile path file files).lookup wanted = if wanted == path then some file else files.lookup wanted := by
  induction files with
  | nil => rw [setFile, List.lookup_cons, List.lookup_nil]; cases wanted == path <;> rfl
  | cons entry rest ih =>
      obtain ⟨other, held⟩ := entry
      rw [setFile]
      by_cases hsame : other = path
      · subst hsame
        rw [if_pos (by simp), List.lookup_cons, List.lookup_cons]
        cases wanted == other <;> rfl
      · rw [if_neg (by simpa using hsame), List.lookup_cons, List.lookup_cons, ih]
        by_cases hwanted : wanted = other
        · subst hwanted
          simp [hsame]
        · have hother : (wanted == other) = false := by simpa using hwanted
          simp [hother]

end Entries

section Recording

variable {report : Report} {told : List (String × FileOutcome)}

/-- One more outcome counts once. -/
theorem Counts.addFile (hcounts : report.Counts told) (path : String) (file : FileOutcome) :
    (report.addFile path file).Counts (told ++ [(path, file)]) where
  processed := by rw [List.length_append, ← hcounts.processed]; rfl
  rewritten := by
    rw [List.countP_append, ← hcounts.rewritten]
    cases hrewritten : file.rewritten <;> simp [Report.addFile, hrewritten]
  failed := by
    rw [List.countP_append, ← hcounts.failed]
    cases herror : file.error <;> simp [Report.addFile, herror]
  elements := by
    rw [List.map_append, List.sum_append, ← hcounts.elements]
    rfl

/-- One more outcome takes the place of an earlier one for its path. -/
theorem KeepsLast.addFile (hkeeps : report.KeepsLast told) (path : String) (file : FileOutcome) :
    (report.addFile path file).KeepsLast (told ++ [(path, file)]) where
  paths := by
    have hmem : path ∈ report.files.map Prod.fst ↔ path ∈ told.map Prod.fst := by
      rw [hkeeps.paths, List.mem_eraseDups]
    rw [List.map_append, List.eraseDups_append, ← hkeeps.paths]
    by_cases hpath : path ∈ report.files.map Prod.fst
    · rw [Report.addFile]
      simp only [map_fst_setFile_of_mem hpath]
      simp [List.removeAll, hmem.mp hpath]
    · rw [Report.addFile]
      simp only [setFile_of_not_mem hpath]
      simp [List.removeAll, mt hmem.mpr hpath, List.eraseDups_cons]
  last wanted := by
    rw [Report.addFile, List.reverse_append, List.reverse_singleton, List.singleton_append, List.lookup_cons,
      ← hkeeps.last]
    dsimp only
    rw [lookup_setFile]
    cases wanted == path <;> rfl

theorem addFiles_append_singleton (report : Report) (told : List (String × FileOutcome)) (path : String)
    (file : FileOutcome) :
    report.addFiles (told ++ [(path, file)]) = (report.addFiles told).addFile path file := by
  rw [addFiles, List.foldl_append]
  rfl

theorem counts_addFiles (mode : Mode) (time : Timestamp) (told : List (String × FileOutcome)) :
    ((empty mode time).addFiles told).Counts told := by
  induction told using List.reverseRecOn with
  | nil => exact ⟨rfl, rfl, rfl, rfl⟩
  | append_singleton front entry ih =>
      rw [addFiles_append_singleton]
      exact ih.addFile entry.1 entry.2

theorem keepsLast_addFiles (mode : Mode) (time : Timestamp) (told : List (String × FileOutcome)) :
    ((empty mode time).addFiles told).KeepsLast told := by
  induction told using List.reverseRecOn with
  | nil => exact ⟨rfl, fun _ => rfl⟩
  | append_singleton front entry ih =>
      rw [addFiles_append_singleton]
      exact ih.addFile entry.1 entry.2

/-- Paths that all differ are recorded one after the other. -/
theorem files_addFiles {report : Report} {told : List (String × FileOutcome)}
    (hdistinct : (report.files ++ told).Pairwise fun a b => a.1 ≠ b.1) :
    (report.addFiles told).files = report.files ++ told := by
  induction told generalizing report with
  | nil => exact (List.append_nil _).symm
  | cons entry rest ih =>
      obtain ⟨path, file⟩ := entry
      have hpath : path ∉ report.files.map Prod.fst := by
        intro hmem
        obtain ⟨held, hheld, hsame⟩ := List.mem_map.mp hmem
        exact (List.pairwise_append.mp hdistinct).2.2 held hheld _ List.mem_cons_self hsame
      have hfirst : (report.addFile path file).files = report.files ++ [(path, file)] :=
        setFile_of_not_mem hpath
      rw [List.append_cons, ← hfirst] at hdistinct
      have hall := ih hdistinct
      rw [hfirst, ← List.append_cons] at hall
      exact hall

theorem files_addFiles_empty (mode : Mode) (time : Timestamp) (hdistinct : (told.map Prod.fst).Nodup) :
    ((empty mode time).addFiles told).files = told := by
  refine (files_addFiles ?_).trans (List.nil_append told)
  rw [show (empty mode time).files = [] from rfl, List.nil_append]
  exact List.pairwise_map.mp hdistinct

end Recording

end BreakpointProps.Report
