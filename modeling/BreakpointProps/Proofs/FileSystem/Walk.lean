import Mathlib.Data.List.Basic
import Mathlib.Data.List.Induction
import BreakpointProps.FileSystem.Access

/-!
Where paths lead. If nothing on the way is a link, steps lead where their names say, and they get there
exactly if all that they enter on the way are directories. A walk only sees what is there, so it ends
in the same place when more is there.
-/

namespace BreakpointProps.FileSystem

variable {files : FileSystem}

section Nodes

theorem node?_of_ne {place : Place} (hplace : place ≠ []) :
    files.node? place = files.entries.lookup place := by
  cases place with
  | nil => exact absurd rfl hplace
  | cons name rest => rfl

theorem lookup_filter_ne {entries : List (Place × Node)} {place other : Place} (hother : other ≠ place) :
    (entries.filter fun entry => entry.1 != place).lookup other = entries.lookup other := by
  induction entries with
  | nil => rfl
  | cons entry rest ih =>
      obtain ⟨found, node⟩ := entry
      rw [List.filter_cons, List.lookup_cons]
      by_cases hfound : found = place
      · have hskip : (other == found) = false := beq_eq_false_iff_ne.mpr (hfound ▸ hother)
        simp [hfound, ih, hfound ▸ hskip]
      · simp [hfound, List.lookup_cons, ih]

theorem lookup_filter_self {entries : List (Place × Node)} {place : Place} :
    (entries.filter fun entry => entry.1 != place).lookup place = none := by
  induction entries with
  | nil => rfl
  | cons entry rest ih =>
      obtain ⟨found, node⟩ := entry
      rw [List.filter_cons]
      by_cases hfound : found = place
      · simp [hfound, ih]
      · have hskip : (place == found) = false := beq_eq_false_iff_ne.mpr (Ne.symm hfound)
        simp [hfound, List.lookup_cons, ih, hskip]

theorem node?_erase_of_ne {place other : Place} (hother : other ≠ place) :
    (files.erase place).node? other = files.node? other := by
  cases other with
  | nil => rfl
  | cons name rest => exact lookup_filter_ne hother

theorem node?_erase_self {place : Place} (hplace : place ≠ []) :
    (files.erase place).node? place = none := by
  rw [node?_of_ne hplace]
  exact lookup_filter_self

theorem node?_put_self {place : Place} {node : Node} (hplace : place ≠ []) :
    (files.put place node).node? place = some node := by
  rw [node?_of_ne hplace]
  simp [put]

theorem node?_put_of_ne {place other : Place} {node : Node} (hother : other ≠ place) :
    (files.put place node).node? other = files.node? other := by
  cases other with
  | nil => rfl
  | cons name rest =>
      have hskip : (name :: rest == place) = false := beq_eq_false_iff_ne.mpr hother
      have hrest : (files.entries.filter fun entry => entry.1 != place).lookup (name :: rest) =
          files.entries.lookup (name :: rest) := lookup_filter_ne hother
      simpa [node?, put, erase, List.lookup_cons, hskip] using hrest

/-- What stands at the place is a link. -/
def IsLinkAt (files : FileSystem) (place : Place) : Prop :=
  ∃ target, files.node? place = some (.link target)

instance decidableIsLinkAt (files : FileSystem) (place : Place) : Decidable (files.IsLinkAt place) :=
  match hnode : files.node? place with
  | some (.link target) => isTrue ⟨target, hnode⟩
  | some (.file _) | some .directory | none => isFalse fun ⟨_, hlink⟩ => nomatch hnode.symm.trans hlink

end Nodes

section Steps

/-- Where a step leads if it enters no link. -/
def Step.move (place : Place) : Step → Place
  | .stay => place
  | .up => place.dropLast
  | .down name => place ++ [name]

/-- Where steps lead if they enter no link. -/
def ending (start : Place) (steps : List Step) : Place := steps.foldl Step.move start

/-- The places that steps go through, the last one apart. -/
def passed (start : Place) : List Step → List Place
  | [] => []
  | step :: rest => start :: passed (step.move start) rest

/-- The places that steps enter by a name. -/
def entered (start : Place) : List Step → List Place
  | [] => []
  | .down name :: rest => (start ++ [name]) :: entered (start ++ [name]) rest
  | step :: rest => entered (step.move start) rest

section Entered

variable {start : Place} {rest : List Step}

@[simp] theorem entered_nil : entered start [] = [] := rfl

@[simp] theorem entered_stay : entered start (.stay :: rest) = entered start rest := rfl

@[simp] theorem entered_up : entered start (.up :: rest) = entered start.dropLast rest := rfl

@[simp] theorem entered_down {name : String} :
    entered start (.down name :: rest) = (start ++ [name]) :: entered (start ++ [name]) rest := rfl

end Entered

/-- Are all names short enough? -/
def AreShort (steps : List Step) : Prop := ∀ name, .down name ∈ steps → name.utf8ByteSize ≤ maxName

theorem ending_append (start : Place) (first second : List Step) :
    ending start (first ++ second) = ending (ending start first) second := List.foldl_append

theorem entered_append (start : Place) (first second : List Step) :
    entered start (first ++ second) = entered start first ++ entered (ending start first) second := by
  induction first generalizing start with
  | nil => rfl
  | cons step rest ih => cases step <;> simp [ending, Step.move, ih]

theorem passed_append (start : Place) (first second : List Step) :
    passed start (first ++ second) = passed start first ++ passed (ending start first) second := by
  induction first generalizing start with
  | nil => rfl
  | cons step rest ih => simp [passed, ending, ih]

/-- What is entered before the last step is gone through. -/
theorem mem_passed_of_mem_entered {start place : Place} {steps : List Step} {last : Step}
    (hplace : place ∈ entered start steps) : place ∈ passed start (steps ++ [last]) := by
  induction steps generalizing start with
  | nil => simp at hplace
  | cons step rest ih =>
      rw [List.cons_append, passed]
      cases step with
      | stay => exact List.mem_cons_of_mem _ (ih hplace)
      | up => exact List.mem_cons_of_mem _ (ih hplace)
      | down name =>
          rcases List.mem_cons.mp hplace with rfl | hrest
          · refine List.mem_cons_of_mem _ ?_
            cases rest <;> exact List.mem_cons_self
          · exact List.mem_cons_of_mem _ (ih hrest)

/-- Steps that never go up stay below where they start. -/
theorem prefix_of_mem_entered {start place : Place} {steps : List Step} (hsteps : .up ∉ steps)
    (hplace : place ∈ entered start steps) : start <+: place := by
  induction steps generalizing start with
  | nil => simp at hplace
  | cons step rest ih =>
      have hrest : Step.up ∉ rest := fun h => hsteps (List.mem_cons_of_mem step h)
      cases step with
      | stay => exact ih hrest hplace
      | up => exact absurd List.mem_cons_self hsteps
      | down name =>
          rcases List.mem_cons.mp hplace with rfl | hbelow
          · exact List.prefix_append start [name]
          · exact (List.prefix_append start [name]).trans (ih hrest hbelow)

theorem entered_filter_stay (start : Place) (steps : List Step) :
    entered start (steps.filter (· ≠ .stay)) = entered start steps := by
  induction steps generalizing start with
  | nil => rfl
  | cons step rest ih =>
      have ih' := ih (step.move start)
      cases step <;> simpa [List.filter_cons, Step.move] using ih'

theorem areShort_filter_stay {steps : List Step} :
    AreShort (steps.filter (· ≠ .stay)) ↔ AreShort steps := by
  simp [AreShort]

theorem areShort_append {first second : List Step} :
    AreShort (first ++ second) ↔ AreShort first ∧ AreShort second := by
  simp [AreShort, or_imp, forall_and]

/-- Does everything stand in a directory, and is the working directory one? -/
structure IsTree (files : FileSystem) : Prop where
  parents : ∀ entry ∈ files.entries, files.node? entry.1.dropLast = some .directory
  workingDirectory : files.node? files.workingDirectory = some .directory

theorem IsTree.parent (htree : files.IsTree) {place : Place} {node : Node}
    (hnode : files.node? place = some node) : files.node? place.dropLast = some .directory := by
  cases place with
  | nil => rfl
  | cons name rest =>
      obtain ⟨before, after, hentries, _⟩ := List.lookup_eq_some_iff.mp hnode
      exact htree.parents (name :: rest, node) (hentries ▸ by simp)

/-- What is above something that is there is a directory. -/
theorem IsTree.above (htree : files.IsTree) {place above : Place} {node : Node}
    (hnode : files.node? place = some node) (habove : above <+: place) (hother : above ≠ place) :
    files.node? above = some .directory := by
  induction place using List.reverseRecOn generalizing node with
  | nil => exact absurd (List.prefix_nil.mp habove) hother
  | append_singleton front name ih =>
      have hparent := htree.parent hnode
      rw [List.dropLast_concat] at hparent
      rcases List.prefix_concat_iff.mp habove with rfl | hbefore
      · exact absurd rfl hother
      · by_cases hsame : above = front
        · exact hsame ▸ hparent
        · exact ih hparent hbefore hsame

/-- Are the directories on the way to a place, and the place itself, directories? -/
def IsGrounded (files : FileSystem) (place : Place) : Prop :=
  ∀ above, above <+: place → files.node? above = some .directory

theorem IsGrounded.node? {place : Place} (hplace : files.IsGrounded place) :
    files.node? place = some .directory := hplace place (List.prefix_refl place)

theorem isGrounded_nil : files.IsGrounded [] := by
  intro above habove
  rw [List.prefix_nil.mp habove]
  rfl

theorem IsTree.isGrounded (htree : files.IsTree) {place : Place}
    (hnode : files.node? place = some .directory) : files.IsGrounded place := by
  intro above habove
  by_cases hsame : above = place
  · exact hsame ▸ hnode
  · exact htree.above hnode habove hsame

/-- Steps from a directory to directories end in a directory. -/
theorem isGrounded_ending {start : Place} {steps : List Step} (hstart : files.IsGrounded start)
    (hsteps : ∀ place ∈ entered start steps, files.node? place = some .directory) :
    files.IsGrounded (ending start steps) := by
  induction steps generalizing start with
  | nil => exact hstart
  | cons step rest ih =>
      cases step with
      | stay => exact ih hstart hsteps
      | up =>
          exact ih (fun above habove => hstart above (habove.trans (List.dropLast_prefix start))) hsteps
      | down name =>
          refine ih (fun above habove => ?_) fun place hplace =>
            hsteps place (List.mem_cons_of_mem _ hplace)
          rcases List.prefix_concat_iff.mp habove with rfl | hbefore
          · exact hsteps _ List.mem_cons_self
          · exact hstart above hbefore

end Steps

section Advance

variable {start place : Place} {steps rest : List Step} {followLast : Bool} {links : Nat}

/-- Are there only directories where the steps lead through, and can the names be followed? -/
structure IsClear (files : FileSystem) (start : Place) (steps : List Step) : Prop where
  short : AreShort steps
  directories : ∀ place ∈ entered start steps, files.node? place = some .directory

theorem isClear_append {first second : List Step} :
    files.IsClear start (first ++ second) ↔
      files.IsClear start first ∧ files.IsClear (ending start first) second := by
  constructor
  · intro hclear
    have hshort := areShort_append.mp hclear.short
    have hdirectories := hclear.directories
    rw [entered_append] at hdirectories
    exact ⟨⟨hshort.1, fun place hplace => hdirectories place (List.mem_append_left _ hplace)⟩,
      hshort.2, fun place hplace => hdirectories place (List.mem_append_right _ hplace)⟩
  · rintro ⟨hfirst, hsecond⟩
    refine ⟨areShort_append.mpr ⟨hfirst.short, hsecond.short⟩, fun place hplace => ?_⟩
    rw [entered_append] at hplace
    rcases List.mem_append.mp hplace with hplace | hplace
    · exact hfirst.directories place hplace
    · exact hsecond.directories place hplace

theorem isClear_cons {step : Step} :
    files.IsClear start (step :: rest) ↔ files.IsClear start [step] ∧ files.IsClear (step.move start) rest :=
  @isClear_append files start [step] rest

@[simp] theorem isClear_nil : files.IsClear start [] := ⟨by simp [AreShort], by simp⟩

@[simp] theorem isClear_stay : files.IsClear start [.stay] := ⟨by simp [AreShort], by simp⟩

@[simp] theorem isClear_up : files.IsClear start [.up] := ⟨by simp [AreShort], by simp⟩

theorem isClear_down {name : String} :
    files.IsClear start [.down name] ↔
      name.utf8ByteSize ≤ maxName ∧ files.node? (start ++ [name]) = some .directory := by
  constructor
  · intro hclear
    exact ⟨hclear.short name List.mem_cons_self, hclear.directories _ List.mem_cons_self⟩
  · rintro ⟨hshort, hnode⟩
    exact ⟨by simpa [AreShort] using hshort, by simpa using hnode⟩

theorem advance_long {name : String} (hlong : maxName < name.utf8ByteSize) :
    files.advance followLast start (.down name :: rest) = .error .nameTooLong :=
  if_pos hlong

/-- A name that is not too long leads on as what stands behind it allows. -/
theorem advance_short {name : String} (hname : name.utf8ByteSize ≤ maxName) :
    files.advance followLast start (.down name :: rest) =
      match files.node? (start ++ [name]) with
      | none => .error .missing
      | some .directory => files.advance followLast (start ++ [name]) rest
      | some (.file _) => if rest.isEmpty then .ok (.arrived (start ++ [name])) else .error .notDirectory
      | some (.link target) =>
        if rest.isEmpty && !followLast then .ok (.arrived (start ++ [name]))
        else .ok (.link start target rest) :=
  if_neg (Nat.not_lt.mpr hname)

/-- Through directories a walk comes to where its steps lead. -/
theorem advance_append (hclear : files.IsClear start steps) :
    files.advance followLast start (steps ++ rest) = files.advance followLast (ending start steps) rest := by
  induction steps generalizing start with
  | nil => rfl
  | cons step more ih =>
      obtain ⟨hfirst, hmore⟩ := isClear_cons.mp hclear
      rw [List.cons_append]
      cases step with
      | stay => exact ih hmore
      | up => exact ih hmore
      | down name =>
          obtain ⟨hname, hnode⟩ := isClear_down.mp hfirst
          rw [advance_short hname, hnode]
          exact ih hmore

theorem walk_of_advance (hadvance : files.advance followLast start steps = .ok (.arrived place)) :
    files.walk followLast links start steps = .ok place := by
  cases links <;> rw [walk, hadvance] <;> rfl

theorem walk_of_isClear (hclear : files.IsClear start steps) :
    files.walk followLast links start (steps ++ [.stay]) = .ok (ending start steps) := by
  refine walk_of_advance ?_
  rw [advance_append hclear]
  rfl

/-- What a walk to a directory can come to where there are no links: its end, or the first step that
cannot be taken. -/
inductive Way (files : FileSystem) (start : Place) (steps : List Step) : Except Fault Place → Prop where
  | clear (hclear : files.IsClear start steps) : Way files start steps (.ok (ending start steps))
  | long {before after : List Step} {name : String} (hsteps : steps = before ++ .down name :: after)
    (hclear : files.IsClear start before) (hlong : maxName < name.utf8ByteSize) :
    Way files start steps (.error .nameTooLong)
  | gap {before after : List Step} {name : String} (hsteps : steps = before ++ .down name :: after)
    (hclear : files.IsClear start before) (hname : name.utf8ByteSize ≤ maxName)
    (hnode : files.node? (ending start before ++ [name]) = none) : Way files start steps (.error .missing)
  | blocked {before after : List Step} {name : String} {content : ByteArray}
    (hsteps : steps = before ++ .down name :: after) (hclear : files.IsClear start before)
    (hnode : files.node? (ending start before ++ [name]) = some (.file content)) :
    Way files start steps (.error .notDirectory)

theorem mem_entered_of_down (start : Place) (before after : List Step) (name : String) :
    ending start before ++ [name] ∈ entered start (before ++ .down name :: after) := by
  rw [entered_append]
  exact List.mem_append_right _ List.mem_cons_self

theorem Way.cons {step : Step} {result : Except Fault Place} (hstep : files.IsClear start [step])
    (hway : Way files (step.move start) rest result) : Way files start (step :: rest) result := by
  cases hway with
  | clear hclear => exact .clear (isClear_cons.mpr ⟨hstep, hclear⟩)
  | long hsteps hclear hlong =>
      exact .long (congrArg (step :: ·) hsteps) (isClear_cons.mpr ⟨hstep, hclear⟩) hlong
  | gap hsteps hclear hname hnode =>
      exact .gap (congrArg (step :: ·) hsteps) (isClear_cons.mpr ⟨hstep, hclear⟩) hname hnode
  | blocked hsteps hclear hnode =>
      exact .blocked (congrArg (step :: ·) hsteps) (isClear_cons.mpr ⟨hstep, hclear⟩) hnode

theorem exists_way_advance (hlinks : ∀ place ∈ entered start steps, ¬ files.IsLinkAt place) :
    ∃ result, Way files start steps result ∧
      files.advance true start (steps ++ [.stay]) = result.map .arrived := by
  induction steps generalizing start with
  | nil => exact ⟨_, .clear isClear_nil, rfl⟩
  | cons step rest ih =>
      rw [List.cons_append]
      cases step with
      | stay =>
          obtain ⟨result, hway, hadvance⟩ := ih hlinks
          exact ⟨result, hway.cons isClear_stay, hadvance⟩
      | up =>
          obtain ⟨result, hway, hadvance⟩ := ih hlinks
          exact ⟨result, hway.cons isClear_up, hadvance⟩
      | down name =>
          rcases Nat.lt_or_ge maxName name.utf8ByteSize with hlong | hname
          · rw [advance_long hlong]
            exact ⟨_, .long (List.nil_append _).symm isClear_nil hlong, rfl⟩
          · rw [advance_short hname]
            cases hnode : files.node? (start ++ [name]) with
            | none => exact ⟨_, .gap (List.nil_append _).symm isClear_nil hname hnode, rfl⟩
            | some node =>
                cases node with
                | file content =>
                    refine ⟨_, .blocked (List.nil_append _).symm isClear_nil hnode, ?_⟩
                    simp [Except.map]
                | link target => exact absurd ⟨target, hnode⟩ (hlinks _ List.mem_cons_self)
                | directory =>
                    obtain ⟨result, hway, hadvance⟩ := ih fun place hplace =>
                      hlinks place (List.mem_cons_of_mem _ hplace)
                    exact ⟨result, hway.cons (isClear_down.mpr ⟨hname, hnode⟩), hadvance⟩

theorem walk_of_advance_map {result : Except Fault Place}
    (hadvance : files.advance followLast start steps = result.map .arrived) :
    files.walk followLast links start steps = result := by
  cases result <;> cases links <;> rw [walk, hadvance] <;> rfl

/-- Where there are no links, a walk to a directory comes to the end of its way or says what is in it. -/
theorem way_walk (hlinks : ∀ place ∈ entered start steps, ¬ files.IsLinkAt place) :
    Way files start steps (files.walk true links start (steps ++ [.stay])) := by
  obtain ⟨result, hway, hadvance⟩ := exists_way_advance hlinks
  rwa [walk_of_advance_map hadvance]

/-- How far steps lead if all links are to be followed: to a directory, to a file, or to the first link. -/
inductive Passage (files : FileSystem) (start : Place) (steps : List Step) : Advance → Prop where
  | directory (hclear : files.IsClear start steps) : Passage files start steps (.arrived (ending start steps))
  | file {before : List Step} {name : String} {content : ByteArray} (hsteps : steps = before ++ [.down name])
    (hclear : files.IsClear start before)
    (hnode : files.node? (ending start before ++ [name]) = some (.file content)) :
    Passage files start steps (.arrived (ending start before ++ [name]))
  | link {before rest : List Step} {name : String} {target : Path}
    (hsteps : steps = before ++ .down name :: rest) (hclear : files.IsClear start before)
    (hname : name.utf8ByteSize ≤ maxName)
    (hnode : files.node? (ending start before ++ [name]) = some (.link target)) :
    Passage files start steps (.link (ending start before) target rest)

theorem Passage.cons {step : Step} {found : Advance} (hstep : files.IsClear start [step])
    (hpassage : Passage files (step.move start) rest found) : Passage files start (step :: rest) found := by
  cases hpassage with
  | directory hclear => exact .directory (isClear_cons.mpr ⟨hstep, hclear⟩)
  | file hsteps hclear hnode =>
      exact .file (congrArg (step :: ·) hsteps) (isClear_cons.mpr ⟨hstep, hclear⟩) hnode
  | link hsteps hclear hname hnode =>
      exact .link (congrArg (step :: ·) hsteps) (isClear_cons.mpr ⟨hstep, hclear⟩) hname hnode

theorem passage_advance {found : Advance} (hadvance : files.advance true start steps = .ok found) :
    Passage files start steps found := by
  induction steps generalizing start with
  | nil =>
      obtain rfl := Except.ok.inj hadvance
      exact .directory isClear_nil
  | cons step rest ih =>
      cases step with
      | stay => exact (ih hadvance).cons isClear_stay
      | up => exact (ih hadvance).cons isClear_up
      | down name =>
          rcases Nat.lt_or_ge maxName name.utf8ByteSize with hlong | hname
          · rw [advance_long hlong] at hadvance
            cases hadvance
          · rw [advance_short hname] at hadvance
            cases hnode : files.node? (start ++ [name]) with
            | none =>
                rw [hnode] at hadvance
                cases hadvance
            | some node =>
                rw [hnode] at hadvance
                cases node with
                | directory => exact (ih hadvance).cons (isClear_down.mpr ⟨hname, hnode⟩)
                | link target =>
                    simp only [Bool.not_true, Bool.and_false] at hadvance
                    obtain rfl := Except.ok.inj hadvance
                    exact .link (List.nil_append _).symm isClear_nil hname hnode
                | file content =>
                    dsimp only at hadvance
                    split at hadvance
                    · rename_i hempty
                      obtain rfl := Except.ok.inj hadvance
                      obtain rfl := List.isEmpty_iff.mp hempty
                      exact .file (List.nil_append _).symm isClear_nil hnode
                    · cases hadvance

/-- A walk that gets anywhere comes to its end or to a first link. -/
theorem exists_passage_of_walk (hwalk : files.walk true links start steps = .ok place) :
    ∃ found, files.advance true start steps = .ok found ∧ Passage files start steps found := by
  cases hadvance : files.advance true start steps with
  | ok found => exact ⟨found, rfl, passage_advance hadvance⟩
  | error fault => cases links <;> rw [walk, hadvance] at hwalk <;> cases hwalk

/-- A walk that ends at a directory went through directories, unless it followed a link. -/
theorem isClear_of_walk (hlinks : ∀ place ∈ entered start steps, ¬ files.IsLinkAt place)
    (hwalk : files.walk true links start steps = .ok place)
    (hplace : files.node? place = some .directory) : files.IsClear start steps := by
  obtain ⟨found, hadvance, hpassage⟩ := exists_passage_of_walk hwalk
  cases hpassage with
  | directory hclear => exact hclear
  | file hsteps hclear hnode =>
      obtain rfl := Except.ok.inj ((walk_of_advance hadvance).symm.trans hwalk)
      exact absurd (hnode.symm.trans hplace) (by simp)
  | link hsteps hclear hname hnode =>
      exact absurd ⟨_, hnode⟩ (hlinks _ (hsteps ▸ mem_entered_of_down _ _ _ _))

end Advance

section Growth

variable {more : FileSystem} {start place : Place} {steps : List Step} {followLast : Bool} {links : Nat}

/-- A walk that does not miss anything goes the same way where more is there. -/
theorem advance_congr
    (hsame : ∀ place ∈ entered start steps, ∀ node, files.node? place = some node →
      more.node? place = some node)
    (hmissing : files.advance followLast start steps ≠ .error .missing) :
    more.advance followLast start steps = files.advance followLast start steps := by
  induction steps generalizing start with
  | nil => rfl
  | cons step rest ih =>
      cases step with
      | stay => exact ih hsame hmissing
      | up => exact ih hsame hmissing
      | down name =>
          rcases Nat.lt_or_ge maxName name.utf8ByteSize with hlong | hname
          · rw [advance_long hlong, advance_long hlong]
          · rw [advance_short hname] at hmissing
            rw [advance_short hname, advance_short hname]
            cases hnode : files.node? (start ++ [name]) with
            | none => exact absurd (by rw [hnode]) hmissing
            | some node =>
                rw [hnode] at hmissing
                rw [hsame _ List.mem_cons_self node hnode]
                cases node with
                | directory =>
                    exact ih (fun place hplace => hsame place (List.mem_cons_of_mem _ hplace)) hmissing
                | file content => rfl
                | link target => rfl

/-- So does a walk to a directory where there are no links. -/
theorem walk_congr (hlinks : ∀ place ∈ entered start steps, ¬ files.IsLinkAt place)
    (hsame : ∀ place ∈ entered start steps, ∀ node, files.node? place = some node →
      more.node? place = some node)
    (hmissing : files.walk true links start (steps ++ [.stay]) ≠ .error .missing) :
    more.walk true links start (steps ++ [.stay]) = files.walk true links start (steps ++ [.stay]) := by
  obtain ⟨result, _, hadvance⟩ := exists_way_advance hlinks
  have hentered : entered start (steps ++ [.stay]) = entered start steps := by
    rw [entered_append]
    exact List.append_nil _
  have hwalk : files.walk true links start (steps ++ [.stay]) = result := walk_of_advance_map hadvance
  rw [hwalk] at hmissing
  have hmore : more.advance true start (steps ++ [.stay]) = files.advance true start (steps ++ [.stay]) := by
    refine advance_congr (fun place hplace => hsame place (hentered ▸ hplace)) fun h => hmissing ?_
    rw [h] at hadvance
    cases result with
    | ok place => exact absurd hadvance nofun
    | error fault => exact congrArg Except.error (Except.error.inj hadvance).symm
  rw [hwalk]
  exact walk_of_advance_map (hmore.trans hadvance)

theorem advance_of_advance
    (hkept : ∀ place node, files.node? place = some node → (∀ content, node ≠ .file content) →
      more.node? place = some node) {found : Advance}
    (hlast : ∀ place, found = .arrived place → ∀ node, files.node? place = some node →
      more.node? place = some node)
    (hadvance : files.advance followLast start steps = .ok found) :
    more.advance followLast start steps = .ok found := by
  induction steps generalizing start with
  | nil => exact hadvance
  | cons step rest ih =>
      cases step with
      | stay => exact ih hadvance
      | up => exact ih hadvance
      | down name =>
          rcases Nat.lt_or_ge maxName name.utf8ByteSize with hlong | hname
          · rwa [advance_long hlong] at hadvance ⊢
          · rw [advance_short hname] at hadvance ⊢
            cases hnode : files.node? (start ++ [name]) with
            | none => exact absurd (hnode ▸ hadvance) nofun
            | some node =>
                rw [hnode] at hadvance
                cases node with
                | directory =>
                    rw [hkept _ _ hnode nofun]
                    exact ih hadvance
                | link target =>
                    rw [hkept _ _ hnode nofun]
                    exact hadvance
                | file content =>
                    dsimp only at hadvance
                    split at hadvance
                    · rename_i hrest
                      obtain rfl := Except.ok.inj hadvance
                      rw [hlast _ rfl _ hnode]
                      exact if_pos hrest
                    · exact absurd hadvance nofun

/-- A walk comes to the same place where the directories, the links and what stands at its end are kept. -/
theorem walk_of_walk
    (hkept : ∀ place node, files.node? place = some node → (∀ content, node ≠ .file content) →
      more.node? place = some node)
    (hlast : ∀ node, files.node? place = some node → more.node? place = some node)
    (hwalk : files.walk followLast links start steps = .ok place) :
    more.walk followLast links start steps = .ok place := by
  induction links generalizing start steps with
  | zero =>
      cases hadvance : files.advance followLast start steps with
      | error fault => rw [walk, hadvance] at hwalk; exact absurd hwalk nofun
      | ok found =>
          rw [walk, hadvance] at hwalk
          cases found with
          | link directory target rest => exact absurd hwalk nofun
          | arrived last =>
              obtain rfl := Except.ok.inj hwalk
              exact walk_of_advance
                (advance_of_advance hkept (fun _ h => Advance.arrived.inj h ▸ hlast) hadvance)
  | succ links ih =>
      cases hadvance : files.advance followLast start steps with
      | error fault => rw [walk, hadvance] at hwalk; exact absurd hwalk nofun
      | ok found =>
          rw [walk, hadvance] at hwalk
          cases found with
          | arrived last =>
              obtain rfl := Except.ok.inj hwalk
              exact walk_of_advance
                (advance_of_advance hkept (fun _ h => Advance.arrived.inj h ▸ hlast) hadvance)
          | link directory target rest =>
              rw [walk, advance_of_advance hkept (fun _ h => Advance.noConfusion h) hadvance]
              exact ih hwalk

end Growth

theorem exists_place_of_canonical {path target : Path} (hcanonical : files.canonical path = .ok target) :
    ∃ place, files.place path = .ok place ∧ target = pathOf place := by
  unfold canonical at hcanonical
  cases hplace : files.place path with
  | error fault =>
      rw [hplace] at hcanonical
      cases hcanonical
  | ok place =>
      rw [hplace] at hcanonical
      exact ⟨place, rfl, (Except.ok.inj hcanonical).symm⟩

end BreakpointProps.FileSystem
