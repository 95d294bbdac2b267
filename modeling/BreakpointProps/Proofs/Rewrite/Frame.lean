import BreakpointProps.Proofs.Rewrite.Guard
import BreakpointProps.Proofs.Rewrite.Tally

/-!
What rewriting touches: the attributes of the tags that are looked at, each list replaced by what its own
attributes are rewritten to. Everything else stays, and whether a tag is rewritten can be told from
the tree as it was.
-/

namespace BreakpointProps.Rewrite

open Script

section Replacing

/-- The attribute that is made for a class list is left as it is. -/
theorem rewritten_classNameNode (file value : String) (span : Span) :
    rewritten file (classNameNode value span) = classNameNode value span :=
  rewritten_of_isNormal file fun attributes hattributes => by simp at hattributes

/-- It does not matter whether what stands inside the attributes of a tag is rewritten before they are
or after. -/
theorem rewriteAttributes_map_rewritten (file : String) (attributes : List Node) :
    rewriteAttributes (attributes.map (rewritten file)) =
      (rewriteAttributes attributes).map (rewritten file) := by
  have hroles : (attributes.map (rewritten file)).map Role.of = attributes.map Role.of := by
    rw [List.map_map]
    exact List.map_congr_left fun a _ => role_rewritten file a
  have hkept : (attributes.map (rewritten file)).filter (fun a => (Role.of a).isKept) =
      (attributes.filter fun a => (Role.of a).isKept).map (rewritten file) := by
    rw [List.filter_map]
    simp only [Function.comp_def, role_rewritten]
  simp only [rewriteAttributes, hroles, hkept]
  split
  · split
    · rw [List.map_append, List.map_singleton, rewritten_classNameNode]
    · rfl
  · rfl

theorem tagParts_map_rewritten (file : String) (label : Label) (parts : List Node) :
    tagParts label (parts.map (rewritten file)) = (tagParts label parts).map (rewritten file) := by
  cases label with
  | openingTag closing =>
      match parts with
      | [] | [_] => rfl
      | name :: types :: attributes =>
          simp only [tagParts, List.map_cons, rewriteAttributes_map_rewritten]
  | _ => rfl

/-- A tree is rewritten from the top as well: the attributes of a tag are replaced by what they are
rewritten to, and then every part is rewritten by itself. -/
theorem rewritten_mk_tagParts (file : String) (label : Label) (span : Span) (parts : List Node) :
    rewritten file (.mk label span parts) =
      .mk label span
        (if isTypeLevel label then parts else (tagParts label parts).map (rewritten file)) := by
  rw [rewritten_mk, tagParts_map_rewritten]

end Replacing

section Frame

/-- The parts of a node, but of an opening tag only its name and its type arguments. -/
def partsBesideAttributes : Label → List Node → List Node
  | .openingTag _, name :: types :: _ => [name, types]
  | _, parts => parts

mutual

/-- The tree without the attributes of the tags that are looked at. -/
def withoutAttributes : Node → Node
  | .mk label span parts =>
    .mk label span
      (if isTypeLevel label then parts else partsBesideAttributes label (withoutAttributesIn parts))

/-- The trees without the attributes of the tags that are looked at. -/
def withoutAttributesIn : List Node → List Node
  | [] => []
  | node :: rest => withoutAttributes node :: withoutAttributesIn rest

end

@[simp] theorem withoutAttributesIn_eq_map (nodes : List Node) :
    withoutAttributesIn nodes = nodes.map withoutAttributes := by
  induction nodes with
  | nil => rfl
  | cons node rest ih => rw [withoutAttributesIn, ih, List.map_cons]

theorem partsBesideAttributes_tagParts (label : Label) (parts : List Node) (f : Node → Node) :
    partsBesideAttributes label ((tagParts label parts).map f) =
      partsBesideAttributes label (parts.map f) := by
  cases label with
  | openingTag closing =>
      match parts with
      | [] | [_] => rfl
      | _ :: _ :: _ => rfl
  | _ => rfl

/-- Outside the attributes of the tags that are looked at, a tree stays as it was. -/
theorem withoutAttributes_rewritten (file : String) (tree : Node) :
    withoutAttributes (rewritten file tree) = withoutAttributes tree := by
  induction tree using Node.partsInduction with
  | mk label span parts ih =>
      rw [rewritten_mk, withoutAttributes, withoutAttributes]
      cases hlevel : isTypeLevel label with
      | true => rfl
      | false =>
          have hparts : (parts.map (rewritten file)).map withoutAttributes =
              parts.map withoutAttributes := by
            rw [List.map_map]
            exact List.map_congr_left ih
          simp only [Bool.false_eq_true, ↓reduceIte, withoutAttributesIn_eq_map,
            partsBesideAttributes_tagParts, hparts]

end Frame

section Tags

/-- A word of the source, which no tag can stand in. -/
def isWord : Label → Bool
  | .name _ | .string _ _ | .templateText _ _ => true
  | _ => false

mutual

/-- Has no word of the tree parts? -/
def hasBareWords : Node → Bool
  | .mk label _ parts => (!isWord label || parts.isEmpty) && haveBareWords parts

/-- Has no word of the trees parts? -/
def haveBareWords : List Node → Bool
  | [] => true
  | node :: rest => hasBareWords node && haveBareWords rest

end

@[simp] theorem haveBareWords_eq_all (nodes : List Node) :
    haveBareWords nodes = nodes.all hasBareWords := by
  induction nodes with
  | nil => rfl
  | cons node rest ih => rw [haveBareWords, ih, List.all_cons]

theorem parts_eq_nil_of_isWord {label : Label} {span : Span} {parts : List Node}
    (hword : isWord label = true) (hbare : hasBareWords (.mk label span parts) = true) :
    parts = [] := by
  simp only [hasBareWords, hword, Bool.not_true, Bool.false_or, Bool.and_eq_true,
    List.isEmpty_iff] at hbare
  exact hbare.1

theorem hasBareWords_of_mem {label : Label} {span : Span} {parts : List Node}
    (hbare : hasBareWords (.mk label span parts) = true) {p : Node} (hp : p ∈ parts) :
    hasBareWords p = true := by
  simp only [hasBareWords, haveBareWords_eq_all, Bool.and_eq_true, List.all_eq_true] at hbare
  exact hbare.2 p hp

theorem tagAttributes_of_isWord {label : Label} {span : Span} {parts : List Node}
    (hword : isWord label = true) (hbare : hasBareWords (.mk label span parts) = true) :
    tagAttributes (.mk label span parts) = [] := by
  obtain rfl := parts_eq_nil_of_isWord hword hbare
  cases label <;> rfl

theorem tagAttributes_mk_eq_nil {label : Label} {span : Span} {parts : List Node}
    (hparts : ∀ p ∈ parts, tagAttributes p = []) (hown : ownAttributes label parts = []) :
    tagAttributes (.mk label span parts) = [] := by
  rw [tagAttributes, tagAttributesIn_eq_flatMap, List.flatMap_eq_nil_iff.mpr hparts, hown,
    List.append_nil, ite_self]

/-- No tag stands in an expression that is known to be a text. -/
theorem tagAttributes_of_staticText? {node : Node} {text : String}
    (hbare : hasBareWords node = true) (htext : staticText? node = some text) :
    tagAttributes node = [] := by
  unfold staticText? at htext
  split at htext
  · exact tagAttributes_of_isWord rfl hbare
  · have hinner := tagAttributes_of_isWord rfl (hasBareWords_of_mem hbare List.mem_cons_self)
    exact tagAttributes_mk_eq_nil (by simpa using hinner) rfl
  · exact absurd htext (by simp)

/-- No tag stands in a value that is known. -/
theorem tagAttributes_of_staticValue? {node : Node} {text : String}
    (hbare : hasBareWords node = true) (htext : staticValue? node = some text) :
    tagAttributes node = [] := by
  unfold staticValue? at htext
  split at htext
  · exact tagAttributes_of_isWord rfl hbare
  · have hinner :=
      tagAttributes_of_staticText? (hasBareWords_of_mem hbare List.mem_cons_self) htext
    exact tagAttributes_mk_eq_nil (by simpa using hinner) rfl
  · exact absurd htext (by simp)

/-- An attribute that a rewritten tag loses holds no tag. -/
theorem tagAttributes_of_not_isKept {a : Node} (hbare : hasBareWords a = true)
    (hkept : (Role.of a).isKept = false) (hknown : Role.of a ≠ .dynamicClassName) :
    tagAttributes a = [] := by
  unfold Role.of at hkept hknown
  split at hkept
  · rename_i name span parts value
    have hname := tagAttributes_of_isWord rfl (hasBareWords_of_mem hbare List.mem_cons_self)
    have hvalue : hasBareWords value = true := hasBareWords_of_mem hbare (by simp)
    have hnone : tagAttributes value = [] := by
      cases hstatic : staticValue? value with
      | some text => exact tagAttributes_of_staticValue? hvalue hstatic
      | none =>
          simp only [hstatic] at hkept hknown
          split at hkept
          · rename_i hclass
            simp [hclass] at hknown
          · cases hbreakpoint : Breakpoint.ofName? name <;>
              simp [hbreakpoint, Role.isKept] at hkept
    exact tagAttributes_mk_eq_nil (by simpa using ⟨hname, hnone⟩) rfl
  · exact absurd hkept (by decide)

/-- A tag that is rewritten neither loses nor gains a tag. -/
theorem flatMap_rewriteAttributes (file : String) {attributes : List Node}
    (hbare : ∀ a ∈ attributes, hasBareWords a = true) :
    (rewriteAttributes attributes).flatMap (fun a => tagAttributes (rewritten file a)) =
      attributes.flatMap fun a => tagAttributes (rewritten file a) := by
  cases hrewritten : isRewritten (attributes.map Role.of) with
  | false =>
      rw [rewriteAttributes_of_settled ((isRewritten_eq_false_iff attributes).mp hrewritten)]
  | true =>
      have hknown := ((isRewritten_iff attributes).mp hrewritten).2
      have hkept : (attributes.filter fun a => (Role.of a).isKept).flatMap
            (fun a => tagAttributes (rewritten file a)) =
          attributes.flatMap fun a => tagAttributes (rewritten file a) := by
        clear hrewritten
        induction attributes with
        | nil => rfl
        | cons a rest ih =>
            have hrest := ih (fun b hb => hbare b (List.mem_cons_of_mem _ hb))
              fun b hb => hknown b (List.mem_cons_of_mem _ hb)
            rw [List.filter_cons, List.flatMap_cons, ← hrest]
            split
            · rw [List.flatMap_cons]
            · rename_i hdropped
              have hnone := tagAttributes_of_not_isKept (hbare a List.mem_cons_self)
                (Bool.not_eq_true _ ▸ hdropped) (hknown a List.mem_cons_self)
              have hnormal : IsNormal a := by
                intro tag htag
                rw [hnone] at htag
                exact absurd htag List.not_mem_nil
              rw [rewritten_of_isNormal file hnormal, hnone, List.nil_append]
      simp only [rewriteAttributes, hrewritten, ↓reduceIte]
      split
      · rw [List.flatMap_append, hkept]
        simp [rewritten_classNameNode]
      · exact hkept

theorem flatMap_tagParts (file : String) (label : Label) {parts : List Node}
    (hbare : ∀ p ∈ parts, hasBareWords p = true) :
    (tagParts label parts).flatMap (fun p => tagAttributes (rewritten file p)) =
      parts.flatMap fun p => tagAttributes (rewritten file p) := by
  unfold tagParts
  split
  · simp only [List.flatMap_cons]
    rw [flatMap_rewriteAttributes file fun a ha => hbare a (by simp [ha])]
  · rfl

theorem ownAttributes_tagParts (label : Label) (parts : List Node) :
    ownAttributes label (tagParts label parts) =
      (ownAttributes label parts).map rewriteAttributes := by
  cases label with
  | openingTag closing =>
      match parts with
      | [] | [_] => rfl
      | _ :: _ :: _ => rfl
  | _ => rfl

/-- The tags of a rewritten tree are those of the tree, in their order. Each has what its own attributes
are rewritten to, in which the tags are rewritten in their turn. -/
theorem tagAttributes_rewritten (file : String) {tree : Node} (hbare : hasBareWords tree = true) :
    tagAttributes (rewritten file tree) =
      (tagAttributes tree).map fun attributes =>
        (rewriteAttributes attributes).map (rewritten file) := by
  induction tree using Node.partsInduction with
  | mk label span parts ih =>
      rw [rewritten_mk_tagParts, tagAttributes, tagAttributes]
      split
      · rfl
      · have hparts : ∀ p ∈ parts, hasBareWords p = true := fun p => hasBareWords_of_mem hbare
        have hinner : ∀ p ∈ parts, tagAttributes (rewritten file p) =
            (tagAttributes p).map fun attributes =>
              (rewriteAttributes attributes).map (rewritten file) :=
          fun p hp => ih p hp (hparts p hp)
        simp only [tagAttributesIn_eq_flatMap, List.flatMap_map, flatMap_tagParts file label hparts,
          List.map_append, List.map_flatMap]
        rw [← tagParts_map_rewritten, ownAttributes_tagParts, ownAttributes_map_rewritten,
          List.flatMap_def, List.map_congr_left hinner, List.flatMap_def, List.map_map]
        simp only [Function.comp_def, rewriteAttributes_map_rewritten]

end Tags

section Output

/-- The number of tags of which `rewriteAttributes` changes the attributes: they have a known class list
of a breakpoint and no class list that is not known. -/
def countRewritten (tags : List (List Node)) : Nat :=
  tags.countP fun attributes =>
    (∃ a ∈ attributes, (Role.of a).isStaticBreakpoint) ∧
      ∀ a ∈ attributes, Role.of a ≠ .dynamicClassName

theorem elements_eq_countRewritten (file : String) (tree : Node) :
    (rewriteNode file tree).2.elements = countRewritten (tagAttributes tree) := by
  rw [elements_rewriteNode, countRewritten]
  apply List.countP_congr
  intro attributes _
  rw [isRewritten_iff, decide_eq_true_iff]

/-- What comes of a source that can be read. -/
theorem rewriteSource_of_read (config : Config) (id : String) {source : String}
    {reading : Reading} (hread : Script.read (ModuleId.dialect id) (withoutMark source) = .ok reading) :
    if countRewritten (tagAttributes reading.tree) = 0 then
      (rewriteSource config id source).result = .ok none
    else ∃ output, (rewriteSource config id source).result = .ok (some output) ∧
      output.elements = countRewritten (tagAttributes reading.tree) := by
  rw [← elements_eq_countRewritten id]
  unfold rewriteSource rewriteSourceWith
  split <;> rename_i hcount
  · simp [hread, hcount]
  · simp [hread, hcount]

/-- Rewriting replaces the attributes of every tag that does not stand in a type, those of each by what
they alone are rewritten to, and keeps everything else. The elements that count as rewritten are
the tags of the tree as it was that have a known class list of a breakpoint and no class list
that is not known, and there is no output for a source exactly if it has none of them. -/
theorem rewriting_replaces_attributes (file : String) (tree : Node) :
    (∀ label span parts, rewritten file (.mk label span parts) =
      .mk label span
        (if isTypeLevel label then parts else (tagParts label parts).map (rewritten file))) ∧
    withoutAttributes (rewritten file tree) = withoutAttributes tree ∧
    (hasBareWords tree = true → tagAttributes (rewritten file tree) =
      (tagAttributes tree).map fun attributes =>
        (rewriteAttributes attributes).map (rewritten file)) ∧
    (rewriteNode file tree).2.elements = countRewritten (tagAttributes tree) ∧
    ∀ (config : Config) (source : String) (comments : List AttachedComment),
      Script.read (ModuleId.dialect file) (withoutMark source) = .ok ⟨tree, comments⟩ →
      if countRewritten (tagAttributes tree) = 0 then
        (rewriteSource config file source).result = .ok none
      else ∃ output, (rewriteSource config file source).result = .ok (some output) ∧
        output.elements = countRewritten (tagAttributes tree) :=
  ⟨rewritten_mk_tagParts file, withoutAttributes_rewritten file tree, tagAttributes_rewritten file,
    elements_eq_countRewritten file tree,
    fun config _ _ hread => rewriteSource_of_read config file hread⟩

/-- A link with a tag in an attribute and with a class list that is not known. -/
def nestedLink : String := "<a md='x'b=\x7b<i sm='y'id='z'/>\x7dclassName=\x7bc\x7d/>"

/-- Only the tag in the attribute is rewritten. -/
theorem rewriting_replaces_attributes_nested :
    ∃ reading, Script.read (ModuleId.dialect "a.jsx") (withoutMark nestedLink) = .ok reading ∧
      (tagAttributes reading.tree).map List.length = [2, 3] ∧
      (tagAttributes (rewritten "a.jsx" reading.tree)).map List.length = [2, 3] ∧
      ∀ config, ∃ output, (rewriteSource config "a.jsx" nestedLink).result = .ok (some output) ∧
        output.elements = 1 := by
  have hreads : (Script.read (ModuleId.dialect "a.jsx") (withoutMark nestedLink)).toOption.any
      (fun reading => hasBareWords reading.tree &&
        (tagAttributes reading.tree).map List.length == [2, 3] &&
        (tagAttributes reading.tree).map (fun attributes =>
          (rewriteAttributes attributes).length) == [2, 3] &&
        countRewritten (tagAttributes reading.tree) == 1) = true := by
    decide +kernel
  obtain ⟨⟨tree, comments⟩, hread, hfacts⟩ := (Option.any_eq_true _ _).mp hreads
  simp only [Bool.and_eq_true, beq_iff_eq] at hfacts
  obtain ⟨⟨⟨hbare, htags⟩, hlengths⟩, hcount⟩ := hfacts
  have hread := eq_ok_of_toOption hread
  obtain ⟨_, _, hreplaced, _, houtput⟩ := rewriting_replaces_attributes "a.jsx" tree
  refine ⟨⟨tree, comments⟩, hread, htags, ?_, ?_⟩
  · rw [hreplaced hbare, List.map_map, ← hlengths]
    simp only [Function.comp_def, List.length_map]
  · intro config
    have hresult := houtput config nestedLink comments hread
    rw [hcount, if_neg Nat.one_ne_zero] at hresult
    exact hresult

mutual

/-- The attributes of every opening tag in a tree, also of those in types. -/
def everyTag : Node → List (List Node)
  | .mk label _ parts => everyTagIn parts ++ ownAttributes label parts

/-- The attributes of every opening tag in trees, also of those in types. -/
def everyTagIn : List Node → List (List Node)
  | [] => []
  | node :: rest => everyTag node ++ everyTagIn rest

end

/-- A tag in a key of an interface, and one outside. -/
def keyedInterface : String := "interface A \x7b[<i md='x'/>]: B\x7d <i md='x'/>"

/-- Both tags have a known class list of a breakpoint and no other, but the one in the interface is not
looked at. -/
theorem elements_keyedInterface :
    ∃ reading, Script.read (ModuleId.dialect "a.tsx") (withoutMark keyedInterface) = .ok reading ∧
      countRewritten (everyTag reading.tree) = 2 ∧
      (rewriteNode "a.tsx" reading.tree).2.elements = 1 := by
  have hreads : (Script.read (ModuleId.dialect "a.tsx") (withoutMark keyedInterface)).toOption.any
      (fun reading => countRewritten (everyTag reading.tree) == 2 &&
        (rewriteNode "a.tsx" reading.tree).2.elements == 1) = true := by
    decide +kernel
  obtain ⟨reading, hread, hfacts⟩ := (Option.any_eq_true _ _).mp hreads
  simp only [Bool.and_eq_true, beq_iff_eq] at hfacts
  exact ⟨reading, eq_ok_of_toOption hread, hfacts⟩

end Output

end BreakpointProps.Rewrite
