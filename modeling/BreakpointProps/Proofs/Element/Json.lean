import BreakpointProps.Element.Json
import BreakpointProps.Proofs.Element.MergeInTurn
import BreakpointProps.Proofs.Json.Taking

/-!
Elements and their JSON. An element is found again in its text: its kind, its values in their order and each of
the form it had, and its children in their order, texts told from elements.
-/

namespace BreakpointProps

open Json (Tree Fault Decodes Stored HasWholeNumbers Spacing)

section Proper

/-- Is a JSON value an array or an object, with its members in the order of their names? -/
def PropValue.IsProper : PropValue → Prop
  | .json (.array items) => (Json.array items).IsSorted
  | .json (.object members) => (Json.object members).IsSorted
  | .json _ => False
  | _ => True

/-- Has every name one value, a proper one? -/
structure Props.IsProper (props : Props) : Prop where
  isTable : props.IsTable
  values : ∀ entry ∈ props.entries, entry.2.IsProper

mutual

/-- Are all values in an element proper, however deep they stand? -/
def Element.IsProper : Element → Prop
  | .mk _ props children => props.IsProper ∧ Child.AreProper children

/-- Are all values in a child proper? -/
def Child.IsProper : Child → Prop
  | .text _ => True
  | .element child => child.IsProper

/-- Are all values in children proper? -/
def Child.AreProper : List Child → Prop
  | [] => True
  | child :: rest => child.IsProper ∧ Child.AreProper rest

end

end Proper

section Values

/-- A proper value has the form by which it is found again. -/
theorem PropValue.ofJson_toJson {value : PropValue} (hproper : value.IsProper)
    (hwhole : value.toJson.HasWholeNumbers) : ofJson value.toJson = value := by
  cases value with
  | null => rfl
  | bool b => rfl
  | string s => rfl
  | number x => exact (hwhole _ List.mem_cons_self).elim
  | json value =>
      cases value with
      | array items => exact congrArg PropValue.json (Json.normalized_of_isSorted hproper)
      | object members => exact congrArg PropValue.json (Json.normalized_of_isSorted hproper)
      | _ => exact hproper.elim

namespace Props

/-- Different names come in the order in which they are given. -/
theorem ofList_of_nodup {entries : List (String × PropValue)} (hdistinct : (entries.map Prod.fst).Nodup) :
    ofList entries = ⟨entries⟩ := by
  induction entries using List.reverseRecOn with
  | nil => rfl
  | append_singleton front entry ih =>
      obtain ⟨name, value⟩ := entry
      rw [List.map_append, List.nodup_append] at hdistinct
      have hnone : (ofList front).get? name = none :=
        (get?_ofList_eq_none_iff front name).mpr fun other hother =>
          hdistinct.2.2 _ (List.mem_map_of_mem hother) _ (List.mem_singleton.mpr rfl)
      have hentries := entries_insert_of_none hnone value
      rw [ih hdistinct.1] at hentries
      rw [ofList_append_singleton, ih hdistinct.1]
      exact congrArg Props.mk hentries

/-- Proper values are those of the object that they are written as. -/
theorem ofMembers_toJson {props : Props} (hproper : props.IsProper) (hwhole : props.toJson.HasWholeNumbers)
    {members : List (String × Json)} (hjson : props.toJson = .object members) : ofMembers members = props := by
  obtain rfl := Json.object.inj hjson
  have hvalues := Json.hasWholeNumbers_object.mp hwhole
  rw [List.forall_mem_map] at hvalues
  have hsame : ∀ entry ∈ props.entries, (entry.1, PropValue.ofJson entry.2.toJson) = id entry := fun entry hentry =>
    Prod.ext rfl (PropValue.ofJson_toJson (hproper.values entry hentry) (hvalues entry hentry))
  calc
    _ = ofList (props.entries.map fun entry => (entry.1, PropValue.ofJson entry.2.toJson)) :=
      congrArg ofList List.map_map
    _ = ofList (props.entries.map id) := congrArg ofList (List.map_congr_left hsame)
    _ = props := by rw [List.map_id, ofList_of_nodup hproper.isTable]

/-- Proper values are found in a reading of their JSON. -/
theorem decodes_toJson {props : Props} (hproper : props.IsProper) (hwhole : props.toJson.HasWholeNumbers) :
    Decodes Props.decode props.toJson props := by
  obtain ⟨members, hjson⟩ : ∃ members, props.toJson = .object members := ⟨_, rfl⟩
  have hmembers := (Json.decodes_asMembers_json members).map ofMembers
  rwa [ofMembers_toJson hproper hwhole hjson, ← hjson] at hmembers

end Props

end Values

section Elements

theorem Child.listToJson_eq_map (children : List Child) : Child.listToJson children = children.map Child.toJson := by
  induction children with
  | nil => rfl
  | cons child rest ih => rw [Child.listToJson, ih, List.map_cons]

theorem Child.areProper_iff {children : List Child} :
    Child.AreProper children ↔ ∀ child ∈ children, child.IsProper := by
  induction children with
  | nil => simp [Child.AreProper]
  | cons child rest ih => rw [Child.AreProper, ih, List.forall_mem_cons]

/-- The numbers in an element are those in its values and those in its children. -/
theorem Element.hasWholeNumbers_toJson {kind : String} {props : Props} {children : List Child} :
    (Element.mk kind props children).toJson.HasWholeNumbers ↔
      props.toJson.HasWholeNumbers ∧ ∀ item ∈ Child.listToJson children, item.HasWholeNumbers := by
  rw [Element.toJson, Json.hasWholeNumbers_object, ← Json.hasWholeNumbers_array]
  simp only [List.forall_mem_cons]
  exact ⟨fun h => ⟨h.2.1, h.2.2.1⟩, fun h => ⟨nofun, h.1, h.2, List.forall_mem_nil _⟩⟩

/-- The fields that are written are found by their names. -/
theorem Child.ofJson?_record {kind : String} {members : List (String × Json)} {items : List Json}
    {children : List Child} (hchildren : Child.listOfJson? items = some children) :
    Child.ofJson? (.object [("kind", .string kind), ("props", .object members), ("children", .array items)]) =
      some (.element (.mk kind (.ofMembers members) children)) := by
  have hunambiguous : Element.isUnambiguous
      [("kind", .string kind), ("props", .object members), ("children", .array items)] = true := rfl
  rw [Child.ofJson?, if_pos hunambiguous]
  simp only [Child.fieldsOfJson?, hchildren]
  rfl

mutual

/-- An element within another one is found again in its JSON, as an element. -/
theorem Element.ofJson?_toJson : ∀ {element : Element}, element.IsProper → element.toJson.HasWholeNumbers →
    Child.ofJson? element.toJson = some (.element element)
  | .mk kind props children, hproper, hwhole => by
      obtain ⟨hprops, hchildren⟩ := Element.hasWholeNumbers_toJson.mp hwhole
      have hlist := Child.listOfJson?_listToJson hproper.2 hchildren
      obtain ⟨members, hjson⟩ : ∃ members, props.toJson = .object members := ⟨_, rfl⟩
      rw [Element.toJson, hjson, Child.ofJson?_record hlist, Props.ofMembers_toJson hproper.1 hprops hjson]

/-- A child is found again in its JSON, a string as a text and a record as an element. -/
theorem Child.ofJson?_toJson : ∀ {child : Child}, child.IsProper → child.toJson.HasWholeNumbers →
    Child.ofJson? child.toJson = some child
  | .text content, _, _ => by rw [Child.toJson, Child.ofJson?]
  | .element _, hproper, hwhole => Element.ofJson?_toJson hproper hwhole

/-- Children are found again in their order. -/
theorem Child.listOfJson?_listToJson : ∀ {children : List Child}, Child.AreProper children →
    (∀ item ∈ Child.listToJson children, item.HasWholeNumbers) →
    Child.listOfJson? (Child.listToJson children) = some children
  | [], _, _ => by rw [Child.listToJson, Child.listOfJson?]
  | child :: rest, hproper, hwhole => by
      rw [Child.listToJson, List.forall_mem_cons] at hwhole
      rw [Child.listToJson, Child.listOfJson?, Child.ofJson?_toJson hproper.1 hwhole.1,
        Child.listOfJson?_listToJson hproper.2 hwhole.2]
      rfl

end

/-- A child is found in a reading of its JSON, wherever that stands. -/
theorem Child.decodes_toJson {child : Child} (hproper : child.IsProper) (hwhole : child.toJson.HasWholeNumbers)
    (slot : Json.Slot) : Decodes (Child.decode slot) child.toJson child := by
  intro tree htells
  rw [Child.decode, htells.json]
  dsimp only [bind, Except.bind]
  rw [Child.ofJson?_toJson hproper hwhole]
  rfl

/-- The fields of an element fill in what is known of it. -/
theorem Element.stored_toJson {kind : String} {props : Props} {children : List Child}
    (hproper : (Element.mk kind props children).IsProper)
    (hwhole : (Element.mk kind props children).toJson.HasWholeNumbers) :
    Stored Draft.store {}
      [("kind", .string kind), ("props", props.toJson), ("children", .array (Child.listToJson children))]
      ⟨some kind, some props, some children⟩ := by
  obtain ⟨hprops, hchildren⟩ := Element.hasWholeNumbers_toJson.mp hwhole
  rw [Child.listToJson_eq_map] at hchildren ⊢
  rw [List.forall_mem_map] at hchildren
  have hlist : Decodes (Tree.asList Child.decode) (.array (children.map Child.toJson)) children :=
    Json.decodes_asList fun child hchild =>
      Child.decodes_toJson (Child.areProper_iff.mp hproper.2 child hchild) (hchildren child hchild)
  exact .field (fun kind => ⟨some kind, none, none⟩) rfl (Json.decodes_asString kind)
    (.field (fun props => ⟨some kind, some props, none⟩) rfl (Props.decodes_toJson hproper.1 hprops)
      (.field (fun children => ⟨some kind, some props, some children⟩) rfl hlist (.nil _)))

/-- An element is found in a reading of its JSON. -/
theorem Element.decodes_toJson {element : Element} (hproper : element.IsProper)
    (hwhole : element.toJson.HasWholeNumbers) : Decodes Element.decode element.toJson element := by
  intro tree htells
  obtain ⟨kind, props, children⟩ := element
  obtain ⟨stop, hrecord⟩ := Json.exists_asRecord (Element.stored_toJson hproper hwhole)
    (List.Sublist.refl shape.fields) (by decide) .text htells
  rw [Element.decode, hrecord]
  rfl

end Elements

/-- An element is read from its text, on one line or on many, if its values are proper ones and there are no
numbers in it but whole ones within a JSON value. -/
theorem Element.decodeText_toJson {element : Element} (hproper : element.IsProper)
    (hwhole : element.toJson.HasWholeNumbers) (hdepth : element.toJson.depth ≤ Tree.greatestDepth) :
    Json.decodeText Element.decode element.toJson.compact = .ok element ∧
      Json.decodeText Element.decode element.toJson.pretty = .ok element := by
  have hdecode := Element.decodes_toJson hproper hwhole
  rw [Spacing.compact_eq, Spacing.pretty_eq]
  exact ⟨Json.decodeText_of_decodes hdecode .none hwhole hdepth,
    Json.decodeText_of_decodes hdecode .lines hwhole hdepth⟩

/-- Quotes, backslashes, control characters and JSON within strings, at all places of nested elements. -/
theorem Element.decodeText_toJson_escapes :
    let element : Element :=
      .mk "a\"b\\" ⟨[("z\n", .null), ("a", .bool true), ("", .string "\x01\\u0041😀"),
          ("é", .json (.object [("", .array [.null, .string "[1]"]), ("\"", .bool false)]))]⟩
        [.text "null", .element (.mk "br" {} [.text "\x7b\"kind\":\"br\"\x7d"]), .text ""]
    Json.decodeText Element.decode element.toJson.compact = .ok element ∧
      Json.decodeText Element.decode element.toJson.pretty = .ok element := by
  intro element
  have hproper : element.IsProper := by
    have hdistinct : ["z\n", "a", "", "é"].Nodup := by decide
    have horder : "" < "\"" := by decide
    refine ⟨⟨hdistinct, ?_⟩, trivial, ⟨⟨List.nodup_nil, nofun⟩, trivial, trivial⟩, trivial, trivial⟩
    simp [PropValue.IsProper, Json.IsSorted, Json.AreSortedItems, Json.AreSortedMembers, horder, -String.lt_iff_ltb]
  have hwhole : element.toJson.HasWholeNumbers := nofun
  exact Element.decodeText_toJson hproper hwhole (by decide)

end BreakpointProps
