import BreakpointProps.Json.Decode
import BreakpointProps.Proofs.Json.Reading

/-!
Taking a value out of a reading of it. What can be taken out of every reading of a value, wherever its parts
stand, can be taken out of the value's text.
-/

namespace BreakpointProps.Json

/-- Is this the result for every tree that tells the value? -/
def Decodes {α : Type} (decode : Tree → Except Fault α) (value : Json) (result : α) : Prop :=
  ∀ tree : Tree, tree.Tells value → decode tree = .ok result

/-- What is made of the result is the same for every tree. -/
theorem Decodes.map {α β : Type} {decode : Tree → Except Fault α} {value : Json} {result : α}
    (hdecode : Decodes decode value result) (make : α → β) :
    Decodes (fun tree => do return make (← decode tree)) value (make result) := by
  intro tree htells
  dsimp only
  rw [hdecode tree htells]
  rfl

/-- What is taken out of all readings of a value is taken out of its text. -/
theorem decodeText_of_decodes {α : Type} {decode : Tree → Except Fault α} {value : Json} {result : α}
    (hdecode : Decodes decode value result) (spacing : Spacing) (hwhole : value.HasWholeNumbers)
    (hdepth : value.depth ≤ Tree.greatestDepth) : decodeText decode (spacing.text value) = .ok result := by
  obtain ⟨htells, htrailing⟩ := read_text spacing hwhole hdepth
  rw [decodeText, hdecode _ htells, htrailing]
  rfl

section Values

namespace Tree

mutual

theorem Tells.json {tree : Tree} {value : Json} : tree.Tells value → tree.json = .ok value
  | .null _ | .bool _ _ | .number _ _ _ | .string _ _ => rfl
  | .array _ _ htells => by
      rw [Tree.json, htells.json]
      rfl
  | .object _ _ htells => by
      rw [Tree.json, htells.json]
      rfl

theorem TellItems.json {items : List (Slot × Tree)} {values : List Json} {stop : Nat} :
    TellItems items values → itemsJson (.closed stop) items = .ok values
  | .nil => rfl
  | .cons _ htells hrest => by
      rw [itemsJson, htells.json, hrest.json]
      rfl

theorem TellMembers.json {members : List (Key × Tree)} {fields : List (String × Json)} {stop : Nat} :
    TellMembers members fields → membersJson (.closed stop) members = .ok fields
  | .nil => rfl
  | .cons hname htells hrest => by
      rw [membersJson, hname, htells.json, hrest.json]
      rfl

end

end Tree

theorem decodes_json (value : Json) : Decodes Tree.json value value := fun _ htells => htells.json

theorem decodes_asString (s : String) : Decodes Tree.asString (.string s) s := by
  rintro _ ⟨⟩
  rfl

theorem decodes_asBool (b : Bool) : Decodes Tree.asBool (.bool b) b := by
  rintro _ ⟨⟩
  rfl

theorem decodes_asNat (type : String) (n : Nat) : Decodes (Tree.asNat type) (.ofNat n) n := by
  rintro _ ⟨⟩
  rw [Tree.asNat, if_pos (Int.natCast_nonneg n), Int.toNat_natCast]

theorem decodes_asOption {α : Type} {decode : Tree → Except Fault α} {value : Json} {result : α}
    (hdecode : Decodes decode value result) (hvalue : value ≠ .null) :
    Decodes (Tree.asOption decode) value (some result) := by
  intro tree htells
  have htaken := hdecode tree htells
  have hnull : ∀ stop, tree = .null stop → False := by
    rintro stop rfl
    cases htells
    exact hvalue rfl
  rw [Tree.asOption, htaken]
  · rfl
  · exact hnull

theorem decodes_asChoiceOfText {known : List String} {name : String} (hname : name ∈ known) :
    Decodes (Tree.asChoiceOfText known) (.string name) name := by
  rintro _ ⟨⟩
  exact if_pos (List.contains_iff_mem.mpr hname)

variable {α : Type} {encode : α → Json}

/-- A list is taken out item by item. -/
theorem decodes_asList {decode : Slot → Tree → Except Fault α} {list : List α}
    (hitems : ∀ a ∈ list, ∀ slot, Decodes (decode slot) (encode a) a) :
    Decodes (Tree.asList decode) (.array (list.map encode)) list := by
  rintro _ ⟨⟩
  rename_i trees start stop htells
  have hlist : (trees.mapM fun entry => decode entry.1 entry.2) = .ok list := by
    clear start stop
    induction list generalizing trees with
    | nil =>
        obtain ⟨⟩ := htells
        rfl
    | cons a rest ih =>
        rw [List.forall_mem_cons] at hitems
        obtain _ | ⟨slot, hfirst, hrest⟩ := htells
        rw [List.mapM_cons, hitems.1 slot _ hfirst, ih hitems.2 hrest]
        rfl
  rw [Tree.asList, hlist]
  rfl

/-- Members of one form are taken out one by one, with their names. -/
theorem decodes_asMembers {decode : Tree → Except Fault α} {entries : List (String × α)}
    (hentries : ∀ entry ∈ entries, Decodes decode (encode entry.2) entry.2) :
    Decodes (Tree.asMembers decode) (.object (entries.map fun entry => (entry.1, encode entry.2))) entries := by
  rintro _ ⟨⟩
  rename_i members start stop htells
  have hlist : (members.mapM fun entry => do return (← entry.1.name, ← decode entry.2)) = .ok entries := by
    clear start stop
    induction entries generalizing members with
    | nil =>
        obtain ⟨⟩ := htells
        rfl
    | cons entry rest ih =>
        rw [List.forall_mem_cons] at hentries
        obtain _ | ⟨hname, hfirst, hrest⟩ := htells
        rw [List.mapM_cons, hname, ih hentries.2 hrest]
        simp only [hentries.1 _ hfirst]
        rfl
  rw [Tree.asMembers, hlist]
  rfl

/-- Members with any values are taken out as they are. -/
theorem decodes_asMembers_json (fields : List (String × Json)) :
    Decodes (Tree.asMembers Tree.json) (.object fields) fields := by
  have hfields : Decodes (Tree.asMembers Tree.json) (.object (fields.map fun field => (field.1, id field.2))) fields :=
    decodes_asMembers fun field _ => decodes_json field.2
  rwa [List.map_id''] at hfields
  exact fun _ => rfl

end Values

section Records

variable {σ : Type} {store : σ → String → Tree → Except Fault σ} {shape : Tree.Shape}

/-- Do the fields fill in a record, one after the other, from one state of it to another? -/
inductive Stored (store : σ → String → Tree → Except Fault σ) : σ → List (String × Json) → σ → Prop
  | nil (state : σ) : Stored store state [] state
  | cons {state next final : σ} {name : String} {value : Json} {rest : List (String × Json)} :
      Decodes (store state name) value next → Stored store next rest final →
      Stored store state ((name, value) :: rest) final

theorem Stored.append {first middle last : σ} {front back : List (String × Json)}
    (hfront : Stored store first front middle) (hback : Stored store middle back last) :
    Stored store first (front ++ back) last := by
  induction hfront with
  | nil state => exact hback
  | cons hfield _ ih => exact .cons hfield (ih hback)

/-- One more field is filled in, if storing it is taking it out and setting it. -/
theorem Stored.field {α : Type} {decode : Tree → Except Fault α} {state final : σ} {name : String} {value : Json}
    {result : α} {rest : List (String × Json)} (set : α → σ)
    (hstore : store state name = fun tree => do return set (← decode tree)) (hdecode : Decodes decode value result)
    (hrest : Stored store (set result) rest final) : Stored store state ((name, value) :: rest) final := by
  have hfield := hdecode.map set
  rw [← hstore] at hfield
  exact .cons hfield hrest

/-- Fields of the record with different names that are not yet given are all filled in. -/
theorem foldMembers_of_stored {state final : σ} {fields : List (String × Json)} {members : List (Key × Tree)}
    {seen : List String} (hstored : Stored store state fields final) (htells : Tree.TellMembers members fields)
    (hknown : ∀ field ∈ fields, field.1 ∈ shape.fields) (hdistinct : (fields.map Prod.fst).Nodup)
    (hseen : ∀ field ∈ fields, field.1 ∉ seen) : Tree.foldMembers shape store state seen members = .ok final := by
  induction hstored generalizing members seen with
  | nil state =>
      obtain ⟨⟩ := htells
      rfl
  | @cons state next final name value rest hfield _ ih =>
      rw [List.forall_mem_cons] at hknown hseen
      rw [List.map_cons, List.nodup_cons] at hdistinct
      obtain _ | ⟨hname, hvalue, hrest⟩ := htells
      have hmore : ∀ field ∈ rest, field.1 ∉ name :: seen := by
        intro field hmem hsame
        rcases List.mem_cons.mp hsame with heq | hold
        · exact hdistinct.1 (heq ▸ List.mem_map.mpr ⟨field, hmem, rfl⟩)
        · exact hseen.2 field hmem hold
      rw [Tree.foldMembers, hname]
      dsimp only [bind, Except.bind]
      rw [if_neg (by simpa using hknown.1), if_neg (by simpa using hseen.1), hfield _ hvalue]
      exact ih hrest hknown.2 hdistinct.2 hmore

/-- A record is taken out of a reading of some of its fields, in their order. -/
theorem exists_asRecord {start final : σ} {fields : List (String × Json)} {tree : Tree}
    (hstored : Stored store start fields final) (hnames : (fields.map Prod.fst).Sublist shape.fields)
    (hshape : shape.fields.Nodup) (origin : Origin) (htells : tree.Tells (.object fields)) :
    ∃ stop, tree.asRecord origin shape store start = .ok (final, stop) := by
  cases htells with
  | object _ stop htells =>
      have hknown : ∀ field ∈ fields, field.1 ∈ shape.fields := fun field hfield =>
        hnames.subset (List.mem_map_of_mem hfield)
      refine ⟨stop, ?_⟩
      rw [Tree.asRecord, foldMembers_of_stored hstored htells hknown (hnames.nodup hshape) fun _ _ => List.not_mem_nil]
      rfl

end Records

end BreakpointProps.Json
