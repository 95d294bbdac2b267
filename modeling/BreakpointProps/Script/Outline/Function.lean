import BreakpointProps.Script.Outline.Basic

/-!
The outlines of patterns, functions and classes.
-/

namespace BreakpointProps.Script.Outline

/-- A part where a pattern stands. Other expressions can stand there too. -/
def target (part : Part) : String :=
  match part.label with
  | .binding _ _ | .arrayPattern _ | .objectPattern _ | .defaulted | .rest _ | .invalid => part.text
  | _ => variant "Expr" part.text

/-- A part where a pattern stands, if it was not left out. -/
def target? (part : Part) : String := if part.isAbsent then "None" else variant "Some" (target part)

def pattern? (label : Label) (span : Span) (parts : List Part) : Option Outline :=
  match label, parts with
  | .binding name optional, _ => some <|
    let id := placed "Ident" span
      [scope, ("sym", Text.quoted name), ("optional", truth optional)]
    let type := (parts.head?.map Part.body?).getD "None"
    { kind := "Ident", body := record "BindingIdent" [("id", id), ("type_ann", type)] }
  | .arrayPattern optional, _ => some <|
    node "Array" "ArrayPat" span [("elems", row (parts.dropLast.map target?)),
      ("optional", truth optional), ("type_ann", (parts.getLast?.map Part.body?).getD "None")]
  | .objectPattern optional, _ => some <|
    node "Object" "ObjectPat" span [("props", row (parts.dropLast.map Part.text)),
      ("optional", truth optional), ("type_ann", (parts.getLast?.map Part.body?).getD "None")]
  | .keyPattern, [key, value] => some
    { kind := "KeyValue"
      body := record "KeyValuePatProp" [("key", key.text), ("value", target value)] }
  | .shorthandPattern name, [value, key] => some <|
    let bound := record "BindingIdent" [("id", reference key.span name), ("type_ann", "None")]
    node "Assign" "AssignPatProp" span [("key", bound), ("value", value.text?)]
  | .defaulted, [left, right] => some <|
    node "Assign" "AssignPat" span [("left", target left), ("right", right.text)]
  | .rest dots, [inner, type] => some <|
    node "Rest" "RestPat" span [("dot3_token", (Span.mk dots (dots + 3)).text), ("arg", target inner),
      ("type_ann", type.body?)]
  | .parameter modifiers, [inner] => some <|
    if modifiers.isEmpty then node "Param" "Param" span [decorators, ("pat", inner.text)]
    else
      let access := modifiers.find? (["public", "protected", "private"].contains ·)
      named "TsParamProp" span [decorators, ("accessibility", option (access.map Text.quoted)),
        ("is_override", truth (modifiers.contains "override")),
        ("readonly", truth (modifiers.contains "readonly")), ("param", inner.text)]
  | _, _ => none

/-- What follows the name of a function. -/
def function (span : Span) (isAsync generator : Bool) : List Part → String
  | [typeParameters, parameters, returns, inner] =>
    record "Function" [("params", parameters.bodies), decorators, ("span", span.text), scope,
      ("body", inner.body?), ("is_generator", truth generator), ("is_async", truth isAsync),
      ("type_params", typeParameters.body?), ("return_type", returns.body?)]
  | _ => ""

/-- What follows the name of a class. -/
def class_ (span : Span) (isAbstract : Bool) : List Part → String
  | [_, typeParameters, parent, arguments, interfaces, members] =>
    placed "Class" span [scope, decorators, ("body", members.texts), ("super_class", parent.text?),
      ("is_abstract", truth isAbstract), ("type_params", typeParameters.body?),
      ("super_type_params", arguments.body?), ("implements", interfaces.bodies)]
  | _ => ""

def access (modifiers : List String) : String :=
  option ((modifiers.find? (["public", "protected", "private"].contains ·)).map Text.quoted)

def field (span : Span) (modifiers : List String) (optional definite : Bool)
    (key type value : Part) : Outline :=
  let has (word : String) : String := truth (modifiers.contains word)
  let content := [("value", value.text?), ("type_ann", type.body?), ("is_static", has "static"),
    decorators, ("accessibility", access modifiers)]
  let isPrivate := key.label matches .privateName _
  if modifiers.contains "accessor" then
    let key := if isPrivate then variant "Private" key.body else variant "Public" key.text
    named "AutoAccessor" span ([("key", key)] ++ content ++
      [("is_abstract", has "abstract"), ("is_override", has "override"), ("definite", truth definite)])
  else if isPrivate then
    named "PrivateProp" span ([scope, ("key", key.body)] ++ content ++
      [("is_optional", truth optional), ("is_override", has "override"), ("readonly", has "readonly"),
       ("definite", truth definite)])
  else
    named "ClassProp" span ([("key", key.text)] ++ content ++
      [("is_abstract", has "abstract"), ("is_optional", truth optional),
       ("is_override", has "override"), ("readonly", has "readonly"), ("declare", has "declare"),
       ("definite", truth definite)])

def member? (label : Label) (span : Span) (parts : List Part) : Option Outline :=
  match label, parts with
  | .constructorMember access optional, [key, parameters, inner] => some <|
    named "Constructor" span [scope, ("key", key.text), ("params", parameters.texts),
      ("body", inner.body?), ("accessibility", option (access.map Text.quoted)),
      ("is_optional", truth optional)]
  | .methodMember kind modifiers isAsync generator optional, key :: rest => some <|
    let role := if kind == "get" then "getter" else if kind == "set" then "setter" else kind
    let fields := [("function", function span isAsync generator rest), ("kind", Text.quoted role),
      ("is_static", truth (modifiers.contains "static")), ("accessibility", access modifiers),
      ("is_abstract", truth (modifiers.contains "abstract")), ("is_optional", truth optional),
      ("is_override", truth (modifiers.contains "override"))]
    if key.label matches .privateName _ then
      named "PrivateMethod" span (("key", key.body) :: fields)
    else node "Method" "ClassMethod" span (("key", key.text) :: fields)
  | .propertyMember modifiers optional definite, [key, type, value] =>
    some (field span modifiers optional definite key type value)
  | .staticBlock, [inner] => some (named "StaticBlock" span [("body", inner.body)])
  | .emptyMember, _ => some (node "Empty" "EmptyStmt" span [])
  | _, _ => none

end BreakpointProps.Script.Outline
