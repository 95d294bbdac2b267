import BreakpointProps.Script.Outline.Basic

/-!
The outlines of types.
-/

namespace BreakpointProps.Script.Outline

/-- The word of a type in the name of its kind. -/
def keyword (name : String) : String :=
  let written := match name with
    | "bigint" => "BigInt"
    | other => other.capitalize
  "Ts" ++ written ++ "Keyword"

/-- A name of a type, which may have dots in it. -/
def entity (part : Part) : String :=
  match part.label with
  | .name _ | .identifier _ => variant "Ident" (referenceOf part)
  | _ => part.text

/-- The sign of a modifier of a mapped type. -/
def sign : Option String → String
  | some "+" => variant "Some" "Plus"
  | some "-" => variant "Some" "Minus"
  | some _ => variant "Some" "True"
  | none => "None"

def typeParameter (span : Span) (name : Part) (modifiers : List String) (constraint default : String) :
    String :=
  placed "TsTypeParam" span [("name", referenceOf name), ("is_in", truth (modifiers.contains "in")),
    ("is_out", truth (modifiers.contains "out")), ("is_const", truth (modifiers.contains "const")),
    ("constraint", constraint), ("default", default)]

def literalOfType (part : Part) : String :=
  match literal? part.label part.span with
  | some found => variant (if found.kind == "Num" then "Number" else found.kind) found.body
  | none => part.text

/-- The parameters of a signature: patterns alone. -/
def signatureParameters (parameters : Part) : String :=
  row (parameters.parts.map fun part => match part.label, part.parts with
    | .parameter _, [pattern] => pattern.text
    | _, _ => part.text)

def signatureKey (key : Part) : String :=
  match key.label with
  | .name _ => variant "Ident" (referenceOf key)
  | _ => key.text

def typeMember? (label : Label) (span : Span) (parts : List Part) : Option Outline :=
  match label, parts with
  | .propertySignature readonly optional computed, [key, type] => some <|
    named "TsPropertySignature" span [("readonly", truth readonly), ("key", signatureKey key),
      ("computed", truth computed), ("optional", truth optional), ("type_ann", type.body?)]
  | .methodSignature optional computed, [key, typeParameters, parameters, returns] => some <|
    named "TsMethodSignature" span [("key", signatureKey key), ("computed", truth computed),
      ("optional", truth optional), ("params", signatureParameters parameters),
      ("type_ann", returns.body?), ("type_params", typeParameters.body?)]
  | .getterSignature computed, [key, returns] => some <|
    named "TsGetterSignature" span [("key", signatureKey key), ("computed", truth computed),
      ("type_ann", returns.body?)]
  | .setterSignature computed, [key, parameter] => some <|
    let pattern := parameter.parts.head?.getD parameter
    named "TsSetterSignature" span [("key", signatureKey key), ("computed", truth computed),
      ("param", pattern.text)]
  | .callSignature, [typeParameters, parameters, returns] => some <|
    named "TsCallSignatureDecl" span [("params", signatureParameters parameters),
      ("type_ann", returns.body?), ("type_params", typeParameters.body?)]
  | .constructSignature, [typeParameters, parameters, returns] => some <|
    named "TsConstructSignatureDecl" span [("params", signatureParameters parameters),
      ("type_ann", returns.body?), ("type_params", typeParameters.body?)]
  | .indexSignature modifiers, [parameters, type] => some
    { kind := "TsIndexSignature"
      body := record "TsIndexSignature" [("params", parameters.texts), ("type_ann", type.body?),
        ("readonly", truth (modifiers.contains "readonly")),
        ("is_static", truth (modifiers.contains "static")), ("span", span.text)] }
  | _, _ => none

def type? (label : Label) (span : Span) (parts : List Part) : Option Outline :=
  match label, parts with
  | .keywordType name, _ => some (named "TsKeywordType" span [("kind", keyword name)])
  | .thisType, _ => some (named "TsThisType" span [])
  | .typeReference, [name, arguments] => some <|
    named "TsTypeRef" span [("type_name", entity name), ("type_params", arguments.body?)]
  | .qualifiedName, [left, right] => some <|
    named "TsQualifiedName" span [("left", entity left),
      ("right", placed "IdentName" right.span [("sym", Text.quoted (spelling right.label))])]
  | .typeQuery, [name, arguments] => some <|
    let queried := match name.label with
      | .importType => variant "Import" name.body
      | _ => variant "TsEntityName" (entity name)
    named "TsTypeQuery" span [("expr_name", queried), ("type_args", arguments.body?)]
  | .importOptions, [attributes] => some <|
    node "" "TsImportCallOptions" span [("with", attributes.body)]
  | .importType, [argument, options, qualifier, arguments] => some <|
    let from_ := ((literal? argument.label argument.span).map Outline.body).getD argument.body
    let qualified := if qualifier.isAbsent then "None" else variant "Some" (entity qualifier)
    named "TsImportType" span [("arg", from_), ("qualifier", qualified),
      ("type_args", arguments.body?), ("attributes", options.body?)]
  | .typeLiteral, _ => some <|
    named "TsTypeLit" span [("members", row (parts.map Part.text))]
  | .arrayType, [inner] => some (named "TsArrayType" span [("elem_type", inner.text)])
  | .tupleType, _ => some (named "TsTupleType" span [("elem_types", row (parts.map Part.text))])
  | .tupleElement, [label, inner] => some <|
    node "" "TsTupleElement" span [("label", label.text?), ("ty", inner.text)]
  | .optionalType, [inner] => some (named "TsOptionalType" span [("type_ann", inner.text)])
  | .restType, [inner] => some (named "TsRestType" span [("type_ann", inner.text)])
  | .unionType, _ => some
    { kind := "TsUnionOrIntersectionType"
      body := (named "TsUnionType" span [("types", row (parts.map Part.text))]).text }
  | .intersectionType, _ => some
    { kind := "TsUnionOrIntersectionType"
      body := (named "TsIntersectionType" span [("types", row (parts.map Part.text))]).text }
  | .conditionalType, [checked, extended, yes, no] => some <|
    named "TsConditionalType" span [("check_type", checked.text), ("extends_type", extended.text),
      ("true_type", yes.text), ("false_type", no.text)]
  | .inferType, [parameter] => some (named "TsInferType" span [("type_param", parameter.body)])
  | .parenthesizedType, [inner] => some <|
    named "TsParenthesizedType" span [("type_ann", inner.text)]
  | .typeOperator op, [inner] => some <|
    named "TsTypeOperator" span [("op", Text.quoted op), ("type_ann", inner.text)]
  | .indexedType, [object, index] => some <|
    named "TsIndexedAccessType" span [("readonly", "false"), ("obj_type", object.text),
      ("index_type", index.text)]
  | .mappedType readonly optional, [name, constraint, nameType, inner] => some <|
    let parameter := typeParameter ⟨name.span.lo, constraint.span.hi⟩ name [] constraint.text? "None"
    named "TsMappedType" span [("readonly", sign readonly), ("type_param", parameter),
      ("name_type", nameType.text?), ("optional", sign optional), ("type_ann", inner.text?)]
  | .literalType, [inner] => some (named "TsLitType" span [("lit", literalOfType inner)])
  | .templateType, _ => some (node "Tpl" "TsTplLitType" span (templateFields "types" parts))
  | .typePredicate asserts, [name, inner] => some <|
    let subject := match name.label with
      | .thisType => name.text
      | _ => variant "Ident" (referenceOf name)
    named "TsTypePredicate" span [("asserts", truth asserts), ("param_name", subject),
      ("type_ann", inner.body?)]
  | .functionType, [typeParameters, parameters, returns] => some
    { kind := "TsFnOrConstructorType"
      body := (named "TsFnType" span [("params", signatureParameters parameters),
        ("type_params", typeParameters.body?), ("type_ann", returns.body)]).text }
  | .constructorType isAbstract, [typeParameters, parameters, returns] => some
    { kind := "TsFnOrConstructorType"
      body := (named "TsConstructorType" span [("params", signatureParameters parameters),
        ("type_params", typeParameters.body?), ("type_ann", returns.body),
        ("is_abstract", truth isAbstract)]).text }
  | .typeArguments, _ => some <|
    node "" "TsTypeParamInstantiation" span [("params", row (parts.map Part.text))]
  | .typeParameters, _ => some <|
    node "" "TsTypeParamDecl" span [("params", row (parts.map Part.body))]
  | .typeParameter modifiers, [name, constraint, default] => some
    { kind := "", body := typeParameter span name modifiers constraint.text? default.text? }
  | .colonType, [inner] => some (node "" "TsTypeAnn" span [("type_ann", inner.text)])
  | .heritage, [value, arguments] => some <|
    node "" "TsExprWithTypeArgs" span [("expr", value.text), ("type_args", arguments.body?)]
  | _, _ => none

end BreakpointProps.Script.Outline
