import BreakpointProps.Script.Lexer.Reference
import BreakpointProps.Script.Outline.Function

/-!
The outlines of expressions and of markup.
-/

namespace BreakpointProps.Script.Outline

def dots (span : Span) : String := (Span.mk span.lo (span.lo + 3)).text

def argument (part : Part) : String :=
  match part.label with
  | .spread => record "ExprOrSpread" [("spread", variant "Some" (dots part.span)), ("expr", part.body)]
  | _ => record "ExprOrSpread" [("spread", "None"), ("expr", part.text)]

def arguments (part : Part) : String := row (part.parts.map argument)

/-- What is called. -/
def callee (part : Part) : String :=
  match part.label with
  | .superWord => variant "Super" (placed "Super" part.span [])
  | .importWord phase =>
    let phase := if phase.isEmpty then "evaluation" else phase
    variant "Import" (placed "Import" part.span [("phase", Text.quoted phase)])
  | _ => variant "Expr" part.text

def memberOf (span : Span) (object name : Part) : Outline :=
  match object.label with
  | .superWord =>
    node "SuperProp" "SuperPropExpr" span [("obj", placed "Super" object.span []), ("prop", name.text)]
  | _ => node "Member" "MemberExpr" span [("obj", object.text), ("prop", name.text)]

/-- The fields of a call behind its place. -/
def callFields (called : String) (types list : Part) : List (String × String) :=
  [scope, ("callee", called), ("args", arguments list), ("type_args", types.body?)]

/-- A link of an optional chain by itself. -/
def link (part : Part) : String :=
  match part.label, part.parts with
  | .call, [called, types, list] =>
    variant "Call" (placed "OptCall" part.span (callFields called.text types list))
  | _, _ => part.text

def assigned (part : Part) : String :=
  match part.label with
  | .arrayPattern _ | .objectPattern _ => variant "Pat" part.text
  | _ => variant "Simple" part.text

def property? (label : Label) (span : Span) (parts : List Part) : Option Outline :=
  match label, parts with
  | .spread, [inner] => some { kind := "", body := inner.text }
  | .shorthand name, _ => some { kind := "Shorthand", body := reference span name }
  | .keyValue, [key, value] => some
    { kind := "KeyValue"
      body := record "KeyValueProp" [("key", propertyKey key), ("value", value.text)] }
  | .assignedShorthand, [key, value] => some <|
    node "Assign" "AssignProp" span [("key", referenceOf key), ("value", value.text)]
  | .methodProperty isAsync generator, key :: rest => some
    { kind := "Method"
      body := record "MethodProp"
        [("key", propertyKey key), ("function", function span isAsync generator rest)] }
  | .getterProperty, [key, inner] => some <|
    node "Getter" "GetterProp" span
      [("key", propertyKey key), ("type_ann", "None"), ("body", inner.body?)]
  | .setterProperty, [key, this, parameter, inner] => some <|
    node "Setter" "SetterProp" span [("key", propertyKey key),
      ("this_param", if this.isAbsent then "None" else variant "Some" (parameterPattern this)),
      ("param", parameterPattern parameter), ("body", inner.body?)]
  | .computedKey, [inner] => some (node "Computed" "ComputedPropName" span [("expr", inner.text)])
  | _, _ => none
where
  /-- The key of a property. -/
  propertyKey (key : Part) : String :=
    ((literal? key.label key.span).map Outline.text).getD key.text
  /-- The pattern of a parameter. -/
  parameterPattern (parameter : Part) : String :=
    match parameter.label, parameter.parts with
    | .parameter _, [pattern] => pattern.text
    | _, _ => parameter.text

/-- A property of an object, or properties that are spread. -/
def property (part : Part) : String :=
  match part.label with
  | .spread =>
    variant "Spread" (record "SpreadElement" [("dot3_token", dots part.span), ("expr", part.body)])
  | _ => variant "Prop" part.text

/-- The outline of an expression without parts, or of a name. -/
def leaf? (label : Label) (span : Span) : Option Outline :=
  match label with
  | .this => some (node "This" "ThisExpr" span [])
  | .identifier name => some { kind := "Ident", body := reference span name }
  | .name name => some (node "Ident" "IdentName" span [("sym", Text.quoted name)])
  | .privateName name => some (named "PrivateName" span [("name", Text.quoted name)])
  | .newTarget => some (node "MetaProp" "MetaPropExpr" span [("kind", Text.quoted "new.target")])
  | .importMeta => some (node "MetaProp" "MetaPropExpr" span [("kind", Text.quoted "import.meta")])
  | .invalid => some (named "Invalid" span [])
  | _ => (literal? label span).map fun found => { kind := "Lit", body := found.text }

def expression? (label : Label) (span : Span) (parts : List Part) : Option Outline :=
  match label, parts with
  | .array, _ => some <|
    let element (part : Part) : String :=
      if part.isAbsent then "None" else variant "Some" (argument part)
    node "Array" "ArrayLit" span [("elems", row (parts.map element))]
  | .object, _ => some (node "Object" "ObjectLit" span [("props", row (parts.map property))])
  | .template, _ => some (named "Tpl" span (templateFields "exprs" parts))
  | .taggedTemplate, [tag, types, inner] => some <|
    named "TaggedTpl" span [scope, ("tag", tag.text), ("type_params", types.body?),
      ("tpl", inner.body)]
  | .unary op, [inner] => some <|
    node "Unary" "UnaryExpr" span [("op", Text.quoted op), ("arg", inner.text)]
  | .update op isPrefixed, [inner] => some <|
    node "Update" "UpdateExpr" span
      [("op", Text.quoted op), ("prefix", truth isPrefixed), ("arg", inner.text)]
  | .binary op, [left, right] => some <|
    node "Bin" "BinExpr" span
      [("op", Text.quoted op), ("left", left.text), ("right", right.text)]
  | .assignment op, [left, right] => some <|
    node "Assign" "AssignExpr" span
      [("op", Text.quoted op), ("left", assigned left), ("right", right.text)]
  | .conditional, [test, yes, no] => some <|
    node "Cond" "CondExpr" span [("test", test.text), ("cons", yes.text), ("alt", no.text)]
  | .call, [called, types, list] => some <|
    node "Call" "CallExpr" span (callFields (callee called) types list)
  | .newExpression, [called, types, list] => some <|
    let given := if list.isAbsent then "None" else variant "Some" (arguments list)
    node "New" "NewExpr" span
      [scope, ("callee", called.text), ("args", given), ("type_args", types.body?)]
  | .member, [object, name] | .index, [object, name] => some (memberOf span object name)
  | .optionalChain optional, [inner] => some <|
    node "OptChain" "OptChainExpr" span [("optional", truth optional), ("base", link inner)]
  | .sequence, _ => some (node "Seq" "SeqExpr" span [("exprs", row (parts.map Part.text))])
  | .arrow isAsync, [typeParameters, parameters, returns, result] => some <|
    let body := match result.label with
      | .block | .body => variant "BlockStmt" result.body
      | _ => variant "Expr" result.text
    node "Arrow" "ArrowExpr" span [scope, ("params", parameters.texts), ("body", body),
      ("is_async", truth isAsync), ("is_generator", "false"), ("type_params", typeParameters.body?),
      ("return_type", returns.body?)]
  | .functionExpression isAsync generator, name :: rest => some
    { kind := "Fn"
      body := record "FnExpr"
        [("ident", referenceOf? name), ("function", function span isAsync generator rest)] }
  | .classExpression isAbstract, name :: _ => some
    { kind := "Class"
      body := record "ClassExpr"
        [("ident", referenceOf? name), ("class", class_ span isAbstract parts)] }
  | .yieldExpression delegates, [value] => some <|
    node "Yield" "YieldExpr" span [("arg", value.text?), ("delegate", truth delegates)]
  | .awaitExpression, [inner] => some (node "Await" "AwaitExpr" span [("arg", inner.text)])
  | .parenthesized, [inner] => some (node "Paren" "ParenExpr" span [("expr", inner.text)])
  | .asExpression, [inner, type] => some <|
    node "TsAs" "TsAsExpr" span [("expr", inner.text), ("type_ann", type.text)]
  | .satisfiesExpression, [inner, type] => some <|
    node "TsSatisfies" "TsSatisfiesExpr" span [("expr", inner.text), ("type_ann", type.text)]
  | .typeAssertion, [type, inner] => some <|
    named "TsTypeAssertion" span [("expr", inner.text), ("type_ann", type.text)]
  | .asConst, [inner] | .constAssertion, [inner] => some <|
    named "TsConstAssertion" span [("expr", inner.text)]
  | .nonNull, [inner] => some (node "TsNonNull" "TsNonNullExpr" span [("expr", inner.text)])
  | .instantiation, [inner, types] => some <|
    named "TsInstantiation" span [("expr", inner.text), ("type_args", types.body)]
  | _, _ => none

/-- The first name of a tag, or a name with dots. -/
def tagObject (part : Part) : String :=
  match part.label with
  | .name _ | .identifier _ => variant "Ident" (referenceOf part)
  | _ => part.text

/-- An attribute, or attributes that are spread. -/
def tagItem (part : Part) : String :=
  match part.label with
  | .spread =>
    variant "SpreadElement" (record "SpreadElement" [("dot3_token", dots part.span), ("expr", part.body)])
  | _ => part.text

def markup? (label : Label) (span : Span) (parts : List Part) : Option Outline :=
  match label, parts with
  | .element, [opening, children, closing] => some <|
    named "JSXElement" span [("opening", opening.body), ("children", children.texts),
      ("closing", closing.body?)]
  | .fragment, [children] => some <|
    let opening := placed "JSXOpeningFragment" ⟨span.lo, span.lo + 2⟩ []
    let closing := placed "JSXClosingFragment" ⟨span.hi - 3, span.hi⟩ []
    named "JSXFragment" span [("opening", opening), ("children", children.texts),
      ("closing", closing)]
  | .openingTag selfClosing, name :: types :: attributes => some
    { kind := ""
      body := record "JSXOpeningElement" [("name", tagObject name), ("span", span.text),
        ("attrs", row (attributes.map tagItem)), ("self_closing", truth selfClosing),
        ("type_args", types.body?)] }
  | .closingTag, [name] => some (node "" "JSXClosingElement" span [("name", tagObject name)])
  | .tagMember, [object, name] => some <|
    named "JSXMemberExpr" span [("obj", tagObject object), ("prop", name.body)]
  | .tagNamespaced, [space, name] => some <|
    named "JSXNamespacedName" span [("ns", space.body), ("name", name.body)]
  | .attribute, [name, value] => some <|
    named "JSXAttr" span [("name", name.text), ("value", value.text?)]
  | .container, [inner] => some <|
    let shown := if inner.label matches .emptyExpression then inner.text else variant "Expr" inner.text
    named "JSXExprContainer" span [("expr", shown)]
  | .emptyExpression, _ => some (named "JSXEmptyExpr" span [])
  | .spreadChild, [inner] => some (named "JSXSpreadChild" span [("expr", inner.text)])
  | .markupText raw, _ => some <|
    let value := (Decoded.ofText 0 raw.toList).value
    named "JSXText" span [("value", Text.quoted (String.ofList value)), ("raw", Text.quoted raw)]
  | _, _ => none

end BreakpointProps.Script.Outline
