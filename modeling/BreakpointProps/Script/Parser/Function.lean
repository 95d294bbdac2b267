import BreakpointProps.Script.Parser.Type

/-!
Functions, methods and classes.
-/

namespace BreakpointProps.Script.Parse

/-- Statements between braces. At the end of the source the missing brace is noted. -/
def block (g : Grammar) : Parse Node := do
  let start ← position
  expect .lbrace
  let statements ← many (do return !(← at_ .rbrace) && !(← atEnd)) (g (.statement true false))
  if ← atEnd then note (.expected "\x7d" "<eof>") else bump
  return .mk .block (← spanFrom start) statements

def withoutLabels {α : Type} (action : Parse α) : Parse α := do
  let s ← get
  set { s with labels := [], arrowStart := none }
  let result ← action
  modify fun t => { t with labels := s.labels, arrowStart := s.arrowStart }
  return result

def inBody {α : Type} (isAsync generator isArrow : Bool) (action : Parse α) : Parse α := do
  if (← context).inDeclare && (← context).typescript && (← at_ .lbrace) then
    note (.typeSyntax "TS1183")
  let enter (c : Context) : Context :=
    { c with
      inAsync := isAsync
      inGenerator := generator
      insideFunction := c.insideFunction || !isArrow
      returnAllowed := true
      inStaticBlock := false
      breakAllowed := false
      continueAllowed := false
      expectsColon := false
      topLevel := false }
  within enter (withoutLabels action)

/-- The body of a function that is no arrow function; absent where types are allowed and the
signature is all there is. -/
def functionBody (g : Grammar) (isAsync generator : Bool) : Parse Node :=
  inBody isAsync generator false do
    if (← context).typescript && !(← at_ .lbrace) then
      if ← eatSemicolon then return .absent
    block g

def isPlainParameter : Node → Bool
  | .mk (.binding _ _) _ _ => true
  | .mk (.parameter _) _ [.mk (.binding _ _) _ _] => true
  | _ => false

/-- Do the strings at the start of a block ask for the strict mode? -/
def asksForStrictMode : Node → Bool
  | .mk .block _ statements => (statements.map stringOf?).takeWhile Option.isSome |>.any fun spelling =>
      spelling == some "\"use strict\"" || spelling == some "'use strict'"
  | _ => false
where
  /-- The spelling of the string that a statement is. -/
  stringOf? : Node → Option String
    | .mk .expressionStatement _ [.mk (.string _ spelling) _ _] => spelling
    | _ => none

/-- Note a body that asks for the strict mode if a parameter is more than a name. -/
def checkStrictMode (parameters : List Node) (body : Node) : Parse Unit := do
  if !(← context).typescript && !parameters.all isPlainParameter && asksForStrictMode body then
    note .nonSimpleStrict

/-- The parts of a function after its name: type parameters, parameters, return type, body. -/
def functionRest (g : Grammar) (isAsync generator : Bool) (list : Parse (List Node)) :
    Parse (List Node) :=
  within (fun c => { c with inAsync := isAsync, inGenerator := generator }) do
    let typeParameters ←
      match ← current? with
      | some .tagStart =>
        if (← context).typescript then do
          dropScopes 2
          typeParameters g false true
        else pure Node.absent
      | _ => typeParameters? g false true
    expect .lparen
    let parameters ← within (fun c => { c with inParameters := true, returnAllowed := false }) list
    expect .rparen
    let type ← returnType? g
    let body ← functionBody g isAsync generator
    checkStrictMode parameters body
    if body.isAbsent then
      for parameter in parameters do
        if let .mk (.parameter _) _ [.mk .defaulted _ _] := parameter then
          note (.typeSyntax "TS2371")
    return [typeParameters, .list parameters, type, body]

/-- What a function leaves behind of its surroundings. -/
def enterFunction (c : Context) : Context :=
  { c with directSuperAllowed := false, inClassField := false, expectsColon := false }

def optionalName : Parse Node := do
  if ← atReference then bindingIdentifier
  else if (← context).typescript && (← atWord "this") then bindingIdentifier
  else return .absent

/-- The name of a declaration, as it stands in the tree. -/
def declaredName (nameNeeded : Bool) : Parse Node := do
  let node ← if nameNeeded then bindingIdentifier else optionalName
  match node with
  | .mk (.binding text _) span _ => return .leaf (.identifier text) span
  | other => return other

/-- A function declaration from the word `function` on. `start` is where its first word stands. -/
def functionDeclaration (g : Grammar) (start : Nat) (isAsync nameNeeded : Bool) : Parse Node := do
  expectWord "function"
  let generator ← eat .star
  let name ← declaredName nameNeeded
  within enterFunction do
    let rest ← functionRest g isAsync generator (parameters g)
    return .mk (.functionDeclaration isAsync generator false) (← spanFrom start) (name :: rest)

def functionExpression (g : Grammar) (start : Nat) (isAsync : Bool) : Parse Node := do
  expectWord "function"
  let generator ← eat .star
  let name ← within (fun c => { c with inAsync := isAsync, inGenerator := generator })
    (declaredName false)
  within enterFunction do
    let rest ← functionRest g isAsync generator (parameters g)
    match rest with
    | [_, _, _, .mk .absent _ _] => unexpected "\x7b"
    | _ => return .mk (.functionExpression isAsync generator) (← spanFrom start) (name :: rest)

def isThisParameter : Node → Bool
  | .mk (.parameter _) _ [.mk (.binding "this" _) _ _] => true
  | _ => false

/-- The parameters of a getter: none. -/
def getterParameters (g : Grammar) : Parse (List Node) := do
  let list ← parameters g
  if list.any (!isThisParameter ·) then note .getterWithParameters
  return list

/-- The parameters of a setter: one. -/
def setterParameters (g : Grammar) : Parse (List Node) := do
  let list ← parameters g
  if (list.filter (!isThisParameter ·)).length != 1 then note .setterParameters
  if let .mk (.parameter _) _ [.mk (.rest _) _ _] :: _ := list then note (.typeSyntax "RestPatInSetter")
  return list

/-- An interface or a superclass in a type declaration, with its type arguments. -/
def heritage (g : Grammar) : Parse Node := do
  let start ← position
  let value ← g .supertype
  match value with
  | .mk .instantiation span parts => return .mk .heritage span parts
  | _ =>
    match value.label with
    | .identifier _ | .member => pure ()
    | _ => note (.typeSyntax "TS2499")
    let arguments ← if ← at_ .lt then typeArguments g else pure Node.absent
    return .mk .heritage (← spanFrom start) [value, arguments]

/-- Interfaces between commas. -/
def heritageList (g : Grammar) : Parse (List Node) :=
  delimited (do return (← at_ .lbrace) || (← atWord "implements") || (← atWord "extends"))
    (heritage g)

def isConstructorKey (key : Node) : Bool := keyText? key == some "constructor"

def memberKey (g : Grammar) : Parse Node := do
  if ← at_ .hash then
    let key ← privateName
    if let .privateName "constructor" := key.label then note .privateConstructor
    return key
  propertyKey g

def atMethod : Parse Bool := do
  match ← current? with
  | some (.punct .lparen) => return true
  | some (.punct .lt) | some .tagStart => return (← context).typescript
  | _ => return false

def atProperty (implied : Bool) : Parse Bool := do
  let typed ← do
    if (← context).typescript then pure ((← at_ .bang) || (← at_ .colon)) else pure false
  if typed || (← at_ .assign) || (← at_ .rbrace) then return true
  if implied then atSemicolon else at_ .semi

/-- What stands in front of the key of a member. -/
structure MemberHead where
  start : Nat
  declares : Bool := false
  access : Option String := none
  isStatic : Bool := false
  /-- The word `static` stands in front of the other modifiers. -/
  staticFirst : Bool := false
  isAbstract : Bool := false
  overrides : Bool := false
  readonly : Bool := false
  accessor : Bool := false
  /-- A modifier other than the first ones was passed. -/
  modified : Bool := false

/-- The modifiers that all members have, in the order in which they are written. -/
def MemberHead.modifiers (head : MemberHead) (isStatic : Bool) : List String :=
  head.access.toList ++ (if isStatic then ["static"] else [])
    ++ (if head.isAbstract then ["abstract"] else []) ++ (if head.overrides then ["override"] else [])

/-- The modifiers of a method. Behind other modifiers `static` is dropped. -/
def MemberHead.methodModifiers (head : MemberHead) : List String := head.modifiers head.staticFirst

/-- The modifiers of a property, in the order in which they are written. -/
def MemberHead.propertyModifiers (head : MemberHead) : List String :=
  (if head.declares && !head.accessor then ["declare"] else []) ++ head.modifiers head.isStatic
    ++ (if head.accessor then ["accessor"] else if head.readonly then ["readonly"] else [])

def method (g : Grammar) (head : MemberHead) (kind : String) (isAsync generator optional : Bool)
    (key : Node) (list : Parse (List Node)) : Parse Node := do
  let rest ← within (fun c => { c with inClassField := false, directSuperAllowed := true })
    (functionRest g isAsync generator list)
  let body := rest.getLast?.getD .absent
  match key.label with
  | .privateName _ => if head.access.isSome then note (.typeSyntax "TS18010")
  | _ => if head.isAbstract && !body.isAbsent then note (.typeSyntax "TS1245")
  return .mk (.methodMember kind head.methodModifiers isAsync generator optional)
    (← spanFrom head.start) (key :: rest)

/-- Does the key name a field that is not private? A field with an accessor is none. -/
def isPublicField (head : MemberHead) (key : Node) : Bool :=
  !head.accessor && !(key.label matches .privateName _)

def property (g : Grammar) (head : MemberHead) (key : Node) (optional : Bool) : Parse Node := do
  if isConstructorKey key then failAt key.span (.typeSyntax "PropertyNamedConstructor")
  if let .privateName _ := key.label then
    if head.declares then note (.typeSyntax "PrivateNameModifier(\"declare\")")
    if head.isAbstract then note (.typeSyntax "PrivateNameModifier(\"abstract\")")
  let definite ← if (← context).typescript && !optional then eat .bang else pure false
  let type ← colonType? g
  within (fun c => { c with includeIn := true, inClassField := true }) do
    let value ← if ← eat .assign then g .assignment else pure Node.absent
    if !(← eatSemicolon) then note .punctuationExpected
    if !head.accessor && head.access.isSome && (key.label matches .privateName _) then
      note (.typeSyntax "TS18010")
    if head.isAbstract && !value.isAbsent && isPublicField head key then note (.typeSyntax "TS1267")
    return .mk (.propertyMember head.propertyModifiers optional definite) (← spanFrom head.start)
      [key, type, value]

def staticBlock (g : Grammar) (start : Nat) : Parse Node := do
  let enter (c : Context) : Context :=
    { c with inStaticBlock := true, inClassField := true, topLevel := false }
  let inner ← within enter (block g)
  return .mk .staticBlock (← spanFrom start) [inner]

def accessModifier : Parse (Option String) := do
  match ← modifier? ["public", "protected", "private", "in", "out"] false with
  | some "in" =>
    note (.typeSyntax "TS1274(\"in\")")
    return none
  | some "out" =>
    note (.typeSyntax "TS1274(\"out\")")
    return none
  | other => return other

def constructorParameter (g : Grammar) (start : Nat) : Parse Node := do
  let access ← accessModifier
  let overrides := (← modifier? ["override"] false).isSome
  let readonly := (← modifier? ["readonly"] false).isSome
  let modifiers := access.toList ++ (if overrides then ["override"] else [])
    ++ (if readonly then ["readonly"] else [])
  let target ← parameterPattern g
  if !modifiers.isEmpty then
    match target with
    | .mk (.binding _ _) _ _ | .mk .defaulted _ (.mk (.binding _ _) _ _ :: _) => pure ()
    | .mk .defaulted _ _ => pure ()
    | _ => fail (.typeSyntax "TsInvalidParamPropPat")
  return .mk (.parameter modifiers) (← spanFrom start) [target]

def constructorParameters (g : Grammar) : Parse (List Node) :=
  loop (([] : List Node), false) fun (done, restSeen) => do
    if (← atEnd) || (← at_ .rparen) then return .inr done.reverse
    if restSeen then note .restNotLast
    let start ← position
    let isRest ← eat .ellipsis
    let parameter ←
      if isRest then do
        let inner ← pattern g
        let type ← colonType? g
        let span ← spanFrom start
        pure (Node.mk (.parameter []) span [.mk (.rest start) span [inner, type]])
      else constructorParameter g start
    if !(← at_ .rparen) then
      expect .comma
      if isRest && (← at_ .rparen) then note .trailingCommaAfterRest
    return .inl (parameter :: done, restSeen || isRest)

def constructor_ (g : Grammar) (head : MemberHead) (key : Node) (optional : Bool) : Parse Node := do
  let typescript := (← context).typescript
  if typescript && head.overrides then note (.typeSyntax "TS1089(\"override\")")
  if typescript && (← at_ .lt) then
    if ← aheadIs .gt then
      bump
      bump
      note (.typeSyntax "TS1098")
    else
      let _ ← typeParameters? g false true
      note (.typeSyntax "TS1092")
  expect .lparen
  let parameters ← constructorParameters g
  expect .rparen
  if typescript && (← at_ .colon) then
    let _ ← colonType g
    note (.typeSyntax "TS1093")
  let body ← functionBody g false false
  checkStrictMode parameters body
  if body.isAbsent then
    for parameter in parameters do
      if let .mk (.parameter (_ :: _)) _ _ := parameter then note (.typeSyntax "TS2369")
    for parameter in parameters do
      if let .mk (.parameter _) _ [.mk .defaulted _ _] := parameter then note (.typeSyntax "TS2371")
  if head.staticFirst then note (.typeSyntax "TS1089(\"static\")")
  if head.isAbstract then note (.typeSyntax "TS1242")
  return .mk (.constructorMember head.access optional) (← spanFrom head.start)
    [key, .list parameters, body]

/-- The modifiers after `static`. -/
def memberModifiers (head : MemberHead) : Parse MemberHead :=
  loop head fun head => do
    let twice (name : String) : Parse Unit := note (.typeSyntax s!"TS1030({Text.quoted name})")
    let order (first second : String) : Parse Unit :=
      note (.typeSyntax s!"TS1029({Text.quoted first}, {Text.quoted second})")
    match ← modifier? ["abstract", "readonly", "override", "static"] true with
    | some "abstract" =>
      if head.isAbstract then twice "abstract"
      else if head.overrides then order "abstract" "override"
      return .inl { head with isAbstract := true, modified := true }
    | some "override" =>
      if head.overrides then twice "override"
      else if head.readonly then order "override" "readonly"
      else if head.declares then note (.typeSyntax "TS1243(\"override\", \"declare\")")
      else if !(← context).hasSuperclass then note (.typeSyntax "TS4112")
      return .inl { head with overrides := true, modified := true }
    | some "readonly" =>
      if head.readonly then twice "readonly"
      return .inl { head with readonly := true, modified := true }
    | some "static" =>
      if head.overrides then order "static" "override"
      return .inl { head with isStatic := true, modified := true }
    | _ => return .inr head

def isNamed (text : String) (key : Node) : Bool := match key.label with
  | .name t => t == text
  | _ => false

/-- A member of a class after its first modifiers. -/
def memberAfterHead (g : Grammar) (head : MemberHead) : Parse Node := do
  let head ← memberModifiers head
  let typescript := (← context).typescript
  let readonlySpan ← lastSpan
  let head ←
    if typescript && !head.accessor then do
      let accessor ← eatWord "accessor"
      pure { head with accessor }
    else pure head
  if head.isStatic && (← at_ .lbrace) then
    if head.declares || head.access.isSome then note (.typeSyntax "TS1184")
    return ← staticBlock g head.start
  if ← atWord "static" <&&> aheadIs .lbrace then
    if head.modified || head.isStatic then note (.typeSyntax "TS1184")
    bump
    return ← staticBlock g head.start
  if typescript && !head.isAbstract && !head.overrides && head.access.isNone then
    let modifiers := (if head.isStatic then ["static"] else [])
      ++ (if head.readonly then ["readonly"] else [])
    if let some node ← indexSignature? g head.start modifiers then return node
  let isReadonly := head.readonly
  if ← eat .star then
    let key ← memberKey g
    if isReadonly then note (.typeSyntax "ReadOnlyMethod")
    if isConstructorKey key then note .generatorConstructor
    return ← method g head "method" false true false key (parameters g)
  let key ← do
    if isReadonly && ((← at_ .bang) || (← at_ .colon)) then
      pure (Node.leaf (.name "readonly") readonlySpan)
    else memberKey g
  let optional ← if typescript then eat .question else pure false
  if ← atMethod then
    if head.declares then note (.typeSyntax "TS1031")
    if isReadonly then failAt (← spanFrom head.start) (.typeSyntax "ReadOnlyMethod")
    if isConstructorKey key then return ← constructor_ g head key optional
    return ← method g head "method" false false optional key (parameters g)
  let generatorNext := (← afterLineBreak) && (← at_ .star)
  let accesses ← do
    if isNamed "get" key || isNamed "set" key then
      pure (!(← atProperty false) && !generatorNext)
    else pure false
  if !accesses && (← atProperty true) then return ← property g head key optional
  if isNamed "async" key && !(← afterLineBreak) then
    let head ← do
      if typescript && (← modifier? ["override"] false).isSome then
        note (.typeSyntax "TS1029(\"override\", \"async\")")
        pure { head with overrides := true }
      else pure head
    let generator ← eat .star
    let key ← memberKey g
    if isConstructorKey key then failAt key.span .asyncConstructor
    if isReadonly then failAt (← spanFrom head.start) (.typeSyntax "ReadOnlyMethod")
    let optional ← if typescript && !optional then eat .question else pure optional
    return ← method g head "method" true generator optional key (parameters g)
  if accesses then
    let kind := if isNamed "get" key then "get" else "set"
    let key ← memberKey g
    if isReadonly then note (.typeSyntax "GetterSetterCannotBeReadonly")
    if isConstructorKey key then note .constructorAccessor
    let list := if kind == "get" then getterParameters g else setterParameters g
    return ← method g head kind false false optional key list
  unexpected "* for generator, private key, identifier or async"

def classMember (g : Grammar) : Parse Node := do
  let start ← position
  let typescript := (← context).typescript
  let declares ← if typescript then eatWord "declare" else pure false
  let access ← if typescript then accessModifier else pure none
  let declares ← if typescript && !declares then eatWord "declare" else pure declares
  let named (text : String) (span : Span) : Node := .leaf (.name text) span
  let optionalMark : Parse Bool := do
    if typescript then eat .question else return false
  let head : MemberHead := { start, access }
  if declares then
    let key := named "declare" (← lastSpan)
    if ← atMethod then
      return ← method g head "method" false false (← optionalMark) key (parameters g)
    if (← atProperty true) || (typescript && (← at_ .question)) then
      return ← property g head key (← optionalMark)
  let isStatic ← eatWord "static"
  let head := { head with declares }
  if isStatic then
    let key := named "static" (← lastSpan)
    if ← atMethod then
      return ← method g head "method" false false (← optionalMark) key (parameters g)
    if (← atProperty false) || (typescript && (← at_ .question)) then
      return ← property g head key (← optionalMark)
  let accessor ← if typescript then eatWord "accessor" else pure false
  if accessor then
    let key := named "accessor" (← lastSpan)
    let head := { head with isStatic, staticFirst := isStatic }
    if ← atMethod then
      return ← method g head "method" false false (← optionalMark) key (parameters g)
    if (← atProperty true) || (typescript && (← at_ .question)) then
      return ← property g head key (← optionalMark)
  memberAfterHead g { head with isStatic, staticFirst := isStatic, accessor }

def classMembers (g : Grammar) : Parse (List Node) :=
  loop (([] : List Node), false) fun (done, built) => do
    if (← atEnd) || (← at_ .rbrace) then return .inr done.reverse
    if ← eat .semi then return .inl (.leaf .emptyMember (← lastSpan) :: done, built)
    let member ← within (fun c => { c with directSuperAllowed := true }) (classMember g)
    let builds := match member with
      | .mk (.constructorMember _ _) _ [_, _, body] => !body.isAbsent
      | _ => false
    if builds && built && !(← context).inDeclare then note .duplicateConstructor
    return .inl (member :: done, built || builds)

/-- What a class extends, with its type arguments. -/
def superclass (g : Grammar) : Parse (Node × Node) := do
  let value ← g .operand
  match value with
  | .mk .instantiation _ [inner, arguments] => return (inner, arguments)
  | _ =>
    let arguments ← do
      if (← context).typescript && (← at_ .lt) then typeArguments g else pure Node.absent
    return (value, arguments)

/-- Is the member declared without being defined? Private names and fields with an accessor do not
count. -/
def isAbstractMember (member : Node) : Bool :=
  match member with
  | .mk (.methodMember _ modifiers _ _ _) _ (key :: _) | .mk (.propertyMember modifiers _ _) _ (key :: _) =>
    modifiers.contains "abstract" && !modifiers.contains "accessor"
      && !(key.label matches .privateName _)
  | _ => false

/-- The names that no class can have where types have them. -/
def typeNames : List String :=
  ["any", "unknown", "never", "bigint", "number", "boolean", "string", "symbol", "object"]

/-- A class from the word `class` on, under a label. -/
def classNode (g : Grammar) (start : Nat) (label : Label) (nameNeeded : Bool) : Parse Node :=
  within (fun c => { c with inClass := true }) do
    let typescript := (← context).typescript
    expectWord "class"
    if nameNeeded then refuseLet
    let name ← declaredName nameNeeded
    if let .identifier text := name.label then
      if typescript && typeNames.contains text then note (.typeSyntax "TS2414")
    let typeParameters ← typeParameters? g true true
    let (parent, arguments) ←
      if ← eatWord "extends" then do
        let found ← superclass g
        if typescript && (← eat .comma) then
          if !(← heritageList g).isEmpty then note (.typeSyntax "TS1174")
        pure found
      else pure (Node.absent, Node.absent)
    if ← eatWord "extends" then
      note (.typeSyntax "TS1172")
      let _ ← superclass g
    let interfaces ← if typescript && (← eatWord "implements") then heritageList g else pure []
    if typescript && (← eatWord "implements") then
      note (.typeSyntax "TS1175")
      let _ ← heritageList g
    let (parent, arguments) ←
      if typescript && (← eatWord "extends") then do
        note (.typeSyntax "TS1173")
        let found ← superclass g
        pure (if parent.isAbsent then found else (parent, arguments))
      else pure (parent, arguments)
    expect .lbrace
    let members ← within (fun c => { c with hasSuperclass := !parent.isAbsent }) (classMembers g)
    if ← atEnd then note (.expected "\x7d" "<eof>") else expect .rbrace
    let isAbstract := match label with
      | .classDeclaration _ isAbstract | .classExpression isAbstract => isAbstract
      | _ => false
    if !isAbstract && members.any isAbstractMember then note (.typeSyntax "TS1244")
    return .mk label (← spanFrom start)
      [name, typeParameters, parent, arguments, .list interfaces, .list members]

def classDeclaration (g : Grammar) (start : Nat) (isAbstract nameNeeded : Bool) : Parse Node := do
  classNode g start (.classDeclaration false isAbstract) nameNeeded

end BreakpointProps.Script.Parse
