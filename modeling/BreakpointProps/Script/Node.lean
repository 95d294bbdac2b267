import BreakpointProps.Script.Span

/-!
The syntax tree of a script. A tree is a label with a span and its parts in the order of the source;
a part that a program may leave out is `Node.absent` where it is left out. The label says what the
node is and which parts it has.
-/

namespace BreakpointProps.Script

/-- What a node is. The comment of a label names the parts of its node. -/
inductive Label where
  /-- A part that was left out. -/
  | absent
  /-- Parts of the same kind, in order. -/
  | list
  -- Programs and statements
  /-- The statements of the program. -/
  | program (shebang : Option String)
  /-- The statements. -/
  | block
  /-- The statements of a function. -/
  | body
  | emptyStatement
  | debugger
  /-- The expression. -/
  | expressionStatement
  /-- Expression?. -/
  | returnStatement
  /-- Label, statement. -/
  | labelled
  /-- Label?. -/
  | breakStatement
  /-- Label?. -/
  | continueStatement
  /-- Test, statement, alternative statement?. -/
  | ifStatement
  /-- Value, cases. -/
  | switchStatement
  /-- Test?, statements. -/
  | switchCase
  /-- Expression. -/
  | throwStatement
  /-- Block, handler?, finalizer?. -/
  | tryStatement
  /-- Pattern?, block. -/
  | catchClause
  /-- Test, statement. -/
  | whileStatement
  /-- Statement, test. -/
  | doWhile
  /-- Start?, test?, step?, statement. -/
  | forStatement
  /-- Head, value, statement. -/
  | forIn
  /-- Head, value, statement. -/
  | forOf (awaits : Bool)
  /-- Value, statement. -/
  | withStatement
  /-- The declarators. -/
  | variableDeclaration (kind : String) (declares : Bool)
  /-- Pattern, value?. -/
  | declarator (definite : Bool)
  /-- Name?, type parameters?, parameters as a list, return type?, body?. -/
  | functionDeclaration (isAsync generator declares : Bool)
  /-- Name?, type parameters?, parameters as a list, return type?, body?. -/
  | functionExpression (isAsync generator : Bool)
  /-- Pattern; a parameter that declares a property of the class has modifiers. -/
  | parameter (modifiers : List String)
  /-- Name?, type parameters?, superclass?, type arguments of the superclass?, interfaces as a list,
  members as a list. -/
  | classDeclaration (declares isAbstract : Bool)
  /-- The parts of a class declaration. -/
  | classExpression (isAbstract : Bool)
  /-- Key, parameters as a list, body?. -/
  | constructorMember (access : Option String) (optional : Bool)
  /-- Key, type parameters?, parameters as a list, return type?, body?. -/
  | methodMember (kind : String) (modifiers : List String) (isAsync generator optional : Bool)
  /-- Key, type?, value?. -/
  | propertyMember (modifiers : List String) (optional definite : Bool)
  /-- Block. -/
  | staticBlock
  | emptyMember
  /-- Parameters as a list, type?. -/
  | indexSignature (modifiers : List String)
  -- Modules
  /-- Specifiers as a list, source, attributes?. -/
  | importDeclaration (typeOnly : Bool) (phase : String)
  /-- Local name. -/
  | importDefault
  /-- Local name. -/
  | importNamespace
  /-- Local name, imported name?. -/
  | importNamed (typeOnly : Bool)
  /-- Declaration. -/
  | exportDeclaration
  /-- Specifiers as a list, source?, attributes?. -/
  | exportNamed (typeOnly : Bool)
  /-- Local name, exported name?. -/
  | exportSpecifier (typeOnly : Bool)
  /-- Name. -/
  | exportNamespace
  /-- Name. -/
  | exportDefaultFrom
  /-- Source, attributes?. -/
  | exportAll (typeOnly : Bool)
  /-- Declaration. -/
  | exportDefaultDeclaration
  /-- Expression. -/
  | exportDefaultExpression
  -- Expressions
  | this
  | superWord
  | identifier (name : String)
  | number (raw : String)
  | bigint (raw : String)
  /-- The text as written, unless it was made up. -/
  | string (value : String) (raw : Option String)
  | regexp (body flags : String)
  | boolean (value : Bool)
  | null
  /-- Text, expression, text, … -/
  | template
  /-- The text as written and what it stands for. -/
  | templateText (raw : String) (cooked : Option String)
  /-- Tag, type arguments?, template. -/
  | taggedTemplate
  /-- Elements; a hole is absent. -/
  | array
  /-- Properties. -/
  | object
  /-- Expression. -/
  | spread
  /-- Key, value. -/
  | keyValue
  | shorthand (name : String)
  /-- Name, value: what is only allowed where the object turns out to be a pattern. -/
  | assignedShorthand
  /-- Key, type parameters?, parameters as a list, return type?, body. -/
  | methodProperty (isAsync generator : Bool)
  /-- Key, body. -/
  | getterProperty
  /-- Key, receiver?, parameter, body. -/
  | setterProperty
  /-- Expression. -/
  | computedKey
  /-- A name that is not looked up. -/
  | name (text : String)
  | privateName (text : String)
  /-- Operand. -/
  | unary (operator : String)
  /-- Operand. -/
  | update (operator : String) (isPrefixed : Bool)
  /-- Operands. -/
  | binary (operator : String)
  /-- Target, value. -/
  | assignment (operator : String)
  /-- Test, results. -/
  | conditional
  /-- Callee, type arguments?, arguments as a list. -/
  | call
  /-- Callee, type arguments?, arguments as a list, absent if there is none. -/
  | newExpression
  /-- Object, name. -/
  | member
  /-- Object, expression. -/
  | index
  /-- A link of an optional chain: a member, an index or a call. -/
  | optionalChain (optional : Bool)
  /-- Expressions. -/
  | sequence
  /-- Type parameters?, parameters as a list, return type?, body. -/
  | arrow (isAsync : Bool)
  /-- Value?. -/
  | yieldExpression (delegates : Bool)
  /-- Value. -/
  | awaitExpression
  /-- Expression. -/
  | parenthesized
  | newTarget
  | importMeta
  | importWord (phase : String)
  /-- What an expression was expected for. -/
  | invalid
  /-- Expression, type. -/
  | asExpression
  /-- Expression. -/
  | asConst
  /-- Expression, type. -/
  | satisfiesExpression
  /-- Expression. -/
  | nonNull
  /-- Type, expression. -/
  | typeAssertion
  /-- Expression. -/
  | constAssertion
  /-- Expression, type arguments. -/
  | instantiation
  -- Patterns
  /-- Type?. -/
  | binding (name : String) (optional : Bool)
  /-- Elements, then the type as the last part. -/
  | arrayPattern (optional : Bool)
  /-- Properties, then the type as the last part. -/
  | objectPattern (optional : Bool)
  /-- Key, pattern. -/
  | keyPattern
  /-- Value?. -/
  | shorthandPattern (name : String)
  /-- Pattern, value. -/
  | defaulted
  /-- Pattern, type?; the dots start at a place of their own. -/
  | rest (dots : Nat)
  -- Markup
  /-- Opening tag, children as a list, closing tag?. -/
  | element
  /-- Children as a list. -/
  | fragment
  /-- Name, type arguments?, then the attributes. -/
  | openingTag (selfClosing : Bool)
  /-- Name. -/
  | closingTag
  /-- Object, name. -/
  | tagMember
  /-- Namespace, name. -/
  | tagNamespaced
  /-- Name, value?. -/
  | attribute
  /-- Expression, or nothing. -/
  | container
  /-- The expression that a container leaves out. -/
  | emptyExpression
  /-- Expression. -/
  | spreadChild
  | markupText (raw : String)
  -- Types
  | keywordType (name : String)
  | thisType
  /-- Name, type arguments?. -/
  | typeReference
  /-- Left, right. -/
  | qualifiedName
  /-- Name, type arguments?. -/
  | typeQuery
  /-- Argument, options?, qualifier?, type arguments?. -/
  | importType
  /-- Attributes. -/
  | importOptions
  /-- Members. -/
  | typeLiteral
  /-- Element type. -/
  | arrayType
  /-- Element types. -/
  | tupleType
  /-- Label?, type. -/
  | tupleElement
  /-- Type. -/
  | optionalType
  /-- Type. -/
  | restType
  /-- Types. -/
  | unionType
  /-- Types. -/
  | intersectionType
  /-- Checked, extended, results. -/
  | conditionalType
  /-- Type parameter. -/
  | inferType
  /-- Type. -/
  | parenthesizedType
  /-- Type. -/
  | typeOperator (operator : String)
  /-- Object type, index type. -/
  | indexedType
  /-- Parameter name, constraint, name type?, type?. -/
  | mappedType (readonly optional : Option String)
  /-- Literal. -/
  | literalType
  /-- Text, type, text, … -/
  | templateType
  /-- Parameter, type?. -/
  | typePredicate (asserts : Bool)
  /-- Type parameters?, parameters as a list, return type. -/
  | functionType
  /-- Type parameters?, parameters as a list, return type. -/
  | constructorType (isAbstract : Bool)
  /-- Types. -/
  | typeArguments
  /-- Parameters. -/
  | typeParameters
  /-- Name, constraint?, default?. -/
  | typeParameter (modifiers : List String)
  /-- Type, as it follows a colon. -/
  | colonType
  /-- Key, type?. -/
  | propertySignature (readonly optional computed : Bool)
  /-- Key, type parameters?, parameters as a list, return type?. -/
  | methodSignature (optional computed : Bool)
  /-- Key, return type?. -/
  | getterSignature (computed : Bool)
  /-- Key, parameter. -/
  | setterSignature (computed : Bool)
  /-- Type parameters?, parameters as a list, return type?. -/
  | callSignature
  /-- Type parameters?, parameters as a list, return type?. -/
  | constructSignature
  /-- Expression, type arguments?. -/
  | heritage
  -- Type declarations
  /-- Name, type parameters?, extended interfaces as a list, members as a list. -/
  | interface (declares : Bool)
  /-- Name, type parameters?, type. -/
  | typeAlias (declares : Bool)
  /-- Name, members. -/
  | enumeration (declares isConst : Bool)
  /-- Name, value?. -/
  | enumMember
  /-- Name, body?. -/
  | moduleDeclaration (declares global : Bool)
  /-- Name, body: what a dotted name opens in the namespace before the dot. -/
  | nestedNamespace
  /-- The statements. -/
  | moduleBlock
  /-- Name, reference. -/
  | importEquals (exported typeOnly : Bool)
  /-- Source. -/
  | externalReference
  /-- Expression. -/
  | exportAssignment
  /-- Name. -/
  | namespaceExport
  deriving DecidableEq, Inhabited

/-- A syntax tree. -/
inductive Node where
  | mk (label : Label) (span : Span) (parts : List Node)
  deriving Inhabited

namespace Node

def label : Node → Label
  | mk l _ _ => l

def span : Node → Span
  | mk _ s _ => s

def parts : Node → List Node
  | mk _ _ ps => ps

def absent : Node := mk .absent .nowhere []

def isAbsent : Node → Bool
  | mk .absent _ _ => true
  | _ => false

def leaf (label : Label) (span : Span) : Node := mk label span []

def list (parts : List Node) : Node := mk .list .nowhere parts

def ofOption : Option Node → Node
  | some node => node
  | none => absent

/-- The same node at another place. -/
def withSpan (span : Span) : Node → Node
  | mk l _ ps => mk l span ps

mutual

/-- Compute a value for every node from its label, its span, and its parts with their values. -/
def fold {β : Type} (step : Label → Span → List (Node × β) → β) : Node → β
  | mk l s ps => step l s (foldList step ps)

/-- The parts with their values. -/
def foldList {β : Type} (step : Label → Span → List (Node × β) → β) : List Node → List (Node × β)
  | [] => []
  | p :: ps => (p, fold step p) :: foldList step ps

end

mutual

def decideEq : (tree other : Node) → Decidable (tree = other)
  | .mk label span parts, .mk label' span' parts' =>
    match decEq label label', decEq span span', decideListEq parts parts' with
    | isTrue hlabel, isTrue hspan, isTrue hparts => isTrue (by rw [hlabel, hspan, hparts])
    | isFalse hlabel, _, _ => isFalse (by simp [hlabel])
    | _, isFalse hspan, _ => isFalse (by simp [hspan])
    | _, _, isFalse hparts => isFalse (by simp [hparts])

def decideListEq : (trees others : List Node) → Decidable (trees = others)
  | [], [] => isTrue rfl
  | [], _ :: _ => isFalse (by simp)
  | _ :: _, [] => isFalse (by simp)
  | tree :: rest, other :: rest' =>
    match decideEq tree other, decideListEq rest rest' with
    | isTrue htree, isTrue hrest => isTrue (by rw [htree, hrest])
    | isFalse htree, _ => isFalse (by simp [htree])
    | _, isFalse hrest => isFalse (by simp [hrest])

end

instance : DecidableEq Node := decideEq

end Node

end BreakpointProps.Script
