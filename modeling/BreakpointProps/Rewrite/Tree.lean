import BreakpointProps.Rewrite.Element

/-!
How the elements of a script are rewritten, wherever they stand except in types.
-/

namespace BreakpointProps.Rewrite

open Script

/-- Is the node a type or a declaration of one? No element is looked for in it. -/
def isTypeLevel : Label → Bool
  | .keywordType _ | .thisType | .typeReference | .qualifiedName | .typeQuery | .importType
  | .importOptions | .typeLiteral | .arrayType | .tupleType | .tupleElement | .optionalType
  | .restType | .unionType | .intersectionType | .conditionalType | .inferType
  | .parenthesizedType | .typeOperator _ | .indexedType | .mappedType _ _ | .literalType
  | .templateType | .typePredicate _ | .functionType | .constructorType _ | .typeArguments
  | .typeParameters | .typeParameter _ | .colonType | .propertySignature _ _ _
  | .methodSignature _ _ | .getterSignature _ | .setterSignature _ | .callSignature
  | .constructSignature | .indexSignature _ | .interface _ | .typeAlias _ | .importEquals _ _
  | .externalReference => true
  | _ => false

/-- What happened while a tree was rewritten. -/
structure Tally where
  /-- The number of elements that were rewritten. -/
  elements : Nat := 0
  entries : List LogEntry := []
  deriving DecidableEq, Repr, Inhabited

instance : Append Tally where
  append a b := { elements := a.elements + b.elements, entries := a.entries ++ b.entries }

/-- Are the parts of the node looked at from the last to the first? The members of a class come before
its superclass, and the test of a loop before what is done at least once. -/
def isVisitedBackwards : Label → Bool
  | .classDeclaration _ _ | .classExpression _ | .doWhile => true
  | _ => false

/-- What happened in the parts of a node, in the order in which they are looked at. -/
def Tally.ofParts (label : Label) (tallies : List Tally) : Tally :=
  (if isVisitedBackwards label then tallies.reverse else tallies).foldr (· ++ ·) {}

/-- What happens to an element with these attributes. -/
def Tally.ofAttributes (file : String) (attributes : List Node) : Tally where
  elements := if isRewritten (attributes.map Role.of) then 1 else 0
  entries := reports file attributes

/-- Rewrite the attributes of an opening tag, whose parts were rewritten before. -/
def rewriteTag (file : String) (label : Label) (span : Span) (parts : List Node) : Node × Tally :=
  match label, parts with
  | .openingTag _, name :: types :: attributes =>
    (.mk label span (name :: types :: rewriteAttributes attributes),
      .ofAttributes file attributes)
  | _, _ => (.mk label span parts, {})

mutual

/-- Rewrite the elements of a tree, those inside others first. -/
def rewriteNode (file : String) : Node → Node × Tally
  | .mk label span parts =>
    if isTypeLevel label then (.mk label span parts, {})
    else
      let inner := rewriteNodes file parts
      let (node, here) := rewriteTag file label span (inner.map Prod.fst)
      (node, .ofParts label (inner.map Prod.snd) ++ here)

def rewriteNodes (file : String) : List Node → List (Node × Tally)
  | [] => []
  | node :: rest => rewriteNode file node :: rewriteNodes file rest

end

end BreakpointProps.Rewrite
