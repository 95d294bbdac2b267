import BreakpointProps.Decimal.Literal
import BreakpointProps.Script.Span
import BreakpointProps.Text.CharClass

/-!
What can be wrong with a script. A fault either ends the reading or is noted while the reading goes
on; `Fault.text` is the wording of both.
-/

namespace BreakpointProps.Script

/-- A cause for refusing a script. -/
inductive Fault where
  -- reading tokens
  | unexpectedCharacter (c : Char)
  | unterminatedString | unterminatedTemplate | unterminatedBlockComment | unterminatedRegexp
  | unterminatedMarkup
  | strayInMarkup (candidates : List String)
  | badEscape (expected : String)
  | invalidUnicodeEscape | invalidStringEscape | expectedUnicodeEscape
  | invalidIdentifierCharacter
  | escapedReservedWord (word : String)
  | octalNumber | legacyOctal | legacyDecimal | legacyComment
  | identifierAfterNumber | numberEndsInExponent
  | expectedDigit (radix : Nat)
  | misplacedSeparator
  | conflictMarker
  | unknownRegexpFlags
  | duplicatedRegexpFlags (flag : Char)
  -- the shape of the program
  | endOfInput
  | expected (wanted got : String)
  | unexpected (got wanted : String)
  | expectedSemicolon (statement : Span)
  | expectedIdentifier
  | spaceAfterHash
  | expressionExpected | punctuationExpected | identifierExpected | trailingComma
  | emptyParens | spreadInParens
  | arrowNotAllowed | lineBreakBeforeArrow | lineBreakInThrow
  | optionalChainAfterNew | taggedOptionalChain
  | nullishMixedWithLogical
  | trailingCommaInImport
  | nonNullWord (word : String)
  /-- The operand in front of the power, as it is described, and its place. -/
  | unaryBeforePower (left : String) (span : Span)
  | newTargetOutsideFunction
  -- markup
  | emptyAttribute | invalidAttributeValue
  | closingTagExpected (tag : String)
  | closingFragmentExpected
  -- targets and patterns
  | noAssignmentTarget | invalidAssignmentTarget | notAssignable | invalidPattern | assignmentInObject
  | restNotLast | trailingCommaAfterRest | defaultInRest
  | reservedInStrict (name : String)
  | reservedBinding
  -- statements
  | returnOutsideFunction | breakOutsideLoop | continueOutsideLoop | unknownLabel
  | breakToUnknownLabel
  | duplicateLabel (name : String)
  | multipleDefaults (previous : Span)
  | missingTryTail
  | declarationNotAllowed | labelledFunction | labelledGenerator
  | missingInitializer | missingPatternInitializer
  | usingNotEnabled | usingInForIn
  | withInStrict
  | deleteOfIdentifier
  | multipleDeclarationsInForIn | initializerInForIn (kind : String)
  | forAwaitNotOf | asyncInFor
  | importExportOnlyInModule
  | exportExpectedFrom (name : String)
  -- functions and classes
  | awaitInAsync | awaitParameter | yieldParameter
  | nonSimpleStrict
  | getterWithParameters | setterParameters
  | duplicateConstructor | constructorAccessor | generatorConstructor | asyncConstructor
  | privateConstructor
  | superOutside | superCallOutside | superCallOptional | superPrivateName
  | argumentsInField
  -- types
  | typeSyntax (code : String)
  /-- A fault at a place, met while something else was attempted that starts at `outer`. -/
  | during (inner : Fault) (place outer : Span) (attempted : String)
  deriving Inhabited

def Fault.text : Fault → String
  | unexpectedCharacter c => s!"UnexpectedChar \x7b c: {Text.quotedCharacter c} \x7d"
  | unterminatedString => "UnterminatedStrLit"
  | unterminatedTemplate => "UnterminatedTpl"
  | unterminatedBlockComment => "UnterminatedBlockComment"
  | unterminatedRegexp => "UnterminatedRegExp"
  | unterminatedMarkup => "UnterminatedJSXContents"
  | strayInMarkup candidates =>
    "UnexpectedTokenWithSuggestions \x7b candidate_list: ["
      ++ ", ".intercalate (candidates.map Text.quoted) ++ "] \x7d"
  | badEscape wanted => "BadCharacterEscapeSequence \x7b expected: " ++ Text.quoted wanted ++ " \x7d"
  | invalidUnicodeEscape => "InvalidUnicodeEscape"
  | invalidStringEscape => "InvalidStrEscape"
  | expectedUnicodeEscape => "ExpectedUnicodeEscape"
  | invalidIdentifierCharacter => "InvalidIdentChar"
  | escapedReservedWord word => "EscapeInReservedWord \x7b word: " ++ Text.quoted word ++ " \x7d"
  | octalNumber => "TS1085"
  | legacyOctal => "LegacyOctal"
  | legacyDecimal => "LegacyDecimal"
  | legacyComment => "LegacyCommentInModule"
  | identifierAfterNumber => "IdentAfterNum"
  | numberEndsInExponent => "NumLitTerminatedWithExp"
  | expectedDigit radix => s!"ExpectedDigit \x7b radix: {radix} \x7d"
  | misplacedSeparator => "NumericSeparatorIsAllowedOnlyBetweenTwoDigits"
  | conflictMarker => "TS1185"
  | unknownRegexpFlags => "UnknownRegExpFlags"
  | duplicatedRegexpFlags flag => s!"DuplicatedRegExpFlags({Text.quotedCharacter flag})"
  | endOfInput => "Eof"
  | expected wanted got => s!"Expected({Text.quoted wanted}, {Text.quoted got})"
  | unexpected got wanted =>
    "Unexpected \x7b got: " ++ Text.quoted got ++ ", expected: " ++ Text.quoted wanted ++ " \x7d"
  | expectedSemicolon statement => s!"ExpectedSemiForExprStmt \x7b expr: {statement.text} \x7d"
  | expectedIdentifier => "ExpectedIdent"
  | spaceAfterHash => "SpaceBetweenHashAndIdent"
  | expressionExpected => "TS1109"
  | punctuationExpected => "TS1005"
  | identifierExpected => "TS1003"
  | trailingComma => "TS1009"
  | emptyParens => "EmptyParenExpr"
  | spreadInParens => "SpreadInParenExpr"
  | arrowNotAllowed => "ArrowNotAllowed"
  | lineBreakBeforeArrow => "LineBreakBeforeArrow"
  | lineBreakInThrow => "LineBreakInThrow"
  | optionalChainAfterNew => "OptChainCannotFollowConstructorCall"
  | taggedOptionalChain => "TaggedTplInOptChain"
  | nullishMixedWithLogical => "NullishCoalescingWithLogicalOp"
  | trailingCommaInImport => "TrailingCommaInsideImport"
  | nonNullWord word => s!"TsNonNullAssertionNotAllowed({Text.quoted word})"
  | unaryBeforePower left span =>
    s!"UnaryInExp \x7b left: {Text.quoted left}, left_span: {span.text} \x7d"
  | newTargetOutsideFunction => "InvalidNewTarget"
  | emptyAttribute => "EmptyJSXAttr"
  | invalidAttributeValue => "InvalidJSXValue"
  | closingTagExpected tag => "JSXExpectedClosingTag \x7b tag: " ++ Text.quoted tag ++ " \x7d"
  | closingFragmentExpected => "JSXExpectedClosingTagForLtGt"
  | noAssignmentTarget => "InvalidAssignTarget"
  | invalidAssignmentTarget => "TS2406"
  | notAssignable => "NotSimpleAssign"
  | invalidPattern => "InvalidPat"
  | assignmentInObject => "AssignProperty"
  | restNotLast => "TS1014"
  | trailingCommaAfterRest => "CommaAfterRestElement"
  | defaultInRest => "TS1048"
  | reservedInStrict name => s!"InvalidIdentInStrict({Text.quoted name})"
  | reservedBinding => "EvalAndArgumentsInStrict"
  | returnOutsideFunction => "ReturnNotAllowed"
  | breakOutsideLoop => "TS1105"
  | continueOutsideLoop => "TS1115"
  | unknownLabel => "TS1107"
  | breakToUnknownLabel => "TS1116"
  | duplicateLabel name => s!"DuplicateLabel({Text.quoted name})"
  | multipleDefaults previous => s!"MultipleDefault \x7b previous: {previous.text} \x7d"
  | missingTryTail => "TS1005"
  | declarationNotAllowed => "DeclNotAllowed"
  | labelledFunction => "LabelledFunctionInStrict"
  | labelledGenerator => "LabelledGeneratorOrAsync"
  | missingInitializer => "ConstDeclarationsRequireInitialization"
  | missingPatternInitializer => "PatVarWithoutInit"
  | usingNotEnabled => "UsingDeclNotEnabled"
  | usingInForIn => "UsingDeclNotAllowedForForInLoop"
  | withInStrict => "WithInStrict"
  | deleteOfIdentifier => "TS1102"
  | multipleDeclarationsInForIn => "TooManyVarInForInHead"
  | initializerInForIn _ => "VarInitializerInForInHead"
  | forAwaitNotOf => "AwaitForStmt"
  | asyncInFor => "TS1106"
  | importExportOnlyInModule => "ImportExportInScript"
  | exportExpectedFrom name => s!"ExportExpectFrom({Text.quoted name})"
  | awaitInAsync => "AwaitInFunction"
  | awaitParameter => "AwaitParamInAsync"
  | yieldParameter => "YieldParamInGen"
  | nonSimpleStrict => "IllegalLanguageModeDirective"
  | getterWithParameters => "GetterParam"
  | setterParameters => "SetterParam"
  | duplicateConstructor => "DuplicateConstructor"
  | constructorAccessor => "ConstructorAccessor"
  | generatorConstructor => "GeneratorConstructor"
  | asyncConstructor => "AsyncConstructor"
  | privateConstructor => "PrivateConstructor"
  | superOutside => "InvalidSuper"
  | superCallOutside => "InvalidSuperCall"
  | superCallOptional => "SuperCallOptional"
  | superPrivateName => "InvalidSuperPrivateName"
  | argumentsInField => "ArgumentsInClassField"
  | typeSyntax code => code
  | during inner place outer attempted =>
    s!"WithLabel \x7b inner: Error \x7b error: ({place.text}, {inner.text}) \x7d, span: {outer.text}, "
      ++ "note: " ++ Text.quoted attempted ++ " \x7d"

/-- The ways a reading stops early. -/
inductive Halt where
  /-- The script is at fault at a place. -/
  | fault (fault : Fault) (place : Span)
  /-- A character reference names no scalar value, so that no text can be made of it; the reading
  breaks down without a message. -/
  | breakdown
  deriving Inhabited

end BreakpointProps.Script
