import BreakpointProps.Script.Fault

/-!
The tokens of a script and how a message names them.
-/

namespace BreakpointProps.Script

/-- Punctuation and operators. -/
inductive Punct where
  | arrow | hash | at | dot | ellipsis | bang | lparen | rparen | lbracket | rbracket | lbrace | rbrace
  | semi | comma | backquote | colon | dollarBrace | question | increment | decrement | tilde
  | eqEq | notEq | eqEqEq | notEqEq | lt | ltEq | gt | gtEq | shiftLeft | shiftRight | shiftRightZero
  | plus | minus | star | slash | percent | bar | caret | amp | starStar | barBar | ampAmp
  | questionQuestion
  | assign | plusAssign | minusAssign | starAssign | slashAssign | percentAssign | shiftLeftAssign
  | shiftRightAssign | shiftRightZeroAssign | barAssign | caretAssign | ampAssign | starStarAssign
  | ampAmpAssign | barBarAssign | questionQuestionAssign
  deriving DecidableEq, Repr, Inhabited

namespace Punct

def text : Punct → String
  | arrow => "=>" | hash => "#" | «at» => "@" | dot => "." | ellipsis => "..." | bang => "!"
  | lparen => "(" | rparen => ")" | lbracket => "[" | rbracket => "]" | lbrace => "\x7b"
  | rbrace => "\x7d" | semi => ";" | comma => "," | backquote => "\x60" | colon => ":"
  | dollarBrace => "$\x7b" | question => "?" | increment => "++" | decrement => "--" | tilde => "~"
  | eqEq => "==" | notEq => "!=" | eqEqEq => "===" | notEqEq => "!==" | lt => "<" | ltEq => "<="
  | gt => ">" | gtEq => ">=" | shiftLeft => "<<" | shiftRight => ">>" | shiftRightZero => ">>>"
  | plus => "+" | minus => "-" | star => "*" | slash => "/" | percent => "%" | bar => "|"
  | caret => "^" | amp => "&" | starStar => "**" | barBar => "||" | ampAmp => "&&"
  | questionQuestion => "??" | assign => "=" | plusAssign => "+=" | minusAssign => "-="
  | starAssign => "*=" | slashAssign => "/=" | percentAssign => "%=" | shiftLeftAssign => "<<="
  | shiftRightAssign => ">>=" | shiftRightZeroAssign => ">>>=" | barAssign => "|="
  | caretAssign => "^=" | ampAssign => "&=" | starStarAssign => "**=" | ampAmpAssign => "&&="
  | barBarAssign => "||=" | questionQuestionAssign => "??="

/-- How tightly a binary operator binds; zero for what is no binary operator. -/
def precedence : Punct → Nat
  | questionQuestion => 1
  | barBar => 1
  | ampAmp => 2
  | bar => 3
  | caret => 4
  | amp => 5
  | eqEq | notEq | eqEqEq | notEqEq => 6
  | lt | ltEq | gt | gtEq => 7
  | shiftLeft | shiftRight | shiftRightZero => 8
  | plus | minus => 9
  | star | slash | percent => 10
  | starStar => 11
  | _ => 0

def isBinary (p : Punct) : Bool := 0 < p.precedence

def isAssignment : Punct → Bool
  | assign | plusAssign | minusAssign | starAssign | slashAssign | percentAssign | shiftLeftAssign
  | shiftRightAssign | shiftRightZeroAssign | barAssign | caretAssign | ampAssign | starStarAssign
  | ampAmpAssign | barBarAssign | questionQuestionAssign => true
  | _ => false

/-- May an expression follow the token directly? -/
def precedesExpression (p : Punct) : Bool :=
  p.isBinary || p.isAssignment ||
  match p with
  | arrow | ellipsis | bang | lparen | lbracket | lbrace | semi | comma | colon | dollarBrace
  | question | tilde => true
  | _ => false

end Punct

/-- The words that are reserved wherever they stand as a token of their own. -/
def keywords : List String :=
  ["await", "break", "case", "catch", "continue", "debugger", "default", "do", "else", "finally",
   "for", "function", "if", "return", "switch", "throw", "try", "var", "let", "const", "while",
   "with", "new", "this", "super", "class", "extends", "export", "import", "yield", "in",
   "instanceof", "typeof", "void", "delete"]

def keywordsBeforeExpression : List String :=
  ["await", "case", "default", "do", "else", "return", "throw", "new", "extends", "yield", "in",
   "instanceof", "typeof", "void", "delete"]

/-- A token. Values are those that the text stands for; raw texts are as written. -/
inductive Token where
  | word (name : String) (escaped : Bool)
  | punct (p : Punct)
  | num (raw : String)
  | bigint (raw : String)
  | str (value raw : String)
  /-- The text of a template up to the next substitution; the value is missing where an escape in it
  is malformed. -/
  | template (value : Except (Fault × Span) String) (raw : String)
  | regexp (body flags : String)
  | jsxName (name : String)
  | jsxText (raw : String)
  /-- The angle that opens a tag. -/
  | tagStart
  /-- The angle that closes a tag. -/
  | tagEnd
  | shebang (text : String)
  /-- No token: the fault and its place. -/
  | malformed (fault : Fault) (place : Span)
  deriving Inhabited

namespace Token

def isPunct (p : Punct) : Token → Bool
  | punct q => p == q
  | _ => false

def isWord (name : String) : Token → Bool
  | word n _ => n == name
  | _ => false

def word? : Token → Option String
  | word n _ => some n
  | _ => none

def isKeyword : Token → Bool
  | word n _ => keywords.contains n
  | _ => false

/-- Is the token a word that is neither a keyword nor one of the literal words? -/
def isPlainWord : Token → Bool
  | word n _ => !keywords.contains n && n != "null" && n != "true" && n != "false"
  | _ => false

/-- Is the token a binary operator written with punctuation? -/
def isBinary : Token → Bool
  | punct p => p.isBinary
  | _ => false

def isAssignment : Token → Bool
  | punct p => p.isAssignment
  | _ => false

def precedesExpression : Token → Bool
  | word n _ => keywordsBeforeExpression.contains n
  | punct p => p.precedesExpression
  | jsxText _ => true
  | _ => false

/-- May a line comment after the token on the same line belong to it? -/
def takesTrailingLineComment (t : Token) : Bool := !t.isBinary

/-- May a block comment after the token on the same line belong to it? -/
def takesTrailingComment : Token → Bool
  | word n _ => !keywords.contains n && n != "null" && n != "true" && n != "false"
  | num _ | bigint _ | str _ _ | regexp _ _ => true
  | punct p => p == .semi || p == .lbrace || p == .dollarBrace || p == .rbrace
  | _ => false

def describe : Token → String
  | word n _ => n
  | punct p => p.text
  | num raw => s!"numeric literal ({Decimal.displayOfLiteral raw}, {raw})"
  | bigint raw => s!"bigint literal ({raw.dropEnd 1}, {raw})"
  | str value raw => s!"string literal ({value}, {raw})"
  | template _ raw => s!"template token ({raw})"
  | regexp body flags => s!"regexp literal ({body}, {flags})"
  | jsxName name => s!"jsx name ({name})"
  | jsxText raw => s!"jsx text ({raw})"
  | tagStart => "< (jsx tag start)"
  | tagEnd => "> (jsx closing tag)"
  | shebang _ => "#!"
  | malformed fault place => s!"<lexing error: Error \x7b error: ({place.text}, {fault.text}) \x7d>"

/-- The words that have a meaning somewhere, though they are no keywords. -/
def contextualWords : List String :=
  ["abstract", "accessor", "any", "as", "assert", "asserts", "async", "bigint", "boolean", "constructor",
   "declare", "enum", "from", "get", "global", "implements", "infer", "interface", "intrinsic", "is",
   "keyof", "module", "namespace", "never", "number", "object", "of", "out", "override", "package",
   "private", "protected", "public", "readonly", "require", "satisfies", "set", "static", "string",
   "symbol", "target", "type", "undefined", "unique", "unknown", "using", "null", "true", "false"]

def kind : Token → String
  | word n _ => if keywords.contains n || contextualWords.contains n then n else "<identifier>"
  | punct p => p.text
  | num _ => "<number literal>"
  | bigint _ => "<bigint literal>"
  | str _ _ => "<string literal>"
  | template _ _ => "<template literal>"
  | regexp _ _ => "<regex literal>"
  | jsxName _ => "<jsx name>"
  | jsxText _ => "<jsx text>"
  | tagStart => "<jsx tag start>"
  | tagEnd => "<jsx tag end>"
  | shebang _ => "#!"
  | malformed _ _ => "<error>"

end Token

/-- A token with its place, and whether a line ends between it and the token before. -/
structure Lexeme where
  token : Token
  span : Span
  afterLineBreak : Bool
  deriving Inhabited

end BreakpointProps.Script
