import BreakpointProps.Script.Lexer.Blank

/-!
Character references in markup: by name, by decimal and by hexadecimal code point.
-/

namespace BreakpointProps.Script

/-- What an ampersand in markup stands for. -/
inductive Reference where
  /-- A reference to a character; `length` characters follow the ampersand. -/
  | character (c : Char) (length : Nat)
  /-- A numeric reference to what is no scalar value. -/
  | broken
  /-- The ampersand itself. -/
  | none
  deriving Repr, DecidableEq

namespace Reference

/-- The names of characters, each with its code point in hexadecimal. -/
def nameTable : List (String × Nat) :=
  let read (item : String) : Option (String × Nat) :=
    match item.splitOn ":" with
    | [name, code] => some (name, code.toList.foldl (fun n c => n * 16 + Text.Ranges.hexDigit c) 0)
    | _ => Option.none
  (String.splitOn ("quot:22 amp:26 apos:27 lt:3C gt:3E nbsp:A0 iexcl:A1 cent:A2 pound:A3 curren:A4 yen:A5 " ++
    "brvbar:A6 sect:A7 uml:A8 copy:A9 ordf:AA laquo:AB not:AC shy:AD reg:AE macr:AF deg:B0 " ++
    "plusmn:B1 sup2:B2 sup3:B3 acute:B4 micro:B5 para:B6 middot:B7 cedil:B8 sup1:B9 ordm:BA " ++
    "raquo:BB frac14:BC frac12:BD frac34:BE iquest:BF Agrave:C0 Aacute:C1 Acirc:C2 Atilde:C3 " ++
    "Auml:C4 Aring:C5 AElig:C6 Ccedil:C7 Egrave:C8 Eacute:C9 Ecirc:CA Euml:CB Igrave:CC Iacute:CD " ++
    "Icirc:CE Iuml:CF ETH:D0 Ntilde:D1 Ograve:D2 Oacute:D3 Ocirc:D4 Otilde:D5 Ouml:D6 times:D7 " ++
    "Oslash:D8 Ugrave:D9 Uacute:DA Ucirc:DB Uuml:DC Yacute:DD THORN:DE szlig:DF agrave:E0 " ++
    "aacute:E1 acirc:E2 atilde:E3 auml:E4 aring:E5 aelig:E6 ccedil:E7 egrave:E8 eacute:E9 " ++
    "ecirc:EA euml:EB igrave:EC iacute:ED icirc:EE iuml:EF eth:F0 ntilde:F1 ograve:F2 oacute:F3 " ++
    "ocirc:F4 otilde:F5 ouml:F6 divide:F7 oslash:F8 ugrave:F9 uacute:FA ucirc:FB uuml:FC " ++
    "yacute:FD thorn:FE yuml:FF OElig:152 oelig:153 Scaron:160 scaron:161 Yuml:178 fnof:192 " ++
    "circ:2C6 tilde:2DC Alpha:391 Beta:392 Gamma:393 Delta:394 Epsilon:395 Zeta:396 Eta:397 " ++
    "Theta:398 Iota:399 Kappa:39A Lambda:39B Mu:39C Nu:39D Xi:39E Omicron:39F Pi:3A0 Rho:3A1 " ++
    "Sigma:3A3 Tau:3A4 Upsilon:3A5 Phi:3A6 Chi:3A7 Psi:3A8 Omega:3A9 alpha:3B1 beta:3B2 gamma:3B3 " ++
    "delta:3B4 epsilon:3B5 zeta:3B6 eta:3B7 theta:3B8 iota:3B9 kappa:3BA lambda:3BB mu:3BC nu:3BD " ++
    "xi:3BE omicron:3BF pi:3C0 rho:3C1 sigmaf:3C2 sigma:3C3 tau:3C4 upsilon:3C5 phi:3C6 chi:3C7 " ++
    "psi:3C8 omega:3C9 thetasym:3D1 upsih:3D2 piv:3D6 ensp:2002 emsp:2003 thinsp:2009 zwnj:200C " ++
    "zwj:200D lrm:200E rlm:200F ndash:2013 mdash:2014 lsquo:2018 rsquo:2019 sbquo:201A ldquo:201C " ++
    "rdquo:201D bdquo:201E dagger:2020 Dagger:2021 bull:2022 hellip:2026 permil:2030 prime:2032 " ++
    "Prime:2033 lsaquo:2039 rsaquo:203A oline:203E frasl:2044 euro:20AC image:2111 weierp:2118 " ++
    "real:211C trade:2122 alefsym:2135 larr:2190 uarr:2191 rarr:2192 darr:2193 harr:2194 " ++
    "crarr:21B5 lArr:21D0 uArr:21D1 rArr:21D2 dArr:21D3 hArr:21D4 forall:2200 part:2202 " ++
    "exist:2203 empty:2205 nabla:2207 isin:2208 notin:2209 ni:220B prod:220F sum:2211 minus:2212 " ++
    "lowast:2217 radic:221A prop:221D infin:221E ang:2220 and:2227 or:2228 cap:2229 cup:222A " ++
    "int:222B there4:2234 sim:223C cong:2245 asymp:2248 ne:2260 equiv:2261 le:2264 ge:2265 " ++
    "sub:2282 sup:2283 nsub:2284 sube:2286 supe:2287 oplus:2295 otimes:2297 perp:22A5 sdot:22C5 " ++
    "lceil:2308 rceil:2309 lfloor:230A rfloor:230B lang:2329 rang:232A loz:25CA spades:2660 " ++
    "clubs:2663 hearts:2665 diams:2666") " ").filterMap read

def named? (name : String) : Option Char := (nameTable.lookup name).map Char.ofNat

/-- The scalar value that digits name, if it is one. Values too large for a word are none. -/
def ofDigits (radix : Nat) (digits : List Char) (length : Nat) : Reference :=
  let n := Decimal.natOfDigits radix digits
  if digits.isEmpty then broken
  else if n < 0xD800 || (0xDFFF < n && n < 0x110000) then character (Char.ofNat n) length
  else broken

/-- The reference that `cs` begins with; `cs` follows the ampersand. The semicolon has to be one of
the next ten characters. -/
def read (cs : List Char) : Reference :=
  let body := (cs.take 10).takeWhile (· != ';')
  if (cs.take 10).length ≤ body.length then none
  else
    let length := body.length + 1
    match body with
    | '#' :: 'x' :: digits =>
      if digits.all fun c => (Decimal.digitValue? 16 c).isSome then ofDigits 16 digits length else none
    | '#' :: digits => if digits.all Char.isDigit then ofDigits 10 digits length else none
    | name => match named? (String.ofList name) with
      | some c => character c length
      | Option.none => none

end Reference

/-- Markup text with its references resolved, and whether one of them was broken. -/
structure Decoded where
  value : List Char := []
  broken : Bool := false

namespace Decoded

/-- Put characters in front of the value. -/
def prepend (cs : List Char) (d : Decoded) : Decoded := { d with value := cs ++ d.value }

/-- The value of the text between the quotes of an attribute. The first argument is the number of
characters that were already accounted for. A backslash stands for itself; after a carriage return a
line feed counts twice. -/
def ofAttribute : Nat → List Char → Decoded
  | _, [] => {}
  | skipped + 1, _ :: cs => ofAttribute skipped cs
  | 0, '&' :: cs => match Reference.read cs with
    | .character c length => (ofAttribute length cs).prepend [c]
    | .broken => { broken := true }
    | .none => (ofAttribute 0 cs).prepend ['&']
  | 0, '\r' :: '\n' :: cs => (ofAttribute 1 ('\n' :: cs)).prepend ['\r', '\n', '\n']
  | 0, c :: cs => (ofAttribute 0 cs).prepend [c]

/-- The value of the text between two tags. The first argument is the number of characters that were
already accounted for. Two characters that end one line are one line feed. -/
def ofText : Nat → List Char → Decoded
  | _, [] => {}
  | skipped + 1, _ :: cs => ofText skipped cs
  | 0, '&' :: cs => match Reference.read cs with
    | .character c length => (ofText length cs).prepend [c]
    | .broken => { broken := true }
    | .none => (ofText 0 cs).prepend ['&']
  | 0, '\r' :: '\n' :: cs => (ofText 1 ('\n' :: cs)).prepend ['\n']
  | 0, c :: cs => (ofText 0 cs).prepend [c]

end Decoded

end BreakpointProps.Script
