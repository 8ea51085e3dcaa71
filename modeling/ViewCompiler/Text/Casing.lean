import ViewCompiler.Text.CharClass

/-!
# Words in lower and title case

Lower and title case of running text come from a library of its own. Who uses them takes them as a
parameter (`Caser`), and what is said below is how that library goes about it (`Caser.unicode`).

Lower case of whole words knows two rules that no character-by-character mapping has: a capital
sigma at the end of a word becomes a final sigma, and a dotted capital i keeps its dot. Title
case raises the first cased letter of each word and lowers the others; a word goes on over
letters, digits and underscores, and over single marks such as an apostrophe.
-/

namespace ViewCompiler.Text

/-- What turns running text into lower and into title case. -/
structure Caser where
  lower : String → String
  title : String → String

namespace Casing

/-- Whether a character takes part in case distinctions. -/
def isCased (c : Char) : Bool :=
  if isAscii c then c.isAlpha else CharRun.anyContains CharTable.cased c

/-- Whether a character is skipped when the neighbours of a sigma are examined. -/
def isCaseIgnorable (c : Char) : Bool :=
  if isAscii c then c == '\'' || c == '.' || c == ':' || c == '^' || c.toNat == 0x60
  else CharRun.anyContains CharTable.caseIgnorable c

/-- Whether a character may stand between the letters of one word. -/
def isWordMiddle (c : Char) : Bool :=
  if isAscii c then c == '\'' || c == '.' || c == ':'
    else CharRun.anyContains CharTable.wordMiddle c

/-- Whether a character ends the word before it. -/
def endsWord (c : Char) : Bool :=
  if isAscii c then !(c.isAlphanum || c == '_' || isWordMiddle c)
  else !(CharRun.anyContains CharTable.wordJoining c || isWordMiddle c)

/-- Whether the next character that is not skipped is a cased one. -/
def casedFollows (cs : List Char) : Bool :=
  match cs.dropWhile isCaseIgnorable with
  | c :: _ => isCased c
  | [] => false

/-- Lower case of one character, by the mapping that may give several characters. -/
def lowerFull (c : Char) : List Char :=
  if c.toNat = 0x130 then ['i', Char.ofNat 0x307] else [lowerChar c]

/-- Lower case of a character inside a word, given what follows it. -/
def lowerInside (c : Char) (after : List Char) : List Char :=
  if c = 'Σ' then (if casedFollows after then ['σ'] else ['ς']) else lowerFull c

/-- Title case of one character, by the mapping that may give several characters. -/
def titleFull (c : Char) : List Char :=
  match CharTable.titleExpansions.lookup c.toNat with
  | some out => out.map Char.ofNat
  | none => [titleChar c]

/-- Lower case of running text; the flag tells whether a word has begun. -/
def lowerFrom : Bool → List Char → List Char
  | _, [] => []
  | false, c :: cs =>
    if isCased c then lowerFull c ++ lowerFrom true cs else c :: lowerFrom false cs
  | true, c :: cs =>
    if isCased c || isCaseIgnorable c then lowerInside c cs ++ lowerFrom true cs
    else c :: lowerFrom false cs

/-- Title case of running text. `inside` tells whether the first letter of the word has been
seen, `middle` whether the character before was a mark that may stand inside a word: two such
marks in a row end the word. -/
def titleFrom : (inside middle : Bool) → List Char → List Char
  | _, _, [] => []
  | inside, middle, c :: cs =>
    let inside := inside && !(middle && isWordMiddle c)
    if isCased c then
      (if inside then lowerInside c cs else titleFull c) ++ titleFrom true (isWordMiddle c) cs
    else c :: titleFrom (inside && !endsWord c) (isWordMiddle c) cs

/-- Lower case of running text. -/
def lower (s : String) : String := String.ofList (lowerFrom false s.toList)

/-- Title case of running text. -/
def title (s : String) : String := String.ofList (titleFrom false false s.toList)

end Casing

/-- Lower and title case as Unicode has them, in no particular language. -/
def Caser.unicode : Caser := ⟨Casing.lower, Casing.title⟩

end ViewCompiler.Text
