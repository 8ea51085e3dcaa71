import ViewCompiler.Text.Basic
import ViewCompiler.Text.Casing

/-!
# Component tags

A component declared as `TodoItem` is mounted under the tag `todo-item`. The words of a declared
name begin at its capitals: a run of capitals is one word, except that its last capital belongs
to the lower case letters after it (`HTMLView` has the words `HTML` and `View`). Hyphens and
underscores separate words too. A tag without any hyphen would be an ordinary element, so it is
given the prefix `w-`.
-/

namespace ViewCompiler.Tag

open ViewCompiler.Text

/-- Adds the word collected so far, if it has any character. -/
private def flushWord (word : List Char) (words : List (List Char)) : List (List Char) :=
  if word.isEmpty then words else word.reverse :: words

/-- The words of a declared name. `previous` is the character before the remaining ones, `word`
the word collected so far, last character first. -/
def wordsFrom (previous : Char) (word : List Char) : List Char → List (List Char)
  | [] => flushWord word []
  | c :: cs =>
    if c = '-' || c = '_' then flushWord word (wordsFrom c [] cs)
    else if isUpper c && (!isUpper previous || cs.head?.any isLower) then
      flushWord word (wordsFrom c [c] cs)
    else wordsFrom c (c :: word) cs

/-- The words of a declared name. Its first character always belongs to a word. -/
def words : List Char → List (List Char)
  | [] => []
  | c :: cs => wordsFrom c [c] cs

/-- The tag of a declared name, with this notion of lower case. -/
def ofNameBy (caser : Caser) (name : String) : String :=
  let kebab := join "-" ((words name.toList).map fun w => caser.lower (String.ofList w))
  if kebab.toList.contains '-' then kebab else "w-" ++ kebab

/-- The declared name a tag stands for, with this notion of title case, when names are written in
PascalCase. -/
def toNameBy (caser : Caser) (tag : String) : String :=
  let bare := (dropPrefix? "w-".toList tag.toList).getD tag.toList
  String.join ((splitOn '-' bare).map fun w => caser.title (String.ofList w))

/-- The tag of a declared name. -/
def ofName (name : String) : String := ofNameBy .unicode name

/-- The declared name a tag stands for. -/
def toName (tag : String) : String := toNameBy .unicode tag

end ViewCompiler.Tag
