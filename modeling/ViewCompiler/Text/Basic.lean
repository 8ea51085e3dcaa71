import ViewCompiler.Text.CharClass

/-!
# Searching and cutting text

The readers of this library work on lists of characters, where recursion follows the data.
This module holds the cuts they share. Offsets in messages count UTF-8 bytes, so
`byteLength` measures a piece of text in that unit.
-/

namespace ViewCompiler.Text

/-! ### Measuring -/

/-- The number of UTF-8 bytes of a piece of text. -/
def byteLength : List Char → Nat
  | [] => 0
  | c :: cs => c.utf8Size + byteLength cs

@[simp]
theorem byteLength_append (a b : List Char) :
    byteLength (a ++ b) = byteLength a + byteLength b := by
  induction a with
  | nil => simp [byteLength]
  | cons c cs ih => simp [byteLength, ih, Nat.add_assoc]

/-- The first `n` bytes of a text. Of a character that does not fit, every byte that does is shown
as the replacement character. -/
def takeBytes : Nat → List Char → List Char
  | _, [] => []
  | n, c :: cs =>
    if c.utf8Size ≤ n then c :: takeBytes (n - c.utf8Size) cs
    else List.replicate n (Char.ofNat 0xfffd)

/-! ### Trimming -/

/-- Drops the trailing characters that satisfy `p`. -/
def dropTrailing (p : Char → Bool) (cs : List Char) : List Char :=
  (cs.reverse.dropWhile p).reverse

/-- Drops white space at both ends. -/
def trimBlank (cs : List Char) : List Char :=
  dropTrailing isBlank (cs.dropWhile isBlank)

/-- Drops white space at both ends of a string. -/
def trim (s : String) : String := String.ofList (trimBlank s.toList)

/-! ### Prefixes and infixes -/

/-- What follows `pre` when the text starts with it. -/
def dropPrefix? : List Char → List Char → Option (List Char)
  | [], cs => some cs
  | _ :: _, [] => none
  | p :: ps, c :: cs => if p = c then dropPrefix? ps cs else none

theorem dropPrefix?_eq_some_iff {p s r : List Char} :
    dropPrefix? p s = some r ↔ s = p ++ r := by
  induction p generalizing s with
  | nil => simp [dropPrefix?, eq_comm]
  | cons a p ih =>
    cases s with
    | nil => simp [dropPrefix?]
    | cons b s =>
      by_cases h : a = b
      · simp [dropPrefix?, h, ih]
      · simp [dropPrefix?, h, eq_comm]

/-- Whether the text starts with `pre`. -/
def startsWith (pre cs : List Char) : Bool := (dropPrefix? pre cs).isSome

/-- Whether the string `s` starts with `pre`. -/
def hasPrefix (pre s : String) : Bool := startsWith pre.toList s.toList

/-- Whether the string `s` ends with `suffix`. -/
def hasSuffix (suffix s : String) : Bool := startsWith suffix.toList.reverse s.toList.reverse

/-- What precedes `suffix` when the string `s` ends with it. -/
def dropSuffix? (suffix s : String) : Option String :=
  (dropPrefix? suffix.toList.reverse s.toList.reverse).map fun cs => String.ofList cs.reverse

/-- What stands before and after the first occurrence of `needle`. -/
def cut? (needle : List Char) : List Char → Option (List Char × List Char)
  | [] => if needle.isEmpty then some ([], []) else none
  | c :: cs =>
    match dropPrefix? needle (c :: cs) with
    | some rest => some ([], rest)
    | none => (cut? needle cs).map fun (before, after) => (c :: before, after)

/-- A cut loses nothing but the needle. -/
theorem eq_of_cut?_eq_some {needle s before after : List Char}
    (h : cut? needle s = some (before, after)) : s = before ++ needle ++ after := by
  induction s generalizing before with
  | nil =>
    by_cases hn : needle.isEmpty <;> simp_all [cut?]
  | cons c cs ih =>
    unfold cut? at h
    split at h
    · rename_i rest hr
      obtain ⟨rfl, rfl⟩ : [] = before ∧ rest = after := by simpa using h
      simpa using dropPrefix?_eq_some_iff.1 hr
    · simp only [Option.map_eq_some_iff] at h
      obtain ⟨⟨b, a⟩, hb, heq⟩ := h
      obtain ⟨rfl, rfl⟩ : c :: b = before ∧ a = after := by simpa using heq
      simp [ih hb]

/-- Whether `needle` occurs in the string `s`. -/
def contains (needle s : String) : Bool := (cut? needle.toList s.toList).isSome

/-- What stands before and after the first `sep` in the string `s`. -/
def cutString? (sep s : String) : Option (String × String) :=
  (cut? sep.toList s.toList).map fun (a, b) => (String.ofList a, String.ofList b)

/-! ### Splitting and joining -/

/-- The pieces between the occurrences of a character; there is one more piece than
occurrences. -/
def splitOn (sep : Char) : List Char → List (List Char)
  | [] => [[]]
  | c :: cs =>
    if c = sep then [] :: splitOn sep cs
    else match splitOn sep cs with
      | [] => [[c]]
      | piece :: pieces => (c :: piece) :: pieces

theorem splitOn_ne_nil (sep : Char) (cs : List Char) : splitOn sep cs ≠ [] := by
  cases cs with
  | nil => simp [splitOn]
  | cons c cs =>
    unfold splitOn
    split
    · simp
    · split <;> simp

/-- The pieces of a string between the occurrences of a character. -/
def split (sep : Char) (s : String) : List String := (splitOn sep s.toList).map String.ofList

/-- The pieces with `sep` between them. -/
def join (sep : String) : List String → String
  | [] => ""
  | [s] => s
  | s :: t :: rest => s ++ sep ++ join sep (t :: rest)

/-- Replaces every occurrence of a character by a piece of text. -/
def replaceChar (c : Char) (by_ : List Char) (cs : List Char) : List Char :=
  cs.flatMap fun d => if d = c then by_ else [d]

/-! ### Order -/

/-- Sorts strings by their code points, which is also the order of their UTF-8 bytes. -/
def sortStrings (ss : List String) : List String := ss.mergeSort (fun a b => !decide (b < a))

/-- Inserts a string into a sorted list without repetitions. -/
def insertSorted (s : String) : List String → List String
  | [] => [s]
  | t :: rest => if s < t then s :: t :: rest else if s = t then t :: rest
        else t :: insertSorted s rest

/-- The distinct strings of a list, sorted. -/
def sortedSet (ss : List String) : List String := ss.foldr insertSorted []

private theorem mem_insertSorted {s t : String} {ss : List String} :
    t ∈ insertSorted s ss ↔ t = s ∨ t ∈ ss := by
  induction ss with
  | nil => simp [insertSorted]
  | cons u us ih =>
    unfold insertSorted
    split
    · simp
    · split
      · subst_vars; simp
      · simp [ih]; grind

theorem mem_sortedSet {t : String} {ss : List String} : t ∈ sortedSet ss ↔ t ∈ ss := by
  induction ss with
  | nil => simp [sortedSet]
  | cons s ss ih =>
    have : sortedSet (s :: ss) = insertSorted s (sortedSet ss) := rfl
    rw [this, mem_insertSorted, ih]
    simp

/-! ### Numbers -/

/-- The decimal digits of a number. -/
def digits (n : Nat) : List Char := Nat.toDigits 10 n

/-- A number in lower case hexadecimal, padded with zeros to at least `width` digits. -/
def hex (width n : Nat) : String :=
  let ds := Nat.toDigits 16 n
  String.ofList (List.replicate (width - ds.length) '0' ++ ds)

/-- The value of a decimal digit. -/
def digitValue (c : Char) : Nat := c.toNat - '0'.toNat

/-- Reads a non-empty run of ASCII digits. -/
def readNat? (cs : List Char) : Option Nat :=
  if cs.isEmpty || cs.any (!·.isDigit) then none
  else some (cs.foldl (fun n c => 10 * n + digitValue c) 0)

end ViewCompiler.Text
