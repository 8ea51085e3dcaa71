import ViewCompiler.Path

/-!
# File patterns

A pattern is a row of chunks, each possibly behind a star. A star stands for any text without a
slash, `?` for one character other than a slash, and brackets for one character of a class. A chunk
is sought from left to right, and its first place counts: the chunks behind it never make it move
on, except that the last chunk has to reach the end of the name.

A star is stretched byte by byte, so it may end inside a character. The bytes that are then left of
the character count as single units that no ordinary character equals.
-/

namespace ViewCompiler

open ViewCompiler.Text

namespace Glob

/-- One thing a pattern asks for. -/
inductive Piece where
  | literal (c : Char)
  /-- Any unit but a slash. -/
  | any
  /-- A character between one of the given pairs, or between none of them. -/
  | oneOf (negated : Bool) (ranges : List (Char × Char))
  deriving DecidableEq, Repr

/-- Pieces in a row, possibly behind a star. -/
structure Chunk where
  star : Bool
  pieces : List Piece
  deriving DecidableEq, Repr

end Glob

/-- A file pattern. -/
abbrev Glob := List Glob.Chunk

namespace Glob

/-! ### Reading patterns -/

/-- Reads one end of a range inside brackets. A class never ends right behind it. -/
def rangeEnd? : List Char → Option (Char × List Char)
  | '-' :: _ | ']' :: _ => none
  | ['\\'] | [] => none
  | '\\' :: c :: d :: cs => some (c, d :: cs)
  | c :: d :: cs => if c = '\\' then none else some (c, d :: cs)
  | [_] => none

private theorem length_of_rangeEnd? {cs rest : List Char} {c : Char}
    (h : rangeEnd? cs = some (c, rest)) :
    rest.length < cs.length := by
  unfold rangeEnd? at h
  split at h <;> try contradiction
  · grind
  · split at h <;> grind

/-- Reads one range inside brackets: a character, or two with a dash between them. -/
def range? (cs : List Char) : Option ((Char × Char) × List Char) :=
  match rangeEnd? cs with
  | none => none
  | some (low, '-' :: rest) => (rangeEnd? rest).map fun (high, rest) => ((low, high), rest)
  | some (low, rest) => some ((low, low), rest)

private theorem length_of_range? {cs rest : List Char} {r : Char × Char}
    (h : range? cs = some (r, rest)) :
    rest.length < cs.length := by
  unfold range? at h
  split at h
  · contradiction
  · rename_i low rest' h'
    simp only [Option.map_eq_some_iff] at h
    obtain ⟨⟨high, q⟩, hq, heq⟩ := h
    have h1 := length_of_rangeEnd? h'
    have h2 := length_of_rangeEnd? hq
    simp_all
    omega
  · rename_i h'
    have := length_of_rangeEnd? h'
    simp_all

/-- Reads the ranges of a class up to its bracket; there is at least one. -/
def ranges? (found : List (Char × Char)) (cs : List Char) :
    Option (List (Char × Char) × List Char) :=
  match h : range? cs with
  | none => none
  | some (r, ']' :: rest) => some ((r :: found).reverse, rest)
  | some (r, rest) =>
    have : rest.length < cs.length := length_of_range? h
    ranges? (r :: found) rest
termination_by cs.length

/-- The ranges read so far come back, and the rest is shorter than what was read. -/
private theorem length_of_ranges? {found rs : List (Char × Char)} {cs rest : List Char}
    (h : ranges? found cs = some (rs, rest)) : rest.length < cs.length := by
  fun_induction ranges? found cs with
  | case1 => simp at h
  | case2 found cs r rest' hr =>
    have := length_of_range? hr
    simp_all
    omega
  | case3 found cs r rest' hne hr hlt ih =>
    have := ih h
    omega

/-- Reads one piece. -/
def piece? : List Char → Option (Piece × List Char)
  | [] => none
  | '[' :: '^' :: cs => (ranges? [] cs).map fun (rs, rest) => (.oneOf true rs, rest)
  | '[' :: cs => (ranges? [] cs).map fun (rs, rest) => (.oneOf false rs, rest)
  | '?' :: cs => some (.any, cs)
  | '\\' :: c :: cs => some (.literal c, cs)
  | ['\\'] => none
  | c :: cs => some (.literal c, cs)

/-- What is left behind a class is shorter than the class and what follows it. -/
private theorem length_of_class {cs rest : List Char} {negated : Bool} {p : Piece}
    (h : ((ranges? [] cs).map fun (rs, rest) => (Piece.oneOf negated rs, rest)) = some (p, rest)) :
    rest.length < cs.length := by
  obtain ⟨⟨rs, q⟩, hq, heq⟩ := Option.map_eq_some_iff.1 h
  have hlt := length_of_ranges? hq
  simp only [Prod.mk.injEq] at heq
  exact heq.2 ▸ hlt

private theorem length_of_piece? {cs rest : List Char} {p : Piece}
    (h : piece? cs = some (p, rest)) :
    rest.length < cs.length := by
  unfold piece? at h
  split at h
  · contradiction
  · have := length_of_class h
    grind
  · have := length_of_class h
    grind
  · grind
  · grind
  · contradiction
  · grind

/-- Adds a piece in front of a pattern. -/
def consPiece (p : Piece) : Glob → Glob
  | ⟨false, ps⟩ :: chunks => ⟨false, p :: ps⟩ :: chunks
  | chunks => ⟨false, [p]⟩ :: chunks

/-- Adds a star in front of a pattern; two stars in a row are one. -/
def consStar : Glob → Glob
  | [] => [⟨true, []⟩]
  | ⟨_, ps⟩ :: chunks => ⟨true, ps⟩ :: chunks

/-- Reads a pattern. -/
def read? (cs : List Char) : Option Glob :=
  match cs with
  | [] => some []
  | '*' :: rest => (read? rest).map consStar
  | c :: rest =>
    match h : piece? (c :: rest) with
    | none => none
    | some (p, rest') =>
      have := length_of_piece? h
      (read? rest').map (consPiece p)
termination_by cs.length
decreasing_by
  · simp
  · exact this

/-- The pattern that a string describes, unless it is malformed. -/
def ofString? (pattern : String) : Option Glob := read? pattern.toList

/-! ### Matching -/

/-- A unit of a name: a character, or a byte that is left of one. -/
inductive Token where
  | char (c : Char)
  | stray
  deriving DecidableEq, Repr

/-- Whether a piece takes a unit. A stray byte reads as the replacement character. -/
def Piece.accepts : Piece → Token → Bool
  | literal c, .char d => c = d
  | literal _, .stray => false
  | any, u => u ≠ .char '/'
  | oneOf negated ranges, u =>
    let c := match u with | .char c => c | .stray => Char.ofNat 0xfffd
    (ranges.any fun (low, high) => low ≤ c && c ≤ high) != negated

/-- Matches pieces at the front of a name; gives what is left of it. -/
def takePieces : List Piece → List Token → Option (List Token)
  | [], us => some us
  | _ :: _, [] => none
  | p :: ps, u :: us => if p.accepts u then takePieces ps us else none

/-- Drops one byte at the front of a name. -/
def dropByte : List Token → List Token
  | [] => []
  | .stray :: us => us
  | .char c :: us => List.replicate (c.utf8Size - 1) .stray ++ us

/-- The number of bytes of a name. -/
def byteCount (us : List Token) : Nat :=
  us.foldl (fun n u => match u with | .char c => n + c.utf8Size | .stray => n + 1) 0

/-- Matches a chunk at the front or, behind a star, at the first place further on that the star can
reach. The last chunk has to leave nothing. The fuel is the number of bytes that may be skipped. -/
def takeChunk (chunk : Chunk) (last : Bool) : Nat → List Token → Option (List Token)
  | fuel, us =>
    let here := (takePieces chunk.pieces us).filter fun rest => !last || rest.isEmpty
    match here, fuel with
    | some rest, _ => some rest
    | none, 0 => none
    | none, fuel + 1 =>
      if !chunk.star || us.isEmpty || us.head? = some (.char '/') then none
      else takeChunk chunk last fuel (dropByte us)

/-- Whether a pattern matches a name, given as units. -/
def matchTokens : Glob → List Token → Bool
  | [], us => us.isEmpty
  | [⟨true, []⟩], us => !us.contains (.char '/')
  | chunk :: chunks, us =>
    match takeChunk chunk chunks.isEmpty (byteCount us) us with
    | some rest => matchTokens chunks rest
    | none => false

/-- Whether a pattern matches a whole name. -/
def matches_ (g : Glob) (name : String) : Bool := matchTokens g (name.toList.map .char)

end Glob

/-- Whether a pattern matches a name. A malformed pattern matches nothing. -/
def matchesPattern (pattern name : String) : Bool :=
  (Glob.ofString? pattern).any (·.matches_ name)

end ViewCompiler
