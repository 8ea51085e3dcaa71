import ViewCompiler.Metadata.Basic
import ViewCompiler.Metadata.GoSource.Parser
import ViewCompiler.Problem

/-!
# Metadata from Go source

A component written in Go is a structure with methods. Its fields are the properties; a method
without parameters and with one result that can assign nothing is a getter, and every other method
is a method. What a method assigns is over-approximated: besides plain assignments it covers every
place at which a value reached through a field may be written, or copied to where it can be written.
Handing on the receiver itself may assign everything.
-/

namespace ViewCompiler.GoSource

open ViewCompiler.Text

/-! ### Names and types -/

/-- One character with differences of case removed. The two forms of the letter i that only some
languages use keep theirs. -/
def foldChar (c : Char) : Char :=
  if c.toNat = 0x130 || c.toNat = 0x131 then c else lowerChar (titleChar c)

/-- Whether two names are the same up to case. -/
def sameName (a b : String) : Bool := a.toList.map foldChar = b.toList.map foldChar

/-- The types whose copies share no memory. -/
def basicTypes : List String :=
  ["bool", "string", "byte", "rune", "int", "int8", "int16", "int32", "int64", "uint", "uint8",
   "uint16", "uint32", "uint64", "uintptr", "float32", "float64", "complex64", "complex128"]

/-- Whether copies of a value share no memory with it. -/
def isBasic : Expr → Bool
  | .ident n => basicTypes.contains n
  | _ => false

/-- Whether an element of a value of the given type may share memory with it. A type that is not
known may. -/
def elementShares : Option Expr → Bool
  | some (.arrayType _ e) => !isBasic e
  | some (.mapType _ v) => !isBasic v
  | some (.ident n) => n ≠ "string"
  | _ => true

/-! ### Structures -/

/-- A structure with its named fields. -/
structure Structure where
  name : String
  fields : List (String × Expr)

namespace Structure

/-- The named fields of a structure; blank ones do not count. -/
def ofFields (name : String) (fields : List Field) : Structure where
  name
  fields := fields.flatMap fun
    | .mk names type => (names.filter (· ≠ "_")).map (·, type)

/-- The first structure of a file with the given name, whatever its case. -/
def find? (f : File) (name : String) : Option Structure :=
  (sitesIn f.declarations).findSome? fun
    | .typeSpec n (.structType fields) => if sameName n name then some (ofFields n fields) else none
    | _ => none

/-- The names of the fields. -/
def fieldNames (s : Structure) : List String := s.fields.map (·.1)

/-- The type of a field; of several with one name the last one counts. -/
def typeOf? (s : Structure) (field : String) : Option Expr := s.fields.reverse.lookup field

end Structure

/-- The name of the type a method belongs to. -/
def ownerOf : Expr → String
  | .star t => ownerOf t
  | .index t _ => ownerOf t
  | .ident n => n
  | _ => ""

/-- The methods of a structure in the order of the source; a repeated name does not count. -/
def methodsOf (f : File) (s : Structure) : List Function :=
  f.functions.foldl (fun found m =>
    if m.receiver.any (fun (_, t) => ownerOf t = s.name) && !found.any (·.name = m.name)
    then found ++ [m] else found) []

/-! ### Values reached through the receiver -/

/-- What an expression reaches through the receiver first. -/
inductive Root where
  /-- Something else. -/
  | elsewhere
  /-- The receiver itself. -/
  | receiver
  | field (name : String)
  deriving DecidableEq

/-- What an expression reaches through the receiver: selectors, indices, slices, dereferences and
the results of methods lead further in. -/
def rootOf (receiver : String) : Expr → Root
  | .ident n => if n = receiver then .receiver else .elsewhere
  | .selector (.ident n) name =>
    if n = receiver then .field name else .elsewhere
  | .selector x _ => rootOf receiver x
  | .index x _ => rootOf receiver x
  | .slice x _ => rootOf receiver x
  | .star x => rootOf receiver x
  | .paren x => rootOf receiver x
  | .call (.selector x _) _ => rootOf receiver x
  | _ => .elsewhere

/-- An expression without brackets around it. -/
def unparen : Expr → Expr
  | .paren x => unparen x
  | x => x

/-- Whether an expression is the given name. -/
def isName (name : String) : Expr → Bool
  | .ident n => n = name
  | _ => false

/-- The field whose memory a value may share. Plain reads of basic values share nothing, and
neither does an element of a field whose elements are basic. -/
def sharedField? (s : Structure) (receiver : String) (x : Expr) : Option String :=
  let x := unparen x
  match rootOf receiver x with
  | .field f =>
    let shares := match x with
      | .selector y _ => !isName receiver y || !(s.typeOf? f).any isBasic
      | .index (.selector y _) [_] => !isName receiver y || elementShares (s.typeOf? f)
      | _ => true
    if shares then some f else none
  | _ => none

/-! ### Edges of one method -/

/-- What a method was found to do. -/
structure Effects where
  calls : List String := []
  assigns : List String := []
  /-- Whether everything may be assigned. -/
  all : Bool := false

namespace Effects

/-- Both of two effects. -/
def union (a b : Effects) : Effects := ⟨a.calls ++ b.calls, a.assigns ++ b.assigns, a.all || b.all⟩

/-- All of several effects. -/
def unions (es : List Effects) : Effects := es.foldl union {}

end Effects

/-- A method body in its surroundings. -/
structure Surroundings where
  structure_ : Structure
  /-- The names of all methods. -/
  methods : List String
  /-- The name of the receiver. -/
  receiver : String

namespace Surroundings

variable (s : Surroundings)

/-- The effect of writing to what an expression denotes. -/
def store (x : Expr) : Effects :=
  match rootOf s.receiver x with
  | .elsewhere => {}
  | .receiver => { all := true }
  | .field f => { assigns := [f] }

/-- The effect of copying a value to where it can be written through. -/
def copy (x : Expr) : Effects :=
  if isName s.receiver x then { all := true }
  else match sharedField? s.structure_ s.receiver x with
    | some f => if s.methods.contains f then {} else { assigns := [f] }
    | none => {}

/-- The effect of a call, its arguments included. Measuring a value copies nothing. -/
def call (callee : Expr) (arguments : List Expr) : Effects :=
  let copied :=
    if isName "len" callee || isName "cap" callee then {} else Effects.unions (arguments.map s.copy)
  let called : Effects := match callee with
    | .selector x name =>
      if isName s.receiver x then
        -- Neither a method nor a field: promoted from an embedded field.
        if s.methods.contains name || (s.structure_.typeOf? name).isSome then {}
          else { all := true }
      else match rootOf s.receiver x with
        | .field f => if s.methods.contains f then {} else { assigns := [f] }
        | _ => {}
    | _ => {}
  copied.union called

/-- The effect of a loop over a value: its variables are written, and an element may share memory
with the value. -/
def range (targets source : List Expr) (assigns : Bool) : Effects :=
  let stored := if assigns then Effects.unions (targets.map s.store) else {}
  let shared : Effects :=
    if targets.length < 2 then {}
    else Effects.unions (source.map fun x =>
      match rootOf s.receiver x with
      | .field f => if elementShares (s.structure_.typeOf? f) then { assigns := [f] } else {}
      | _ => {})
  stored.union shared

/-- The value of an element of a composite literal. -/
def elementValue : Expr → Expr
  | .pair _ v => v
  | x => x

/-- The effect of one site. -/
def effectOf : Site → Effects
  | .assign targets values define =>
    (if define then {} else Effects.unions (targets.map s.store)).union
      (Effects.unions (values.map s.copy))
  | .declare values => Effects.unions (values.map s.copy)
  | .step x => s.store x
  | .send value => s.copy value
  | .range targets source assigns => s.range targets source assigns
  | .typeSpec _ _ => {}
  | .expr x =>
    match x with
    | .address y => s.store y
    | .composite _ elements => Effects.unions (elements.map fun e => s.copy (elementValue e))
    | .call callee arguments => s.call callee arguments
    | .selector y name =>
      -- A method that is called, or that is handed on to be called.
      if isName s.receiver y && s.methods.contains name then { calls := [name] } else {}
    | _ => {}

/-- The effects of a whole body. -/
def effects (body : List Stmt) : Effects := Effects.unions ((sitesIn body).map s.effectOf)

end Surroundings

/-- The direct edges of a method. -/
def edgesOf (s : Structure) (methods : List String) (m : Function) : MethodEdges :=
  match m.receiver, m.body with
  | some (receiver, _), some body =>
    if receiver = "" || receiver = "_" then {}
    else
      let e := (Surroundings.mk s methods receiver).effects body
      { calls := sortedSet e.calls
        assigns := if e.all then s.fieldNames else sortedSet e.assigns }
  | _, _ => {}

/-- Whether a method has the shape of a getter. -/
def Function.isGetterShaped (m : Function) : Bool := m.parameters = 0 && m.results = 1

/-! ### Metadata -/

/-- Declares as getters the methods of the right shape that assign nothing, all methods being known
with their direct edges. -/
def separateGetters (d : Declaration) (shaped : List String) :
    Except DeclarationError Metadata := do
  let all ← Metadata.ofDeclaration d
  let getters := shaped.filter fun m => (all.mutates m).isEmpty
  if getters.isEmpty then return all
  Metadata.ofDeclaration { d with
    getters
    methods := d.methods.filter fun (m, _) => !getters.contains m }

/-- The metadata of a structure of a file. -/
def metadata (f : File) (typeName : String) : Except Problem Metadata := do
  match Structure.find? f typeName with
  | none => throw (.plain ("struct " ++ quote typeName ++ " not found"))
  | some s =>
    let methods := methodsOf f s
    let names := methods.map (·.name)
    let d : Declaration := {
      name := s.name
      properties := s.fieldNames
      methods := methods.map fun m => (m.name, edgesOf s names m) }
    (separateGetters d ((methods.filter (·.isGetterShaped)).map (·.name))).mapError fun e =>
      .plain e.message

/-- Reads the metadata of a structure from a source with the given file name. -/
def read (fileName source typeName : String) : Except Problem Metadata :=
  match parse? source with
  | none => .error (.plain s!"failed to parse {fileName}: malformed source")
  | some f => metadata f typeName

end ViewCompiler.GoSource
