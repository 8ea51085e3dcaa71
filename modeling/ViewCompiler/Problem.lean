import ViewCompiler.Template.Parser

/-!
# Problems

Everything a run can end with instead of a result, as a chain: each problem may wrap the one that
caused it. `Problem.message` is the only place that words them. Which report a chain gives is
decided by looking for the first problem of a kind from the outside in.
-/

namespace ViewCompiler

open ViewCompiler.Text ViewCompiler.Template

/-- The area a coded problem belongs to. -/
inductive Category where
  | validation | parse | resolve | io | build | config | internal
  | other (name : String)
  deriving DecidableEq, Repr

namespace Category

/-- The name of an area. -/
def name : Category → String
  | validation => "validation"
  | parse => "parse"
  | resolve => "resolve"
  | io => "io"
  | build => "build"
  | config => "config"
  | internal => "internal"
  | other name => name

/-- The area with the given name. -/
def ofName : String → Category
  | "validation" => validation
  | "parse" => parse
  | "resolve" => resolve
  | "io" => io
  | "build" => build
  | "config" => config
  | "internal" => internal
  | name => other name

/-- Areas whose problems never record what caused them. -/
def dropsCause : Category → Bool
  | validation | config => true
  | _ => false

end Category

/-- A problem with a code that tools can match on. -/
structure CodedProblem where
  category : Category
  code : String
  message : String
  component : String := ""
  file : String := ""
  line : Int := 0
  column : Int := 0
  deriving DecidableEq, Repr

/-- A name in a template that refers to nothing suitable. -/
structure UnresolvedReference where
  component : String := ""
  name : String
  path : String
  /-- Why the name does not do; empty when it is not declared at all. -/
  reason : String := ""
  /-- The scope from which the name was looked up. -/
  scope : String := ""
  span : Span := {}
  /-- Similar names that are visible from there. -/
  candidates : List String := []
  deriving DecidableEq, Repr

/-- What a run can end with instead of a result. -/
inductive Problem where
  | plain (message : String)
  /-- A problem seen from the step that ran into it. -/
  | context (note : String) (cause : Problem)
  | parse (component file : String) (span : Span) (message : String)
  | unresolved (reference : UnresolvedReference)
  /-- A value defined outside the scopes around its consumer. -/
  | unreachable (value definition consumer : String)
  | coded (detail : CodedProblem) (cause : Option Problem)
  | duplicateKey (key : String) (first again : Nat)
  /-- A promise between the parts of the compiler was broken. -/
  | violation (message : String)
  /-- The run was aborted without a report. -/
  | abort
  deriving Repr, Inhabited

namespace UnresolvedReference

/-- The message for an unresolved name. -/
def message (r : UnresolvedReference) : String :=
  let owner := if r.component = "" then "" else r.component ++ ":"
  let place :=
    if r.span.start.line > 0 then r.span.start.text ++ ": "
    else if r.component = "" then "" else " "
  let scope := if r.scope = "" then "" else " from " ++ r.scope
  let reason := if r.reason = "" then "is not declared in any enclosing scope" else r.reason
  let hint :=
    if r.candidates.isEmpty then ""
    else " (did you mean " ++ join ", " (r.candidates.map quote) ++ "?)"
  owner ++ place ++ "unresolved reference " ++ quote r.path ++ scope ++ ": " ++
    quote r.name ++ " " ++
    reason ++ hint

end UnresolvedReference

/-- The message of a coded problem without its cause. -/
def CodedProblem.text (p : CodedProblem) : String :=
  let code := if p.code = "" then [] else [s!"[{p.code}]"]
  let component := if p.component = "" then [] else ["component:" ++ p.component]
  let column := if p.column > 0 then s!":{p.column}" else ""
  let line := if p.line > 0 then s!":{p.line}" ++ column else ""
  let place := if p.file = "" then [] else [p.file ++ line]
  join " " (code ++ component ++ place ++ [p.message])

namespace Problem

/-- The message of a problem, its causes included. -/
def message : Problem → String
  | plain message => message
  | context note cause => note ++ ": " ++ cause.message
  | parse component file span text =>
    let owner :=
      if file ≠ "" then file ++ ":" else if component ≠ "" then component ++ ":" else ""
    owner ++ span.start.text ++ ": parse error: " ++ text
  | unresolved reference => reference.message
  | unreachable value definition consumer =>
    s!"definition {definition} of " ++ quote value ++ s!" is not an ancestor of consumer {consumer}"
  | coded detail none => detail.text
  | coded detail (some cause) => detail.text ++ ": " ++ cause.message
  | duplicateKey key first again => s!"duplicate key {key} at positions {first} and {again}"
  | violation message => "invariant violation: " ++ message
  | abort => ""

/-- The problem directly wrapped by this one. -/
def cause? : Problem → Option Problem
  | context _ cause => some cause
  | coded _ cause => cause
  | _ => none

/-- A problem followed by everything it wraps, from the outside in. -/
def chain : Problem → List Problem
  | context note cause => context note cause :: cause.chain
  | coded detail (some cause) => coded detail (some cause) :: cause.chain
  | coded detail none => [coded detail none]
  | plain m => [plain m]
  | parse c f s m => [parse c f s m]
  | unresolved r => [unresolved r]
  | unreachable v d c => [unreachable v d c]
  | duplicateKey k f a => [duplicateKey k f a]
  | violation m => [violation m]
  | abort => [abort]

/-- The outermost coded problem. -/
def coded? (p : Problem) : Option CodedProblem :=
  p.chain.findSome? fun | coded detail _ => some detail | _ => none

/-- The outermost parse problem: its span and bare message. -/
def parse? (p : Problem) : Option (Span × String) :=
  p.chain.findSome? fun | parse _ _ span message => some (span, message) | _ => none

/-- The outermost unresolved reference. -/
def unresolved? (p : Problem) : Option UnresolvedReference :=
  p.chain.findSome? fun | unresolved r => some r | _ => none

/-- Whether the outermost coded problem belongs to building. -/
def isBuild (p : Problem) : Bool := p.coded?.any (·.category = .build)

/-- Whether some coded problem in the chain carries the code. -/
def hasCode (p : Problem) (code : String) : Bool :=
  p.chain.any fun | coded detail _ => detail.code = code | _ => false

/-- Whether some coded problem in the chain has the category and code of the outermost coded
problem of `target`. -/
def matches_ (p target : Problem) : Bool :=
  match target.coded? with
  | none => false
  | some t =>
    p.chain.any fun
      | coded detail _ => detail.category = t.category && detail.code = t.code
      | _ => false

/-! ### Common problems -/

/-- A problem of the given category; some categories record no cause. -/
def ofCode (detail : CodedProblem) (cause : Option Problem := none) : Problem :=
  .coded detail (if detail.category.dropsCause then none else cause)

/-- A component that instantiates itself along the given names. -/
def recursive : List String → Problem
  | [] => .abort
  | name :: names =>
    ofCode { category := .build, code := "recursive_component", component := name
             message := "component instantiates itself: " ++ join " -> " (name :: names) }

/-- A component that is not registered. -/
def unknownComponent (name : String) : Problem :=
  ofCode { category := .build, code := "unknown_component", component := name
           message := "component " ++ quote name ++ " is not registered" }

/-- A template that cannot be read. -/
def ofRejection : Rejection → Problem
  | .error e => .parse e.component "" e.span e.fault.message
  | .overrun => .abort

end Problem

/-! ### Suggestions -/

/-- The candidates that contain the name or are contained in it, whatever their case, sorted. -/
def suggest (name : String) (candidates : List String) : List String :=
  let name := lowercase name
  sortStrings <| candidates.filter fun c =>
    let c := lowercase c
    contains name c || contains c name

end ViewCompiler
