import ViewCompiler.Text.Basic

/-!
# Go source as trees

The declarations, statements and expressions of a source, as far as it matters which values they
read and write. Types are expressions too, and everything that only groups other parts (operators,
control flow) keeps the parts. `sites` lists the places of a body at which a value may be stored,
copied or called.
-/

namespace ViewCompiler.GoSource

mutual

/-- An expression or a type. -/
inductive Expr where
  | ident (name : String)
  | literal
  | paren (x : Expr)
  | selector (x : Expr) (name : String)
  /-- An index, or the arguments of a generic name. -/
  | index (x : Expr) (arguments : List Expr)
  | slice (x : Expr) (bounds : List Expr)
  /-- A type assertion; in a type switch the type is left open. -/
  | assertion (x : Expr) (type : List Expr)
  | call (callee : Expr) (arguments : List Expr)
  /-- A dereference or a pointer type. -/
  | star (x : Expr)
  | address (x : Expr)
  /-- Any other operators with their operands. -/
  | operation (operands : List Expr)
  /-- A composite literal; the type may be left out inside another one. -/
  | composite (type elements : List Expr)
  | pair (key value : Expr)
  /-- A function with a body. -/
  | closure (types : List Expr) (body : List Stmt)
  | arrayType (length : List Expr) (element : Expr)
  | mapType (key value : Expr)
  | structType (fields : List Field)
  | channelType (element : Expr)
  /-- Any other type with its parts. -/
  | otherType (parts : List Expr)

/-- A field of a structure; an embedded one has no names. -/
inductive Field where
  | mk (names : List String) (type : Expr)

/-- A statement. -/
inductive Stmt where
  | expr (x : Expr)
  | assign (targets values : List Expr) (define : Bool)
  /-- An increment or a decrement. -/
  | step (x : Expr)
  | send (channel value : Expr)
  /-- A loop over a value, with at most two targets, which may be assigned or declared. -/
  | range (targets : List Expr) (source : List Expr) (assigns : Bool) (body : List Stmt)
  | declare (types values : List Expr)
  | typeSpec (name : String) (parameters : List Expr) (type : Expr)
  /-- Any other statement with its parts. -/
  | group (exprs : List Expr) (parts : List Stmt)

end

instance : Inhabited Expr := ⟨.literal⟩
instance : Inhabited Stmt := ⟨.group [] []⟩

/-- A method or function. -/
structure Function where
  name : String
  /-- The name of the receiver, which may be empty, and its type. -/
  receiver : Option (String × Expr)
  parameters : Nat
  results : Nat
  body : Option (List Stmt)

/-- A whole source: its functions, and everything else in the order of the text. -/
structure File where
  functions : List Function
  /-- All declarations as statements, the bodies of the functions included. -/
  declarations : List Stmt

/-! ### Sites -/

/-- A place of a body. -/
inductive Site where
  | expr (x : Expr)
  | assign (targets values : List Expr) (define : Bool)
  | declare (values : List Expr)
  | step (x : Expr)
  | send (value : Expr)
  | range (targets : List Expr) (source : List Expr) (assigns : Bool)
  | typeSpec (name : String) (type : Expr)

mutual

/-- The sites of an expression, its own first. -/
def Expr.sites : Expr → List Site
  | .ident n => [.expr (.ident n)]
  | .literal => []
  | .paren x => .expr (.paren x) :: x.sites
  | .selector x n => .expr (.selector x n) :: x.sites
  | .index x as => .expr (.index x as) :: (x.sites ++ sitesOf as)
  | .slice x bs => .expr (.slice x bs) :: (x.sites ++ sitesOf bs)
  | .assertion x t => x.sites ++ sitesOf t
  | .call f as => .expr (.call f as) :: (f.sites ++ sitesOf as)
  | .star x => .expr (.star x) :: x.sites
  | .address x => .expr (.address x) :: x.sites
  | .operation xs => sitesOf xs
  | .composite t es => .expr (.composite t es) :: (sitesOf t ++ sitesOf es)
  | .pair k v => k.sites ++ v.sites
  | .closure ts body => sitesOf ts ++ sitesIn body
  | .arrayType l e => sitesOf l ++ e.sites
  | .mapType k v => k.sites ++ v.sites
  | .structType fs => fieldSites fs
  | .channelType e => e.sites
  | .otherType ps => sitesOf ps

/-- The sites of several expressions. -/
def sitesOf : List Expr → List Site
  | [] => []
  | x :: xs => x.sites ++ sitesOf xs

/-- The sites of the types of fields. -/
def fieldSites : List Field → List Site
  | [] => []
  | .mk _ t :: fs => t.sites ++ fieldSites fs

/-- The sites of a statement, its own first. -/
def Stmt.sites : Stmt → List Site
  | .expr x => x.sites
  | .assign ts vs d => .assign ts vs d :: (sitesOf ts ++ sitesOf vs)
  | .step x => .step x :: x.sites
  | .send c v => .send v :: (c.sites ++ v.sites)
  | .range vs s a body => .range vs s a :: (sitesOf vs ++ sitesOf s ++ sitesIn body)
  | .declare ts vs => .declare vs :: (sitesOf ts ++ sitesOf vs)
  | .typeSpec n ps t => .typeSpec n t :: (sitesOf ps ++ t.sites)
  | .group es ps => sitesOf es ++ sitesIn ps

/-- The sites of several statements. -/
def sitesIn : List Stmt → List Site
  | [] => []
  | s :: ss => s.sites ++ sitesIn ss

end

end ViewCompiler.GoSource
