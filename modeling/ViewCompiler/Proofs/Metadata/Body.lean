import ViewCompiler.Metadata.GoSource.Syntax

/-!
# What a body contains

A body is a tree of statements and expressions. `Node.parts` gives what stands directly below a
node, and `Within` everything below the statements of a body, however deep: in nested statements, in
operands and arguments, and in the bodies of functions that are written in it. The sites of a node
are its own one and those of its parts (`Node.sites_eq`), so that nothing in a body is passed over
(`Within.sites_subset`).
-/

namespace ViewCompiler.GoSource

/-- A node of a tree. -/
inductive Node where
  | expr (x : Expr)
  | stmt (s : Stmt)

/-- The type of a field. -/
def Field.type : Field → Expr
  | .mk _ t => t

/-- The nodes directly below an expression. -/
def Expr.parts : Expr → List Node
  | .ident _ | .literal => []
  | .paren x | .selector x _ | .star x | .address x | .channelType x => [.expr x]
  | .index x xs | .slice x xs | .assertion x xs | .call x xs => (x :: xs).map .expr
  | .operation xs | .otherType xs => xs.map .expr
  | .composite type elements => (type ++ elements).map .expr
  | .pair key value | .mapType key value => [.expr key, .expr value]
  | .closure types body => types.map .expr ++ body.map .stmt
  | .arrayType length element => (length ++ [element]).map .expr
  | .structType fields => fields.map (.expr ·.type)

/-- The nodes directly below a statement. -/
def Stmt.parts : Stmt → List Node
  | .expr x | .step x => [.expr x]
  | .assign targets values _ => (targets ++ values).map .expr
  | .send channel value => [.expr channel, .expr value]
  | .range targets source _ body => (targets ++ source).map .expr ++ body.map .stmt
  | .declare types values => (types ++ values).map .expr
  | .typeSpec _ parameters type => (parameters ++ [type]).map .expr
  | .group exprs stmts => exprs.map .expr ++ stmts.map .stmt

namespace Node

/-- The nodes directly below a node. -/
def parts : Node → List Node
  | .expr x => x.parts
  | .stmt s => s.parts

/-- The sites of a node and of everything below it. -/
def sites : Node → List Site
  | .expr x => x.sites
  | .stmt s => s.sites

/-- The site that a node is itself. -/
def own : Node → List Site
  | .stmt (.assign targets values define) => [.assign targets values define]
  | .stmt (.step x) => [.step x]
  | .stmt (.send _ value) => [.send value]
  | .stmt (.range targets source assigns _) => [.range targets source assigns]
  | .stmt (.declare _ values) => [.declare values]
  | .stmt (.typeSpec name _ type) => [.typeSpec name type]
  | .stmt (.expr _) | .stmt (.group _ _) => []
  | .expr x =>
    match x with
    | .ident _ | .paren _ | .selector _ _ | .index _ _ | .slice _ _ | .call _ _ | .star _
    | .address _
    | .composite _ _ => [.expr x]
    | _ => []

end Node

/-! ### Sites of several nodes -/

private theorem sitesOf_eq (xs : List Expr) :
    sitesOf xs = (xs.map Node.expr).flatMap Node.sites := by
  induction xs with
  | nil => rfl
  | cons x xs ih =>
    rw [sitesOf, ih]
    rfl

private theorem sitesIn_eq (ss : List Stmt) :
    sitesIn ss = (ss.map Node.stmt).flatMap Node.sites := by
  induction ss with
  | nil => rfl
  | cons s ss ih =>
    rw [sitesIn, ih]
    rfl

private theorem fieldSites_eq (fs : List Field) :
    fieldSites fs = (fs.map (Node.expr ·.type)).flatMap Node.sites := by
  induction fs with
  | nil => rfl
  | cons f fs ih =>
    cases f
    rw [fieldSites, ih]
    rfl

/-- The sites of a node are its own one, and those of its parts in their order. -/
theorem Node.sites_eq (n : Node) : n.sites = n.own ++ n.parts.flatMap Node.sites := by
  cases n with
  | expr x =>
    cases x <;>
      simp [sites, own, parts, Expr.parts, Expr.sites, sitesOf_eq, sitesIn_eq, fieldSites_eq,
        List.flatMap_append]
  | stmt s =>
    cases s <;>
      simp [sites, own, parts, Stmt.parts, Stmt.sites, sitesOf_eq, sitesIn_eq, List.flatMap_append]

private theorem Node.sites_subset_of_mem_parts {n part : Node} (h : part ∈ n.parts) :
    part.sites ⊆ n.sites := by
  intro site hsite
  rw [n.sites_eq]
  exact List.mem_append_right _ (List.mem_flatMap.2 ⟨part, h, hsite⟩)

private theorem Node.own_subset_sites (n : Node) : n.own ⊆ n.sites := by
  rw [n.sites_eq]
  exact List.subset_append_left _ _

/-! ### Whole bodies -/

/-- A node stands in a body, at whatever depth. -/
inductive Within (body : List Stmt) : Node → Prop where
  | stmt {s : Stmt} : s ∈ body → Within body (.stmt s)
  | part {n part : Node} : Within body n → part ∈ n.parts → Within body part

/-- The sites of whatever stands in a body are sites of the body. -/
theorem Within.sites_subset {body : List Stmt} {n : Node} (h : Within body n) :
    n.sites ⊆ sitesIn body := by
  induction h with
  | stmt hs =>
    intro site hsite
    rw [sitesIn_eq]
    exact List.mem_flatMap.2 ⟨_, List.mem_map_of_mem hs, hsite⟩
  | part _ hpart ih =>
    intro site hsite
    exact ih (Node.sites_subset_of_mem_parts hpart hsite)

theorem Within.own_subset {body : List Stmt} {n : Node} (h : Within body n) :
    n.own ⊆ sitesIn body :=
  fun _ hsite => h.sites_subset (n.own_subset_sites hsite)

end ViewCompiler.GoSource
