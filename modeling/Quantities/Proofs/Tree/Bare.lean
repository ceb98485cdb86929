import Quantities.Tree

/-! Trees without their locations, so that trees read from different texts can be compared. -/

namespace Quantities

def Expr.bare : Expr → Expr
  | .number _ x => .number .nowhere x
  | .bool _ truth => .bool .nowhere truth
  | .typeWord _ word => .typeWord .nowhere word
  | .name _ text => .name .nowhere text
  | .paren _ inner => .paren .nowhere inner.bare
  | .sign _ op operand => .sign .nowhere op operand.bare
  | .power _ base exponent => .power .nowhere base.bare exponent
  | .binary _ op left right => .binary .nowhere op left.bare right.bare
  | .logical _ op left right => .logical .nowhere op left.bare right.bare
  | .ascription _ operand unit => .ascription .nowhere operand.bare unit.bare
  | .conversion _ operand unit => .conversion .nowhere operand.bare unit.bare

namespace Stmt

mutual

def bare : Stmt → Stmt
  | .empty _ => .empty .nowhere
  | .block _ body => .block .nowhere (bareAll body)
  | .branch _ condition yes none => .branch .nowhere condition.bare yes.bare none
  | .branch _ condition yes (some no) => .branch .nowhere condition.bare yes.bare (some no.bare)
  | .loop _ condition body => .loop .nowhere condition.bare body.bare
  | .var _ name declared initial =>
    .var .nowhere name (declared.map Expr.bare) (initial.map Expr.bare)
  | .unit _ name definition => .unit .nowhere name (definition.map Expr.bare)
  | .assign _ name rhs => .assign .nowhere name rhs.bare
  | .constant _ name rhs => .constant .nowhere name rhs.bare
  | .expr _ e => .expr .nowhere e.bare

def bareAll : List Stmt → List Stmt
  | [] => []
  | first :: rest => first.bare :: bareAll rest

end

theorem bareAll_eq_map (body : List Stmt) : bareAll body = body.map bare := by
  induction body with
  | nil => rfl
  | cons first rest ih => rw [bareAll, ih, List.map_cons]

theorem bare_branch (location : Location) (condition : Expr) (yes : Stmt) (no : Option Stmt) :
    bare (branch location condition yes no) =
      branch .nowhere condition.bare yes.bare (no.map bare) := by
  cases no <;> rw [bare] <;> rfl

/-- Statements of the same form whose parts differ in locations only. -/
inductive Twins : Stmt → Stmt → Prop where
  | empty {location place : Location} : Twins (empty location) (empty place)
  | block {location place : Location} {body others : List Stmt}
      (bodies : body.map bare = others.map bare) : Twins (block location body) (block place others)
  | branch {location place : Location} {condition other : Expr} {yes otherYes : Stmt}
      {no otherNo : Option Stmt} (conditions : condition.bare = other.bare)
      (yeses : yes.bare = otherYes.bare) (noes : no.map bare = otherNo.map bare) :
      Twins (branch location condition yes no) (branch place other otherYes otherNo)
  | loop {location place : Location} {condition other : Expr} {body otherBody : Stmt}
      (conditions : condition.bare = other.bare) (bodies : body.bare = otherBody.bare) :
      Twins (loop location condition body) (loop place other otherBody)
  | var {location place : Location} {name : String} {declared other initial otherInitial : Option Expr}
      (types : declared.map Expr.bare = other.map Expr.bare)
      (initials : initial.map Expr.bare = otherInitial.map Expr.bare) :
      Twins (var location name declared initial) (var place name other otherInitial)
  | unit {location place : Location} {name : String} {definition other : Option Expr}
      (definitions : definition.map Expr.bare = other.map Expr.bare) :
      Twins (unit location name definition) (unit place name other)
  | assign {location place : Location} {name : String} {rhs other : Expr}
      (sides : rhs.bare = other.bare) : Twins (assign location name rhs) (assign place name other)
  | constant {location place : Location} {name : String} {rhs other : Expr}
      (sides : rhs.bare = other.bare) :
      Twins (constant location name rhs) (constant place name other)
  | expr {location place : Location} {e other : Expr} (expressions : e.bare = other.bare) :
      Twins (expr location e) (expr place other)

theorem twins_of_bare {stmt other : Stmt} (same : stmt.bare = other.bare) : Twins stmt other := by
  cases stmt with
  | empty location =>
      cases other with
      | empty place => exact .empty
      | branch => simp [bare_branch, bare] at same
      | _ => cases same
  | block location body =>
      cases other with
      | block place others =>
          simp only [bare, bareAll_eq_map, block.injEq, true_and] at same
          exact .block same
      | branch => simp [bare_branch, bare] at same
      | _ => cases same
  | branch location condition yes no =>
      cases other with
      | branch place otherCondition otherYes otherNo =>
          simp only [bare_branch, branch.injEq, true_and] at same
          exact .branch same.1 same.2.1 same.2.2
      | _ => simp [bare_branch, bare] at same
  | loop location condition body =>
      cases other with
      | loop place otherCondition otherBody =>
          simp only [bare, loop.injEq, true_and] at same
          exact .loop same.1 same.2
      | branch => simp [bare_branch, bare] at same
      | _ => cases same
  | var location name declared initial =>
      cases other with
      | var place otherName otherDeclared otherInitial =>
          simp only [bare, var.injEq, true_and] at same
          obtain ⟨rfl, types, initials⟩ := same
          exact .var types initials
      | branch => simp [bare_branch, bare] at same
      | _ => cases same
  | unit location name definition =>
      cases other with
      | unit place otherName otherDefinition =>
          simp only [bare, unit.injEq, true_and] at same
          obtain ⟨rfl, definitions⟩ := same
          exact .unit definitions
      | branch => simp [bare_branch, bare] at same
      | _ => cases same
  | assign location name rhs =>
      cases other with
      | assign place otherName otherRhs =>
          simp only [bare, assign.injEq, true_and] at same
          obtain ⟨rfl, sides⟩ := same
          exact .assign sides
      | branch => simp [bare_branch, bare] at same
      | _ => cases same
  | constant location name rhs =>
      cases other with
      | constant place otherName otherRhs =>
          simp only [bare, constant.injEq, true_and] at same
          obtain ⟨rfl, sides⟩ := same
          exact .constant sides
      | branch => simp [bare_branch, bare] at same
      | _ => cases same
  | expr location e =>
      cases other with
      | expr place otherExpression =>
          simp only [bare, expr.injEq, true_and] at same
          exact .expr same
      | branch => simp [bare_branch, bare] at same
      | _ => cases same

end Stmt

end Quantities
