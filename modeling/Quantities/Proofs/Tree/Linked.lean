import Quantities.Proofs.Tree.Node

/-!
The rows of a layout. The numbers in an entry are those of the children of its node, and a property
that nodes hand down to their children holds of all the nodes that are laid out.
-/

namespace Quantities

namespace Layout

def expr? (layout : Layout) (index : Nat) : Option Expr := layout.exprs[index]?.map (·.node)

def stmt? (layout : Layout) (index : Nat) : Option Stmt := layout.stmts[index]?.map (·.node)

/-- Every entry names the children of its node by their numbers. -/
structure Linked (layout : Layout) : Prop where
  exprs : ∀ entry ∈ layout.exprs,
    entry.parts.map layout.expr? = entry.node.children.map some
  stmts : ∀ entry ∈ layout.stmts,
    entry.exprs.map layout.expr? = entry.node.exprs.map some ∧
      entry.parts.map layout.stmt? = entry.node.children.map some

theorem map_grows {α : Type} {find later : Nat → Option α}
    (grows : ∀ index node, find index = some node → later index = some node) {indices : List Nat}
    {nodes : List α} (found : indices.map find = nodes.map some) :
    indices.map later = nodes.map some := by
  induction indices generalizing nodes with
  | nil => exact found
  | cons index indices ih =>
      cases nodes with
      | nil => cases found
      | cons node rest =>
          obtain ⟨first, others⟩ := List.cons.inj found
          rw [List.map_cons, List.map_cons, grows index node first, ih others]

/-- The later layout has the old entries under their numbers, and new ones of such nodes. -/
structure Adds (Holds : Node → Prop) (layout later : Layout) : Prop where
  exprs : ∀ index e, layout.expr? index = some e → later.expr? index = some e
  stmts : ∀ index s, layout.stmt? index = some s → later.stmt? index = some s
  linked : layout.Linked → later.Linked
  newExprs : ∀ entry ∈ later.exprs, entry ∈ layout.exprs ∨ Holds (.expr entry.node)
  newStmts : ∀ entry ∈ later.stmts, entry ∈ layout.stmts ∨ Holds (.stmt entry.node)

variable {Holds : Node → Prop} {layout later last : Layout}

theorem Adds.refl (layout : Layout) : Adds Holds layout layout :=
  ⟨fun _ _ found => found, fun _ _ found => found, id, fun _ old => .inl old, fun _ old => .inl old⟩

theorem Adds.trans (first : Adds Holds layout later) (second : Adds Holds later last) :
    Adds Holds layout last where
  exprs index e found := second.exprs index e (first.exprs index e found)
  stmts index s found := second.stmts index s (first.stmts index s found)
  linked linked := second.linked (first.linked linked)
  newExprs entry member := (second.newExprs entry member).elim (first.newExprs entry) .inr
  newStmts entry member := (second.newStmts entry member).elim (first.newStmts entry) .inr

theorem getElem?_push_of_some {α β : Type} {entries : Array α} {entry : α} {node : α → β}
    {index : Nat} {value : β} (found : entries[index]?.map node = some value) :
    (entries.push entry)[index]?.map node = some value := by
  obtain ⟨old, inside, same⟩ := Option.map_eq_some_iff.mp found
  obtain ⟨bound, -⟩ := Array.getElem?_eq_some_iff.mp inside
  rw [Array.getElem?_push_lt bound, ← same]
  rw [Array.getElem?_eq_getElem bound] at inside
  rw [Option.map_some, Option.some.inj inside]

theorem addExpr_adds {e : Expr} {parts : List Nat} (holds : Holds (.expr e))
    (found : parts.map layout.expr? = e.children.map some) :
    Adds Holds layout (layout.addExpr e parts).2 ∧
      (layout.addExpr e parts).2.expr? (layout.addExpr e parts).1 = some e := by
  have grows (index : Nat) (old : Expr) (inside : layout.expr? index = some old) :
      (layout.addExpr e parts).2.expr? index = some old := getElem?_push_of_some inside
  refine ⟨⟨grows, fun _ _ inside => inside, fun linked => ⟨?_, ?_⟩, ?_, fun _ old => .inl old⟩, ?_⟩
  · intro entry member
    rcases Array.mem_push.mp member with old | rfl
    · exact map_grows grows (linked.exprs entry old)
    · exact map_grows grows found
  · intro entry member
    exact ⟨map_grows grows (linked.stmts entry member).1, (linked.stmts entry member).2⟩
  · intro entry member
    rcases Array.mem_push.mp member with old | rfl
    · exact .inl old
    · exact .inr holds
  · simp [addExpr, expr?]

theorem addStmt_adds {s : Stmt} {exprs parts : List Nat} (holds : Holds (.stmt s))
    (foundExprs : exprs.map layout.expr? = s.exprs.map some)
    (found : parts.map layout.stmt? = s.children.map some) :
    Adds Holds layout (layout.addStmt s exprs parts).2 ∧
      (layout.addStmt s exprs parts).2.stmt? (layout.addStmt s exprs parts).1 = some s := by
  have grows (index : Nat) (old : Stmt) (inside : layout.stmt? index = some old) :
      (layout.addStmt s exprs parts).2.stmt? index = some old := getElem?_push_of_some inside
  refine ⟨⟨fun _ _ inside => inside, grows, fun linked => ⟨linked.exprs, ?_⟩,
    fun _ old => .inl old, ?_⟩, ?_⟩
  · intro entry member
    rcases Array.mem_push.mp member with old | rfl
    · exact ⟨(linked.stmts entry old).1, map_grows grows (linked.stmts entry old).2⟩
    · exact ⟨foundExprs, map_grows grows found⟩
  · intro entry member
    rcases Array.mem_push.mp member with old | rfl
    · exact .inl old
    · exact .inr holds
  · simp [addStmt, stmt?]

theorem addStmt_leaf {s : Stmt} {exprs : List Nat} (holds : Holds (.stmt s))
    (foundExprs : exprs.map layout.expr? = s.exprs.map some) (childless : s.children = []) :
    Adds Holds layout (layout.addStmt s exprs []).2 ∧
      (layout.addStmt s exprs []).2.stmt? (layout.addStmt s exprs []).1 = some s :=
  addStmt_adds holds foundExprs (by rw [childless, List.map_nil, List.map_nil])

end Layout

/-- What holds of a node holds of its children. -/
def Node.HandsDown (Holds : Node → Prop) : Prop :=
  ∀ node, Holds node → ∀ child ∈ node.children, Holds child

section

variable {Holds : Node → Prop}

theorem Expr.place_adds (down : Node.HandsDown Holds) (layout : Layout) (e : Expr)
    (holds : Holds (.expr e)) :
    layout.Adds Holds (e.place layout).2 ∧
      (e.place layout).2.expr? (e.place layout).1 = some e := by
  have inside {part : Expr} (member : part ∈ e.children) : Holds (.expr part) :=
    down _ holds _ (List.mem_map_of_mem member)
  induction e generalizing layout with
  | number | bool | typeWord | name => exact Layout.addExpr_adds holds rfl
  | paren location part ih | sign location op part ih | power location part exponent ih =>
      have partHolds := inside List.mem_cons_self
      obtain ⟨adds, found⟩ := ih layout partHolds fun member =>
        down _ partHolds _ (List.mem_map_of_mem member)
      have names : [(part.place layout).1].map (part.place layout).2.expr? = [part].map some := by
        rw [List.map_singleton, found, List.map_singleton]
      obtain ⟨addsWhole, foundWhole⟩ := Layout.addExpr_adds holds names
      exact ⟨adds.trans addsWhole, foundWhole⟩
  | binary location op left right leftIh rightIh | logical location op left right leftIh rightIh
  | ascription location left right leftIh rightIh
  | conversion location left right leftIh rightIh =>
      have leftHolds := inside List.mem_cons_self
      have rightHolds := inside (List.mem_cons_of_mem left List.mem_cons_self)
      obtain ⟨leftAdds, leftFound⟩ := leftIh layout leftHolds fun member =>
        down _ leftHolds _ (List.mem_map_of_mem member)
      obtain ⟨rightAdds, rightFound⟩ := rightIh (left.place layout).2 rightHolds fun member =>
        down _ rightHolds _ (List.mem_map_of_mem member)
      have names : [(left.place layout).1, (right.place (left.place layout).2).1].map
          (right.place (left.place layout).2).2.expr? = [left, right].map some := by
        simp [rightAdds.exprs _ _ leftFound, rightFound]
      obtain ⟨addsWhole, foundWhole⟩ := Layout.addExpr_adds holds names
      exact ⟨(leftAdds.trans rightAdds).trans addsWhole, foundWhole⟩

theorem Expr.placeOptional_adds (down : Node.HandsDown Holds) (layout : Layout)
    (e? : Option Expr) (holds : ∀ e ∈ e?, Holds (.expr e)) :
    layout.Adds Holds (placeOptional layout e?).2 ∧
      (placeOptional layout e?).1.map (placeOptional layout e?).2.expr? = e?.toList.map some := by
  cases e? with
  | none => exact ⟨.refl layout, rfl⟩
  | some e =>
      obtain ⟨adds, found⟩ := e.place_adds down layout (holds e rfl)
      exact ⟨adds, by simp [placeOptional, found]⟩

mutual

theorem Stmt.place_adds (down : Node.HandsDown Holds) (layout : Layout) (s : Stmt)
    (holds : Holds (.stmt s)) :
    layout.Adds Holds (s.place layout).2 ∧
      (s.place layout).2.stmt? (s.place layout).1 = some s := by
  have exprHolds {e : Expr} (member : e ∈ s.exprs) : Holds (.expr e) :=
    down _ holds _ (List.mem_append_left _ (List.mem_map_of_mem member))
  have stmtHolds {part : Stmt} (member : part ∈ s.children) : Holds (.stmt part) :=
    down _ holds _ (List.mem_append_right _ (List.mem_map_of_mem member))
  match s with
  | .empty _ => exact Layout.addStmt_adds holds rfl rfl
  | .block location body =>
      obtain ⟨adds, found⟩ := Stmt.placeAll_adds down layout body fun part member => stmtHolds member
      have noExprs : ([] : List Nat).map (placeAll layout body).2.expr? =
          (block location body).exprs.map some := rfl
      obtain ⟨addsWhole, foundWhole⟩ := Layout.addStmt_adds holds noExprs found
      exact ⟨adds.trans addsWhole, foundWhole⟩
  | .branch location condition yes none =>
      obtain ⟨testAdds, testFound⟩ := condition.place_adds down layout (exprHolds List.mem_cons_self)
      obtain ⟨yesAdds, yesFound⟩ :=
        Stmt.place_adds down (condition.place layout).2 yes (stmtHolds List.mem_cons_self)
      have tests : [(condition.place layout).1].map (yes.place (condition.place layout).2).2.expr? =
          (branch location condition yes none).exprs.map some := by
        simp [yesAdds.exprs _ _ testFound, exprs]
      have branches : [(yes.place (condition.place layout).2).1].map
          (yes.place (condition.place layout).2).2.stmt? =
            (branch location condition yes none).children.map some := by
        simp [yesFound, children]
      obtain ⟨addsWhole, foundWhole⟩ := Layout.addStmt_adds holds tests branches
      exact ⟨(testAdds.trans yesAdds).trans addsWhole, foundWhole⟩
  | .branch location condition yes (some no) =>
      obtain ⟨testAdds, testFound⟩ := condition.place_adds down layout (exprHolds List.mem_cons_self)
      obtain ⟨yesAdds, yesFound⟩ :=
        Stmt.place_adds down (condition.place layout).2 yes (stmtHolds List.mem_cons_self)
      obtain ⟨noAdds, noFound⟩ := Stmt.place_adds down (yes.place (condition.place layout).2).2 no
        (stmtHolds (List.mem_cons_of_mem yes List.mem_cons_self))
      have tests : [(condition.place layout).1].map
          (no.place (yes.place (condition.place layout).2).2).2.expr? =
            (branch location condition yes (some no)).exprs.map some := by
        simp [noAdds.exprs _ _ (yesAdds.exprs _ _ testFound), exprs]
      have branches : [(yes.place (condition.place layout).2).1,
          (no.place (yes.place (condition.place layout).2).2).1].map
            (no.place (yes.place (condition.place layout).2).2).2.stmt? =
              (branch location condition yes (some no)).children.map some := by
        simp [noAdds.stmts _ _ yesFound, noFound, children]
      obtain ⟨addsWhole, foundWhole⟩ := Layout.addStmt_adds holds tests branches
      exact ⟨((testAdds.trans yesAdds).trans noAdds).trans addsWhole, foundWhole⟩
  | .loop location condition body =>
      obtain ⟨testAdds, testFound⟩ := condition.place_adds down layout (exprHolds List.mem_cons_self)
      obtain ⟨bodyAdds, bodyFound⟩ :=
        Stmt.place_adds down (condition.place layout).2 body (stmtHolds List.mem_cons_self)
      have tests : [(condition.place layout).1].map (body.place (condition.place layout).2).2.expr? =
          (loop location condition body).exprs.map some := by
        simp [bodyAdds.exprs _ _ testFound, exprs]
      have bodies : [(body.place (condition.place layout).2).1].map
          (body.place (condition.place layout).2).2.stmt? =
            (loop location condition body).children.map some := by
        simp [bodyFound, children]
      obtain ⟨addsWhole, foundWhole⟩ := Layout.addStmt_adds holds tests bodies
      exact ⟨(testAdds.trans bodyAdds).trans addsWhole, foundWhole⟩
  | .var location name declared initial =>
      obtain ⟨declaredAdds, declaredFound⟩ := Expr.placeOptional_adds down layout declared
        fun e member => exprHolds (List.mem_append_left _ (Option.mem_toList.mpr member))
      obtain ⟨initialAdds, initialFound⟩ := Expr.placeOptional_adds down
        (Expr.placeOptional layout declared).2 initial
        fun e member => exprHolds (List.mem_append_right _ (Option.mem_toList.mpr member))
      have found : ((Expr.placeOptional layout declared).1 ++
          (Expr.placeOptional (Expr.placeOptional layout declared).2 initial).1).map
            (Expr.placeOptional (Expr.placeOptional layout declared).2 initial).2.expr? =
              (var location name declared initial).exprs.map some := by
        rw [List.map_append, initialFound, Layout.map_grows initialAdds.exprs declaredFound, exprs,
          List.map_append]
      obtain ⟨addsWhole, foundWhole⟩ := Layout.addStmt_leaf holds found rfl
      exact ⟨(declaredAdds.trans initialAdds).trans addsWhole, foundWhole⟩
  | .unit location name definition =>
      obtain ⟨adds, found⟩ := Expr.placeOptional_adds down layout definition
        fun e member => exprHolds (Option.mem_toList.mpr member)
      obtain ⟨addsWhole, foundWhole⟩ := Layout.addStmt_leaf holds found rfl
      exact ⟨adds.trans addsWhole, foundWhole⟩
  | .assign _ _ e | .constant _ _ e | .expr _ e =>
      obtain ⟨adds, found⟩ := e.place_adds down layout (exprHolds List.mem_cons_self)
      have names : [(e.place layout).1].map (e.place layout).2.expr? = [e].map some := by
        rw [List.map_singleton, found, List.map_singleton]
      obtain ⟨addsWhole, foundWhole⟩ := Layout.addStmt_leaf holds names rfl
      exact ⟨adds.trans addsWhole, foundWhole⟩

theorem Stmt.placeAll_adds (down : Node.HandsDown Holds) (layout : Layout) (body : List Stmt)
    (holds : ∀ s ∈ body, Holds (.stmt s)) :
    layout.Adds Holds (Stmt.placeAll layout body).2 ∧
      (Stmt.placeAll layout body).1.map (Stmt.placeAll layout body).2.stmt? = body.map some := by
  match body with
  | [] => exact ⟨.refl layout, rfl⟩
  | first :: rest =>
      obtain ⟨firstAdds, firstFound⟩ :=
        Stmt.place_adds down layout first (holds first List.mem_cons_self)
      obtain ⟨restAdds, restFound⟩ := Stmt.placeAll_adds down (first.place layout).2 rest
        fun s member => holds s (List.mem_cons_of_mem first member)
      refine ⟨firstAdds.trans restAdds, ?_⟩
      rw [Stmt.placeAll, List.map_cons, List.map_cons, restFound,
        restAdds.stmts _ _ firstFound]

end

end

namespace Layout

theorem ofProgram_adds {Holds : Node → Prop} {program : List Stmt}
    (down : Node.HandsDown Holds) (holds : ∀ s ∈ program, Holds (.stmt s)) :
    (ofProgram program).2.Linked ∧
      (ofProgram program).1.map (ofProgram program).2.stmt? = program.map some ∧
        (∀ entry ∈ (ofProgram program).2.exprs, Holds (.expr entry.node)) ∧
          ∀ entry ∈ (ofProgram program).2.stmts, Holds (.stmt entry.node) := by
  obtain ⟨adds, found⟩ := Stmt.placeAll_adds down empty program holds
  refine ⟨adds.linked ⟨nofun, nofun⟩, found, fun entry member => ?_, fun entry member => ?_⟩
  · exact (adds.newExprs entry member).resolve_left nofun
  · exact (adds.newStmts entry member).resolve_left nofun

end Layout

end Quantities
