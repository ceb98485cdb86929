import Mathlib.Data.List.Nodup
import Mathlib.Data.List.Pairwise
import Quantities.Proofs.Tree.Linked

/-!
Layouts as forests. While nodes are laid out, every entry is named once by another entry, apart from
the entries that are still pending. In the end these are the roots, and so there is one path from the
roots to each entry.
-/

namespace Quantities

/-- An entry of a layout, by its number. -/
inductive Ref where
  | expr (index : Nat)
  | stmt (index : Nat)

/-- The first entry was added before the second one. Expressions are added before the statement that
they are in. -/
def Ref.Before : Ref → Ref → Prop
  | expr index, expr later => index < later
  | stmt index, stmt later => index < later
  | expr _, stmt _ => True
  | stmt _, expr _ => False

namespace Layout

def refs (layout : Layout) : List Ref :=
  (List.range layout.exprs.size).map .expr ++ (List.range layout.stmts.size).map .stmt

/-- The entries that an entry names, in order. -/
def partsOf (layout : Layout) : Ref → List Ref
  | .expr index => (layout.exprs[index]?.toList.flatMap (·.parts)).map .expr
  | .stmt index =>
    (layout.stmts[index]?.toList.flatMap (·.exprs)).map .expr ++
      (layout.stmts[index]?.toList.flatMap (·.parts)).map .stmt

/-- Every entry is named once, by an entry that was added after it or as one that is pending. -/
structure Pending (layout : Layout) (pending : List Ref) : Prop where
  once : (layout.refs.flatMap layout.partsOf ++ pending).Perm layout.refs
  earlier : ∀ whole ∈ layout.refs, ∀ part ∈ layout.partsOf whole, part.Before whole

variable {layout : Layout} {pending rest : List Ref}

theorem mem_refs_expr {index : Nat} : .expr index ∈ layout.refs ↔ index < layout.exprs.size := by
  simp [refs]

theorem mem_refs_stmt {index : Nat} : .stmt index ∈ layout.refs ↔ index < layout.stmts.size := by
  simp [refs]

theorem mem_refs_of_part {whole part : Ref} (named : part ∈ layout.partsOf whole) :
    whole ∈ layout.refs := by
  cases whole with
  | expr index =>
      rw [mem_refs_expr]
      by_contra outside
      rw [partsOf, Array.getElem?_eq_none (Nat.le_of_not_lt outside)] at named
      cases named
  | stmt index =>
      rw [mem_refs_stmt]
      by_contra outside
      rw [partsOf, Array.getElem?_eq_none (Nat.le_of_not_lt outside)] at named
      cases named

namespace Pending

theorem empty : Layout.empty.Pending [] := ⟨.refl _, nofun⟩

theorem perm (held : layout.Pending pending) (order : pending.Perm rest) : layout.Pending rest :=
  ⟨(order.symm.append_left _).trans held.once, held.earlier⟩

theorem mem_refs (held : layout.Pending pending) {ref : Ref} (waits : ref ∈ pending) :
    ref ∈ layout.refs := held.once.mem_iff.mp (List.mem_append_right _ waits)

/-- A new entry takes its parts from those that are pending, and is pending itself. -/
theorem add {later : Layout} {ref : Ref} {parts : List Ref} (held : layout.Pending (parts ++ rest))
    (grown : later.refs.Perm (ref :: layout.refs)) (new : later.partsOf ref = parts)
    (old : ∀ whole ∈ layout.refs, later.partsOf whole = layout.partsOf whole)
    (before : ∀ part ∈ parts, part ∈ layout.refs → part.Before ref) :
    later.Pending (ref :: rest) where
  once := by
    have named : (later.refs.flatMap later.partsOf).Perm
        (parts ++ layout.refs.flatMap layout.partsOf) := by
      rw [← new, ← List.flatMap_congr old, ← List.flatMap_cons]
      exact grown.flatMap_right _
    have taken : (parts ++ layout.refs.flatMap layout.partsOf ++ rest).Perm layout.refs := by
      refine (List.perm_append_comm.append_right rest).trans ?_
      rw [List.append_assoc]
      exact held.once
    calc (later.refs.flatMap later.partsOf ++ ref :: rest).Perm
          (parts ++ layout.refs.flatMap layout.partsOf ++ ref :: rest) := named.append_right _
      List.Perm _ (ref :: (parts ++ layout.refs.flatMap layout.partsOf ++ rest)) := List.perm_middle
      List.Perm _ (ref :: layout.refs) := taken.cons ref
      List.Perm _ later.refs := grown.symm
  earlier := by
    intro whole member part named
    rcases List.mem_cons.mp (grown.mem_iff.mp member) with rfl | inside
    · rw [new] at named
      exact before part named (held.mem_refs (List.mem_append_left _ named))
    · rw [old whole inside] at named
      exact held.earlier whole inside part named

theorem addExpr {parts : List Nat} (e : Expr) (held : layout.Pending (parts.map .expr ++ rest)) :
    (layout.addExpr e parts).2.Pending (.expr (layout.addExpr e parts).1 :: rest) := by
  refine held.add ?_ ?_ ?_ ?_
  · simp only [refs, Layout.addExpr, Array.size_push, List.range_succ, List.map_append,
      List.map_singleton, List.append_assoc, List.singleton_append]
    exact List.perm_middle
  · simp [partsOf, Layout.addExpr]
  · intro whole member
    cases whole with
    | expr index =>
        rw [mem_refs_expr] at member
        rw [partsOf, partsOf, Layout.addExpr, Array.getElem?_push_lt member,
          Array.getElem?_eq_getElem member]
    | stmt index => rfl
  · intro part named inside
    obtain ⟨index, -, rfl⟩ := List.mem_map.mp named
    exact mem_refs_expr.mp inside

theorem addStmt {exprs parts : List Nat} (s : Stmt)
    (held : layout.Pending (exprs.map .expr ++ parts.map .stmt ++ rest)) :
    (layout.addStmt s exprs parts).2.Pending (.stmt (layout.addStmt s exprs parts).1 :: rest) := by
  refine held.add ?_ ?_ ?_ ?_
  · simp only [refs, Layout.addStmt, Array.size_push, List.range_succ, List.map_append,
      List.map_singleton]
    rw [← List.append_assoc]
    exact List.perm_append_singleton _ _
  · simp [partsOf, Layout.addStmt]
  · intro whole member
    cases whole with
    | expr index => rfl
    | stmt index =>
        rw [mem_refs_stmt] at member
        rw [partsOf, partsOf, Layout.addStmt, Array.getElem?_push_lt member,
          Array.getElem?_eq_getElem member]
  · intro part named inside
    rcases List.mem_append.mp named with expr | stmt
    · obtain ⟨index, -, rfl⟩ := List.mem_map.mp expr
      trivial
    · obtain ⟨index, -, rfl⟩ := List.mem_map.mp stmt
      exact mem_refs_stmt.mp inside

end Pending

end Layout

section

variable {layout : Layout} {rest : List Ref}

theorem Expr.place_pending (e : Expr) (held : layout.Pending rest) :
    (e.place layout).2.Pending (.expr (e.place layout).1 :: rest) := by
  induction e generalizing layout rest with
  | number | bool | typeWord | name => exact Layout.Pending.addExpr _ held
  | paren location part ih | sign location op part ih | power location part exponent ih =>
      exact Layout.Pending.addExpr _ (ih held)
  | binary location op left right leftIh rightIh | logical location op left right leftIh rightIh
  | ascription location left right leftIh rightIh
  | conversion location left right leftIh rightIh =>
      have both := rightIh (leftIh held)
      exact Layout.Pending.addExpr _ (both.perm (.swap _ _ rest))

theorem Expr.placeOptional_pending (e? : Option Expr) (held : layout.Pending rest) :
    (placeOptional layout e?).2.Pending ((placeOptional layout e?).1.map .expr ++ rest) := by
  cases e? with
  | none => exact held
  | some e => exact e.place_pending held

mutual

theorem Stmt.place_pending {layout : Layout} {rest : List Ref} (s : Stmt)
    (held : layout.Pending rest) :
    (s.place layout).2.Pending (.stmt (s.place layout).1 :: rest) := by
  match s with
  | .empty _ => exact Layout.Pending.addStmt _ held
  | .block _ body => exact Layout.Pending.addStmt _ (Stmt.placeAll_pending body held)
  | .branch _ condition yes none =>
      have both := Stmt.place_pending yes (condition.place_pending held)
      exact Layout.Pending.addStmt _ (both.perm (.swap _ _ rest))
  | .branch _ condition yes (some no) =>
      have test := condition.place_pending held
      have all := Stmt.place_pending no (Stmt.place_pending yes test)
      exact Layout.Pending.addStmt _ (all.perm (List.reverse_perm [_, _, _] |>.append_right rest))
  | .loop _ condition body =>
      have both := Stmt.place_pending body (condition.place_pending held)
      exact Layout.Pending.addStmt _ (both.perm (.swap _ _ rest))
  | .var _ _ declared initial =>
      have both := Expr.placeOptional_pending initial (Expr.placeOptional_pending declared held)
      refine Layout.Pending.addStmt _ (both.perm ?_)
      rw [List.map_append, List.map_nil, List.append_nil, ← List.append_assoc]
      exact List.perm_append_comm.append_right rest
  | .unit _ _ definition =>
      have held := Expr.placeOptional_pending definition held
      refine Layout.Pending.addStmt _ (held.perm ?_)
      rw [List.map_nil, List.append_nil]
      exact .refl _
  | .assign _ _ e | .constant _ _ e | .expr _ e =>
      exact Layout.Pending.addStmt _ (e.place_pending held)

theorem Stmt.placeAll_pending {layout : Layout} {rest : List Ref} (body : List Stmt)
    (held : layout.Pending rest) :
    (Stmt.placeAll layout body).2.Pending ((Stmt.placeAll layout body).1.map .stmt ++ rest) := by
  match body with
  | [] => exact held
  | first :: others =>
      exact (Stmt.placeAll_pending others (Stmt.place_pending first held)).perm List.perm_middle

end

end

namespace Layout

/-- The number of an entry in a row of all the entries. -/
def rank (layout : Layout) : Ref → Nat
  | .expr index => index
  | .stmt index => layout.exprs.size + index

variable {layout : Layout} {roots : List Ref}

namespace Pending

variable (held : layout.Pending roots)

include held

theorem inside {whole part : Ref} (named : part ∈ layout.partsOf whole) : part ∈ layout.refs :=
  held.once.mem_iff.mp (List.mem_append_left _
    (List.mem_flatMap.mpr ⟨whole, mem_refs_of_part named, named⟩))

end Pending

end Layout

end Quantities
