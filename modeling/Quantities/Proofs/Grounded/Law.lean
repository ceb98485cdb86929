import Quantities.Proofs.Kind.Grounded
import Quantities.Proofs.Soundness.Points

/-!
The law of a program: what each unit that is declared in it stands for in base units. If no unit is
declared twice, then all types that the check comes to are grounded in the law.
-/

namespace Quantities

namespace Dimensions

open Classical in
/-- What the dimensions count, if their exponents are small whole numbers. -/
noncomputable def vector (dims : Dimensions) : String →₀ ℤ :=
  if counted : ∃ counts, dims.Counts counts then counted.choose else 0

theorem Counts.vector {dims : Dimensions} {counts : String →₀ ℤ} (counted : dims.Counts counts) :
    dims.vector = counts := by
  have some : ∃ counts, dims.Counts counts := ⟨counts, counted⟩
  rw [Dimensions.vector, dif_pos some]
  exact some.choose_spec.vector_eq counted

end Dimensions

/-- The law by which each unit stands for its base dimensions. -/
noncomputable def Law.of (units : List (String × Dimensions)) : Law := fun label =>
  ((units.lookup label).map Dimensions.vector).getD 0

theorem Law.of_eq {units : List (String × Dimensions)} (distinct : (units.map (·.1)).Nodup)
    {label : String} {base : Dimensions} (member : (label, base) ∈ units) :
    Law.of units label = base.vector := by
  rw [Law.of, Dimensions.lookup_of_mem distinct member]
  rfl

namespace Stmt

/-- The label of the unit that a statement declares. -/
def unitName? : Stmt → Option String
  | .unit _ name _ => some name
  | _ => none

mutual

/-- The labels of the units that are declared in a statement. -/
def unitNames : Stmt → List String
  | .unit _ name _ => [name]
  | .block _ body => unitNamesAll body
  | .branch _ _ yes none => yes.unitNames
  | .branch _ _ yes (some no) => yes.unitNames ++ no.unitNames
  | .loop _ _ body => body.unitNames
  | .empty _ | .var .. | .assign .. | .constant .. | .expr .. => []

def unitNamesAll : List Stmt → List String
  | [] => []
  | first :: rest => first.unitNames ++ unitNamesAll rest

end

mutual

theorem filterMap_points (stmt : Stmt) (context : Context) :
    (stmt.points context).filterMap (·.1.unitName?) = stmt.unitNames := by
  cases stmt with
  | block location body =>
      rw [points, List.filterMap_cons_none rfl, unitNames]
      exact filterMap_pointsAll body context
  | branch location condition yes no =>
      cases no with
      | none =>
          rw [points, List.filterMap_cons_none rfl, unitNames]
          exact filterMap_points yes context
      | some no =>
          rw [points, List.filterMap_cons_none rfl, List.filterMap_append, filterMap_points yes,
            filterMap_points no, unitNames]
  | loop location condition body =>
      rw [points, List.filterMap_cons_none rfl, unitNames]
      exact filterMap_points body context
  | _ =>
      rw [points, unitNames]
      rfl

theorem filterMap_pointsAll (body : List Stmt) (context : Context) :
    (pointsAll body context).filterMap (·.1.unitName?) = unitNamesAll body := by
  cases body with
  | nil => rfl
  | cons first rest =>
      rw [pointsAll, List.filterMap_append, filterMap_points first, filterMap_pointsAll rest,
        unitNamesAll]

end

/-- The unit that a statement declares where it is checked, with its base dimensions. -/
def unitBase? (point : Stmt × Context) : Option (String × Dimensions) :=
  match point.1 with
  | .unit _ name definition =>
    match Typing.unitType point.2.getType? name definition with
    | .ok type => type.measure?.map fun unit => (name, unit.base)
    | .error _ => none
  | _ => none

theorem unitName?_of_unitBase? {point : Stmt × Context} {entry : String × Dimensions}
    (found : unitBase? point = some entry) : point.1.unitName? = some entry.1 := by
  obtain ⟨stmt, context⟩ := point
  unfold unitBase? at found
  split at found
  next declared =>
    split at found
    next type accepted =>
      obtain ⟨unit, -, rfl⟩ := Option.map_eq_some_iff.mp found
      rw [declared]
      rfl
    next => cases found
  next => cases found

/-- The units that the check of a program declares, with their base dimensions. -/
def units (program : List Stmt) (context : Context) : List (String × Dimensions) :=
  (pointsAll program context).filterMap unitBase?

theorem units_sublist (program : List Stmt) (context : Context) :
    ((units program context).map (·.1)).Sublist (unitNamesAll program) := by
  rw [units, ← filterMap_pointsAll program context]
  generalize pointsAll program context = points
  induction points with
  | nil => exact .slnil
  | cons first rest ih =>
      cases based : unitBase? first with
      | none =>
          simp only [List.filterMap_cons, based]
          split
          next => exact ih
          next => exact ih.cons _
      | some entry =>
          simp only [List.filterMap_cons, based, unitName?_of_unitBase? based]
          exact ih.cons_cons _

end Stmt

/-- The types of names are grounded in a law. -/
structure Context.Grounded (law : Law) (context : Context) : Prop where
  checkable : context.Checkable
  names : ∀ name type, context.getType? name = some type → type.kind.Grounded law

theorem Context.Grounded.addType {law : Law} {context : Context} (grounded : context.Grounded law)
    {type : Value} (zeroFree : type.kind.ZeroFree) (typeGrounded : type.kind.Grounded law)
    (name : String) : (context.addType name type).Grounded law := by
  refine ⟨grounded.checkable.addType zeroFree name, ?_⟩
  intro other bound found
  rw [grounded.checkable.bounded.getType?_addType] at found
  split at found
  next =>
    cases found
    exact typeGrounded
  next => exact grounded.names other bound found

namespace Stmt

variable {law : Law} {context : Context}

/-- The exponents that a statement comes upon are small whole numbers, and the unit that it declares
stands for its base dimensions. -/
structure Fits (law : Law) (point : Stmt × Context) : Prop where
  whole : ∀ e ∈ point.1.expressions, e.WholeExponents point.2.getType?
  lawful : ∀ label base, unitBase? point = some (label, base) → law label = base.vector

theorem unitType_grounded (grounded : context.Grounded law) {location : Location} {name : String}
    {definition : Option Expr} (fits : Fits law (unit location name definition, context))
    {type : Value} (accepted : Typing.unitType context.getType? name definition = .ok type) :
    type.kind.Grounded law := by
  have lawful (unit : Measure) (found : type.measure? = some unit) :
      law name = unit.base.vector := by
    apply fits.lawful
    simp [unitBase?, accepted, found]
  cases definition with
  | none =>
      cases accepted
      have counts := Dimensions.Counts.single name
      have law := lawful _ rfl
      rw [show (Measure.fresh name).base.vector = _ from counts.vector] at law
      exact Dimensions.Grounded.single (law ▸ counts)
  | some e =>
      obtain ⟨given, inferred, accepted⟩ := Result.bind_eq_ok.mp accepted
      have givenGrounded := Expr.infer_grounded grounded.names
        (fits.whole e (List.mem_singleton_self e)) inferred
      split at accepted
      next worth found =>
        cases accepted
        have worthGrounded : worth.dims.Grounded law worth.base := by
          rcases Value.definedUnit?_kind found with number | unit
          · rwa [number] at givenGrounded
          · rwa [unit] at givenGrounded
        obtain ⟨vector, -, counts⟩ := worthGrounded
        have law := lawful _ rfl
        rw [show (Measure.derived name worth).base.vector = _ from counts.vector] at law
        exact Dimensions.Grounded.single (law ▸ counts)
      next => split at accepted <;> cases accepted

theorem check_grounded (stmt : Stmt) (grounded : context.Grounded law)
    (fits : Fits law (stmt, context)) : (stmt.check context).context.Grounded law := by
  have checkable := grounded.checkable
  have bound {result : Except Fault Value} {add : Value → Context} {type : Value}
      (accepted : (Step.bind context result add).result = .ok (some type)) : result = .ok type := by
    cases result <;> cases accepted
    rfl
  have inferred {e : Expr} {type : Value} (member : e ∈ stmt.expressions)
      (accepted : e.infer context.getType? = .ok type) : type.kind.Grounded law :=
    Expr.infer_grounded grounded.names (fits.whole e member) accepted
  rw [check_context]
  unfold Context.declare
  split
  next name type declares accepted =>
    refine grounded.addType (check_zeroFree checkable declares accepted) ?_ name
    cases stmt with
    | var location name declared initial =>
        cases Typing.variableType_eq_ok (bound accepted) with
        | both constructed declares initialType subtype =>
            exact (inferred (by simp [expressions]) constructed).instance?
              (Value.instanceType?_eq_some declares).1
        | declared constructed declares =>
            exact (inferred (by simp [expressions]) constructed).instance?
              (Value.instanceType?_eq_some declares).1
        | initial initialType =>
            rw [Value.kind_abstractType]
            exact inferred (by simp [expressions]) initialType
    | unit location name definition => exact unitType_grounded grounded fits (bound accepted)
    | constant location name rhs => exact inferred (by simp [expressions]) (bound accepted)
    | _ => cases declares
  next => exact grounded

end Stmt

end Quantities
