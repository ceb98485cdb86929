import Quantities.Evaluation.Statement
import Quantities.Proofs.Soundness.Agreement
import Quantities.Typing.Statement

/-!
Single statements, without the statements inside them: what a statement that was checked comes to
when it runs, and what is to blame when it fails.
-/

namespace Quantities

namespace Stmt

/-- The expressions of a statement itself, without those of the statements in it. -/
def expressions : Stmt → List Expr
  | .empty _ | .block _ _ => []
  | .branch _ condition _ _ | .loop _ condition _ => [condition]
  | .var _ _ declared initial => declared.toList ++ initial.toList
  | .unit _ _ definition => definition.toList
  | .assign _ _ rhs | .constant _ _ rhs => [rhs]
  | .expr _ e => [e]

/-- The expression in which a statement itself needs a known value. -/
def needs? : Stmt → Option Expr
  | .branch _ condition _ _ | .loop _ condition _ => some condition
  | .unit _ _ definition => definition
  | .empty _ | .block _ _ | .var .. | .assign .. | .constant .. | .expr .. => none

/-- Why a statement that was checked may still fail: a node in one of its expressions, or the
statement itself, came upon a variable without a value, or a value is in a unit of the right
dimensions that is not worth what the unit of the variable is. -/
inductive Blames (values : String → Option Value) (fault : Fault) : Stmt → Prop where
  | operand {stmt : Stmt} {e : Expr}
      (member : e ∈ stmt.expressions)
      (fails : e.FailsOnHole values fault) :
      Blames values fault stmt
  | needed {stmt : Stmt} {e : Expr} {v : Value}
      (needs : stmt.needs? = some e)
      (evaluated : e.eval values = .ok v)
      (unset : v.isUnset = true) :
      Blames values fault stmt
  | initial {location : Location} {name : String} {declared initial : Expr}
      {constructor type v : Value}
      (constructed : declared.eval values = .ok constructor)
      (declares : constructor.instanceType? = some type)
      (evaluated : initial.eval values = .ok v)
      (differ : v.FactorsDiffer type) :
      Blames values fault (.var location name (some declared) (some initial))
  | assigned {location : Location} {name : String} {rhs : Expr} {present v : Value}
      (bound : values name = some present)
      (evaluated : rhs.eval values = .ok v)
      (differ : v.FactorsDiffer present) :
      Blames values fault (.assign location name rhs)

/-- What a statement computes is a value of the kind, or it fails for one of these reasons. -/
def Comes (values : String → Option Value) (kind : Kind) (stmt : Stmt)
    (result : Except Fault Value) : Prop :=
  (∃ v, result = .ok v ∧ v.HasKind kind) ∨
    ∃ fault, result = .error fault ∧ stmt.Blames values fault

end Stmt

namespace Value

theorem instanceType?_eq_some {v type : Value} (found : v.instanceType? = some type) :
    v.kind.instance? = some type.kind ∧
      (type = .booleanType ∨ ∃ unit, type = .quantityType unit) := by
  induction v with
  | hole name type ih => exact ih found
  | booleanConstructor =>
      cases found
      exact ⟨rfl, .inl rfl⟩
  | unitConstructor unit =>
      cases found
      exact ⟨rfl, .inr ⟨unit, rfl⟩⟩
  | _ => cases found

theorem instanceType?_of_hasKind {v : Value} {kind instanceKind : Kind} (hasKind : v.HasKind kind)
    (builds : kind.instance? = some instanceKind) :
    ∃ type, v.instanceType? = some type ∧ type.kind = instanceKind := by
  obtain ⟨known | unset, rfl⟩ := hasKind
  · cases v with
    | booleanConstructor | unitConstructor unit =>
        cases builds
        exact ⟨_, rfl, rfl⟩
    | boolean truth | quantity q => cases builds
    | _ => cases known
  · cases v with
    | hole name type =>
        cases type with
        | booleanType | quantityType unit => cases builds
        | _ => cases unset
    | _ => cases unset

theorem definedUnit?_kind {v : Value} {worth : Measure} (found : v.definedUnit? = some worth) :
    v.kind = .number worth.dims worth.base ∨ v.kind = .unit worth.dims worth.base := by
  cases v with
  | quantity q =>
      cases found
      exact .inl rfl
  | unitConstructor unit =>
      cases found
      exact .inr rfl
  | _ => cases found

/-- A value of the kind of a unit definition defines a unit, unless it is the hole of a variable. -/
theorem definedUnit?_of_hasKind {v : Value} {kind : Kind} {dims base : Dimensions}
    (hasKind : v.HasKind kind) (defines : kind = .number dims base ∨ kind = .unit dims base) :
    (∃ worth, v.definedUnit? = some worth ∧ worth.base = base) ∨
      v.isUnset = true ∧ v.definedUnit? = none := by
  obtain ⟨known | unset, rfl⟩ := hasKind
  · cases v with
    | quantity q =>
        rcases defines with same | same
        · injection same with dims base
          exact .inl ⟨_, rfl, base⟩
        · cases same
    | unitConstructor unit =>
        rcases defines with same | same
        · cases same
        · injection same with dims base
          exact .inl ⟨_, rfl, base⟩
    | boolean truth | booleanConstructor => rcases defines with same | same <;> cases same
    | _ => cases known
  · obtain ⟨name, type, rfl⟩ := hole_of_isUnset unset
    exact .inr ⟨unset, rfl⟩

end Value

section

variable {types values : String → Option Value}

/-- The type of a variable from what its declaration has. -/
inductive Typing.Declares (types : String → Option Value) :
    Option Expr → Option Expr → Value → Prop where
  | both {declared initial : Expr} {constructor given type : Value}
      (constructed : declared.infer types = .ok constructor)
      (declares : constructor.instanceType? = some type)
      (inferred : initial.infer types = .ok given)
      (subtype : given.isSubtypeOf type = true) :
      Declares types (some declared) (some initial) type
  | declared {declared : Expr} {constructor type : Value}
      (constructed : declared.infer types = .ok constructor)
      (declares : constructor.instanceType? = some type) :
      Declares types (some declared) none type
  | initial {initial : Expr} {given : Value}
      (inferred : initial.infer types = .ok given) :
      Declares types none (some initial) given.abstractType

theorem instanceType_eq_ok {location : Location} {v type : Value} :
    instanceType location v = .ok type ↔ v.instanceType? = some type := by
  unfold instanceType
  split
  next found => simp [found]
  next missing => simp [missing, refuse]

theorem Typing.variableType_eq_ok {location : Location} {declared initial : Option Expr}
    {type : Value} (accepted : variableType types location declared initial = .ok type) :
    Declares types declared initial type := by
  obtain ⟨declaredType, declaredOk, accepted⟩ := Result.bind_eq_ok.mp accepted
  obtain ⟨initialType, initialOk, accepted⟩ := Result.bind_eq_ok.mp accepted
  cases declared with
  | none =>
      cases declaredOk
      cases initial with
      | none =>
          cases initialOk
          cases accepted
      | some initial =>
          obtain ⟨given, inferred, rfl⟩ := Result.map_eq_ok.mp initialOk
          cases accepted
          exact .initial inferred
  | some declared =>
      obtain ⟨constructor, constructed, declaredOk⟩ := Result.bind_eq_ok.mp declaredOk
      obtain ⟨built, declares, result⟩ := Result.bind_eq_ok.mp declaredOk
      cases result
      cases initial with
      | none =>
          cases initialOk
          cases accepted
          exact .declared constructed (instanceType_eq_ok.mp declares)
      | some initial =>
          obtain ⟨given, inferred, rfl⟩ := Result.map_eq_ok.mp initialOk
          simp only at accepted
          split at accepted
          next subtype =>
            cases accepted
            exact .both constructed (instanceType_eq_ok.mp declares) inferred subtype
          next => cases accepted

namespace Evaluation

variable {location : Location} {name : String} {declared initial : Expr} {constructor type : Value}

theorem declaredType_eq_ok (constructed : declared.eval values = .ok constructor)
    (declares : constructor.instanceType? = some type) :
    declaredType values (some declared) = .ok (some type) :=
  Result.bind_eq_ok.mpr ⟨constructor, constructed,
    Result.bind_eq_ok.mpr ⟨type, instanceType_eq_ok.mpr declares, rfl⟩⟩

theorem variableValue_both (constructed : declared.eval values = .ok constructor)
    (declares : constructor.instanceType? = some type) :
    variableValue values location name (some declared) (some initial) = (do
      let v ← initial.eval values
      if v.isSubtypeOf type then return v else refuse location (.typeMismatch v type)) := by
  rw [variableValue, declaredType_eq_ok constructed declares, optional]
  cases initial.eval values <;> rfl

theorem variableValue_declared (constructed : declared.eval values = .ok constructor)
    (declares : constructor.instanceType? = some type) :
    variableValue values location name (some declared) none = .ok (.hole name type) := by
  rw [variableValue, declaredType_eq_ok constructed declares]
  rfl

theorem variableValue_initial (values : String → Option Value) (initial : Expr) :
    variableValue values location name none (some initial) = initial.eval values := by
  rw [variableValue, optional]
  cases initial.eval values <;> rfl

theorem variableValue_error {initial : Option Expr} {fault : Fault}
    (failed : declared.eval values = .error fault) :
    variableValue values location name (some declared) initial = .error fault := by
  rw [variableValue, declaredType, failed]
  rfl

end Evaluation

namespace Expr

theorem comes_of_infer (agree : Agree types values) {e : Expr} {type : Value}
    (accepted : e.infer types = .ok type) : e.Comes values type.kind :=
  comes agree.names (kind_infer accepted)

theorem infer_zeroFree (zeroFree : ∀ name type, types name = some type → type.kind.ZeroFree)
    {e : Expr} {type : Value} (accepted : e.infer types = .ok type) : type.kind.ZeroFree := by
  refine kind?_zeroFree ?_ (kind_infer accepted)
  intro name kind found
  obtain ⟨bound, typed, rfl⟩ := Option.map_eq_some_iff.mp found
  exact zeroFree name bound typed

end Expr

namespace Stmt

/-- For the statements that are no more than an expression and what becomes of its value. -/
theorem comes_of_expression (agree : Agree types values) (stmt : Stmt) {e : Expr} {type : Value}
    (member : e ∈ stmt.expressions) (accepted : e.infer types = .ok type) :
    stmt.Comes values type.kind (e.eval values) := by
  rcases Expr.comes_of_infer agree accepted with comes | ⟨fault, failed, fails⟩
  · exact .inl comes
  · exact .inr ⟨fault, failed, .operand member fails⟩

theorem condition_comes (agree : Agree types values) {stmt : Stmt} {condition : Expr}
    (member : condition ∈ stmt.expressions) (needs : stmt.needs? = some condition)
    (accepted : Typing.condition types condition = .ok ()) :
    (∃ truth, Evaluation.condition values condition = .ok truth) ∨
      ∃ fault, Evaluation.condition values condition = .error fault ∧ stmt.Blames values fault := by
  obtain ⟨type, inferred, boolean⟩ := Result.bind_eq_ok.mp accepted
  have isBoolean : type.isBoolean = true := by
    split at boolean
    next isBoolean => exact isBoolean
    next => cases boolean
  have comes := Expr.comes_of_infer agree inferred
  rw [Value.kind_of_isBoolean isBoolean] at comes
  rcases comes with ⟨v, evaluated, hasKind⟩ | ⟨fault, failed, fails⟩
  · rcases Expr.truth_of_boolean hasKind with ⟨truth, rfl⟩ | ⟨unset, name, type, rfl⟩
    · exact .inl ⟨truth, by rw [Evaluation.condition, evaluated]; rfl⟩
    · refine .inr ⟨⟨condition.location, .notBoolean (.hole name type)⟩, ?_,
        .needed needs evaluated unset⟩
      rw [Evaluation.condition, evaluated]
      rfl
  · refine .inr ⟨fault, ?_, .operand member fails⟩
    rw [Evaluation.condition, failed]
    rfl

theorem unit_comes (agree : Agree types values) (location : Location) {name : String}
    {definition : Option Expr} {type : Value}
    (accepted : Typing.unitType types name definition = .ok type) :
    (unit location name definition).Comes values type.kind
      (Evaluation.unitValue values name definition) := by
  cases definition with
  | none =>
      cases accepted
      exact .inl ⟨_, rfl, .inl rfl, rfl⟩
  | some e =>
      obtain ⟨given, inferred, accepted⟩ := Result.bind_eq_ok.mp accepted
      split at accepted
      next worth found =>
        cases accepted
        rcases Expr.comes_of_infer agree inferred with
          ⟨v, evaluated, hasKind⟩ | ⟨fault, failed, fails⟩
        · rcases Value.definedUnit?_of_hasKind hasKind (Value.definedUnit?_kind found) with
            ⟨actual, defined, base⟩ | ⟨unset, undefined⟩
          · refine .inl ⟨.unitConstructor (Measure.derived name actual), ?_, .inl rfl, ?_⟩
            · rw [Evaluation.unitValue, evaluated]
              simp [defined, bind, Except.bind, pure, Except.pure]
            · simp only [Value.kind, Measure.derived, base]
          · refine .inr ⟨⟨e.location, .notNumberOrUnit v⟩, ?_, .needed rfl evaluated unset⟩
            rw [Evaluation.unitValue, evaluated]
            simp [undefined, bind, Except.bind, refuse]
        · refine .inr ⟨fault, ?_, .operand (List.mem_singleton_self _) fails⟩
          rw [Evaluation.unitValue, failed]
          rfl
      next =>
        split at accepted <;> cases accepted

theorem declaredType_comes (agree : Agree types values) (stmt : Stmt) {declared : Expr}
    {constructor type : Value} (member : declared ∈ stmt.expressions)
    (constructed : declared.infer types = .ok constructor)
    (declares : constructor.instanceType? = some type) :
    (∃ actual given, declared.eval values = .ok actual ∧ actual.instanceType? = some given ∧
      given.kind = type.kind) ∨
    ∃ fault, declared.eval values = .error fault ∧ stmt.Blames values fault := by
  rcases Expr.comes_of_infer agree constructed with ⟨v, evaluated, hasKind⟩ | ⟨fault, failed, fails⟩
  · obtain ⟨given, found, sameKind⟩ :=
      Value.instanceType?_of_hasKind hasKind (Value.instanceType?_eq_some declares).1
    exact .inl ⟨v, given, evaluated, found, sameKind⟩
  · exact .inr ⟨fault, failed, .operand member fails⟩

theorem var_comes (agree : Agree types values)
    (zeroFree : ∀ name type, types name = some type → type.kind.ZeroFree)
    {location : Location} {name : String} {declared initial : Option Expr} {type : Value}
    (accepted : Typing.variableType types location declared initial = .ok type) :
    (var location name declared initial).Comes values type.kind
      (Evaluation.variableValue values location name declared initial) := by
  cases Typing.variableType_eq_ok accepted with
  | @both declared initial constructor expected _ constructed declares inferred subtype =>
      rcases declaredType_comes agree (var location name (some declared) (some initial))
        (by simp [expressions]) constructed declares with
        ⟨actual, wanted, declaredValue, found, wantedKind⟩ | ⟨fault, failed, blames⟩
      · rcases Expr.comes_of_infer agree inferred with
          ⟨v, evaluated, hasKind⟩ | ⟨fault, failed, fails⟩
        · have expectedKind := Value.kind_eq_of_isSubtypeOf (Expr.infer_zeroFree zeroFree inferred) subtype
          have selfEqual : v.kind.selfEqual = true := by
            rw [hasKind.kind_eq]
            exact Value.selfEqual_of_isSubtypeOf expectedKind subtype
          have sameKind : v.kind = wanted.kind := by rw [hasKind.kind_eq, expectedKind, wantedKind]
          have abstract : wanted.abstractType = wanted := by
            rcases (Value.instanceType?_eq_some found).2 with rfl | ⟨unit, rfl⟩ <;> rfl
          -- What is declared may be evaluated to a unit of another factor than its type has.
          have fits := Value.isSubtypeOf_or_factorsDiffer sameKind selfEqual
          rw [abstract] at fits
          by_cases subtype : v.isSubtypeOf wanted = true
          · refine .inl ⟨v, ?_, expectedKind ▸ hasKind⟩
            rw [Evaluation.variableValue_both declaredValue found, evaluated]
            exact if_pos subtype
          · refine .inr ⟨⟨location, .typeMismatch v wanted⟩, ?_,
              .initial declaredValue found evaluated (fits.resolve_left subtype)⟩
            rw [Evaluation.variableValue_both declaredValue found, evaluated]
            exact if_neg subtype
        · refine .inr ⟨fault, ?_, .operand (by simp [expressions]) fails⟩
          rw [Evaluation.variableValue_both declaredValue found, failed]
          rfl
      · exact .inr ⟨fault, Evaluation.variableValue_error failed, blames⟩
  | @declared declared constructor _ constructed declares =>
      rcases declaredType_comes agree (var location name (some declared) none)
        (by simp [expressions]) constructed declares with
        ⟨actual, wanted, declaredValue, found, wantedKind⟩ | ⟨fault, failed, blames⟩
      · have unset : (Value.hole name wanted).isUnset = true := by
          rcases (Value.instanceType?_eq_some found).2 with rfl | ⟨unit, rfl⟩ <;> rfl
        exact .inl ⟨.hole name wanted, Evaluation.variableValue_declared declaredValue found,
          .inr unset, wantedKind⟩
      · exact .inr ⟨fault, Evaluation.variableValue_error failed, blames⟩
  | @initial initial given inferred =>
      rw [Value.kind_abstractType, Evaluation.variableValue_initial]
      exact comes_of_expression agree (var location name none (some initial))
        (by simp [expressions]) inferred

theorem assignmentType_eq_ok {location : Location} {name : String} {rhs : Expr} {type : Value}
    (accepted : Typing.assignmentType types location name rhs = .ok type) :
    ∃ declared, types name = some declared ∧ rhs.infer types = .ok type ∧
      type.isSubtypeOf declared.unwrap = true := by
  unfold Typing.assignmentType at accepted
  split at accepted
  next => cases accepted
  next declared bound =>
    obtain ⟨given, inferred, accepted⟩ := Result.bind_eq_ok.mp accepted
    split at accepted
    next subtype =>
      cases accepted
      exact ⟨declared, bound, inferred, subtype⟩
    next => cases accepted

theorem assignment_kind (zeroFree : ∀ name type, types name = some type → type.kind.ZeroFree)
    {rhs : Expr} {declared type : Value} (inferred : rhs.infer types = .ok type)
    (subtype : type.isSubtypeOf declared.unwrap = true) :
    type.kind = declared.kind ∧ type.kind.selfEqual = true := by
  have sameKind := Value.kind_eq_of_isSubtypeOf (Expr.infer_zeroFree zeroFree inferred) subtype
  have selfEqual := Value.selfEqual_of_isSubtypeOf sameKind subtype
  rw [Value.kind_unwrap] at sameKind
  exact ⟨sameKind, selfEqual⟩

theorem assign_comes (agree : Agree types values)
    (zeroFree : ∀ name type, types name = some type → type.kind.ZeroFree)
    {location : Location} {name : String} {rhs : Expr} {type : Value}
    (accepted : Typing.assignmentType types location name rhs = .ok type) :
    (assign location name rhs).Comes values type.kind
      (Evaluation.assignedValue values location name rhs) := by
  obtain ⟨declared, bound, inferred, subtype⟩ := assignmentType_eq_ok accepted
  obtain ⟨declaredKind, selfEqual⟩ := assignment_kind zeroFree inferred subtype
  obtain ⟨present, found, presentKind⟩ := agree name declared bound
  rcases Expr.comes_of_infer agree inferred with ⟨v, evaluated, hasKind⟩ | ⟨fault, failed, fails⟩
  · have sameKind : v.kind = present.kind := by
      rw [hasKind.kind_eq, declaredKind, presentKind.kind_eq]
    have fits := Value.isSubtypeOf_or_factorsDiffer sameKind (hasKind.kind_eq ▸ selfEqual)
    by_cases kept : v.isSubtypeOf present.abstractType = true
    · refine .inl ⟨v, ?_, hasKind⟩
      simp [Evaluation.assignedValue, found, evaluated, kept, bind, Except.bind, pure, Except.pure]
    · refine .inr ⟨⟨location, .typeMismatch v present.abstractType⟩, ?_,
        .assigned found evaluated (fits.resolve_left kept)⟩
      simp [Evaluation.assignedValue, found, evaluated, kept, refuse, bind, Except.bind]
  · refine .inr ⟨fault, ?_, .operand (by simp [expressions]) fails⟩
    simp [Evaluation.assignedValue, found, failed, bind, Except.bind]

end Stmt

end

end Quantities
