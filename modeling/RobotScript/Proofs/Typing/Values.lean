import RobotScript.Native
import RobotScript.Proofs.Typing.Judgement

/-! # Values of their types

A value is well formed if every item of a list has the type that the list gives
its items. Widening a well-formed value to a type that accepts its own type gives
a well-formed value of that type. -/
set_option autoImplicit false

namespace RobotScript

namespace Value

/-- The items of a list have the list's element type. -/
def WellFormed : Value → Prop
  | .list element items => ∀ item ∈ items, item.ty = .scalar element
  | _ => True

/-- A well-formed value of exactly this type. -/
structure Is (value : Value) (ty : Ty) : Prop where
  ty : value.ty = ty
  wellFormed : value.WellFormed

theorem int_is (number : Int64) : (int number).Is .int := ⟨rfl, trivial⟩

theorem double_is (number : Float) : (double number).Is .double := ⟨rfl, trivial⟩

theorem bool_is (truth : Bool) : (bool truth).Is .bool := ⟨rfl, trivial⟩

theorem string_is (characters : String) : (string characters).Is .string := ⟨rfl, trivial⟩

theorem void_is : void.Is .void := ⟨rfl, trivial⟩

/-- Only lists can be ill formed, and lists are no items. -/
theorem wellFormed_of_scalar {value : Value} (scalar : value.ty.isList = false) :
    value.WellFormed := by
  cases value with
  | list element items => cases scalar
  | int number => trivial
  | double number => trivial
  | bool truth => trivial
  | string characters => trivial
  | void => trivial

/-! ## Values of a known type -/

theorem Is.int {value : Value} (typed : value.Is .int) : ∃ number, value = .int number := by
  cases value with
  | int number => exact ⟨number, rfl⟩
  | double _ | bool _ | string _ | list _ _ | void => cases typed.ty

theorem Is.double {value : Value} (typed : value.Is .double) :
    ∃ number, value = .double number := by
  cases value with
  | double number => exact ⟨number, rfl⟩
  | int _ | bool _ | string _ | list _ _ | void => cases typed.ty

theorem Is.bool {value : Value} (typed : value.Is .bool) : ∃ truth, value = .bool truth := by
  cases value with
  | bool truth => exact ⟨truth, rfl⟩
  | int _ | double _ | string _ | list _ _ | void => cases typed.ty

theorem Is.string {value : Value} (typed : value.Is .string) :
    ∃ characters, value = .string characters := by
  cases value with
  | string characters => exact ⟨characters, rfl⟩
  | int _ | double _ | bool _ | list _ _ | void => cases typed.ty

theorem Is.list {value : Value} {ty : Ty} (typed : value.Is ty) (isList : ty.isList = true) :
    ∃ items, value = .list ty.primitive items ∧ ∀ item ∈ items, item.Is ty.element := by
  cases value with
  | list element items =>
    obtain ⟨rfl, wellFormed⟩ := typed
    refine ⟨items, rfl, ?_⟩
    intro item member
    have itemTy : item.ty = .scalar element := wellFormed item member
    exact ⟨itemTy, wellFormed_of_scalar (by rw [itemTy]; rfl)⟩
  | int _ | double _ | bool _ | string _ | void =>
    rw [← typed.ty] at isList
    cases isList

/-! ## Widening -/

theorem widenTo_self (value : Value) : value.widenTo value.ty = value := by
  cases value with
  | list element items => cases element <;> rfl
  | int _ | double _ | bool _ | string _ | void => rfl

theorem Is.widenTo_self {value : Value} {ty : Ty} (typed : value.Is ty) :
    value.widenTo ty = value := by
  rw [← typed.ty, Value.widenTo_self]

theorem widenTo_wellFormed {value : Value} (wellFormed : value.WellFormed) (target : Ty) :
    (value.widenTo target).WellFormed := by
  cases value with
  | int number =>
    by_cases toDouble : target = .double <;> simp [Value.widenTo, toDouble, WellFormed]
  | list element items =>
    cases element with
    | int =>
      by_cases toDoubles : target = .listOf .double
      · simp only [Value.widenTo, if_pos toDoubles, WellFormed]
        intro item member
        obtain ⟨before, beforeMember, rfl⟩ := List.mem_map.mp member
        have isInt : before.ty = .int := wellFormed before beforeMember
        obtain ⟨number, rfl⟩ := Is.int ⟨isInt, wellFormed_of_scalar (by rw [isInt]; rfl)⟩
        rfl
      · simpa only [Value.widenTo, if_neg toDoubles] using wellFormed
    | double | bool | string | void => exact wellFormed
  | double _ | bool _ | string _ | void => trivial

theorem accepts_cases {target source : Ty} (accepted : target.accepts source = true) :
    target = source ∨ (target = .double ∧ source = .int) := by
  simp only [Ty.accepts, Bool.and_eq_true, Bool.or_eq_true, decide_eq_true_eq] at accepted
  exact accepted.2

theorem Is.widenTo {value : Value} {source target : Ty} (typed : value.Is source)
    (accepted : target.accepts source = true) : (value.widenTo target).Is target := by
  rcases accepts_cases accepted with rfl | ⟨rfl, rfl⟩
  · rw [typed.widenTo_self]
    exact typed
  · obtain ⟨number, rfl⟩ := typed.int
    exact double_is _

theorem default_is (ty : Ty) : (default ty).Is ty := by
  obtain ⟨primitive, isList⟩ := ty
  cases isList with
  | true =>
    refine ⟨rfl, ?_⟩
    intro item member
    cases member
  | false => cases primitive <;> exact ⟨rfl, trivial⟩

end Value

/-! ## Arguments and signatures -/

/-- Values that a function with these parameters may get. -/
def Parameters.Admits (parameters : Parameters) (values : List Value) : Prop :=
  match parameters with
  | .exactly types => List.Forall₂ (fun ty (value : Value) => value.Is ty) types values
  | .anyNumber => ∀ value ∈ values, value.WellFormed ∧ value.ty ≠ .void

end RobotScript
