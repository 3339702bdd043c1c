import PredictiveParsing.Tree.Shape

/-!
# Values without positions

A discarded value keeps its position in the body, so that it can be asked for. Where only the
written form matters all discarded values may as well have the same key, the one that stands for
them in print.

## Main definitions

* `Value.withoutPositions`: a value with the written forms of its keys

## Main results

* `Value.describe_withoutPositions`: the written form of a value is the same
* `Shapes.withoutPositions_buildShape`: how the values of productions are made of such values
* `Shapes.exists_shape`: every production of a grammar has a shape
-/

namespace PredictiveParsing

/-- The key that stands for a key in print. -/
def FieldKey.printed (key : FieldKey) : FieldKey := .named key.describe

namespace Value

mutual

/-- **A value without positions**: every key is the one that stands for it in print. -/
def withoutPositions : Value → Value
  | empty => .empty
  | token text => .token text
  | tuple values => .tuple (withoutPositionsAll values)
  | node kind attributes => .node kind (attributesWithoutPositions attributes)

/-- Values without positions. -/
def withoutPositionsAll : List Value → List Value
  | [] => []
  | v :: rest => v.withoutPositions :: withoutPositionsAll rest

/-- Attributes without positions. -/
def attributesWithoutPositions : List (FieldKey × Value) → List (FieldKey × Value)
  | [] => []
  | (key, v) :: rest => (key.printed, v.withoutPositions) :: attributesWithoutPositions rest

end

theorem withoutPositionsAll_eq_map (values : List Value) :
    withoutPositionsAll values = values.map withoutPositions := by
  induction values with
  | nil => rfl
  | cons v values ih => rw [withoutPositionsAll, ih, List.map_cons]

/-- Keys and values can be changed apart from each other. -/
theorem attributesWithoutPositions_zip (keys : List FieldKey) (values : List Value) :
    attributesWithoutPositions (keys.zip values) =
      (keys.map FieldKey.printed).zip (values.map withoutPositions) := by
  induction keys generalizing values with
  | nil => rfl
  | cons key keys ih =>
    cases values with
    | nil => rfl
    | cons v values => simp [attributesWithoutPositions, ih]

mutual

/-- **The written form of a value does not show positions.** -/
theorem describe_withoutPositions : (v : Value) → v.withoutPositions.describe = v.describe
  | empty => rfl
  | token _ => rfl
  | tuple values => by
    rw [withoutPositions, describe, describe, describeValues_withoutPositions]
  | node kind attributes => by
    rw [withoutPositions, describe, describe, describeAttributes_withoutPositions]

theorem describeValues_withoutPositions : (values : List Value) →
    describeValues (withoutPositionsAll values) = describeValues values
  | [] => rfl
  | [v] => by
    simp only [withoutPositionsAll, describeValues, describe_withoutPositions v]
  | v :: w :: rest => by
    have hrest := describeValues_withoutPositions (w :: rest)
    simp only [withoutPositionsAll, describeValues, describe_withoutPositions v] at hrest ⊢
    rw [hrest]

theorem describeAttributes_withoutPositions : (attributes : List (FieldKey × Value)) →
    describeAttributes (attributesWithoutPositions attributes) = describeAttributes attributes
  | [] => rfl
  | [(key, v)] => by
    simp only [attributesWithoutPositions, describeAttributes, describe_withoutPositions v]
    rfl
  | (key, v) :: (key', w) :: rest => by
    have hrest := describeAttributes_withoutPositions ((key', w) :: rest)
    simp only [attributesWithoutPositions, describeAttributes, describe_withoutPositions v]
      at hrest ⊢
    rw [hrest]
    rfl

end

end Value

/-! ## The values of productions -/

namespace Shapes

/-- The value of a shape, made of values without positions. -/
theorem withoutPositions_buildShape (s : Shapes) (shape : Shape) (values : List Value) :
    (s.buildShape shape values).withoutPositions =
      match shape with
      | .tuple => if (values.map Value.withoutPositions).isEmpty then .empty
          else .tuple (values.map Value.withoutPositions)
      | .suppressed => .empty
      | .node nodeType keys => .node (s.typeName nodeType)
          ((keys.map FieldKey.printed).zip (values.map Value.withoutPositions)) := by
  cases shape with
  | tuple =>
    cases values with
    | nil => rfl
    | cons v values =>
      simp [buildShape, Value.withoutPositions, Value.withoutPositionsAll_eq_map]
  | suppressed => rfl
  | node nodeType keys =>
    rw [buildShape, Value.withoutPositions, Value.attributesWithoutPositions_zip]

theorem size_addBinding (s : Shapes) (binding : Option Binding) :
    (s.addBinding binding).shapes.size = s.shapes.size + 1 := by
  unfold addBinding
  split <;> simp

/-- There is a shape for each production. -/
theorem size_ofGrammar (g : Grammar) : (ofGrammar g).shapes.size = g.productions.size := by
  have hfold (l : List Production) (s : Shapes) :
      (l.foldl (fun s p => s.addBinding p.binding) s).shapes.size = s.shapes.size + l.length := by
    induction l generalizing s with
    | nil => rfl
    | cons p l ih => rw [List.foldl_cons, ih, size_addBinding, List.length_cons]; omega
  rw [ofGrammar, hfold]
  simp

/-- **Every production of a grammar has a shape.** -/
theorem exists_shape {g : Grammar} {p : Nat} {production : Production}
    (h : g.productions[p]? = some production) : ∃ shape, (ofGrammar g).shape? p = some shape := by
  have hlt := (Array.getElem?_eq_some_iff.mp h).1
  rw [← size_ofGrammar] at hlt
  exact ⟨_, Array.getElem?_eq_getElem hlt⟩

end Shapes

end PredictiveParsing
