import VerbChain.Evaluation.Handler

namespace VerbChain.Arithmetic

/-!
# A language of numeric verbs

Three verbs on one number each, meant to be referred to by functional verbs.
Their results stay numbers with a fraction.
-/

/-- The number two. -/
def two : Binary64 := .ofNat 2

/-- A verb on the number under `x` whose action holds its result. -/
def verb (kind : String) (result : Binary64 → Json) : PlanningHandler σ :=
  Handler.computing fun bag _ =>
    match bag.number "x" with
    | .ok x =>
        .ok (Registry.oneAction ((Action.bare kind).put "value" (result x)))
    | .error error => .error (.argument error)

/-- The verbs of the language, the functional ones among them. -/
def registry : Registry σ Context (List Action) :=
  Registry.withFunctional
    (.ofList
      [("square", verb "square" fun x => .ofBinary (x.times x)),
        ("double", verb "double" fun x => .ofBinary (x.times two)),
        ("is_even", verb "is_even" fun x => .bool x.isEven)])
    Registry.functionalVerb

end VerbChain.Arithmetic
