import Phrasebook.Proofs.Resolve.Calls

namespace Phrasebook

section selectors

variable [Monad m] {descend : Descent m} {context : Context m}

private theorem selectorValues_set {selectors : List Selector} {index : Nat} {selector other : Selector}
    (there : selectors[index]? = some selector)
    (value : selectorValue descend context other.value = selectorValue descend context selector.value)
    (key : other.defaultKey = selector.defaultKey) :
    selectorValues descend context (selectors.set index other) =
      selectorValues descend context selectors := by
  induction selectors generalizing index with
  | nil => rfl
  | cons first rest ih =>
    cases index with
    | zero =>
      obtain rfl : first = selector := Option.some.inj there
      simp only [List.set_cons_zero, selectorValues, value, key]
    | succ index => simp only [List.set_cons_succ, selectorValues, ih there]

end selectors

section calls

/-- The select function of the call is not there, or it fails or breaks off with the values of the call's
arguments. -/
def Call.Unavailable (call : Call) (context : Context Id) : Prop :=
  ∀ function arguments, context.library.selector? call.name = some function →
    resolveArguments context.scope call.arguments = .ok arguments →
    ∃ failure, (function.run ⟨context.locales,
      resolveOptions call.options function.schema context.scope, arguments⟩).result = .error failure

variable {descend : Descent Id} {context : Context Id} {call : Call} {operand : Operand}

private theorem selectorCall_of_unavailable (unavailable : call.Unavailable context) :
    selectorCall context call = pure ((Part.call call).standIn context) := by
  simp only [selectorCall, Part.standIn]
  cases resolved : resolveArguments context.scope call.arguments with
  | error source => rfl
  | ok arguments =>
    cases there : context.library.selector? call.name with
    | none => rfl
    | some function =>
      obtain ⟨failure, failed⟩ := unavailable function arguments there resolved
      have fails : function.call ⟨context.locales,
          resolveOptions call.options function.schema context.scope, arguments⟩ =
          pure (.error failure) := failed
      simp only [fails]
      rfl

/-- The stand-in of a call with one argument is that of the argument. An argument without a value is
shown as it is displayed, by itself as well as in the call. -/
theorem standIn_of_single (context : Context m) (single : call.arguments = [operand]) :
    (Part.call call).standIn context = (Part.ofOperand operand).standIn context := by
  cases operand with
  | literal text metadata => simp only [Part.standIn, Part.ofOperand, single, resolveArguments]; rfl
  | «variable» path metadata =>
    simp only [Part.standIn, Part.ofOperand, single, resolveArguments, variablePiece]
    cases context.scope.follow? path <;> rfl

private theorem selectorValue_ofOperand (descend : Descent Id) (context : Context Id) (operand : Operand) :
    selectorValue descend context (.ofOperand operand) = (do
      let value := (Part.ofOperand operand).standIn context
      let forms ← if value.isNumeric then ExceptT.lift (pluralForms context value) else pure value
      pure forms.comparable) := by
  cases operand <;> rfl

private theorem selectorValue_of_unavailable (single : call.arguments = [operand])
    (unavailable : call.Unavailable context) :
    selectorValue descend context (.ofOperand operand) =
      selectorValue descend context (.call call) := by
  rw [selectorValue_ofOperand, ← standIn_of_single context single, selectorValue,
    selectorCall_of_unavailable unavailable]
  rfl

end calls

section selections

/-- A selector that calls a function with one argument chooses as the argument by itself does, if the
function is not there or fails on it: the same variant with the same metadata, or the same failure of
another selector. The argument may have any value, or none. -/
theorem resolveSelect_of_unavailable {context : Context Id} {select : Select} {index : Nat}
    {call : Call} {operand : Operand} {default : Option String}
    (there : select.selectors[index]? = some ⟨.call call, default⟩)
    (single : call.arguments = [operand]) (unavailable : call.Unavailable context) :
    let bare : Select :=
      { select with selectors := select.selectors.set index ⟨.ofOperand operand, default⟩ }
    (∀ descend : Descent Id,
      resolveSelect descend context bare = resolveSelect descend context select) ∧
    ∀ metadata, context.resolve ⟨.select bare, metadata⟩ = context.resolve ⟨.select select, metadata⟩ := by
  intro bare
  have same (descend : Descent Id) :
      resolveSelect descend context bare = resolveSelect descend context select := by
    have values : selectorValues descend context bare.selectors =
        selectorValues descend context select.selectors :=
      selectorValues_set there (selectorValue_of_unavailable single unavailable) rfl
    simp only [resolveSelect, values]
    rfl
  refine ⟨same, fun metadata => ?_⟩
  simp only [Context.resolve, resolveBody, same]

/-- A function that breaks off on a number, of which the plural category is asked for, beside one that is
not there and has an argument without a value. -/
theorem resolveSelect_of_unavailable_count :
    let broken : Function Id := ⟨fun _ => .aborted none, .any⟩
    let forms : Value := .list [.text "1", .text "one"]
    let library : Library Id := Library.empty.addSelector "broken" broken
      |>.addSelector "plural" ⟨fun _ => .returned (.value forms), .any⟩
    let scope := Scope.ofPairs [("count", .number (.ofNat 1))]
    let context : Context Id := ⟨[], library, fun _ _ => none, scope, "default", [], 64⟩
    let count : Call := ⟨"broken", [.ofNames ["count"]], [], none⟩
    let gone : Call := ⟨"other", [.ofNames ["gone"]], [], none⟩
    let one : Variant := ⟨[.literal "one", .literal "$gone"], .ofParts [.literal "One" none]⟩
    let select (first second : Part) : Select := ⟨[], [⟨first, none⟩, ⟨second, some "x"⟩], [one]⟩
    count.Unavailable context ∧ gone.Unavailable context ∧
    resolveSelect (descent 64) context (select (.call count) (.call gone)) =
      resolveSelect (descent 64) context (select (.ofOperand (.ofNames ["count"])) (.call gone)) ∧
    resolveSelect (descent 64) context (select (.call count) (.call gone)) =
      resolveSelect (descent 64) context (select (.call count) (.ofOperand (.ofNames ["gone"]))) ∧
    resolveSelect (descent 64) context (select (.call count) (.call gone)) =
      pure (.choose [⟨forms, "other"⟩, ⟨.text "$gone", "x"⟩] [one]) ∧
    (Selection.choose [⟨forms, "other"⟩, ⟨.text "$gone", "x"⟩] [one]).pattern = some one.value := by
  intro broken forms library scope context count gone one select
  have breaks : count.Unavailable context := by
    intro function arguments there resolved
    obtain rfl : broken = function := Option.some.inj there
    exact ⟨_, rfl⟩
  have absent : gone.Unavailable context := nofun
  have here : (select (.call count) (.call gone)).selectors[0]? = some ⟨.call count, none⟩ := rfl
  have behind : (select (.call count) (.call gone)).selectors[1]? = some ⟨.call gone, some "x"⟩ := rfl
  obtain ⟨first, -⟩ := resolveSelect_of_unavailable here rfl breaks
  obtain ⟨second, -⟩ := resolveSelect_of_unavailable behind rfl absent
  exact ⟨breaks, absent, (first _).symm, (second _).symm, rfl, rfl⟩

end selections

end Phrasebook
