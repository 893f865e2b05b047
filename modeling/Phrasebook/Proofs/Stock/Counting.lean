import Mathlib.Data.List.TakeWhile
import Mathlib.Data.Option.Basic
import Phrasebook.Plural.Listed
import Phrasebook.Proofs.Resolve.Agreement
import Phrasebook.Proofs.Resolve.Outcome
import Phrasebook.Proofs.Stock.Exactness
import Phrasebook.Stock.Library

namespace Phrasebook

namespace Plural

section libraries

/-- How a library takes numbers without fraction digits: an integer has the operands of its absolute
value, and so has a run of digits within 64 bits those of its value. -/
structure Library.ReadsWhole (plurals : Library) (whole : Nat → plurals.Operands) : Prop where
  ofInt : ∀ n : Int64, plurals.ofInt n = whole n.toInt.natAbs
  read : ∀ {digits : List Char} {n : Nat}, Text.readDigits? digits = some n → n < UInt64.size →
    plurals.read? (String.ofList digits) = some (whole n)

/-- The library has cardinal and ordinal rules for a locale. -/
def Library.Covers (plurals : Library) (locale : Locale) : Prop :=
  ∀ kind, ∃ categoryOf, plurals.rules kind (Stock.rulesKey locale) = .ok categoryOf

theorem Library.listed_covers (locale : Locale) : Library.listed.Covers locale := fun _ => ⟨_, rfl⟩

namespace Operands

/-- The operands of a number without a fraction. -/
def whole (i : Nat) : Operands := ⟨i, 0, 0, 0, 0, 0⟩

variable {digits : List Char} {n : Nat}

private theorem dropWhile_eq_nil_of_digits (all : ∀ c ∈ digits, c.isDigit = true) (mark : Char)
    (other : mark.isDigit = false) : digits.dropWhile (· != mark) = [] := by
  apply List.dropWhile_eq_nil_iff.mpr
  intro c member
  refine bne_iff_ne.mpr fun same => ?_
  rw [← same, all c member] at other
  cases other

private theorem readWord?_of_digits (read : Text.readDigits? digits = some n) (fits : n < UInt64.size)
    (all : ∀ c ∈ digits, c.isDigit = true) : Text.readWord? digits = some n := by
  unfold Text.readWord? Text.readNat?
  split
  · exact absurd (all '+' List.mem_cons_self) (by decide)
  · rw [read, Option.filter_some, if_pos (decide_eq_true fits)]

private theorem ofText?_of_digits (read : Text.readDigits? digits = some n) (fits : n < UInt64.size) :
    ofText? digits = some (whole n) := by
  have ⟨nonempty, every⟩ : digits ≠ [] ∧ digits.all Char.isDigit := by
    by_contra malformed
    rw [Text.readDigits?, if_neg malformed] at read
    cases read
  have all : ∀ c ∈ digits, c.isDigit = true := List.all_eq_true.mp every
  have magnitude : ofMagnitude? digits = some (whole n) := by
    simp only [ofMagnitude?, cutExponent?, dropWhile_eq_nil_of_digits all '.' rfl,
      dropWhile_eq_nil_of_digits all 'e' rfl, Option.bind_eq_bind, Option.bind_some,
      readWord?_of_digits read fits all]
    rfl
  unfold ofText?
  split
  · exact absurd rfl nonempty
  · exact absurd (all '-' List.mem_cons_self) (by decide)
  · exact magnitude

end Operands

theorem Library.listed_readsWhole : Library.listed.ReadsWhole Operands.whole where
  ofInt _ := rfl
  read {digits} {_} read fits := by
    have text : (String.ofList digits).toList = digits := String.toList_ofList
    simp only [Library.listed, text]
    exact Operands.ofText?_of_digits read fits

end libraries

end Plural

namespace Stock

section forms

variable {plurals : Plural.Library} {whole : Nat → plurals.Operands}

/-- The exact text of an integer, and its category, if there are rules for the locale. -/
def forms (plurals : Plural.Library) (whole : Nat → plurals.Operands) (kind : Plural.Kind)
    (locales : List Locale) (n : Int64) : Except Failure Value :=
  (pluralCategory plurals (locales.headD .english) kind (whole n.toInt.natAbs)).map fun category =>
    .list [.text (Value.numberText n), .text category]

theorem forms_of_covers {locales : List Locale} (covers : plurals.Covers (locales.headD .english))
    (whole : Nat → plurals.Operands) (kind : Plural.Kind) (n : Int64) : ∃ category : Plural.Category,
      forms plurals whole kind locales n =
        .ok (.list [.text (Value.numberText n), .text category.name]) := by
  obtain ⟨categoryOf, rules⟩ := covers kind
  refine ⟨categoryOf (whole n.toInt.natAbs), ?_⟩
  simp only [forms, pluralCategory, rules]
  rfl

/-- The rules that the option `type` asks for. -/
def kindOf (options : List (String × Value)) : Plural.Kind :=
  if ((options.lookup "type").bind Value.text?) == some "ordinal" then .ordinal else .cardinal

private theorem readOperands_intText (reads : plurals.ReadsWhole whole) {z : Int}
    (fits : z.natAbs < UInt64.size) :
    readOperands plurals (Text.intText z) = .ok (whole z.natAbs) := by
  have digits := reads.read (Text.readDigits?_natText z.natAbs) fits
  rw [Text.intText]
  by_cases negative : z < 0
  · rw [if_pos negative]
    simp only [readOperands, digits]
  · rw [if_neg negative]
    unfold readOperands
    split
    · next same => exact absurd (Text.isDigit_of_natText_eq_cons same) (by decide)
    · simp only [digits]

variable {n : Int64} {value : Value}

private theorem exactForm_of_standsFor (reads : plurals.ReadsWhole whole)
    (standsFor : StandsFor n.toInt value) :
    exactForm plurals value = .ok (Value.numberText n, whole n.toInt.natAbs) := by
  cases standsFor with
  | number same =>
    obtain rfl := Int64.toInt_inj.mp same
    rw [exactForm, reads.ofInt]
  | text spaceBefore spaceAfter =>
    have fits : n.toInt.natAbs < UInt64.size := by
      have low := n.le_toInt
      have high := n.toInt_lt
      rw [UInt64.size]
      omega
    simp only [exactForm, trim_spaced spaceBefore spaceAfter, readOperands_intText reads fits]
    rfl

theorem selectPlural_of_standsFor (reads : plurals.ReadsWhole whole)
    (standsFor : StandsFor n.toInt value) (kind : Plural.Kind) (locales : List Locale)
    (options : List (String × Value)) (rest : List Value) :
    selectPlural plurals kind ⟨locales, options, value :: rest⟩ =
      forms plurals whole kind locales n := by
  have run : selectPlural plurals kind ⟨locales, options, value :: rest⟩ =
      (exactForm plurals value).bind fun exact =>
        (pluralCategory plurals (locales.headD .english) kind exact.2).bind fun category =>
          .ok (.list [.text exact.1, .text category]) := rfl
  rw [run, exactForm_of_standsFor reads standsFor]
  rfl

theorem plural_of_standsFor (reads : plurals.ReadsWhole whole) (standsFor : StandsFor n.toInt value)
    (locales : List Locale) (options : List (String × Value)) (rest : List Value) :
    plural plurals ⟨locales, options, value :: rest⟩ =
      forms plurals whole (kindOf options) locales n :=
  selectPlural_of_standsFor reads standsFor _ locales options rest

end forms

section calls

/-- The stock selectors are in the library. -/
structure HasSelectors [Monad m] (plurals : Plural.Library) (library : Library m) : Prop where
  plural : library.selector? "plural" = some (pluralFunction plurals)
  ordinal : library.selector? "ordinal" = some (ordinalFunction plurals)

/-- The call asks for the forms of a variable, as `$name :plural` or `$name :ordinal`. -/
structure AsksForms (path : List Operand) (call : Call) : Prop where
  function : call.name = "plural" ∨ call.name = "ordinal"
  argument : ∃ bag, call.arguments = [.variable path bag]

/-- The options that the selector `plural` takes. -/
def pluralSchema : OptionSchema := .each [("type", .oneOf ["cardinal", "ordinal"])]

/-- The rules that a call for forms asks for. -/
def ruleKind (call : Call) (scope : Scope) : Plural.Kind :=
  if call.name = "plural" then kindOf (resolveOptions call.options pluralSchema scope) else .ordinal

variable [Monad m] [LawfulMonad m] {call : Call} {path : List Operand} {n : Int64} {value : Value}
  {plurals : Plural.Library} {whole : Nat → plurals.Operands}

private theorem selectorCall_of_ok {context : Context m} {body : Invocation → Except Failure Value}
    {schema : OptionSchema} {arguments : List Value} {result : Value}
    (there : context.library.selector? call.name = some (pureFunction body schema))
    (resolved : resolveArguments context.scope call.arguments = .ok arguments)
    (returned : body ⟨context.locales, resolveOptions call.options schema context.scope, arguments⟩ =
      .ok result) : selectorCall context call = pure result := by
  simp only [selectorCall, resolved, there, Function.call, pureFunction, returned, pure_bind]
  rfl

/-- A call for the forms of a variable that stands for an integer gives those of the integer. -/
theorem selectorCall_of_bound {context : Context m} {result : Value} (reads : plurals.ReadsWhole whole)
    (stock : HasSelectors plurals context.library) (asks : AsksForms path call)
    (bound : context.scope.follow? path = some value) (standsFor : StandsFor n.toInt value)
    (returned : forms plurals whole (ruleKind call context.scope) context.locales n = .ok result) :
    selectorCall context call = pure result := by
  obtain ⟨bag, argument⟩ := asks.argument
  have resolved : resolveArguments context.scope call.arguments = .ok [value] := by
    simp only [argument, resolveArguments, bound]
    rfl
  rcases asks.function with isPlural | isOrdinal
  · have there : context.library.selector? call.name = some (pluralFunction plurals) :=
      isPlural ▸ stock.plural
    rw [ruleKind, if_pos isPlural] at returned
    exact selectorCall_of_ok there resolved
      ((plural_of_standsFor reads standsFor _ _ _).trans returned)
  · have there : context.library.selector? call.name = some (ordinalFunction plurals) :=
      isOrdinal ▸ stock.ordinal
    rw [ruleKind, if_neg (by rw [isOrdinal]; decide)] at returned
    exact selectorCall_of_ok there resolved
      ((selectPlural_of_standsFor reads standsFor _ _ _ _).trans returned)

private theorem selectorValue_of_bound (descend : Descent m) (context : Context m) {items : List Value}
    (reads : plurals.ReadsWhole whole) (stock : HasSelectors plurals context.library)
    (asks : AsksForms path call) (bound : context.scope.follow? path = some value)
    (standsFor : StandsFor n.toInt value)
    (returned : forms plurals whole (ruleKind call context.scope) context.locales n =
      .ok (.list items)) :
    selectorValue descend context (.call call) = pure (.list items) := by
  have lifted : (ExceptT.lift (selectorCall context call) : Resolution m Value) =
      pure (.list items) := by
    rw [selectorCall_of_bound reads stock asks bound standsFor returned, pure_eq_lift]
  have list : (Value.list items).isNumeric = false := rfl
  simp only [selectorValue, lifted, pure_bind, list, Bool.false_eq_true, if_false]
  rfl

end calls

section selections

/-- As a selector, the part has the same value in both scopes: it asks for the forms of the variable, with
options that have the same values, or it is another one and comes to the same. -/
inductive SameIn [Monad m] (descend : Descent m) (context : Context m) (scope scope' : Scope)
    (path : List Operand) : Part → Prop
  | call {call : Call} (asks : AsksForms path call)
      (options : scope.AgreesOn scope' call.options.paths) :
      SameIn descend context scope scope' path (.call call)
  | other {part : Part} (same : selectorValue descend { context with scope } part =
      selectorValue descend { context with scope := scope' } part) :
      SameIn descend context scope scope' path part

variable [Monad m] {descend : Descent m} {context : Context m} {scope scope' : Scope}

private theorem SameIn.selectorValue_eq [LawfulMonad m] {plurals : Plural.Library}
    {whole : Nat → plurals.Operands} {path : List Operand} {part : Part} {n : Int64}
    {value value' : Value} (same : SameIn descend context scope scope' path part)
    (reads : plurals.ReadsWhole whole) (covers : plurals.Covers (context.locales.headD .english))
    (stock : HasSelectors plurals context.library) (bound : scope.follow? path = some value)
    (bound' : scope'.follow? path = some value') (standsFor : StandsFor n.toInt value)
    (standsFor' : StandsFor n.toInt value') :
    selectorValue descend { context with scope } part =
      selectorValue descend { context with scope := scope' } part := by
  cases same with
  | @call call asks options =>
    have kind : ruleKind call scope = ruleKind call scope' := by
      rw [ruleKind, ruleKind, options.resolveOptions_eq]
    obtain ⟨category, returned⟩ := forms_of_covers covers whole (ruleKind call scope) n
    have first := selectorValue_of_bound descend { context with scope } reads stock asks bound
      standsFor returned
    have second := selectorValue_of_bound descend { context with scope := scope' } reads stock asks
      bound' standsFor' (kind ▸ returned)
    exact first.trans second.symm
  | other same => exact same

private theorem selectorValues_congr {selectors : List Selector}
    (each : ∀ selector ∈ selectors, selectorValue descend { context with scope } selector.value =
      selectorValue descend { context with scope := scope' } selector.value) :
    selectorValues descend { context with scope } selectors =
      selectorValues descend { context with scope := scope' } selectors := by
  induction selectors with
  | nil => rfl
  | cons selector selectors ih =>
    obtain ⟨first, rest⟩ := List.forall_mem_cons.mp each
    simp only [selectorValues, first, ih rest]

end selections

/-- Let a library take numbers without fraction digits by their values. Then an integer of 64 bits and its
text, with any space around it, are one to the selectors: they give the exact form of the integer and its
category, by whatever rules, or both fail as there are no rules. So where there are rules for the locale,
a selection chooses the same variant, with the same notes, whichever of them a variable has that it asks
for the forms of. -/
theorem selects_alike (plurals : Plural.Library) {whole : Nat → plurals.Operands}
    (reads : plurals.ReadsWhole whole) (n : Int64) {value value' : Value}
    (standsFor : StandsFor n.toInt value) (standsFor' : StandsFor n.toInt value') :
    (∀ (locales : List Locale) (options : List (String × Value)) (rest : List Value),
      plural plurals ⟨locales, options, value :: rest⟩ =
        forms plurals whole (kindOf options) locales n ∧
      plural plurals ⟨locales, options, value' :: rest⟩ =
        plural plurals ⟨locales, options, value :: rest⟩ ∧
      ordinal plurals ⟨locales, options, value :: rest⟩ = forms plurals whole .ordinal locales n ∧
      ordinal plurals ⟨locales, options, value' :: rest⟩ =
        ordinal plurals ⟨locales, options, value :: rest⟩) ∧
    (∀ locales : List Locale, plurals.Covers (locales.headD .english) → ∀ kind,
      ∃ category : Plural.Category, forms plurals whole kind locales n =
        .ok (.list [.text (Value.numberText n), .text category.name])) ∧
    ∀ {m : Type → Type} [Monad m] [LawfulMonad m] (descend : Descent m) (context : Context m),
      plurals.Covers (context.locales.headD .english) → HasSelectors plurals context.library →
      ∀ (scope scope' : Scope) (path : List Operand),
      scope.follow? path = some value → scope'.follow? path = some value' → ∀ select : Select,
      (∀ selector ∈ select.selectors, SameIn descend context scope scope' path selector.value) →
      resolveSelect descend { context with scope } select =
        resolveSelect descend { context with scope := scope' } select := by
  refine ⟨?_, fun _ covers kind => forms_of_covers covers whole kind n, ?_⟩
  · intro locales options rest
    have cardinal := plural_of_standsFor reads standsFor locales options rest
    have cardinal' := plural_of_standsFor reads standsFor' locales options rest
    have place := selectPlural_of_standsFor reads standsFor .ordinal locales options rest
    have place' := selectPlural_of_standsFor reads standsFor' .ordinal locales options rest
    exact ⟨cardinal, cardinal'.trans cardinal.symm, place, place'.trans place.symm⟩
  · intro m _ _ descend context covers stock scope scope' path bound bound' select each
    have values : selectorValues descend { context with scope } select.selectors =
        selectorValues descend { context with scope := scope' } select.selectors :=
      selectorValues_congr fun selector member =>
        (each selector member).selectorValue_eq reads covers stock bound bound' standsFor standsFor'
    rw [resolveSelect, resolveSelect, values]

/-- The least integer, and its text between a tab and a blank. -/
theorem selects_alike_least :
    let least : Value := .number Int64.minValue
    let spaced : Value := .text "\t-9223372036854775808 "
    let count : Call := ⟨"plural", [.ofNames ["x"]], [], none⟩
    let variant (key : String) : Variant := ⟨[.literal key], .ofParts [.literal key none]⟩
    let select : Select :=
      ⟨[], [⟨.call count, none⟩], [variant "one", variant "-9223372036854775808"]⟩
    let plurals : Plural.Library := .listed
    let context : Context Id :=
      ⟨[.english], library plurals, fun _ _ => none, .empty, "default", [], 64⟩
    let scope := Scope.ofPairs [("x", least)]
    let scope' := Scope.ofPairs [("x", spaced)]
    plurals.ReadsWhole Plural.Operands.whole ∧ plurals.Covers .english ∧
    StandsFor Int64.minValue.toInt least ∧ StandsFor Int64.minValue.toInt spaced ∧
    plural plurals ⟨[.english], [], [spaced]⟩ =
      .ok (.list [.text "-9223372036854775808", .text "other"]) ∧
    plural plurals ⟨[.english], [], [spaced]⟩ = plural plurals ⟨[.english], [], [least]⟩ ∧
    HasSelectors plurals context.library ∧
    (∀ selector ∈ select.selectors,
      SameIn (descent 64) context scope scope' [.literal "x" none] selector.value) ∧
    resolveSelect (descent 64) { context with scope } select =
      resolveSelect (descent 64) { context with scope := scope' } select ∧
    ∃ selection, resolveSelect (descent 64) { context with scope } select = pure selection ∧
      selection.pattern = some (variant "-9223372036854775808").value := by
  intro least spaced count variant select plurals context scope scope'
  have reads : plurals.ReadsWhole Plural.Operands.whole := Plural.Library.listed_readsWhole
  have covers : plurals.Covers .english := Plural.Library.listed_covers .english
  have number : StandsFor Int64.minValue.toInt least := .number rfl
  have text : StandsFor Int64.minValue.toInt spaced :=
    @StandsFor.text Int64.minValue.toInt "\t" " " (by simp [Text.isSpace, Text.spaceCodes])
      (by simp [Text.isSpace, Text.spaceCodes])
  have stock : HasSelectors plurals context.library := ⟨rfl, rfl⟩
  have each : ∀ selector ∈ select.selectors,
      SameIn (descent 64) context scope scope' [.literal "x" none] selector.value :=
    List.forall_mem_singleton.mpr (.call ⟨.inl rfl, none, rfl⟩ (List.forall_mem_nil _))
  obtain ⟨functions, -, selections⟩ := selects_alike plurals reads Int64.minValue number text
  obtain ⟨exact, same, -⟩ := functions [.english] [] []
  exact ⟨reads, covers, number, text, same.trans exact, same, stock, each,
    selections (descent 64) context covers stock scope scope' _ rfl rfl select each, _, rfl, by rfl⟩

end Stock

end Phrasebook
