import Mathlib.Tactic.Choose
import Phrasebook.Proofs.Grammar.WellFormed
import Phrasebook.Proofs.Resolve.Choice
import Phrasebook.Proofs.Resolve.Outcome

/-!
Which functions the resolution of a message calls, in which order, and with what. A library can keep a
record of the calls of its functions. For a message without terms the record is the one that the message
asks for: the calls of its selectors, and then those of the pattern that is chosen.
-/

namespace Phrasebook

section records

/-- What a function is called as. -/
inductive Role where
  | selector
  | formatter
  deriving DecidableEq, Repr

/-- A call: which function, and what it is given. -/
structure Request where
  role : Role
  name : String
  invocation : Invocation

/-- A call that was made, and how the function ended. -/
structure Record where
  request : Request
  outcome : Outcome

/-- A function that puts every call of it on record. -/
def Function.logged [Monad m] (role : Role) (name : String) (function : Function m) :
    Function (StateT (List Record) m) where
  run invocation := do
    let outcome ← function.run invocation
    modify (· ++ [⟨⟨role, name, invocation⟩, outcome⟩])
    return outcome
  schema := function.schema

def Library.logged [Monad m] (library : Library m) : Library (StateT (List Record) m) where
  formatters := library.formatters.map fun entry => (entry.1, entry.2.logged .formatter entry.1)
  selectors := library.selectors.map fun entry => (entry.1, entry.2.logged .selector entry.1)
  formatters_ascending := library.formatters_ascending.map_values fun name function =>
    function.logged .formatter name
  selectors_ascending := library.selectors_ascending.map_values fun name function =>
    function.logged .selector name

/-- The context in which every call is put on record. -/
def Context.logged [Monad m] (context : Context m) : Context (StateT (List Record) m) :=
  { context with library := context.library.logged }

def Library.function? (library : Library m) : Role → String → Option (Function m)
  | .selector => library.selector?
  | .formatter => library.formatter?

end records

section demand

variable (context : Context m)

/-- The call that a part asks for in a role: it has to be one, of a function that there is, and all its
arguments have to have values. -/
def Part.request? (role : Role) : Part → Option Request
  | .call node =>
    match resolveArguments context.scope node.arguments with
    | .error _ => none
    | .ok arguments => (context.library.function? role node.name).map fun function =>
      let options := resolveOptions node.options function.schema context.scope
      ⟨role, node.name, ⟨context.locales, options, arguments⟩⟩
  | _ => none

/-- The call for the plural category of a value. -/
def Value.request? (value : Value) : Option Request :=
  if value.isNumeric ∧ (context.library.selector? "plural").isSome then
    some ⟨.selector, "plural", ⟨context.locales, [], [value]⟩⟩
  else none

/-- The value of a selector before any call, which stays where there is none or it fails. -/
def Part.standIn : Part → Value
  | .literal text _ => .text text
  | .variable path metadata => (variablePiece context.scope path metadata).value
  | .call node =>
    match resolveArguments context.scope node.arguments with
    | .error source => .text source
    | .ok arguments => arguments.headD (.text node.display)
  | .markup node => (markupPiece context node).value
  | .term node => .text node.display

/-- The value after a call, if there was one. -/
def Value.after (value : Value) : Option Record → Value
  | some ⟨_, .returned output⟩ => output.toValue
  | _ => value

/-- The calls for a selector and the value that it has by them: its own, and then the one for the plural
category of what it has come to. -/
inductive Selector.Calls (selector : Selector) : List Record → ResolvedSelector → Prop
  | intro (own plural : Option Record) {value : Value}
      (first : own.map Record.request = selector.value.request? context .selector)
      (called : value = (selector.value.standIn context).after own)
      (second : plural.map Record.request = value.request? context) :
      Calls selector (own.toList ++ plural.toList)
        ⟨(value.after plural).comparable, selector.defaultKey⟩

/-- The calls for selectors, one after the other. -/
inductive Selectors.Calls : List Selector → List Record → List ResolvedSelector → Prop
  | nil : Calls [] [] []
  | cons {selector : Selector} {selectors : List Selector}
      (first : selector.Calls context records value) (rest : Calls selectors others values) :
      Calls (selector :: selectors) (records ++ others) (value :: values)

/-- The calls that the parts of a pattern ask for. -/
def Pattern.requests (pattern : Pattern) : List Request :=
  pattern.parts.filterMap (Part.request? context .formatter)

/-- The calls for a message: for a selection those of its selectors, and in any case those of the one
pattern that is shown. -/
inductive Message.Calls (message : Message) : List Record → Prop
  | pattern {node : Pattern} (body : message.body = .pattern node)
      (shown : records.map Record.request = node.requests context) : Calls message records
  | select {node : Select} (body : message.body = .select node)
      (selectors : Selectors.Calls context node.selectors records values)
      (shown : others.map Record.request =
        ((Selection.choose values node.variants).pattern.map (Pattern.requests context)).getD []) :
      Calls message (records ++ others)

end demand

section logging

variable [Monad m]

/-- The plain computation and the logged one are the same: they follow one script of effects, of which
the logged one keeps the record too. What the record says of the value holds. -/
def Logs (holds : α → List Record → Prop) (plain : Resolution m α)
    (logged : Resolution (StateT (List Record) m) α) : Prop :=
  ∃ script : m { run : α × List Record // holds run.1 run.2 },
    plain = ExceptT.lift ((fun run => run.1.1) <$> script) ∧
    ∀ log, logged.run.run log = (fun run => (.ok run.1.1, log ++ run.1.2)) <$> script

variable [LawfulMonad m]

namespace Logs

variable {plain : Resolution m α} {logged : Resolution (StateT (List Record) m) α}
  {holds : α → List Record → Prop}

theorem pure {value : α} (nothing : holds value []) :
    Logs holds (Pure.pure value : Resolution m α) (Pure.pure value) := by
  refine ⟨Pure.pure ⟨(value, []), nothing⟩, ?_, fun log => ?_⟩
  · rw [map_pure]
    exact pure_eq_lift value
  · simp

theorem lift_pure {value : α} (nothing : holds value []) :
    Logs holds (ExceptT.lift (Pure.pure value : m α))
      (ExceptT.lift (Pure.pure value : StateT (List Record) m α)) := by
  rw [← pure_eq_lift, ← pure_eq_lift]
  exact .pure nothing

theorem bind {holds' : β → List Record → Prop} {next : α → Resolution m β}
    {next' : α → Resolution (StateT (List Record) m) β} (first : Logs holds plain logged)
    (rest : ∀ value records, holds value records →
      Logs (fun result more => holds' result (records ++ more)) (next value) (next' value)) :
    Logs holds' (plain >>= next) (logged >>= next') := by
  obtain ⟨script, rfl, traced⟩ := first
  choose later settled traces using rest
  refine ⟨script >>= fun run => (fun more => ⟨(more.1.1, run.1.2 ++ more.1.2), more.2⟩) <$>
    later run.1.1 run.1.2 run.2, ?_, fun log => ?_⟩
  · apply ExceptT.ext
    simp only [ExceptT.run_bind_lift, ExceptT.run_lift, map_bind, Functor.map_map, bind_map_left]
    refine bind_congr fun run => ?_
    rw [settled run.1.1 run.1.2 run.2]
    simp
  · simp only [ExceptT.run_bind, StateT.run_bind, traced, map_bind, Functor.map_map, bind_map_left]
    refine bind_congr fun run => ?_
    rw [traces run.1.1 run.1.2 run.2]
    simp

theorem bind_pure {holds' : β → List Record → Prop} {next : α → β} (first : Logs holds plain logged)
    (rest : ∀ value records, holds value records → holds' (next value) records) :
    Logs holds' (plain >>= fun value => Pure.pure (next value))
      (logged >>= fun value => Pure.pure (next value)) := by
  refine first.bind fun value records given => .pure ?_
  rw [List.append_nil]
  exact rest value records given

theorem call (function : Function m) (role : Role) (name : String) (invocation : Invocation) :
    Logs (fun result records => ∃ outcome : Outcome, result = outcome.result ∧
        records = [⟨⟨role, name, invocation⟩, outcome⟩])
      (ExceptT.lift (function.call invocation))
      (ExceptT.lift ((function.logged role name).call invocation)) := by
  refine ⟨(fun outcome => ⟨(outcome.result, [⟨⟨role, name, invocation⟩, outcome⟩]), outcome, rfl, rfl⟩)
    <$> function.run invocation, ?_, fun log => ?_⟩
  · simp [Function.call]
  · simp [Function.call, Function.logged]

theorem replaced (function : Function m) (role : Role) (name : String) (invocation : Invocation)
    (value : Value) :
    Logs (fun result records => ∃ answer : Option Record, records = answer.toList ∧
        answer.map Record.request = some ⟨role, name, invocation⟩ ∧ result = value.after answer)
      (ExceptT.lift (function.call invocation >>= fun
        | .ok output => Pure.pure output.toValue
        | .error _ => Pure.pure value))
      (ExceptT.lift ((function.logged role name).call invocation >>= fun
        | .ok output => Pure.pure output.toValue
        | .error _ => Pure.pure value)) := by
  simp only [ExceptT.lift_bind]
  refine (Logs.call function role name invocation).bind fun result records recorded => ?_
  obtain ⟨outcome, rfl, rfl⟩ := recorded
  cases outcome <;> exact .lift_pure ⟨some _, rfl, rfl, rfl⟩

end Logs

section looking

omit [LawfulMonad m]

variable (library : Library m)

theorem Library.formatter?_logged (name : String) :
    library.logged.formatter? name = (library.formatter? name).map (.logged .formatter name) :=
  Keyed.lookup_map_keyed (Function.logged .formatter) name library.formatters

theorem Library.selector?_logged (name : String) :
    library.logged.selector? name = (library.selector? name).map (.logged .selector name) :=
  Keyed.lookup_map_keyed (Function.logged .selector) name library.selectors

theorem Library.formatterNames_logged : library.logged.formatterNames = library.formatterNames := by
  simp [formatterNames, logged]

/-- Markup asks a function for its schema, and does not call it. -/
theorem markupPiece_logged (context : Context m) (markup : Markup) :
    markupPiece context.logged markup = markupPiece context markup := by
  simp only [markupPiece, Context.logged, Library.formatter?_logged, Option.map_map]
  rfl

end looking

variable (context : Context m)

/-- A formatter is called exactly where a call asks for it. -/
theorem callPiece_logs (call : Call) :
    Logs (fun _ records => records.map Record.request =
        ((Part.call call).request? context .formatter).toList)
      (ExceptT.lift (callPiece context call)) (ExceptT.lift (callPiece context.logged call)) := by
  simp only [callPiece, Part.request?, Library.function?, Context.logged,
    Library.formatter?_logged, Library.formatterNames_logged]
  cases context.library.formatter? call.name with
  | none => cases resolveArguments context.scope call.arguments <;> exact .lift_pure rfl
  | some function =>
    cases resolveArguments context.scope call.arguments with
    | error source => exact .lift_pure rfl
    | ok arguments =>
      simp only [Option.map_some, ExceptT.lift_bind]
      refine (Logs.call function .formatter call.name _).bind fun result records recorded => ?_
      obtain ⟨outcome, rfl, rfl⟩ := recorded
      exact .lift_pure rfl

theorem partPiece_logs {part : Part} (plain : ∀ term, part ≠ .term term)
    (descend : Descent m) (descend' : Descent (StateT (List Record) m)) :
    Logs (fun _ records => records.map Record.request = (part.request? context .formatter).toList)
      (partPiece descend context part) (partPiece descend' context.logged part) := by
  cases part with
  | literal text metadata => exact .pure rfl
  | «variable» path metadata => exact .pure rfl
  | call call => exact callPiece_logs context call
  | markup markup =>
    simp only [partPiece, markupPiece_logged]
    exact .pure rfl
  | term term => exact absurd rfl (plain term)

theorem partPieces_logs {parts : List Part} (plain : ∀ term, .term term ∉ parts)
    (descend : Descent m) (descend' : Descent (StateT (List Record) m)) :
    Logs (fun _ records =>
        records.map Record.request = parts.filterMap (Part.request? context .formatter))
      (partPieces descend context parts) (partPieces descend' context.logged parts) := by
  induction parts with
  | nil => exact .pure rfl
  | cons part parts ih =>
    have first : ∀ term, part ≠ .term term := fun term same => plain term (same ▸ List.mem_cons_self)
    have rest := ih fun term member => plain term (List.mem_cons_of_mem _ member)
    refine (partPiece_logs context first descend descend').bind fun piece records asked => ?_
    refine rest.bind_pure fun pieces others later => ?_
    rw [List.map_append, asked, later, List.filterMap_cons]
    cases part.request? context .formatter <;> rfl

theorem selectorCall_logs (call : Call) :
    Logs (fun value records => ∃ own : Option Record, records = own.toList ∧
        own.map Record.request = (Part.call call).request? context .selector ∧
        value = ((Part.call call).standIn context).after own)
      (ExceptT.lift (selectorCall context call)) (ExceptT.lift (selectorCall context.logged call)) := by
  simp only [selectorCall, Part.request?, Part.standIn, Library.function?, Context.logged,
    Library.selector?_logged]
  cases resolveArguments context.scope call.arguments with
  | error source => exact .lift_pure ⟨none, rfl, rfl, rfl⟩
  | ok arguments =>
    cases context.library.selector? call.name with
    | none => exact .lift_pure ⟨none, rfl, rfl, rfl⟩
    | some function => exact .replaced function .selector call.name ..

theorem pluralForms_logs {value : Value} (numeric : value.isNumeric) :
    Logs (fun forms records => ∃ plural : Option Record, records = plural.toList ∧
        plural.map Record.request = value.request? context ∧ forms = value.after plural)
      (ExceptT.lift (pluralForms context value)) (ExceptT.lift (pluralForms context.logged value)) := by
  simp only [pluralForms, Value.request?, Context.logged, Library.selector?_logged, numeric,
    true_and]
  cases context.library.selector? "plural" with
  | none => exact .lift_pure ⟨none, rfl, rfl, rfl⟩
  | some function => exact .replaced function .selector "plural" ..

/-- What follows on a selector's own call, from the value that it has by then. -/
theorem comparable_logs {selector : Selector} {value : Value} (own : Option Record)
    (first : own.map Record.request = selector.value.request? context .selector)
    (called : value = (selector.value.standIn context).after own) :
    Logs (fun result records =>
        selector.Calls context (own.toList ++ records) ⟨result, selector.defaultKey⟩)
      (if value.isNumeric then
        ExceptT.lift (pluralForms context value) >>= fun forms => pure forms.comparable
      else pure value.comparable)
      (if value.isNumeric then
        ExceptT.lift (pluralForms context.logged value) >>= fun forms => pure forms.comparable
      else pure value.comparable) := by
  by_cases numeric : value.isNumeric
  · simp only [if_pos numeric]
    refine (pluralForms_logs context numeric).bind_pure fun forms records asked => ?_
    obtain ⟨plural, rfl, second, rfl⟩ := asked
    exact .intro own plural first called second
  · have second : none = value.request? context := by simp [Value.request?, numeric]
    simp only [if_neg numeric]
    exact .pure (.intro own none first called second)

theorem selectorValue_logs {selector : Selector} (plain : ∀ term, selector.value ≠ .term term)
    (descend : Descent m) (descend' : Descent (StateT (List Record) m)) :
    Logs (fun value records => selector.Calls context records ⟨value, selector.defaultKey⟩)
      (selectorValue descend context selector.value)
      (selectorValue descend' context.logged selector.value) := by
  have unasked (asks : selector.value.request? context .selector = none) :=
    comparable_logs context none asks.symm rfl
  simp only [selectorValue, pure_bind]
  cases part : selector.value with
  | call call =>
    refine (selectorCall_logs context call).bind fun value records asked => ?_
    obtain ⟨own, rfl, first, called⟩ := asked
    exact comparable_logs context own (part ▸ first) (part ▸ called)
  | term term => exact absurd part (plain term)
  | markup markup =>
    rw [part] at unasked
    simp only [partPiece, markupPiece_logged, pure_bind]
    exact unasked rfl
  | _ =>
    rw [part] at unasked
    simp only [partPiece, pure_bind]
    exact unasked rfl

theorem selectorValues_logs {selectors : List Selector}
    (plain : ∀ term, .term term ∉ selectors.map Selector.value) (descend : Descent m)
    (descend' : Descent (StateT (List Record) m)) :
    Logs (fun values records => Selectors.Calls context selectors records values)
      (selectorValues descend context selectors)
      (selectorValues descend' context.logged selectors) := by
  induction selectors with
  | nil => exact .pure .nil
  | cons selector selectors ih =>
    have first : ∀ term, selector.value ≠ .term term :=
      fun term same => plain term (same ▸ List.mem_cons_self)
    have rest := ih fun term member => plain term (List.mem_cons_of_mem _ member)
    refine (selectorValue_logs context first descend descend').bind fun value records asked => ?_
    exact rest.bind_pure fun values others later => .cons asked later

theorem resolveBody_logs {message : Message} (plain : message.TermFree) (descend : Descent m)
    (descend' : Descent (StateT (List Record) m)) :
    Logs (fun _ records => message.Calls context records) (resolveBody descend context message)
      (resolveBody descend' context.logged message) := by
  unfold Message.TermFree Message.parts at plain
  unfold resolveBody
  cases body : message.body with
  | pattern node =>
    rw [body] at plain
    exact (partPieces_logs context plain descend descend').bind_pure fun pieces records asked =>
      .pattern body asked
  | select select =>
    rw [body] at plain
    have chooses : ∀ term, .term term ∉ select.selectors.map Selector.value :=
      fun term member => plain term (List.mem_append_left _ member)
    simp only [resolveSelect, bind_assoc, pure_bind]
    refine (selectorValues_logs context chooses descend descend').bind fun values records asked => ?_
    cases chosen : (Selection.choose values select.variants).pattern with
    | none =>
      refine .pure (.select body asked ?_)
      rw [chosen]
      rfl
    | some pattern =>
      obtain ⟨variant, listed, rfl⟩ := Selection.exists_of_choose chosen
      have shown : ∀ term, .term term ∉ variant.value.parts := fun term member =>
        plain term (List.mem_append_right _ (List.mem_flatMap.mpr ⟨variant, listed, member⟩))
      refine (partPieces_logs context shown descend descend').bind_pure fun pieces others later =>
        .select body asked ?_
      rw [chosen]
      exact later

theorem resolve_logs {message : Message} (plain : message.TermFree) :
    Logs (fun _ records => message.Calls context records) (context.resolve message)
      (context.logged.resolve message) := by
  rw [Context.resolve_eq, Context.resolve_eq, map_eq_pure_bind, map_eq_pure_bind]
  exact (resolveBody_logs context plain _ _).bind_pure fun body records asked => asked

end logging

/-- Functions are called as a message asks for them, and not otherwise. One script of effects is behind
the resolution of a message without terms, whether calls are put on record or not, and the record of it
lists the calls for the selectors and then those for the pattern that is shown: each of them once and in
order, however those before it have ended. -/
theorem resolve_calls [Monad m] [LawfulMonad m] (context : Context m) (message : Message)
    (plain : message.TermFree) :
    ∃ script : m { run : List Piece × List Record // message.Calls context run.2 },
      context.resolve message = ExceptT.lift ((fun run => run.1.1) <$> script) ∧
      ∀ log, (context.logged.resolve message).run.run log =
        (fun run => (.ok run.1.1, log ++ run.1.2)) <$> script :=
  resolve_logs context plain

/-- A selector that breaks off and one without a value, a formatter that fails, markup of its name, and
calls in a declaration and in a variant that is not chosen. -/
theorem resolve_calls_failing :
    let library : Library Id := Library.empty
      |>.addSelector "number" ⟨fun _ => .aborted none, .any⟩
      |>.addSelector "plural" ⟨fun _ => .returned (.value (.text "one")), .any⟩
      |>.addFormatter "fail" ⟨fun _ => .failed (.aborted none), .any⟩
      |>.addFormatter "show" ⟨fun _ => .returned (.value (.text "1")), .any⟩
    let context : Context Id :=
      ⟨[], library, fun _ _ => none, .ofPairs [("n", .number (.ofNat 1))], "default", [], 64⟩
    let call (name about : String) : Part := .call ⟨name, [.ofNames [about]], [], none⟩
    let shown : Pattern := .ofParts [call "fail" "n", .markup ⟨.opening, "fail", [], none⟩,
      call "show" "x", call "other" "n", call "show" "n"]
    let message := Message.ofSelect ⟨[⟨"d", call "show" "n"⟩],
      [⟨call "number" "n", none⟩, ⟨call "number" "x", none⟩],
      [⟨[.literal "two", .wildcard], .ofParts [call "show" "n"]⟩, ⟨[.literal "one", .wildcard], shown⟩]⟩
    message.TermFree ∧ ∃ pieces records,
      context.resolve message = pure pieces ∧
      (context.logged.resolve message).run.run [] = pure (.ok pieces, records) ∧
      message.Calls context records ∧
      records.map (fun record => (record.request.role, record.request.name)) =
        [(.selector, "number"), (.selector, "plural"), (.formatter, "fail"), (.formatter, "show")] := by
  intro library context call shown message
  have plain : message.TermFree := by
    intro term member
    simp [Message.parts, message, Message.ofSelect, shown, call, Pattern.ofParts, Pattern.mergeLiterals,
      Pattern.append] at member
  have names : ((context.logged.resolve message).run.run []).run.2.map
      (fun record => (record.request.role, record.request.name)) =
    [(.selector, "number"), (.selector, "plural"), (.formatter, "fail"), (.formatter, "show")] := rfl
  obtain ⟨script, settled, traced⟩ := resolve_calls context message plain
  rw [traced []] at names
  exact ⟨plain, script.1.1, script.1.2, settled, traced [], script.2, names⟩

end Phrasebook
