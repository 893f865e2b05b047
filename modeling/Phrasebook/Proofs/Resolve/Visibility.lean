import Phrasebook.Proofs.Resolve.Following

namespace Phrasebook

section names

/-- The name that a path starts with. -/
def Operand.root? : List Operand → Option String
  | .literal name _ :: _ => some name
  | _ => none

/-- The names of the bindings that the variables of a message start from. -/
def Message.names (message : Message) : List String := message.variables.filterMap Operand.root?

end names

section plain

open Operand (PlainPath)

theorem Operand.WellFormed.plain {operand : Operand} (formed : operand.WellFormed) :
    ∀ path ∈ operand.paths, PlainPath path := by
  cases operand with
  | literal text metadata => exact List.forall_mem_nil _
  | «variable» path metadata => exact List.forall_mem_singleton.mpr formed.1

theorem Options.WellFormed.plain {options : Options} (formed : options.WellFormed) :
    ∀ path ∈ options.paths, PlainPath path := by
  intro path member
  obtain ⟨entry, listed, present⟩ := List.mem_flatMap.mp member
  exact (formed.values entry listed).plain path present

theorem Part.WellFormed.plain {part : Part} (formed : part.WellFormed) :
    ∀ path ∈ part.paths, PlainPath path := by
  cases part with
  | literal text metadata => exact List.forall_mem_nil _
  | «variable» path metadata =>
    have operand : (Operand.variable path metadata).WellFormed := formed
    exact operand.plain
  | call call =>
    refine List.forall_mem_append.mpr ⟨fun path member => ?_, formed.options.plain⟩
    obtain ⟨argument, listed, present⟩ := List.mem_flatMap.mp member
    exact (formed.arguments argument listed).plain path present
  | markup markup => exact formed.options.plain
  | term term => exact formed.elim

theorem Message.WellFormed.plain {message : Message} (formed : message.WellFormed) :
    ∀ path ∈ message.variables, PlainPath path := by
  intro path member
  obtain ⟨part, listed, present⟩ := List.mem_flatMap.mp member
  exact (formed.parts part listed).plain path present

end plain

section agreement

namespace Scope

private theorem step?_eq_of_segments (scope other : Scope) (value : Value) {path : List Operand}
    (segments : ∀ segment ∈ path, segment.IsSegment) :
    scope.step? value path = other.step? value path := by
  induction path generalizing value with
  | nil => rfl
  | cons segment path ih =>
    obtain ⟨first, rest⟩ := List.forall_mem_cons.mp segments
    cases segment with
    | literal name metadata => simp only [step?, segment?, ih _ rest]
    | «variable» path metadata => exact first.elim

/-- A plain path leads to the same value wherever its first name has the same value. -/
theorem follow?_eq_of_root {scope other : Scope} {path : List Operand}
    (plain : Operand.PlainPath path)
    (agree : ∀ name, Operand.root? path = some name → scope.get? name = other.get? name) :
    scope.follow? path = other.follow? path := by
  cases path with
  | nil => rfl
  | cons first rest =>
    obtain ⟨head, segments⟩ := List.forall_mem_cons.mp plain.segments
    cases first with
    | literal name metadata =>
      simp only [follow?, segment?, Option.bind_eq_bind, Option.bind_some, agree name rfl,
        step?_eq_of_segments scope other _ segments]
    | «variable» path metadata => exact head.elim

private theorem agreesOn_variables {scope other : Scope} {message : Message} (formed : message.WellFormed)
    (agree : ∀ name ∈ message.names, scope.get? name = other.get? name) :
    scope.AgreesOn other message.variables := fun path member =>
  follow?_eq_of_root (formed.plain path member) fun name root =>
    agree name (List.mem_filterMap.mpr ⟨path, member, root⟩)

end Scope

end agreement

/-- A message without terms sees only the variables that it names: it resolves to the same in scopes
that give each of these the same value, or none. For a message that is read from a text it is enough
that the names which its variables start with have the same bindings. -/
theorem resolve_of_variables [Monad m] [LawfulMonad m] (context : Context m) (scope scope' : Scope) :
    (∀ message : Message, message.TermFree →
      (∀ path ∈ message.variables, scope.follow? path = scope'.follow? path) →
      { context with scope }.resolve message = { context with scope := scope' }.resolve message) ∧
    ∀ source, (∀ name ∈ (Message.parse source).1.names, scope.get? name = scope'.get? name) →
      { context with scope }.resolve (Message.parse source).1 =
        { context with scope := scope' }.resolve (Message.parse source).1 := by
  constructor
  · intro message plain agree
    exact resolve_of_alikeOn plain ⟨rfl, rfl, agree⟩
  · intro source agree
    have formed := Syntax.parseTemplate_wellFormed source.toList
    exact resolve_of_alikeOn formed.termFree ⟨rfl, rfl, Scope.agreesOn_variables formed agree⟩

/-- A path with a variable in it leads to one value by two keys. In a text, the bindings of no name that
its variables start with are not seen, whichever variant is chosen. -/
theorem resolve_of_variables_contact :
    let context : Context Id := ⟨[], .empty, fun _ _ => none, .empty, "default", [], 64⟩
    let user : Value := .map [("home", .text "a@b"), ("kind", .text "new"), ("work", .text "a@b")]
    let path : List Operand := [.literal "user" none, .variable [.literal "key" none] none]
    let contact := Message.ofParts [.variable path none]
    let source := "match \x7b$user.kind\x7d when new \x7b\x7b$user.work :mail by=$by\x7d\x7d"
    let scope := Scope.ofPairs [("user", user), ("key", .text "work")]
    let home := scope.extend [("key", .text "home")]
    let extended := scope.extend [("kind", .text "old"), ("work", .text "none")]
    scope.get? "key" ≠ home.get? "key" ∧
    (∀ path ∈ contact.variables, scope.follow? path = home.follow? path) ∧
    { context with scope }.resolve contact = { context with scope := home }.resolve contact ∧
    CanEnd ({ context with scope }.resolve contact) (.ok [.dynamic (.text "a@b") .empty]) ∧
    (Message.parse source).1.names = ["user", "user", "by"] ∧
    { context with scope }.resolve (Message.parse source).1 =
      { context with scope := extended }.resolve (Message.parse source).1 := by
  intro context user path contact source scope home extended
  have different : scope.get? "key" ≠ home.get? "key" := fun same =>
    absurd (Value.text.inj (Option.some.inj same)) (by decide)
  have agree : ∀ path ∈ contact.variables, scope.follow? path = home.follow? path :=
    List.forall_mem_singleton.mpr rfl
  have plain : contact.TermFree := fun term member => nomatch List.mem_singleton.mp member
  have names : (Message.parse source).1.names = ["user", "user", "by"] := by decide +kernel
  have roots : ∀ name ∈ (Message.parse source).1.names, scope.get? name = extended.get? name := by
    simp only [names, List.forall_mem_cons]
    exact ⟨rfl, rfl, rfl, List.forall_mem_nil _⟩
  obtain ⟨followed, -⟩ := resolve_of_variables context scope home
  obtain ⟨-, rooted⟩ := resolve_of_variables context scope extended
  exact ⟨different, agree, followed contact plain agree, rfl, names, rooted source roots⟩

end Phrasebook
