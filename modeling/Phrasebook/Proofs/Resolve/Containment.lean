import Phrasebook.Proofs.Resolve.Merging

namespace Phrasebook

section contexts

/-- The libraries are the same, but for what the formatter of a name does when it is called. -/
structure Library.SameBut (name : String) (library other : Library m) : Prop where
  selectors : library.selectors = other.selectors
  names : library.formatterNames = other.formatterNames
  others : ∀ different ≠ name, library.formatter? different = other.formatter? different
  schema : (library.formatter? name).map Function.schema =
    (other.formatter? name).map Function.schema

/-- The contexts write for the same locales in the same scope, with libraries that are the same but for
what the formatter of a name does. -/
structure Context.SameBut (name : String) (context other : Context m) : Prop where
  locales : context.locales = other.locales
  scope : context.scope = other.scope
  library : context.library.SameBut name other.library

/-- The part is a call of the function with a name. -/
def Part.CallsFor (part : Part) (name : String) : Prop :=
  ∃ call, part = .call call ∧ call.name = name

namespace Context.SameBut

variable {name : String} {context other : Context m}

private theorem schema_eq (alike : context.SameBut name other) (marker : String) :
    (context.library.formatter? marker).map Function.schema =
      (other.library.formatter? marker).map Function.schema := by
  by_cases same : marker = name
  · rw [same, alike.library.schema]
  · rw [alike.library.others marker same]

private theorem markupPiece_eq (alike : context.SameBut name other) (markup : Markup) :
    markupPiece context markup = markupPiece other markup := by
  simp only [markupPiece, alike.schema_eq, alike.scope]

variable [Monad m]

private theorem callPiece_eq (alike : context.SameBut name other) {call : Call}
    (different : call.name ≠ name) : callPiece context call = callPiece other call := by
  simp only [callPiece, alike.library.others call.name different, alike.library.names, alike.locales,
    alike.scope]

/-- A part that does not call the formatter, and is no term, comes to the same in both contexts. -/
theorem partPiece_eq (alike : context.SameBut name other) (descend descend' : Descent m) {part : Part}
    (plain : ∀ term, part ≠ .term term) (different : ¬ part.CallsFor name) :
    partPiece descend context part = partPiece descend' other part := by
  cases part with
  | literal text metadata => rfl
  | «variable» path metadata => simp only [partPiece, alike.scope]
  | call call =>
    exact congrArg ExceptT.lift (alike.callPiece_eq fun same => different ⟨call, rfl, same⟩)
  | markup markup => exact congrArg pure (alike.markupPiece_eq markup)
  | term term => exact absurd rfl (plain term)

end Context.SameBut

end contexts

section failures

/-- What is noted of a failure. -/
def Failure.notes (failure : Failure) : List (String × Scalar) :=
  [("error_name", .text failure.name), ("error_message", .text failure.message),
    ("error_stack", .text failure.stack)]

private theorem nodup_notes (failure : Failure) : (failure.notes.map Prod.fst).Nodup := by
  simp [Failure.notes]

/-- The function of a call fails or breaks off with the values of the call's arguments. -/
def Call.FailsWith (call : Call) (context : Context Id) (failure : Failure) : Prop :=
  ∃ function arguments, context.library.formatter? call.name = some function ∧
    resolveArguments context.scope call.arguments = .ok arguments ∧
    (function.run ⟨context.locales, resolveOptions call.options function.schema context.scope,
      arguments⟩).result = .error failure

private theorem canEnd_of_failsWith {descend : Descent Id} {context : Context Id} {call : Call}
    {failure : Failure} (fails : call.FailsWith context failure) :
    CanEnd (partPiece descend context (.call call)) (.ok (call.fallback failure)) := by
  obtain ⟨function, arguments, there, resolved, failed⟩ := fails
  have piece : callPiece context call = call.fallback failure := by
    simp only [callPiece, there, resolved, Function.call]
    exact congrArg call.piece failed
  rw [partPiece, piece]
  rfl

/-- The piece of a call that failed has the metadata of the call, and behind it what is noted of the
failure under keys that the call does not have. -/
theorem Call.exists_fallback (call : Call) (failure : Failure) :
    ∃ bag : Metadata, call.fallback failure = .fallback call.display bag ∧
      bag.entries = (call.metadata.getD .empty).entries ++
        failure.notes.filter fun note => !(call.metadata.getD .empty).contains note.1 :=
  ⟨_, rfl, Metadata.entries_insertAll _ (nodup_notes failure)⟩

end failures

section patterns

variable {descend : Descent Id} {context : Context Id}

private theorem exists_canEnd_partPiece (descend : Descent Id) (context : Context Id) {part : Part}
    (plain : ∀ term, part ≠ .term term) :
    ∃ piece, CanEnd (partPiece descend context part) (.ok piece) := by
  cases part with
  | term term => exact absurd rfl (plain term)
  | _ => exact ⟨_, rfl⟩

private theorem exists_pieces (descend : Descent Id) (context : Context Id) {parts : List Part}
    (plain : ∀ term, .term term ∉ parts) :
    ∃ pieces : List Piece, CanEnd (partPieces descend context parts) (.ok pieces) ∧
      pieces.length = parts.length ∧ ∀ (index : Nat) part, parts[index]? = some part →
        ∃ piece, pieces[index]? = some piece ∧
          CanEnd (partPiece descend context part) (.ok piece) := by
  have each : ∀ part ∈ parts, ∃ piece, CanEnd (partPiece descend context part) (.ok piece) :=
    fun part member => exists_canEnd_partPiece descend context fun term same =>
      plain term (same ▸ member)
  obtain ⟨pieces, rows⟩ := exists_forall₂_iff.mpr each
  refine ⟨pieces, canEnd_partPieces_ok_iff.mpr rows, rows.length_eq.symm, fun index part there => ?_⟩
  obtain ⟨within, rfl⟩ := List.getElem?_eq_some_iff.mp there
  have present : index < pieces.length := rows.length_eq ▸ within
  exact ⟨pieces[index], List.getElem?_eq_getElem present, rows.get within present⟩

/-- What a formatter does shows in the pieces of its own calls alone. Where it is replaced, a pattern
without terms comes to as many pieces as before, and all other parts to the same ones. A call with which
it fails or breaks off comes to a fallback, with the metadata of the call and what is noted of the
failure. -/
theorem resolvePattern_contained {context other : Context Id} {name : String}
    (alike : context.SameBut name other) {pattern : Pattern}
    (plain : ∀ term, .term term ∉ pattern.parts) :
    ∃ pieces pieces' : List Piece, CanEnd (context.resolvePattern pattern) (.ok pieces) ∧
      CanEnd (other.resolvePattern pattern) (.ok pieces') ∧
      pieces.length = pattern.parts.length ∧ pieces'.length = pattern.parts.length ∧
      (∀ (index : Nat) part, pattern.parts[index]? = some part → ¬ part.CallsFor name →
        pieces[index]? = pieces'[index]?) ∧
      ∀ (index : Nat) call failure, pattern.parts[index]? = some (.call call) → call.name = name →
        ∃ bag : Metadata,
          bag.entries = (call.metadata.getD .empty).entries ++
            failure.notes.filter (fun note => !(call.metadata.getD .empty).contains note.1) ∧
          (call.FailsWith context failure → pieces[index]? = some (.fallback call.display bag)) ∧
          (call.FailsWith other failure → pieces'[index]? = some (.fallback call.display bag)) := by
  obtain ⟨pieces, ends, length, places⟩ :=
    exists_pieces (descent context.remaining) context plain
  obtain ⟨pieces', ends', length', places'⟩ :=
    exists_pieces (descent other.remaining) other plain
  refine ⟨pieces, pieces', ends, ends', length, length', ?_, ?_⟩
  · intro index part there different
    obtain ⟨piece, stands, first⟩ := places index part there
    obtain ⟨piece', stands', second⟩ := places' index part there
    have listed := List.mem_of_getElem? there
    rw [alike.partPiece_eq _ (descent other.remaining)
      (fun term isTerm => plain term (isTerm ▸ listed)) different] at first
    rw [stands, stands', Except.ok.inj (first.symm.trans second)]
  · intro index call failure there named
    obtain ⟨piece, stands, first⟩ := places index _ there
    obtain ⟨piece', stands', second⟩ := places' index _ there
    obtain ⟨bag, shown, noted⟩ := call.exists_fallback failure
    refine ⟨bag, noted, fun fails => ?_, fun fails => ?_⟩
    · rw [stands, ← shown, Except.ok.inj (first.symm.trans (canEnd_of_failsWith fails))]
    · rw [stands', ← shown, Except.ok.inj (second.symm.trans (canEnd_of_failsWith fails))]

/-- A function that fails in one context and returns a piece in the other, in a pattern with markup of
its name. The call has a note of its own on an error. -/
theorem resolvePattern_contained_quote :
    let library (run : Invocation → Outcome) : Library Id :=
      Library.empty.addFormatter "quote" ⟨run, .any⟩
    let context (run : Invocation → Outcome) : Context Id :=
      ⟨[], library run, fun _ _ => none, .empty, "default", [], 64⟩
    let failing := context fun _ => .aborted (some "no paper")
    let fine := context fun _ => .returned (.piece (.fallback "?" .empty))
    let call : Call := ⟨"quote", [.literal "x" none], [], some (.ofList [("error_name", .text "mine")])⟩
    let notes : Metadata := ⟨[("error_name", .text "mine"), ("error_message", .text "no paper"),
      ("error_stack", .text "Panic: no paper")], by decide⟩
    let pattern : Pattern :=
      .ofParts [.literal "Hi " none, .call call, .markup ⟨.opening, "quote", [], none⟩]
    failing.SameBut "quote" fine ∧ (∀ term, .term term ∉ pattern.parts) ∧
    call.FailsWith failing (.aborted (some "no paper")) ∧
    ∃ pieces pieces' : List Piece, CanEnd (failing.resolvePattern pattern) (.ok pieces) ∧
      CanEnd (fine.resolvePattern pattern) (.ok pieces') ∧ pieces[0]? = pieces'[0]? ∧
      pieces[2]? = pieces'[2]? ∧ pieces[1]? = some (.fallback "quote(x)" notes) := by
  intro library context failing fine call notes pattern
  have alike : failing.SameBut "quote" fine := by
    refine ⟨rfl, rfl, rfl, rfl, fun different other => ?_, rfl⟩
    exact (Keyed.lookup_putSorted_of_ne other ..).trans (Keyed.lookup_putSorted_of_ne other ..).symm
  have plain : ∀ term, .term term ∉ pattern.parts := by
    simp [pattern, Pattern.ofParts, Pattern.mergeLiterals, Pattern.append]
  have fails : call.FailsWith failing (.aborted (some "no paper")) := ⟨_, _, rfl, rfl, rfl⟩
  obtain ⟨pieces, pieces', ends, ends', -, -, same, failed⟩ := resolvePattern_contained alike plain
  obtain ⟨bag, noted, shown, -⟩ := failed 1 call (.aborted (some "no paper")) rfl rfl
  obtain rfl : bag = notes := Metadata.ext noted
  refine ⟨alike, plain, fails, pieces, pieces', ends, ends', ?_, ?_, shown fails⟩
  · exact same 0 _ rfl (by simp [Part.CallsFor])
  · exact same 2 _ rfl (by simp [Part.CallsFor])

end patterns

end Phrasebook
