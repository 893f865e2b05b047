import Phrasebook.Formatter
import Phrasebook.Proofs.Resolve.Calls
import Phrasebook.Proofs.Resolve.Following

namespace Phrasebook

section settling

/-- A context with nothing else in it. -/
def Context.alone (locales : List Locale) (library : Library m) (scope : Scope) : Context m :=
  ⟨locales, library, fun _ _ => none, scope, defaultResource, [], 0⟩

/-- The calls of a message without terms lead to its pieces, and no other part of the context has a part
in them than the locales, the functions and the bindings. -/
theorem resolve_settles [Monad m] [LawfulMonad m] {message : Message} (plain : message.TermFree)
    (locales : List Locale) (library : Library m) (scope : Scope) :
    ∃ pieces : m (List Piece), ∀ context : Context m,
      { context with locales, library, scope }.resolve message = ExceptT.lift pieces := by
  obtain ⟨script, settled, -⟩ := resolve_logs (Context.alone locales library scope) plain
  refine ⟨_, fun context => Eq.trans ?_ settled⟩
  exact resolve_of_alikeOn plain ⟨rfl, rfl, fun _ _ => rfl⟩

end settling

/-- A message that is read from a text comes to pieces, whatever its functions do: they may fail or
break off. Which pieces these are depends on the functions, the locales and the bindings, and not on
the catalog, the resource or the limit. -/
theorem parse_pieces_settled [Monad m] [LawfulMonad m] (source : String) (locales : List Locale)
    (library : Library m) (scope : Scope) :
    ∃ pieces : m (List Piece), ∀ (catalog : Catalog) (resource : String) (maxDepth : Nat),
      (Formatter.mk locales library catalog resource maxDepth).pieces (Message.parse source).1
        scope = ExceptT.lift pieces := by
  obtain ⟨pieces, settled⟩ := resolve_settles (Message.parse_termFree source) locales library scope
  exact ⟨pieces, fun catalog resource maxDepth =>
    settled ((Formatter.mk locales library catalog resource maxDepth).context scope)⟩

/-- A text with two errors, and a function that breaks off. The pieces are there even where no term
may be nested. -/
theorem parse_pieces_settled_malformed :
    let library : Library Id :=
      Library.empty.addFormatter "fail" ⟨fun _ => .aborted (some "out of paper"), .any⟩
    let parsed := Message.parse "\x7bHi \x7b:fail\x7d\x7b!\x7d"
    let stored := Catalog.empty.insert "default" ["a"] (.ofParts [.literal "A" none])
    let first : Formatter Id := ⟨[], library, .empty, "", 0⟩
    let other : Formatter Id := ⟨[], library, stored, "default", 64⟩
    parsed.2.length = 2 ∧ ∃ pieces,
      CanEnd (first.pieces parsed.1 .empty) (.ok pieces) ∧
      CanEnd (other.pieces parsed.1 .empty) (.ok pieces) ∧
      Piece.render [] pieces = "Hi \x7bfail()\x7d\x7b!\x7d" := by
  intro library parsed stored first other
  have errors : parsed.2.length = 2 := by decide +kernel
  have text : (first.format parsed.1 .empty).run.run = .ok "Hi \x7bfail()\x7d\x7b!\x7d" := by
    decide +kernel
  obtain ⟨pieces, settled⟩ := parse_pieces_settled "\x7bHi \x7b:fail\x7d\x7b!\x7d" [] library .empty
  have here : first.pieces parsed.1 .empty = ExceptT.lift pieces := settled .empty "" 0
  have there : other.pieces parsed.1 .empty = ExceptT.lift pieces := settled stored "default" 64
  refine ⟨errors, pieces, congrArg ExceptT.run here, congrArg ExceptT.run there, ?_⟩
  rw [Formatter.format, here] at text
  exact Except.ok.inj text

end Phrasebook
