import Mathlib.Data.List.Forall2
import Phrasebook.Message.Parse
import Phrasebook.Proofs.Grammar.Template

namespace Phrasebook.Grammar

open Text (Cursor byteLength)
open Syntax (Reading Step isBlank isNameChar skipBlank many many_of_none many_of_some)

/-- A reading without errors, of a node that stands for a value, up to where the rest starts. -/
def Decodes (view : α → β) (value : β) (rest : List Char) (reading : Reading α) : Prop :=
  ∃ node place, reading = ⟨node, [], ⟨place, rest⟩⟩ ∧ view node = value

section placeholders

theorem Variable.ofName_text (binding : Variable) :
    Phrasebook.Operand.ofName (String.ofList binding.name.text) = binding.model := by
  simp [Phrasebook.Operand.ofName, Variable.model]

theorem Operand.toOperand_node (operand : Operand) (offset : Nat) :
    (operand.node offset).toOperand = operand.model := by
  cases operand with
  | quoted node => rfl
  | binding node => exact node.ofName_text

theorem OptionValue.toOperand_node (value : OptionValue) (offset : Nat) :
    (value.node offset).toOperand = value.model := by
  cases value with
  | quoted node => rfl
  | word node => rfl
  | binding node => exact node.ofName_text

private theorem Settings.pairs_nodes (settings : Settings) (offset : Nat) :
    (settings.nodes offset).map (fun entry => (entry.name, entry.value.toOperand)) =
      settings.map fun entry => (String.ofList entry.2.name.text, entry.2.value.model) := by
  induction settings generalizing offset with
  | nil => rfl
  | cons entry more ih =>
    obtain ⟨gap, setting⟩ := entry
    simp [Settings.nodes, Setting.node, OptionValue.toOperand_node, ih]

private theorem Settings.toOptions_nodes (settings : Settings) (offset : Nat) :
    Syntax.toOptions (settings.nodes offset) = settings.model := by
  rw [Syntax.toOptions, settings.pairs_nodes, Options.ofPairs, Keyed.ofPairs, List.foldl_map]
  rfl

theorem Placeholder.toPart_node (source : List Char) (placeholder : Placeholder) (offset : Nat) :
    (placeholder.node offset).toPart source = placeholder.model := by
  obtain ⟨before, content, after⟩ := placeholder
  cases content with
  | plain operand =>
    cases operand with
    | quoted node => rfl
    | binding node => exact congrArg Part.ofOperand node.ofName_text
  | call operand gap signature =>
    cases operand <;>
      simp [Placeholder.node, Content.body, Syntax.Placeholder.toPart, Placeholder.model,
        Signature.options, Settings.toOptions_nodes, Operand.toOperand_node]
  | opening signature =>
    simp [Placeholder.node, Content.body, Syntax.Placeholder.toPart, Placeholder.model,
      Syntax.Marker.toPart, Signature.markup, Signature.options, Settings.toOptions_nodes]
  | closing name => rfl

theorem decodes_readPlaceholder (source : List Char) (placeholder : Placeholder) (rest : List Char)
    (offset : Nat) :
    Decodes (Syntax.Placeholder.toPart source) placeholder.model rest
      (Syntax.readPlaceholder ⟨offset, placeholder.text ++ rest⟩) := by
  rw [readPlaceholder_append]
  exact ⟨_, _, rfl, placeholder.toPart_node source offset⟩

private theorem Variable.stops_isBlank (binding : Variable) (rest : List Char) :
    Stops isBlank (binding.text ++ rest) :=
  stops_cons.mpr (by decide)

theorem Placeholder.stops (placeholder : Placeholder) {test : Char → Bool} (brace : test '{' = false)
    (rest : List Char) : Stops test (placeholder.text ++ rest) :=
  stops_cons.mpr brace

end placeholders

section repetition

/-- A repetition decodes items in order, if its step decodes each of them before whatever may follow
it, and finds nothing behind the last. -/
theorem decodes_many {step : Step α} (progresses : step.Progresses) {view : α → β}
    {text : ι → List Char} {model : ι → β} (follows : List Char → Prop) {items : List ι}
    (reads : ∀ item ∈ items, ∀ rest offset, follows rest →
      ∃ reading, step ⟨offset, text item ++ rest⟩ = some reading ∧
        Decodes view (model item) rest reading)
    (between : ∀ item rest, follows (text item ++ rest))
    {rest : List Char} (last : follows rest) (stop : ∀ offset, step ⟨offset, rest⟩ = none)
    (offset : Nat) :
    Decodes (List.map view) (items.map model) rest
      (many step progresses ⟨offset, items.flatMap text ++ rest⟩) := by
  induction items generalizing offset with
  | nil =>
    rw [List.flatMap_nil, List.nil_append, many_of_none progresses (stop offset)]
    exact ⟨_, _, rfl, rfl⟩
  | cons item items ih =>
    have follow : follows (items.flatMap text ++ rest) := by
      cases items with
      | nil => exact last
      | cons next items => simpa using between next _
    obtain ⟨reading, found, first, place, rfl, stands⟩ := reads item (by simp) _ offset follow
    obtain ⟨nodes, stop, read, model⟩ :=
      ih (fun next member => reads next (by simp [member])) place
    rw [List.flatMap_cons, List.append_assoc, many_of_some progresses found, read]
    exact ⟨first :: nodes, stop, rfl, by simp [stands, model]⟩

end repetition

section patterns

/-- The characters at which a run of pattern text ends. -/
def isBrace (c : Char) : Bool := c == '{' || c == '}'

private theorem patternText_brace {c : Char} (brace : isBrace c = true) (rest : List Char) (offset : Nat) :
    Syntax.patternText offset (c :: rest) = ⟨[], [], ⟨offset, c :: rest⟩⟩ := by
  have either : c = '{' ∨ c = '}' := by simpa [isBrace] using brace
  rcases either with rfl | rfl <;> simp [Syntax.patternText]

private theorem patternText_append (items : List (Escaped ['\\', '{', '}'])) {c : Char}
    (brace : isBrace c = true) (rest : List Char) (offset : Nat) :
    Syntax.patternText offset (Escaped.spelling items ++ c :: rest) =
      ⟨Escaped.meaning items, [], ⟨offset + byteLength (Escaped.spelling items), c :: rest⟩⟩ := by
  induction items generalizing offset with
  | nil => exact patternText_brace brace rest offset
  | cons item items ih =>
    cases item with
    | plain d free =>
      have ordinary : d ≠ '\\' ∧ d ≠ '{' ∧ d ≠ '}' := by simpa using free
      rw [Escaped.spelling_cons, Escaped.text, List.singleton_append, List.cons_append,
        Syntax.patternText, ih]
      · simp [Reading.map, Escaped.value, Nat.add_assoc]
      all_goals simp [ordinary]
    | escape d member =>
      have either : d = '\\' ∨ d = '{' ∨ d = '}' := by simpa using member
      rcases either with rfl | rfl | rfl
      all_goals
        simp [Escaped.text, Syntax.patternText, ih, Reading.map, Escaped.value]
        omega

private theorem spelling_head {items : List (Escaped ['\\', '{', '}'])} (nonempty : items ≠ []) :
    ∃ c more, Escaped.spelling items = c :: more ∧ isBrace c = false := by
  cases items with
  | nil => exact absurd rfl nonempty
  | cons item items =>
    cases item with
    | plain c free =>
      have ordinary : c ≠ '\\' ∧ c ≠ '{' ∧ c ≠ '}' := by simpa using free
      exact ⟨c, _, rfl, by simp [isBrace, ordinary]⟩
    | escape c member => exact ⟨'\\', _, rfl, by decide⟩

private theorem readElement?_run {items : List (Escaped ['\\', '{', '}'])} (nonempty : items ≠ []) {c : Char}
    (brace : isBrace c = true) (rest : List Char) (offset : Nat) :
    let stop := offset + byteLength (Escaped.spelling items)
    Syntax.readElement? ⟨offset, Escaped.spelling items ++ c :: rest⟩ =
      some ⟨.text ⟨⟨offset, stop⟩, String.ofList (Escaped.meaning items)⟩, [], ⟨stop, c :: rest⟩⟩ := by
  obtain ⟨first, more, shape, ordinary⟩ := spelling_head nonempty
  have neither : first ≠ '{' ∧ first ≠ '}' := by simpa [isBrace] using ordinary
  have read := patternText_append items brace rest offset
  simp only [shape, List.cons_append] at read ⊢
  simp [Syntax.readElement?, neither, read]

/-- The parts of elements behind a run of text that is not complete yet. -/
def pending (items : List (Escaped ['\\', '{', '}'])) (parts : List Part) : List Part :=
  if items = [] then parts
  else Phrasebook.Pattern.prepend (.literal (String.ofList (Escaped.meaning items)) none) parts

private theorem prepend_literal_literal (first second : List Char) (parts : List Part) :
    Phrasebook.Pattern.prepend (.literal (String.ofList first) none)
        (Phrasebook.Pattern.prepend (.literal (String.ofList second) none) parts) =
      Phrasebook.Pattern.prepend (.literal (String.ofList (first ++ second)) none) parts := by
  rw [Phrasebook.Pattern.prepend_prepend, String.ofList_append]
  rfl

private theorem pending_run (items more : List (Escaped ['\\', '{', '}'])) (nonempty : more ≠ [])
    (parts : List Part) :
    pending items (Phrasebook.Pattern.prepend
        (.literal (String.ofList (Escaped.meaning more)) none) parts) =
      pending (items ++ more) parts := by
  by_cases empty : items = []
  · simp [pending, empty, nonempty]
  · simp [pending, empty, prepend_literal_literal]

/-- The parts that nodes stand for, with adjacent literals made one. -/
def mergedParts (source : List Char) (nodes : List Syntax.Element) : List Part :=
  Phrasebook.Pattern.mergeLiterals (nodes.map (Syntax.Element.toPart source))

theorem decodes_pending (source : List Char) (items : List (Escaped ['\\', '{', '}'])) {c : Char}
    (brace : isBrace c = true) {tail rest : List Char} {parts : List Part}
    (decoded : ∀ offset, Decodes (mergedParts source) parts rest
      (many Syntax.readElement? Syntax.readElement?_progresses ⟨offset, c :: tail⟩))
    (offset : Nat) :
    Decodes (mergedParts source) (pending items parts) rest
      (many Syntax.readElement? Syntax.readElement?_progresses
        ⟨offset, Escaped.spelling items ++ c :: tail⟩) := by
  by_cases empty : items = []
  · simpa [empty, pending] using decoded offset
  · have found := readElement?_run empty brace tail offset
    obtain ⟨nodes, stop, read, model⟩ := decoded (offset + byteLength (Escaped.spelling items))
    rw [many_of_some Syntax.readElement?_progresses found, read, pending, if_neg empty, ← model]
    exact ⟨_, stop, rfl, Phrasebook.Pattern.mergeLiterals_cons ..⟩

/-- The induction is on the elements left, behind a run of text that the last ones began. -/
theorem decodes_elements (source : List Char) (elements : List Element)
    (items : List (Escaped ['\\', '{', '}'])) (rest : List Char) (offset : Nat) :
    Decodes (mergedParts source)
      (pending items (Phrasebook.Pattern.mergeLiterals (elements.map Element.model))) ('}' :: rest)
      (many Syntax.readElement? Syntax.readElement?_progresses
        ⟨offset, Escaped.spelling items ++ (elements.flatMap Element.text ++ '}' :: rest)⟩) := by
  induction elements generalizing items offset with
  | nil =>
    refine decodes_pending source items (by decide) (fun place => ?_) offset
    rw [many_of_none]
    · exact ⟨[], _, rfl, rfl⟩
    · simp [Syntax.readElement?]
  | cons element elements ih =>
    cases element with
    | run more nonempty =>
      have whole := ih (items ++ more) offset
      rw [← pending_run items more nonempty] at whole
      simpa [Element.text, Element.model] using whole
    | placeholder node =>
      let tail := elements.flatMap Element.text ++ '}' :: rest
      rw [List.flatMap_cons, List.append_assoc]
      refine decodes_pending source items (c := '{') (by decide) (fun place => ?_) offset
      change Decodes _ _ _ (many _ _ ⟨place, node.text ++ tail⟩)
      obtain ⟨first, later, read, stands⟩ := decodes_readPlaceholder source node tail place
      have found : Syntax.readElement? ⟨place, node.text ++ tail⟩ =
          some ⟨.placeholder first, [], ⟨later, tail⟩⟩ := by
        have element : Syntax.readElement? ⟨place, node.text ++ tail⟩ =
            some ((Syntax.readPlaceholder ⟨place, node.text ++ tail⟩).map .placeholder) := by
          simp [Syntax.readElement?, Placeholder.text]
        rw [element, read]
        rfl
      obtain ⟨nodes, stop, others, model⟩ := ih [] later
      rw [many_of_some Syntax.readElement?_progresses found]
      rw [Escaped.spelling_nil, List.nil_append] at others
      rw [others, List.map_cons, Phrasebook.Pattern.mergeLiterals_cons, Element.model, ← stands]
      exact ⟨_, stop, rfl, (Phrasebook.Pattern.mergeLiterals_cons ..).trans
        (congrArg (Phrasebook.Pattern.prepend _) model)⟩

theorem decodes_readPattern (source : List Char) (pattern : Pattern) (rest : List Char)
    (offset : Nat) :
    Decodes (Syntax.Pattern.toPattern source) pattern.model rest
      (Syntax.readPattern ⟨offset, pattern.text ++ rest⟩) := by
  obtain ⟨nodes, stop, read, model⟩ :=
    decodes_elements source pattern.elements [] rest (offset + 1)
  have shape : pattern.text ++ rest =
      '{' :: (pattern.elements.flatMap Element.text ++ '}' :: rest) := by
    simp [Pattern.text]
  rw [Escaped.spelling_nil, List.nil_append] at read
  rw [shape]
  refine ⟨⟨⟨offset, stop + 1⟩, nodes⟩, stop + 1, ?_, Phrasebook.Pattern.ext model⟩
  simp [Syntax.readPattern, read, Syntax.expect]

end patterns

section keywords

variable {rest : List Char}

theorem keyword?_append (word : List Char) (stop : Stops isNameChar rest) (offset : Nat) :
    Syntax.keyword? word ⟨offset, word ++ rest⟩ = some ⟨offset + byteLength word, rest⟩ := by
  have present : word.isPrefixOf (word ++ rest) = true := by simp
  simp [Syntax.keyword?, Cursor.after?, present, Option.filter, follows_of_stops stop]

theorem keyword?_of_stops {c : Char} {word : List Char} (stop : Stops (c == ·) rest) (offset : Nat) :
    Syntax.keyword? (c :: word) ⟨offset, rest⟩ = none := by
  cases rest with
  | nil => rfl
  | cons d rest =>
    have different : (c == d) = false := stops_cons.mp stop
    simp [Syntax.keyword?, Cursor.after?, List.isPrefixOf, different]

theorem stops_isBlank_cons {c : Char} (ordinary : isBlank c = false) (rest : List Char) :
    Stops isBlank (c :: rest) := stops_cons.mpr ordinary

/-- The syntax tree of a declaration that starts at an offset. -/
def LooseDeclaration.node (offset : Nat) (declaration : LooseDeclaration) : Syntax.Declaration :=
  let target := offset + 3 + byteLength declaration.lead.text
  let equals := target + byteLength declaration.target.text + byteLength declaration.before.text
  let value := equals + 1 + byteLength declaration.after.text
  ⟨⟨offset, value + byteLength declaration.value.text⟩, declaration.target.token target,
    declaration.value.node value⟩

theorem Declaration.toDeclaration_node (source : List Char) (declaration : Declaration)
    (offset : Nat) : (declaration.loose.node offset).toDeclaration source = declaration.model := by
  simp [LooseDeclaration.node, loose, Syntax.Declaration.toDeclaration, Placeholder.toPart_node,
    model, Variable.token]

theorem readDeclaration?_append (blanks : Blanks) (declaration : LooseDeclaration)
    (rest : List Char) (offset : Nat) :
    let node := declaration.node (offset + byteLength blanks.text)
    Syntax.readDeclaration? ⟨offset, blanks.text ++ (declaration.text ++ rest)⟩ =
      some ⟨node, [], ⟨node.span.stop, rest⟩⟩ := by
  obtain ⟨lead, target, before, after, value⟩ := declaration
  have start (tail) := skipBlank_append blanks
    (stops_isBlank_cons (by decide : isBlank 'l' = false) tail) offset
  have named (tail) : Stops isNameChar (target.text ++ tail) := stops_cons.mpr (by decide)
  have keyword (tail place) :=
    keyword?_append ['l', 'e', 't'] (lead.stops_isNameChar (named tail)) place
  have gapped (tail place) := skipBlank_append lead (target.stops_isBlank tail) place
  have equals (tail) : Stops isNameChar ('=' :: tail) := stops_cons.mpr (by decide)
  have bound (tail place) := readVariable_append target (before.stops_isNameChar (equals tail)) place
  have sign (tail place) := skipBlank_append before
    (stops_isBlank_cons (by decide : isBlank '=' = false) tail) place
  have ready (place) := skipBlank_append after
    (value.stops (by decide : isBlank '{' = false) rest) place
  have dollar (tail place) : Cursor.isAt '$' ⟨place, target.text ++ tail⟩ = true := rfl
  have brace (place) : Cursor.isAt '{' ⟨place, value.text ++ rest⟩ = true := rfl
  have size : byteLength ['l', 'e', 't'] = 3 := rfl
  simp only [List.cons_append, List.nil_append, size] at keyword
  simp [Syntax.readDeclaration?, LooseDeclaration.text, LooseDeclaration.node, start, keyword,
    gapped, Syntax.readTarget, dollar, bound, sign, Syntax.expect, ready, Syntax.readDeclared, brace,
    readPlaceholder_append, Variable.token, Placeholder.node]

theorem readDeclaration?_of_stops {blanks : Blanks} {rest : List Char} (blank : Stops isBlank rest)
    (letter : Stops ('l' == ·) rest) (offset : Nat) :
    Syntax.readDeclaration? ⟨offset, blanks.text ++ rest⟩ = none := by
  simp [Syntax.readDeclaration?, skipBlank_append blanks blank, keyword?_of_stops letter]

/-- A loop over declarations reads each of them, and ends at the blanks that they leave before the
body. -/
theorem many_readDeclaration?_append (declarations : List (LooseDeclaration × Blanks))
    (before : Blanks) {body : List Char} (blank : Stops isBlank body) (letter : Stops ('l' == ·) body)
    (offset : Nat) :
    ∃ (last : Blanks) (nodes : List Syntax.Declaration) (place : Nat),
      many Syntax.readDeclaration? Syntax.readDeclaration?_progresses ⟨offset, before.text ++
        (declarations.flatMap (fun entry => entry.1.text ++ entry.2.text) ++ body)⟩ =
          ⟨nodes, [], ⟨place, last.text ++ body⟩⟩ ∧
      List.Forall₂ (fun node entry => ∃ start, node = LooseDeclaration.node start entry.1)
        nodes declarations := by
  induction declarations generalizing before offset with
  | nil =>
    refine ⟨before, [], offset, ?_, .nil⟩
    exact many_of_none _ (readDeclaration?_of_stops blank letter offset)
  | cons entry declarations ih =>
    obtain ⟨declaration, between⟩ := entry
    have found := readDeclaration?_append before declaration (between.text ++
      (declarations.flatMap (fun entry => entry.1.text ++ entry.2.text) ++ body)) offset
    let node := declaration.node (offset + byteLength before.text)
    obtain ⟨last, nodes, place, read, stand⟩ := ih between node.span.stop
    refine ⟨last, node :: nodes, place, ?_, .cons ⟨_, rfl⟩ stand⟩
    rw [List.flatMap_cons, List.append_assoc, List.append_assoc, many_of_some _ found, read]
    rfl

theorem decodes_declarations (source : List Char) (declarations : List (Declaration × Blanks))
    (before : Blanks) {body : List Char} (blank : Stops isBlank body) (letter : Stops ('l' == ·) body)
    (offset : Nat) :
    ∃ (last : Blanks) (nodes : List Syntax.Declaration) (place : Nat),
      many Syntax.readDeclaration? Syntax.readDeclaration?_progresses ⟨offset, before.text ++
        (declarations.flatMap (fun entry => entry.1.text ++ entry.2.text) ++ body)⟩ =
          ⟨nodes, [], ⟨place, last.text ++ body⟩⟩ ∧
      nodes.map (Syntax.Declaration.toDeclaration source) =
        declarations.map fun entry => entry.1.model := by
  obtain ⟨last, nodes, place, read, stand⟩ := many_readDeclaration?_append
    (declarations.map fun entry => (entry.1.loose, entry.2)) before blank letter offset
  rw [List.flatMap_map] at read
  refine ⟨last, nodes, place, read, ?_⟩
  rw [List.forall₂_map_right_iff] at stand
  rw [← List.forall₂_eq_eq_eq, List.forall₂_map_left_iff, List.forall₂_map_right_iff]
  refine stand.imp ?_
  rintro node entry ⟨start, rfl⟩
  exact entry.1.toDeclaration_node source start

end keywords

section selections

theorem decodes_readSelector? (source : List Char) (blanks : Blanks) (placeholder : Placeholder)
    (rest : List Char) (offset : Nat) :
    ∃ reading, Syntax.readSelector? ⟨offset, blanks.text ++ placeholder.text ++ rest⟩ =
        some reading ∧
      Decodes (Syntax.Placeholder.toPart source) placeholder.model rest reading := by
  have start := skipBlank_append blanks
    (placeholder.stops (by decide : isBlank '{' = false) rest) offset
  have brace (place) : Cursor.isAt '{' ⟨place, placeholder.text ++ rest⟩ = true := rfl
  have found : Syntax.readSelector? ⟨offset, blanks.text ++ placeholder.text ++ rest⟩ =
      some (Syntax.readPlaceholder ⟨offset + byteLength blanks.text, placeholder.text ++ rest⟩) := by
    simp [Syntax.readSelector?, start, brace]
  exact ⟨_, found, decodes_readPlaceholder source placeholder rest _⟩

private theorem Key.stops_isBlank (key : Key) (rest : List Char) : Stops isBlank (key.text ++ rest) := by
  cases key with
  | quoted node => exact (OptionValue.quoted node).stops_isBlank rest
  | word node => exact (OptionValue.word node).stops_isBlank rest
  | wildcard => exact stops_cons.mpr (by decide)

/-- The syntax tree of a key that starts at an offset. -/
def Key.node (offset : Nat) : Key → Syntax.Key
  | .quoted node => .quoted (node.token offset)
  | .word node => .word (node.token offset)
  | .wildcard => .wildcard offset

theorem readKey?_append (gap : Gap) (key : Key) {rest : List Char} (stop : Stops isNameChar rest)
    (offset : Nat) :
    let start := offset + byteLength gap.text
    Syntax.readKey? ⟨offset, gap.text ++ (key.text ++ rest)⟩ =
      some ⟨key.node start, [], ⟨start + byteLength key.text, rest⟩⟩ := by
  have start := skipBlank_append gap.toBlanks (key.stops_isBlank rest) offset
  have present := gap.follows_isBlank (key.text ++ rest) offset
  cases key with
  | quoted node =>
    have star (place) : Cursor.isAt '*' ⟨place, node.text ++ rest⟩ = false := rfl
    have bar (place) : Cursor.isAt '|' ⟨place, node.text ++ rest⟩ = true := rfl
    simp only [Key.text] at start present
    simp [Syntax.readKey?, start, present, Key.text, Key.node, star, bar, readQuoted_append,
      Quotation.token, Reading.map]
  | word node =>
    have star := node.not_isAt (by decide : isNameChar '*' = false)
    have bar := node.not_isAt (by decide : isNameChar '|' = false)
    simp only [Key.text] at start present
    simp [Syntax.readKey?, start, present, Key.text, Key.node, star, bar, node.follows_isNameChar,
      readWordToken_append node stop, Reading.map]
  | wildcard =>
    simp only [Key.text, List.singleton_append] at start present
    simp [Syntax.readKey?, start, present, Key.text, Key.node]

theorem decodes_readKey? (entry : Gap × Key) (rest : List Char) (offset : Nat)
    (stop : Stops isNameChar rest) :
    ∃ reading, Syntax.readKey? ⟨offset, entry.1.text ++ entry.2.text ++ rest⟩ = some reading ∧
      Decodes Syntax.Key.toKey entry.2.model rest reading := by
  obtain ⟨gap, key⟩ := entry
  rw [List.append_assoc]
  refine ⟨_, readKey?_append gap key stop offset, _, _, rfl, ?_⟩
  cases key <;> rfl

private theorem readKey?_brace (blanks : Blanks) (tail : List Char) (offset : Nat) :
    Syntax.readKey? ⟨offset, blanks.text ++ '{' :: tail⟩ = none := by
  have start := skipBlank_append blanks
    (stops_isBlank_cons (by decide : isBlank '{' = false) tail) offset
  have word : isNameChar '{' = false := by decide
  simp [Syntax.readKey?, start, word]

theorem decodes_keys (keys : List (Gap × Key)) (before : Blanks) (tail : List Char) (offset : Nat) :
    Decodes (List.map Syntax.Key.toKey) (keys.map fun entry => entry.2.model)
      (before.text ++ '{' :: tail)
      (many Syntax.readKey? Syntax.readKey?_progresses ⟨offset,
        keys.flatMap (fun entry => entry.1.text ++ entry.2.text) ++
          (before.text ++ '{' :: tail)⟩) := by
  have last : Stops isNameChar (before.text ++ '{' :: tail) :=
    before.stops_isNameChar (stops_cons.mpr (by decide))
  refine decodes_many Syntax.readKey?_progresses (Stops isNameChar)
    (fun entry _ => decodes_readKey? entry) (fun entry rest => ?_) last
    (readKey?_brace before tail) offset
  rw [List.append_assoc]
  exact entry.1.stops_isNameChar _

theorem decodes_readVariant? (source : List Char) (entry : Blanks × Variant) {count : Nat}
    (aligned : entry.2.keys.length = count) (rest : List Char) (offset : Nat) :
    ∃ reading, Syntax.readVariant? count ⟨offset, entry.1.text ++ entry.2.text ++ rest⟩ =
        some reading ∧
      Decodes (Syntax.Variant.toVariant source) entry.2.model rest reading := by
  obtain ⟨blanks, keys, nonempty, before, value⟩ := entry
  obtain ⟨tail, shape⟩ : ∃ tail, value.text ++ rest = '{' :: tail := ⟨_, rfl⟩
  obtain ⟨keyed, spelled⟩ : ∃ keyed : List Char,
      keys.flatMap (fun entry => entry.1.text ++ entry.2.text) = keyed := ⟨_, rfl⟩
  have whole : blanks.text ++ Variant.text ⟨keys, nonempty, before, value⟩ ++ rest =
      blanks.text ++ 'w' :: 'h' :: 'e' :: 'n' :: (keyed ++ (before.text ++ '{' :: tail)) := by
    simp [Variant.text, spelled, shape]
  have start (tail) := skipBlank_append blanks
    (stops_isBlank_cons (by decide : isBlank 'w' = false) tail) offset
  have apart : Stops isNameChar (keyed ++ (before.text ++ '{' :: tail)) := by
    cases keys with
    | nil => exact absurd rfl nonempty
    | cons entry keys => simp [← spelled, entry.1.stops_isNameChar]
  have keyword := keyword?_append ['w', 'h', 'e', 'n'] apart
  have size : byteLength ['w', 'h', 'e', 'n'] = 4 := rfl
  simp only [List.cons_append, List.nil_append, size] at keyword
  obtain ⟨nodes, place, read, keyModel⟩ :=
    decodes_keys keys before tail (offset + byteLength blanks.text + 4)
  rw [spelled] at read
  have ready := skipBlank_append before
    (stops_isBlank_cons (by decide : isBlank '{' = false) tail) place
  obtain ⟨node, stop, pattern, model⟩ :=
    decodes_readPattern source value rest (place + byteLength before.text)
  rw [shape] at pattern
  have length : nodes.length = count := by
    rw [← aligned, ← List.length_map Syntax.Key.toKey, keyModel, List.length_map]
  have some_node : nodes ≠ [] := by
    rintro rfl
    exact nonempty (List.eq_nil_of_length_eq_zero (aligned.trans length.symm))
  refine ⟨⟨⟨⟨offset + byteLength blanks.text, node.span.stop⟩, nodes, node⟩, [], ⟨stop, rest⟩⟩,
    ?_, _, _, rfl, ?_⟩
  · rw [whole]
    simp [Syntax.readVariant?, start, keyword, read, ready, Syntax.readVariantPattern, pattern,
      length, some_node]
  · simp [Syntax.Variant.toVariant, keyModel, model, Variant.model]

private theorem readSelector?_of_stops (blanks : Blanks) {rest : List Char} (blank : Stops isBlank rest)
    (brace : Stops (· == '{') rest) (offset : Nat) :
    Syntax.readSelector? ⟨offset, blanks.text ++ rest⟩ = none := by
  have absent (place) : Cursor.isAt '{' ⟨place, rest⟩ = false := follows_of_stops brace place
  simp [Syntax.readSelector?, skipBlank_append blanks blank, absent]

theorem skipBlank_last (blanks : Blanks) (offset : Nat) :
    skipBlank ⟨offset, blanks.text⟩ = ⟨offset + byteLength blanks.text, []⟩ := by
  simpa using skipBlank_append blanks (stops_nil isBlank) offset

private theorem readVariant?_last (blanks : Blanks) (count offset : Nat) :
    Syntax.readVariant? count ⟨offset, blanks.text⟩ = none := by
  simp [Syntax.readVariant?, skipBlank_last, keyword?_of_stops]

theorem decodes_readSelect (source : List Char) (selection : Selection) (after : Blanks)
    (here : Cursor) (offset : Nat) :
    Decodes
      (fun node => (node.selectors.map (Syntax.Placeholder.toPart source),
        node.variants.map (Syntax.Variant.toVariant source)))
      (selection.selectors.map (fun entry => entry.2.model),
        selection.variants.map fun entry => entry.2.model)
      after.text
      (Syntax.readSelect here
        ⟨offset, selection.selectors.flatMap (fun entry => entry.1.text ++ entry.2.text) ++
          (selection.variants.flatMap (fun entry => entry.1.text ++ entry.2.text) ++ after.text)⟩) := by
  obtain ⟨selectors, variants, selected, varied, aligned⟩ := selection
  have boundary (place : Nat) : Syntax.readSelector? ⟨place,
      variants.flatMap (fun entry => entry.1.text ++ entry.2.text) ++ after.text⟩ = none := by
    cases variants with
    | nil => exact absurd rfl varied
    | cons entry variants =>
      rw [List.flatMap_cons, List.append_assoc, List.append_assoc]
      exact readSelector?_of_stops entry.1 (stops_cons.mpr (by decide))
        (stops_cons.mpr (by decide)) place
  obtain ⟨nodes, place, read, model⟩ := decodes_many Syntax.readSelector?_progresses (fun _ => True)
    (fun entry (_ : entry ∈ selectors) rest offset _ =>
      decodes_readSelector? source entry.1 entry.2 rest offset)
    (fun _ _ => trivial) trivial boundary offset
  have count : nodes.length = selectors.length := by simpa using congrArg List.length model
  obtain ⟨branches, stop, branched, values⟩ := decodes_many
    (Syntax.readVariant?_progresses nodes.length) (fun _ => True)
    (fun entry member rest offset _ =>
      decodes_readVariant? source entry ((aligned entry member).trans count.symm) rest offset)
    (fun _ _ => trivial) trivial (readVariant?_last after nodes.length) place
  have some_node : nodes ≠ [] := by
    rintro rfl
    exact selected (List.eq_nil_of_length_eq_zero count.symm)
  have some_branch : branches ≠ [] := by
    rintro rfl
    exact varied (List.map_eq_nil_iff.mp values.symm)
  refine ⟨⟨⟨here.offset, stop⟩, nodes, branches⟩, stop, ?_, by simp [model, values]⟩
  simp [Syntax.readSelect, read, branched, some_node, some_branch]

private theorem toVariants_eq_model {source : List Char} {selection : Selection} {node : Syntax.Select}
    (selectors : node.selectors.map (Syntax.Placeholder.toPart source) =
      selection.selectors.map fun entry => entry.2.model)
    (variants : node.variants.map (Syntax.Variant.toVariant source) =
      selection.variants.map fun entry => entry.2.model) :
    (node.variants.filter fun variant => variant.keys.length == node.selectors.length).map
      (Syntax.Variant.toVariant source) = selection.variants.map fun entry => entry.2.model := by
  have count : node.selectors.length = selection.selectors.length := by
    simpa using congrArg List.length selectors
  have kept : (node.variants.filter fun variant =>
      variant.keys.length == node.selectors.length) = node.variants := by
    apply List.filter_eq_self.mpr
    intro variant member
    have image := List.mem_map_of_mem (f := Syntax.Variant.toVariant source) member
    rw [variants] at image
    obtain ⟨entry, among, same⟩ := List.mem_map.mp image
    have keys := congrArg (fun value => value.keys.length) same
    simp only [Variant.model, Syntax.Variant.toVariant, List.length_map] at keys
    rw [← keys, selection.aligned entry among, count, beq_self_eq_true]
  rw [kept, variants]

end selections

section templates

theorem Body.stops_isBlank (body : Body) (rest : List Char) : Stops isBlank (body.text ++ rest) := by
  cases body <;> exact stops_cons.mpr (by decide)

theorem Body.stops_letter (body : Body) (rest : List Char) : Stops ('l' == ·) (body.text ++ rest) := by
  cases body <;> exact stops_cons.mpr (by decide)

private theorem Selection.stops_isNameChar (selection : Selection) (rest : List Char) :
    Stops isNameChar
      (selection.selectors.flatMap (fun entry => entry.1.text ++ entry.2.text) ++ rest) := by
  obtain ⟨selectors, variants, selected, varied, aligned⟩ := selection
  cases selectors with
  | nil => exact absurd rfl selected
  | cons entry selectors =>
    rw [List.flatMap_cons, List.append_assoc, List.append_assoc]
    exact entry.1.stops_isNameChar (stops_cons.mpr (by decide))

theorem readBody_pattern (pattern : Pattern) (rest : List Char) (offset : Nat) :
    Syntax.readBody ⟨offset, pattern.text ++ rest⟩ =
      (Syntax.readPattern ⟨offset, pattern.text ++ rest⟩).map .pattern := by
  have absent : Stops ('m' == ·) (pattern.text ++ rest) := stops_cons.mpr (by decide)
  have brace : Cursor.isAt '{' ⟨offset, pattern.text ++ rest⟩ = true := rfl
  simp [Syntax.readBody, keyword?_of_stops absent, brace]

theorem readBody_selection (selection : Selection) (rest : List Char) (offset : Nat) :
    Syntax.readBody ⟨offset, selection.text ++ rest⟩ =
      (Syntax.readSelect ⟨offset, selection.text ++ rest⟩
        ⟨offset + 5, selection.selectors.flatMap (fun entry => entry.1.text ++ entry.2.text) ++
          (selection.variants.flatMap (fun entry => entry.1.text ++ entry.2.text) ++ rest)⟩).map
        .select := by
  have keyword := keyword?_append ['m', 'a', 't', 'c', 'h'] (selection.stops_isNameChar
    (selection.variants.flatMap (fun entry => entry.1.text ++ entry.2.text) ++ rest)) offset
  have shape : selection.text ++ rest = ['m', 'a', 't', 'c', 'h'] ++
      (selection.selectors.flatMap (fun entry => entry.1.text ++ entry.2.text) ++
        (selection.variants.flatMap (fun entry => entry.1.text ++ entry.2.text) ++ rest)) := by
    simp [Selection.text]
  rw [shape, Syntax.readBody, keyword]
  rfl

/-- A text that is a pattern alone is read without an error, as the message of that pattern. -/
theorem parse_pattern (pattern : Pattern) :
    Message.parse (String.ofList pattern.text) = (⟨.pattern pattern.model, none⟩, []) := by
  obtain ⟨source, whole⟩ : ∃ source, pattern.text = source := ⟨_, rfl⟩
  have blank : Stops isBlank source := whole ▸ stops_cons.mpr (by decide)
  have letter : Stops ('l' == ·) source := whole ▸ stops_cons.mpr (by decide)
  have undeclared : Syntax.readDeclaration? ⟨0, Blanks.empty.text ++ source⟩ = none :=
    readDeclaration?_of_stops blank letter 0
  rw [Blanks.empty_text, List.nil_append] at undeclared
  have body := readBody_pattern pattern [] 0
  obtain ⟨node, stop, read, model⟩ := decodes_readPattern source pattern [] 0
  rw [List.append_nil, whole] at body read
  have parsed : Syntax.parseTemplate source = (⟨[], .pattern node⟩, []) := by
    simp [Syntax.parseTemplate, Cursor.start, many_of_none _ undeclared, skipBlank_of_stops blank,
      body, read, skipBlank_of_stops (stops_nil isBlank)]
  simp [whole, Message.parse, parsed, Syntax.Template.toMessage, model]

/-- The text of a derivation is read without an error, as the message of the derivation. -/
theorem parse_text (template : Template) :
    Message.parse (String.ofList template.text) = (template.model, []) := by
  obtain ⟨before, declarations, body, after⟩ := template
  obtain ⟨source, whole⟩ : ∃ source, Template.text ⟨before, declarations, body, after⟩ = source :=
    ⟨_, rfl⟩
  obtain ⟨last, nodes, place, read, declared⟩ := decodes_declarations source declarations before
    (body.stops_isBlank after.text) (body.stops_letter after.text) 0
  have start := skipBlank_append last (body.stops_isBlank after.text) place
  have begins : Cursor.start source = ⟨0, before.text ++ (declarations.flatMap
      (fun entry => entry.1.text ++ entry.2.text) ++ (body.text ++ after.text))⟩ := by
    rw [← whole]
    rfl
  rw [whole]
  cases body with
  | pattern pattern =>
    obtain ⟨node, stop, found, model⟩ :=
      decodes_readPattern source pattern after.text (place + byteLength last.text)
    have parsed : Syntax.parseTemplate source = (⟨nodes, .pattern node⟩, []) := by
      rw [Syntax.parseTemplate, begins, read, start]
      simp [Body.text, readBody_pattern, found, skipBlank_last]
    simp [Message.parse, parsed, Syntax.Template.toMessage, Template.model, declared, model,
      Message.ofSelect]
  | selection selection =>
    obtain ⟨node, stop, found, model⟩ := decodes_readSelect source selection after
      ⟨place + byteLength last.text, selection.text ++ after.text⟩ (place + byteLength last.text + 5)
    obtain ⟨selectors, variants⟩ := Prod.mk.inj model
    have parsed : Syntax.parseTemplate source = (⟨nodes, .select node⟩, []) := by
      rw [Syntax.parseTemplate, begins, read, start]
      simp [Body.text, readBody_selection, found, skipBlank_last]
    have kept := toVariants_eq_model selectors variants
    have chosen := congrArg (List.map fun value : Part => (⟨value, none⟩ : Selector)) selectors
    simp only [List.map_map, Function.comp_def] at chosen
    simp [Message.parse, parsed, Syntax.Template.toMessage, Template.model, Selection.model, declared,
      Message.ofSelect, kept, chosen]

/-- A declaration of `$n` before a selection on it, whose only variant has an escaped brace. -/
theorem parse_declared_selection :
    let count : Phrasebook.Operand := .ofNames ["n"]
    Message.parse "let $n=\x7b$a.b\x7d match\x7b$n :f k=|x| k=y\x7d when *\x7b1\\\x7b\x7d" =
      (⟨.select ⟨[⟨"n", .ofOperand (.ofNames ["a", "b"])⟩],
        [⟨.call ⟨"f", [count], [("k", .literal "y" none)], none⟩, none⟩],
        [⟨[.wildcard], ⟨[.literal "1\x7b" none], trivial⟩⟩]⟩, none⟩, []) := by
  let blank : Blanks := ⟨[' '], by simp [isBlank]⟩
  let empty : Blanks := ⟨[], by simp⟩
  let gap : Gap := ⟨blank, by simp [blank]⟩
  let key : Name := ⟨'k', [], by decide, by simp⟩
  let function : Name := ⟨'f', [], by decide, by simp⟩
  let count : Variable := ⟨'n', [], by decide, by simp⟩
  let source : Variable := ⟨'a', ['.', 'b'], by decide, List.all_eq_true.mp rfl⟩
  let word : Word := ⟨['y'], by simp, List.all_eq_true.mp rfl⟩
  let options : Settings :=
    [(gap, ⟨key, empty, empty, .quoted ⟨[.plain 'x' (by decide)]⟩⟩),
      (gap, ⟨key, empty, empty, .word word⟩)]
  let call : Content := .call (some (.binding count)) blank ⟨function, options⟩
  let value : Pattern := ⟨[.run [.plain '1' (by decide), .escape '{' (by decide)] (by simp)]⟩
  let variant : Variant := ⟨[(gap, .wildcard)], by simp, empty, value⟩
  exact parse_text ⟨empty,
    [(⟨gap, count, empty, empty, ⟨empty, .plain (.binding source), empty⟩⟩, blank)],
    .selection ⟨[(empty, ⟨empty, call, empty⟩)], [(blank, variant)], by simp, by simp,
      by simp [variant]⟩, empty⟩

end templates

end Phrasebook.Grammar
