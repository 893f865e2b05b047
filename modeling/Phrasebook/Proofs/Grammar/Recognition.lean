import Phrasebook.Proofs.Grammar.Acceptance
import Phrasebook.Proofs.Grammar.Decoding

namespace Phrasebook.Grammar

open Text (Cursor byteLength)
open Syntax (Step skipBlank many parseTemplate)

section repetition

/-- Where each reading of a step without an error passes the text of an item, a repetition without an
error passes the texts of as many items as it reads nodes. -/
theorem exists_items_of_many {step : Step α} {progresses : step.Progresses} {text : ι → List Char}
    (reads : ∀ {here reading}, step here = some reading → reading.errors = [] →
      ∃ item, here.rest = text item ++ reading.next.rest)
    {here : Cursor} (clean : (many step progresses here).errors = []) :
    ∃ items : List ι, items.length = (many step progresses here).value.length ∧
      here.rest = items.flatMap text ++ (many step progresses here).next.rest := by
  fun_induction many step progresses here with
  | case1 here nothing => exact ⟨[], rfl, rfl⟩
  | case2 here first found more ih =>
    obtain ⟨firstClean, moreClean⟩ := List.append_eq_nil_iff.mp clean
    obtain ⟨item, passed⟩ := reads found firstClean
    obtain ⟨items, length, remaining⟩ := ih moreClean
    refine ⟨item :: items, congrArg Nat.succ length, ?_⟩
    rw [passed, remaining, List.flatMap_cons, List.append_assoc]

end repetition

section patterns

private theorem exists_items_of_patternText {offset : Nat} {text : List Char}
    (clean : (Syntax.patternText offset text).errors = []) :
    ∃ items : List (Escaped ['\\', '{', '}']),
      text = Escaped.spelling items ++ (Syntax.patternText offset text).next.rest := by
  fun_induction Syntax.patternText offset text with
  | case1 offset => exact ⟨[], rfl⟩
  | case2 offset rest => exact ⟨[], rfl⟩
  | case3 offset rest => exact ⟨[], rfl⟩
  | case4 offset rest ih =>
    obtain ⟨items, split⟩ := ih clean
    exact ⟨.escape '\\' (by simp) :: items, by simpa [Escaped.text] using split⟩
  | case5 offset rest ih =>
    obtain ⟨items, split⟩ := ih clean
    exact ⟨.escape '{' (by simp) :: items, by simpa [Escaped.text] using split⟩
  | case6 offset rest ih =>
    obtain ⟨items, split⟩ := ih clean
    exact ⟨.escape '}' (by simp) :: items, by simpa [Escaped.text] using split⟩
  | case7 offset rest _ _ _ more ih => cases clean
  | case8 offset c rest notOpen notClose _ _ _ notBackslash ih =>
    obtain ⟨items, split⟩ := ih clean
    have free : c ∉ ['\\', '{', '}'] := by simpa using ⟨notBackslash, notOpen, notClose⟩
    exact ⟨.plain c free :: items, by simpa [Escaped.text] using split⟩

private theorem exists_element {here : Cursor} {reading : Syntax.Reading Syntax.Element}
    (found : Syntax.readElement? here = some reading) (clean : reading.errors = []) :
    ∃ element : Element, here.rest = element.text ++ reading.next.rest := by
  have shorter := (Syntax.readElement?_progresses here reading found).2
  simp only [Syntax.readElement?] at found
  split at found
  · cases found
  · split at found
    · next opens =>
      obtain rfl := Option.some.inj found
      obtain ⟨placeholder, passed⟩ := exists_placeholder opens clean
      exact ⟨.placeholder placeholder, passed⟩
    · obtain rfl := Option.some.inj found
      obtain ⟨items, passed⟩ := exists_items_of_patternText clean
      have nonempty : items ≠ [] := by
        rintro rfl
        rw [Escaped.spelling_nil, List.nil_append] at passed
        rw [← passed] at shorter
        exact Nat.lt_irrefl _ shorter
      exact ⟨.run items nonempty, passed⟩

theorem exists_pattern {here : Cursor} (opens : here.isAt '{' = true)
    (clean : (Syntax.readPattern here).errors = []) :
    ∃ pattern : Pattern, here.rest = pattern.text ++ (Syntax.readPattern here).next.rest := by
  obtain ⟨elementsClean, closing⟩ := List.append_eq_nil_iff.mp clean
  obtain ⟨elements, -, passed⟩ := exists_items_of_many exists_element elementsClean
  refine ⟨⟨elements⟩, ?_⟩
  rw [rest_eq_of_isAt opens, passed, expect_clean closing]
  simp [Pattern.text, Syntax.readPattern]

end patterns

section declarations

theorem rest_eq_of_keyword? {word : List Char} {here after : Cursor}
    (found : Syntax.keyword? word here = some after) : here.rest = word ++ after.rest := by
  obtain ⟨present, -⟩ := Option.filter_eq_some_iff.mp found
  simp only [Cursor.after?] at present
  split at present
  · next starts =>
    obtain ⟨rest, whole⟩ := List.isPrefixOf_iff_prefix.mp starts
    obtain rfl := Option.some.inj present
    simp [← whole]
  · cases present

private theorem exists_target {here : Cursor} (clean : (Syntax.readTarget here).errors = []) :
    ∃ target : Variable, here.rest = target.text ++ (Syntax.readTarget here).next.rest := by
  unfold Syntax.readTarget at clean ⊢
  split at clean
  · next sigil =>
    rw [if_pos sigil]
    exact exists_variable sigil clean
  · cases clean

private theorem exists_declared {here : Cursor} (clean : (Syntax.readDeclared here).errors = []) :
    ∃ value : Placeholder, here.rest = value.text ++ (Syntax.readDeclared here).next.rest := by
  unfold Syntax.readDeclared at clean ⊢
  split at clean
  · next opens =>
    rw [if_pos opens]
    exact exists_placeholder opens clean
  · cases clean

/-- Nothing is reported of the blanks after the keyword, whether there are any or not. -/
theorem exists_declaration {here : Cursor} {reading : Syntax.Reading Syntax.Declaration}
    (found : Syntax.readDeclaration? here = some reading) (clean : reading.errors = []) :
    ∃ entry : Blanks × LooseDeclaration,
      here.rest = (entry.1.text ++ entry.2.text) ++ reading.next.rest := by
  obtain ⟨next, keyword, rfl⟩ := Option.map_eq_some_iff.mp found
  obtain ⟨openingClean, valueClean⟩ := List.append_eq_nil_iff.mp clean
  obtain ⟨targetClean, signClean⟩ := List.append_eq_nil_iff.mp openingClean
  obtain ⟨blanks, spaced⟩ := exists_blanks here
  obtain ⟨lead, led⟩ := exists_blanks next
  obtain ⟨target, bound⟩ := exists_target targetClean
  obtain ⟨before, padded⟩ := exists_blanks (Syntax.readTarget (skipBlank next)).next
  have sign := expect_clean signClean
  obtain ⟨after, filled⟩ := exists_blanks
    (Syntax.expect '=' (skipBlank (Syntax.readTarget (skipBlank next)).next)).next
  obtain ⟨value, passed⟩ := exists_declared valueClean
  refine ⟨(blanks, ⟨lead, target, before, after, value⟩), ?_⟩
  rw [spaced, rest_eq_of_keyword? keyword, led, bound, padded, sign, filled, passed]
  simp [LooseDeclaration.text]

/-- Blanks before declarations and after all of them are blanks before all of them and after each. -/
theorem exists_shifted (entries : List (Blanks × LooseDeclaration)) (last : Blanks) :
    ∃ (first : Blanks) (declarations : List (LooseDeclaration × Blanks)),
      entries.flatMap (fun entry => entry.1.text ++ entry.2.text) ++ last.text =
        first.text ++ declarations.flatMap fun entry => entry.1.text ++ entry.2.text := by
  induction entries with
  | nil => exact ⟨last, [], by simp⟩
  | cons entry entries ih =>
    obtain ⟨first, declarations, same⟩ := ih
    refine ⟨entry.1, (entry.2, first) :: declarations, ?_⟩
    rw [List.flatMap_cons, List.append_assoc, same]
    simp

end declarations

section selections

private theorem exists_selector {here : Cursor} {reading : Syntax.Reading Syntax.Placeholder}
    (found : Syntax.readSelector? here = some reading) (clean : reading.errors = []) :
    ∃ entry : Blanks × Placeholder,
      here.rest = (entry.1.text ++ entry.2.text) ++ reading.next.rest := by
  simp only [Syntax.readSelector?] at found
  split at found
  · next opens =>
    obtain rfl := Option.some.inj found
    obtain ⟨blanks, spaced⟩ := exists_blanks here
    obtain ⟨selector, passed⟩ := exists_placeholder opens clean
    refine ⟨(blanks, selector), ?_⟩
    rw [spaced, passed, List.append_assoc]
  · cases found

private theorem exists_key {here : Cursor} {reading : Syntax.Reading Syntax.Key}
    (found : Syntax.readKey? here = some reading) (clean : reading.errors = []) :
    ∃ entry : Gap × Key, here.rest = (entry.1.text ++ entry.2.text) ++ reading.next.rest := by
  simp only [Syntax.readKey?] at found
  split at found
  · cases found
  · next present =>
    obtain ⟨gap, spaced⟩ := exists_gap (by simpa using present)
    have key : ∃ key : Key, (skipBlank here).rest = key.text ++ reading.next.rest := by
      split at found
      · next star =>
        obtain rfl := Option.some.inj found
        exact ⟨.wildcard, rest_eq_of_isAt star⟩
      · split at found
        · next bar =>
          obtain rfl := Option.some.inj found
          obtain ⟨quotation, passed⟩ := exists_quotation bar clean
          exact ⟨.quoted quotation, passed⟩
        · split at found
          · next named =>
            obtain rfl := Option.some.inj found
            obtain ⟨word, passed⟩ := exists_word named
            exact ⟨.word word, passed⟩
          · cases found
    obtain ⟨key, passed⟩ := key
    refine ⟨(gap, key), ?_⟩
    rw [spaced, passed, List.append_assoc]

private theorem exists_variantPattern {here : Cursor} (clean : (Syntax.readVariantPattern here).errors = []) :
    ∃ value : Pattern, here.rest = value.text ++ (Syntax.readVariantPattern here).next.rest := by
  unfold Syntax.readVariantPattern at clean ⊢
  split at clean
  · next opens =>
    rw [if_pos opens]
    exact exists_pattern opens clean
  · cases clean

private theorem exists_variant {count : Nat} {here : Cursor} {reading : Syntax.Reading Syntax.Variant}
    (found : Syntax.readVariant? count here = some reading) (clean : reading.errors = []) :
    ∃ entry : { entry : Blanks × Variant // entry.2.keys.length = count },
      here.rest = (entry.1.1.text ++ entry.1.2.text) ++ reading.next.rest := by
  obtain ⟨next, keyword, rfl⟩ := Option.map_eq_some_iff.mp found
  obtain ⟨ownClean, counted⟩ := List.append_eq_nil_iff.mp clean
  obtain ⟨keyedClean, valueClean⟩ := List.append_eq_nil_iff.mp ownClean
  obtain ⟨keysClean, keyed⟩ := List.append_eq_nil_iff.mp keyedClean
  obtain ⟨blanks, spaced⟩ := exists_blanks here
  obtain ⟨keys, length, passed⟩ := exists_items_of_many exists_key keysClean
  obtain ⟨before, padded⟩ :=
    exists_blanks (many Syntax.readKey? Syntax.readKey?_progresses next).next
  obtain ⟨value, valued⟩ := exists_variantPattern valueClean
  have some_node : (many Syntax.readKey? Syntax.readKey?_progresses next).value ≠ [] := by
    intro nothing
    simp [nothing] at keyed
  have aligned : (many Syntax.readKey? Syntax.readKey?_progresses next).value.length = count := by
    by_contra different
    simp [some_node, different] at counted
  have some_key : keys ≠ [] := by
    rintro rfl
    exact some_node (List.eq_nil_of_length_eq_zero length.symm)
  refine ⟨⟨(blanks, ⟨keys, some_key, before, value⟩), length.trans aligned⟩, ?_⟩
  rw [spaced, rest_eq_of_keyword? keyword, passed, padded, valued]
  simp [Variant.text]

private theorem exists_selection (here : Cursor) {after : Cursor}
    (clean : (Syntax.readSelect here after).errors = []) :
    ∃ selection : Selection, ['m', 'a', 't', 'c', 'h'] ++ after.rest =
      selection.text ++ (Syntax.readSelect here after).next.rest := by
  obtain ⟨ownClean, varied⟩ := List.append_eq_nil_iff.mp clean
  obtain ⟨chosenClean, variantsClean⟩ := List.append_eq_nil_iff.mp ownClean
  obtain ⟨selectorsClean, chosen⟩ := List.append_eq_nil_iff.mp chosenClean
  obtain ⟨selectors, count, selected⟩ := exists_items_of_many exists_selector selectorsClean
  obtain ⟨variants, length, passed⟩ := exists_items_of_many exists_variant variantsClean
  have some_selector : selectors ≠ [] := by
    rintro rfl
    simp [List.eq_nil_of_length_eq_zero count.symm] at chosen
  have some_variant : variants.map Subtype.val ≠ [] := by
    intro nothing
    rw [List.map_eq_nil_iff.mp nothing] at length
    simp [List.eq_nil_of_length_eq_zero length.symm] at varied
  have aligned : ∀ entry ∈ variants.map Subtype.val, entry.2.keys.length = selectors.length := by
    rw [List.forall_mem_map]
    exact fun entry _ => entry.2.trans count.symm
  refine ⟨⟨selectors, variants.map Subtype.val, some_selector, some_variant, aligned⟩, ?_⟩
  rw [selected, passed]
  simp [Selection.text, Syntax.readSelect, List.flatMap_map]

end selections

section templates

private theorem exists_body {here : Cursor} (clean : (Syntax.readBody here).errors = []) :
    ∃ body : Body, here.rest = body.text ++ (Syntax.readBody here).next.rest := by
  unfold Syntax.readBody at clean ⊢
  split at clean
  · next after keyword =>
    obtain ⟨selection, passed⟩ := exists_selection here clean
    refine ⟨.selection selection, ?_⟩
    rw [rest_eq_of_keyword? keyword]
    exact passed
  · split at clean
    · next opens =>
      obtain ⟨pattern, passed⟩ := exists_pattern opens clean
      refine ⟨.pattern pattern, ?_⟩
      rw [if_pos opens]
      exact passed
    · cases clean

/-- A text that is read without an error has a derivation, but for the blanks after the keywords of
its declarations. -/
theorem exists_looseTemplate {source : List Char} (clean : (parseTemplate source).2 = []) :
    ∃ template : LooseTemplate, template.text = source := by
  let declared := many Syntax.readDeclaration? Syntax.readDeclaration?_progresses (Cursor.start source)
  obtain ⟨ownClean, trailing⟩ := List.append_eq_nil_iff.mp clean
  obtain ⟨declarationsClean, bodyClean⟩ := List.append_eq_nil_iff.mp ownClean
  obtain ⟨entries, -, passed⟩ := exists_items_of_many exists_declaration declarationsClean
  obtain ⟨last, spaced⟩ := exists_blanks declared.next
  obtain ⟨body, read⟩ := exists_body bodyClean
  obtain ⟨after, padded⟩ := exists_blanks (Syntax.readBody (skipBlank declared.next)).next
  have ended : (skipBlank (Syntax.readBody (skipBlank declared.next)).next).rest = [] := by
    by_contra more
    simp [declared, more] at trailing
  obtain ⟨before, declarations, shifted⟩ := exists_shifted entries last
  refine ⟨⟨before, declarations, body, after⟩, ?_⟩
  calc LooseTemplate.text ⟨before, declarations, body, after⟩
    _ = (before.text ++ declarations.flatMap fun entry => entry.1.text ++ entry.2.text) ++
        (body.text ++ after.text) := by simp [LooseTemplate.text]
    _ = (entries.flatMap (fun entry => entry.1.text ++ entry.2.text) ++ last.text) ++
        (body.text ++ after.text) := by rw [shifted]
    _ = (Cursor.start source).rest := by
      rw [passed, spaced, read, padded, ended]
      simp
    _ = source := rfl

theorem readBody_append (body : Body) (after : Blanks) (offset : Nat) :
    ∃ node place, Syntax.readBody ⟨offset, body.text ++ after.text⟩ =
      ⟨node, [], ⟨place, after.text⟩⟩ := by
  cases body with
  | pattern pattern =>
    obtain ⟨node, place, read, -⟩ := decodes_readPattern [] pattern after.text offset
    refine ⟨.pattern node, place, ?_⟩
    rw [Body.text, readBody_pattern, read]
    rfl
  | selection selection =>
    obtain ⟨node, place, read, -⟩ := decodes_readSelect [] selection after
      ⟨offset, selection.text ++ after.text⟩ (offset + 5)
    refine ⟨.select node, place, ?_⟩
    rw [Body.text, readBody_selection, read]
    rfl

/-- Every derivation, also one without blanks after some keyword, is read without an error. -/
theorem parseTemplate_loose (template : LooseTemplate) :
    ∃ nodes body, parseTemplate template.text = (⟨nodes, body⟩, []) ∧
      List.Forall₂ (fun node entry => ∃ start, node = LooseDeclaration.node start entry.1)
        nodes template.declarations := by
  obtain ⟨before, declarations, body, after⟩ := template
  obtain ⟨last, nodes, place, read, stand⟩ := many_readDeclaration?_append declarations before
    (body.stops_isBlank after.text) (body.stops_letter after.text) 0
  have start := skipBlank_append last (body.stops_isBlank after.text) place
  obtain ⟨node, stop, found⟩ := readBody_append body after (place + byteLength last.text)
  refine ⟨nodes, node, ?_, stand⟩
  simp [parseTemplate, LooseTemplate.text, Cursor.start, read, start, found, skipBlank_last]

end templates

section gaps

/-- Something stands between the keyword of a declaration and its target. -/
def Spaced (node : Syntax.Declaration) : Prop := node.span.start + 3 < node.target.span.start

instance (node : Syntax.Declaration) : Decidable (Spaced node) := Nat.decLt ..

theorem byteLength_pos_iff {text : List Char} : 0 < byteLength text ↔ text ≠ [] := by
  cases text with
  | nil => simp
  | cons c text =>
    have size := c.utf8Size_pos
    simp only [Text.byteLength_cons, ne_eq, reduceCtorEq, not_false_eq_true, iff_true]
    omega

private theorem LooseDeclaration.spaced_node_iff (declaration : LooseDeclaration) (start : Nat) :
    Spaced (declaration.node start) ↔ declaration.lead.text ≠ [] := by
  rw [← byteLength_pos_iff]
  simp only [Spaced, node, Variable.token]
  omega

theorem Template.text_loose (template : Template) : template.loose.text = template.text := by
  simp only [LooseTemplate.text, loose, List.flatMap_map]
  rfl

private theorem exists_template_of_leads {template : LooseTemplate}
    (leads : ∀ entry ∈ template.declarations, entry.1.lead.text ≠ []) :
    ∃ strict : Template, strict.loose = template := by
  obtain ⟨before, entries, body, after⟩ := template
  suffices strict : ∃ declarations : List (Declaration × Blanks),
      declarations.map (fun entry => (entry.1.loose, entry.2)) = entries by
    obtain ⟨declarations, rfl⟩ := strict
    exact ⟨⟨before, declarations, body, after⟩, rfl⟩
  induction entries with
  | nil => exact ⟨[], rfl⟩
  | cons entry entries ih =>
    obtain ⟨declarations, rfl⟩ := ih fun other member => leads other (List.mem_cons_of_mem _ member)
    obtain ⟨⟨lead, target, before, after, value⟩, blanks⟩ := entry
    have gap := leads _ List.mem_cons_self
    exact ⟨(⟨⟨lead, gap⟩, target, before, after, value⟩, blanks) :: declarations, rfl⟩

/-- Each declaration of a derivation is spaced in the tree that is read of its text exactly if blanks
follow its keyword. -/
theorem forall_spaced_iff {nodes : List Syntax.Declaration}
    {declarations : List (LooseDeclaration × Blanks)}
    (stand : List.Forall₂ (fun node entry => ∃ start, node = LooseDeclaration.node start entry.1)
      nodes declarations) :
    (∀ node ∈ nodes, Spaced node) ↔ ∀ entry ∈ declarations, entry.1.lead.text ≠ [] := by
  induction stand with
  | nil => simp
  | cons stands stand ih =>
    obtain ⟨start, rfl⟩ := stands
    rw [List.forall_mem_cons, List.forall_mem_cons, ih, LooseDeclaration.spaced_node_iff]

/-- A text of the grammar is read without an error, and with spaced declarations alone. -/
theorem parseTemplate_spaced (template : Template) :
    (parseTemplate template.text).2 = [] ∧
      ∀ node ∈ (parseTemplate template.text).1.declarations, Spaced node := by
  obtain ⟨nodes, body, read, stand⟩ := parseTemplate_loose template.loose
  rw [← template.text_loose, read]
  refine ⟨rfl, (forall_spaced_iff stand).mpr ?_⟩
  rw [Template.loose, List.forall_mem_map]
  exact fun entry _ => entry.1.gap.nonempty

/-- A text is read without an error exactly if it has a derivation but for the blanks after the
keywords of declarations. It is derivable exactly if, besides, in the tree that is read every
declaration is spaced. -/
theorem parseTemplate_exact (source : List Char) :
    ((parseTemplate source).2 = [] ↔ ∃ template : LooseTemplate, template.text = source) ∧
    ((∃ template : Template, template.text = source) ↔
      (parseTemplate source).2 = [] ∧ ∀ node ∈ (parseTemplate source).1.declarations, Spaced node) := by
  refine ⟨⟨exists_looseTemplate, ?_⟩, ?_, ?_⟩
  · rintro ⟨template, rfl⟩
    obtain ⟨nodes, body, read, -⟩ := parseTemplate_loose template
    rw [read]
  · rintro ⟨template, rfl⟩
    exact parseTemplate_spaced template
  · rintro ⟨clean, spaced⟩
    obtain ⟨template, rfl⟩ := exists_looseTemplate clean
    obtain ⟨nodes, body, read, stand⟩ := parseTemplate_loose template
    rw [read] at spaced
    obtain ⟨strict, rfl⟩ := exists_template_of_leads ((forall_spaced_iff stand).mp spaced)
    exact ⟨strict, strict.text_loose.symm⟩

/-- Where the dollar sign follows on the keyword at once, nothing is reported, and yet the grammar does
not derive the text. -/
theorem parseTemplate_unspaced :
    let source := "let$n=\x7b|1|\x7d\x7b\x7d".toList
    (parseTemplate source).2 = [] ∧ ¬ ∃ template : Template, template.text = source := by
  intro source
  have unspaced : ¬ ∀ node ∈ (parseTemplate source).1.declarations, Spaced node := by decide +kernel
  refine ⟨by decide +kernel, ?_⟩
  rintro ⟨template, same⟩
  exact unspaced (same ▸ (parseTemplate_spaced template).2)

end gaps

end Phrasebook.Grammar
