import Mathlib.Data.List.Forall2
import Phrasebook.Resolve.Basic

namespace Phrasebook

section keys

/-- The text that a key is compared with. Texts and numbers have one. -/
def Value.keyText? : Value → Option String
  | .text plain => some plain
  | .number integer => some (numberText integer)
  | .float double => some (Decimal.floatText double)
  | _ => none

theorem Value.isKey_iff {value : Value} {key : String} :
    value.isKey key ↔ value.keyText? = some key := by
  cases value <;> simp [isKey, keyText?]

theorem Value.hasKey_iff {value : Value} {key : String} :
    value.hasKey key ↔ ∃ items, value = .list items ∧ ∃ item ∈ items, item.keyText? = some key := by
  cases value <;> simp [hasKey, list?, isKey_iff]

namespace ResolvedSelector

/-- The key is the text of the selector's value, which is not a list. -/
inductive Equals (selector : ResolvedSelector) : VariantKey → Prop
  | text (same : selector.value.keyText? = some key) : Equals selector (.literal key)

/-- The key matches the selector. -/
inductive Accepts (selector : ResolvedSelector) : VariantKey → Prop
  | wildcard : Accepts selector .wildcard
  | default : Accepts selector (.literal selector.defaultKey)
  | equal (same : selector.Equals key) : Accepts selector key
  | member (list : selector.value = .list items) (listed : item ∈ items)
      (same : item.keyText? = some key) : Accepts selector (.literal key)

variable {selector : ResolvedSelector}

theorem equals_literal {key : String} :
    selector.Equals (.literal key) ↔ selector.value.keyText? = some key :=
  ⟨fun ⟨same⟩ => same, .text⟩

theorem match?_isSome_iff {key : VariantKey} :
    (selector.match? key).isSome ↔ selector.Accepts key := by
  cases key with
  | wildcard => exact iff_of_true rfl .wildcard
  | literal key =>
    simp only [match?]
    constructor
    · intro matched
      split at matched
      · next same => exact .equal (.text (Value.isKey_iff.mp same))
      · split at matched
        · next listed =>
          obtain ⟨items, list, item, member, same⟩ := Value.hasKey_iff.mp listed
          exact .member list member same
        · split at matched
          · next same => exact same ▸ .default
          · cases matched
    · intro accepted
      cases accepted with
      | default =>
        split
        · rfl
        · rw [if_pos rfl]
          split <;> rfl
      | equal same =>
        rw [if_pos (Value.isKey_iff.mpr (equals_literal.mp same))]
        rfl
      | member list listed same =>
        rw [if_pos (Value.hasKey_iff.mpr ⟨_, list, _, listed, same⟩)]
        split <;> rfl

theorem match?_eq_exact_iff {key : VariantKey} :
    selector.match? key = some .exact ↔ selector.Equals key := by
  cases key with
  | wildcard => exact iff_of_false nofun nofun
  | literal key =>
    rw [equals_literal, ← Value.isKey_iff]
    simp only [match?]
    constructor
    · intro matched
      split at matched
      · assumption
      · split at matched
        · cases matched
        · split at matched
          · cases matched
          · cases matched
    · intro same
      rw [if_pos same]

end ResolvedSelector

/-- The variant has as many keys as there are selectors, and each accepts its key. -/
def Variant.Matches (selectors : List ResolvedSelector) (variant : Variant) : Prop :=
  List.Forall₂ ResolvedSelector.Accepts selectors variant.keys

theorem matchKeys?_isSome_iff {selectors : List ResolvedSelector} {keys : List VariantKey} :
    (matchKeys? selectors keys).isSome ↔ List.Forall₂ ResolvedSelector.Accepts selectors keys := by
  induction selectors generalizing keys with
  | nil => cases keys <;> simp [matchKeys?]
  | cons selector selectors ih =>
    cases keys with
    | nil => simp [matchKeys?]
    | cons key keys =>
      rw [List.forall₂_cons, ← ih, ← ResolvedSelector.match?_isSome_iff, matchKeys?]
      cases selector.match? key with
      | none => simp
      | some first => cases matchKeys? selectors keys <;> simp

instance (selectors : List ResolvedSelector) : DecidablePred (Variant.Matches selectors) :=
  fun _ => decidable_of_iff _ matchKeys?_isSome_iff

/-- A key that matches does so exactly, unless it is not the value of its selector. The induction is
on the selectors, each with its key. -/
theorem matchKeys?_inexact {selectors : List ResolvedSelector} {keys : List VariantKey}
    {kinds : List KeyMatch} (matched : matchKeys? selectors keys = some kinds) (position : Nat) :
    (∃ kind, kinds[position]? = some kind ∧ kind ≠ .exact) ↔ ∃ selector key,
      selectors[position]? = some selector ∧ keys[position]? = some key ∧
        ¬ selector.Equals key := by
  induction selectors generalizing keys kinds position with
  | nil =>
    cases keys with
    | nil =>
      cases matched
      simp
    | cons key keys => cases matched
  | cons selector selectors ih =>
    cases keys with
    | nil => cases matched
    | cons key keys =>
      obtain ⟨first, same, rest, later, rfl⟩ : ∃ first, selector.match? key = some first ∧
          ∃ rest, matchKeys? selectors keys = some rest ∧ first :: rest = kinds := by
        simpa [matchKeys?, Option.bind_eq_some_iff] using matched
      cases position with
      | zero => simp [← ResolvedSelector.match?_eq_exact_iff, same]
      | succ position => simpa using ih later position

/-- The positions of the keys that are not the values of their selectors. -/
structure Variant.InexactAt (selectors : List ResolvedSelector) (variant : Variant)
    (positions : List Nat) : Prop where
  increasing : positions.Pairwise (· < ·)
  mem_iff : ∀ position, position ∈ positions ↔ ∃ selector key,
    selectors[position]? = some selector ∧ variant.keys[position]? = some key ∧
      ¬ selector.Equals key

end keys

namespace Selection

section notes

private theorem pairwise_inexact (kinds : List KeyMatch) : (inexact kinds).Pairwise (· < ·) := by
  have all : (kinds.zipIdx.map Prod.snd).Pairwise (· < ·) := by
    rw [List.zipIdx_map_snd]
    exact List.pairwise_lt_range'
  exact all.sublist (List.filter_sublist.map Prod.snd)

private theorem mem_inexact {kinds : List KeyMatch} {position : Nat} :
    position ∈ inexact kinds ↔ ∃ kind, kinds[position]? = some kind ∧ kind ≠ .exact := by
  simp only [inexact, List.mem_map, List.mem_filter, bne_iff_ne]
  constructor
  · rintro ⟨⟨kind, position⟩, ⟨listed, other⟩, rfl⟩
    exact ⟨kind, List.mem_zipIdx_iff_getElem?.mp listed, other⟩
  · rintro ⟨kind, there, other⟩
    exact ⟨(kind, position), ⟨List.mem_zipIdx_iff_getElem?.mpr there, other⟩, rfl⟩

private theorem inexactAt_inexact {selectors : List ResolvedSelector} {variant : Variant}
    {kinds : List KeyMatch} (matched : matchKeys? selectors variant.keys = some kinds) :
    variant.InexactAt selectors (inexact kinds) where
  increasing := pairwise_inexact kinds
  mem_iff position := mem_inexact.trans (matchKeys?_inexact matched position)

/-- A note on the choice, if it has one. -/
def note? (selection : Selection) (name : String) : Option Scalar :=
  selection.metadata.bind fun bag => bag.get? name

/-- What is noted of a choice: the inexact keys if there are any, then the candidates if there are
several. -/
theorem entries_notes (kinds : List KeyMatch) (candidates : Nat) :
    (notes kinds candidates).entries =
      (if inexact kinds ≠ [] then
        [("select_fallback", .text (",".intercalate ((inexact kinds).map toString)))] else []) ++
      (if 1 < candidates then [("select_candidates", .number (Float.ofNat candidates))] else []) := by
  have apart : ("select_candidates" == "select_fallback") = false := by decide
  by_cases exact : inexact kinds = [] <;> by_cases several : 1 < candidates <;>
    simp [notes, exact, several, Metadata.insert, Metadata.contains, Metadata.get?, Metadata.empty,
      List.lookup_cons, apart]

private theorem lookup_note (name key : String) (value : Scalar) (holds : Prop) [Decidable holds] :
    (if holds then [(key, value)] else []).lookup name =
      if name = key ∧ holds then some value else none := by
  by_cases same : name = key
  · subst same
    split <;> simp [*]
  · split <;> simp [same, Keyed.lookup_cons_of_ne]

theorem get?_notes (kinds : List KeyMatch) (candidates : Nat) (name : String) :
    (notes kinds candidates).get? name =
      (if name = "select_fallback" ∧ inexact kinds ≠ [] then
        some (.text (",".intercalate ((inexact kinds).map toString))) else none).or
      (if name = "select_candidates" ∧ 1 < candidates then
        some (.number (Float.ofNat candidates)) else none) := by
  rw [Metadata.get?, entries_notes, List.lookup_append, lookup_note, lookup_note]

private theorem note?_mk (pattern : Option Pattern) (bag : Metadata) (name : String) :
    (Selection.mk pattern (if bag.isEmpty then none else some bag)).note? name = bag.get? name := by
  cases bag with
  | mk entries => cases entries <;> rfl

private theorem isEmpty_notes_iff (kinds : List KeyMatch) (candidates : Nat) :
    (notes kinds candidates).isEmpty ↔ ¬ 1 < candidates ∧ inexact kinds = [] := by
  rw [Metadata.isEmpty, List.isEmpty_iff, entries_notes, List.append_eq_nil_iff, and_comm]
  simp

end notes

section choosing

variable {selectors : List ResolvedSelector} {variants : List Variant}

/-- The variants that match, each with how its keys do. -/
def candidates (selectors : List ResolvedSelector) (variants : List Variant) :
    List (Variant × List KeyMatch) :=
  variants.filterMap fun variant =>
    (matchKeys? selectors variant.keys).map fun kinds => (variant, kinds)

theorem choose_eq (selectors : List ResolvedSelector) (variants : List Variant) :
    choose selectors variants = match candidates selectors variants with
      | [] => ⟨none, none⟩
      | (variant, kinds) :: _ =>
        let bag := notes kinds (candidates selectors variants).length
        ⟨some variant.value, if bag.isEmpty then none else some bag⟩ := rfl

private theorem matchKeys?_of_mem_candidates {variant : Variant} {kinds : List KeyMatch}
    (member : (variant, kinds) ∈ candidates selectors variants) :
    matchKeys? selectors variant.keys = some kinds := by
  obtain ⟨other, -, same⟩ := List.mem_filterMap.mp member
  obtain ⟨kinds, matched, ⟨⟩⟩ := Option.map_eq_some_iff.mp same
  exact matched

private theorem map_candidates (selectors : List ResolvedSelector) (variants : List Variant) :
    (candidates selectors variants).map Prod.fst =
      variants.filter fun variant => variant.Matches selectors := by
  induction variants with
  | nil => rfl
  | cons variant variants ih =>
    have decided : decide (variant.Matches selectors) = (matchKeys? selectors variant.keys).isSome :=
      Bool.eq_iff_iff.mpr (decide_eq_true_iff.trans matchKeys?_isSome_iff.symm)
    rw [List.filter_cons, decided, ← ih]
    unfold candidates
    rw [List.filterMap_cons]
    cases matchKeys? selectors variant.keys <;> rfl

private theorem candidates_filter (selectors : List ResolvedSelector) (variants : List Variant) :
    candidates selectors (variants.filter fun variant => variant.Matches selectors) =
      candidates selectors variants := by
  rw [candidates, List.filterMap_filter]
  refine List.filterMap_congr fun variant _ => ?_
  split
  · rfl
  · next other =>
    rw [decide_eq_true_iff, Variant.Matches, ← matchKeys?_isSome_iff,
      Option.not_isSome_iff_eq_none] at other
    rw [other]
    rfl

/-- Nothing is chosen where no variant matches. Else the first that does is, with notes on it. -/
theorem choose_cases (selectors : List ResolvedSelector) (variants : List Variant) :
    (variants.find? (fun variant => variant.Matches selectors) = none ∧
      choose selectors variants = ⟨none, none⟩) ∨
    ∃ winner kinds, variants.find? (fun variant => variant.Matches selectors) = some winner ∧
      matchKeys? selectors winner.keys = some kinds ∧
      let bag := notes kinds (variants.countP fun variant => variant.Matches selectors)
      choose selectors variants = ⟨some winner.value, if bag.isEmpty then none else some bag⟩ := by
  have matching := map_candidates selectors variants
  rw [← List.head?_filter, List.countP_eq_length_filter, ← matching]
  rw [choose_eq]
  cases found : candidates selectors variants with
  | nil => exact .inl ⟨rfl, rfl⟩
  | cons entry rest =>
    have member : entry ∈ candidates selectors variants := found ▸ List.mem_cons_self
    exact .inr ⟨entry.1, entry.2, rfl, matchKeys?_of_mem_candidates member, by simp⟩

end choosing

/-- What is chosen by the values of selectors, and what is noted of it. -/
structure FirstMatch (selectors : List ResolvedSelector) (variants : List Variant)
    (selection : Selection) : Prop where
  /-- The pattern is that of the first variant that matches. -/
  pattern : selection.pattern =
    (variants.find? fun variant => variant.Matches selectors).map Variant.value
  /-- The number of variants that match is noted where there are several. -/
  candidates : selection.note? "select_candidates" =
    let matching := variants.countP fun variant => variant.Matches selectors
    if 1 < matching then some (.number (Float.ofNat matching)) else none
  /-- The keys of the chosen variant that are not the values of their selectors are noted where there
  are any. -/
  fallback : ∀ winner, variants.find? (fun variant => variant.Matches selectors) = some winner →
    ∃ positions, winner.InexactAt selectors positions ∧ selection.note? "select_fallback" =
      if positions = [] then none else some (.text (",".intercalate (positions.map toString)))
  /-- Nothing is noted of no choice. -/
  unmatched : variants.find? (fun variant => variant.Matches selectors) = none →
    selection.metadata = none
  /-- There is no metadata without a note. -/
  metadata : selection.metadata = none ↔
    selection.note? "select_candidates" = none ∧ selection.note? "select_fallback" = none

theorem choose_firstMatch (selectors : List ResolvedSelector) (variants : List Variant) :
    FirstMatch selectors variants (choose selectors variants) := by
  rcases choose_cases selectors variants with
    ⟨unmatched, chosen⟩ | ⟨winner, kinds, found, matched, chosen⟩
  · have few : variants.countP (fun variant => variant.Matches selectors) = 0 :=
      List.countP_eq_zero.mpr (List.find?_eq_none.mp unmatched)
    rw [chosen]
    exact
      { pattern := by rw [unmatched]; rfl
        candidates := by rw [few]; rfl
        fallback := fun winner found => nomatch unmatched.symm.trans found
        unmatched := fun _ => rfl
        metadata := ⟨fun _ => ⟨rfl, rfl⟩, fun _ => rfl⟩ }
  · rw [chosen]
    exact
      { pattern := by rw [found]; rfl
        candidates := by simp [note?_mk, get?_notes]
        fallback := fun other first => by
          obtain rfl := Option.some.inj (found.symm.trans first)
          exact ⟨inexact kinds, inexactAt_inexact matched, by simp [note?_mk, get?_notes]⟩
        unmatched := fun unmatched => nomatch found.symm.trans unmatched
        metadata := by
          rw [note?_mk, note?_mk, get?_notes, get?_notes]
          simp [isEmpty_notes_iff] }

theorem exists_of_choose {selectors : List ResolvedSelector} {variants : List Variant}
    {pattern : Pattern} (chosen : (choose selectors variants).pattern = some pattern) :
    ∃ variant ∈ variants, variant.value = pattern := by
  rw [(choose_firstMatch selectors variants).pattern, Option.map_eq_some_iff] at chosen
  obtain ⟨variant, found, same⟩ := chosen
  exact ⟨variant, List.mem_of_find?_eq_some found, same⟩

/-- Variants that do not match have no part in the choice, wherever they stand. -/
theorem choose_congr {selectors : List ResolvedSelector} {variants others : List Variant}
    (same : others.filter (fun variant => variant.Matches selectors) =
      variants.filter fun variant => variant.Matches selectors) :
    choose selectors others = choose selectors variants := by
  rw [choose_eq, choose_eq, ← candidates_filter selectors others, same, candidates_filter]

private theorem pattern_choose_append {selectors : List ResolvedSelector} {variants : List Variant}
    (matching : ∃ variant ∈ variants, variant.Matches selectors) (more : List Variant) :
    (choose selectors (variants ++ more)).pattern = (choose selectors variants).pattern := by
  obtain ⟨variant, member, matched⟩ := matching
  have found : (variants.find? fun variant => variant.Matches selectors).isSome :=
    List.find?_isSome.mpr ⟨variant, member, decide_eq_true matched⟩
  obtain ⟨winner, found⟩ := Option.isSome_iff_exists.mp found
  rw [(choose_firstMatch selectors _).pattern, (choose_firstMatch selectors _).pattern,
    List.find?_append, found, Option.some_or]

end Selection

section selects

/-- What keys are compared with, by the values of the selectors. -/
def Select.resolved (select : Select) (values : List Value) : List ResolvedSelector :=
  List.zipWith (fun value selector => ⟨value, selector.defaultKey⟩) values select.selectors

variable [Monad m] [LawfulMonad m]

private theorem selectorValues_eq (descend : Descent m) (context : Context m) (selectors : List Selector) :
    selectorValues descend context selectors =
      (fun values => List.zipWith (fun value selector => ⟨value, selector.defaultKey⟩) values
        selectors) <$>
      selectors.mapM fun selector => selectorValue descend context selector.value := by
  induction selectors with
  | nil => simp [selectorValues]
  | cons selector selectors ih => simp [selectorValues, ih]

/-- The values of the selectors decide what is chosen. It is the first variant that matches them,
whatever others stand between or after it. -/
theorem resolveSelect_firstMatch (descend : Descent m) (context : Context m) (select : Select) :
    resolveSelect descend context select =
      (fun values => .choose (select.resolved values) select.variants) <$>
        select.selectors.mapM (fun selector => selectorValue descend context selector.value) ∧
    ∀ (selectors : List ResolvedSelector) (variants : List Variant),
      Selection.FirstMatch selectors variants (.choose selectors variants) ∧
      (∀ others : List Variant,
        others.filter (fun variant => variant.Matches selectors) =
          variants.filter (fun variant => variant.Matches selectors) →
        Selection.choose selectors others = .choose selectors variants) ∧
      ((∃ variant ∈ variants, variant.Matches selectors) → ∀ more : List Variant,
        (Selection.choose selectors (variants ++ more)).pattern =
          (Selection.choose selectors variants).pattern) := by
  constructor
  · unfold resolveSelect Select.resolved
    rw [selectorValues_eq, map_eq_pure_bind, map_eq_pure_bind, bind_assoc]
    simp
  · intro selectors variants
    exact ⟨Selection.choose_firstMatch selectors variants, fun others same =>
      Selection.choose_congr same, Selection.pattern_choose_append⟩

/-- A count that is one of several forms, and a case that is itself. The first variant does not
match, and the last two both do. -/
theorem resolveSelect_firstMatch_forms :
    let pattern (text : String) : Pattern := .ofParts [.literal text none]
    let few : Variant := ⟨[.literal "few", .wildcard], pattern "some"⟩
    let one : Variant := ⟨[.literal "one", .literal "upper"], pattern "One"⟩
    let rest : Variant := ⟨[.wildcard, .wildcard], pattern "any"⟩
    let select : Select := ⟨[], [⟨.variable [.literal "count" none] none, none⟩,
      ⟨.literal "upper" none, none⟩], [few, one, rest]⟩
    let forms : Value := .list [.text "1", .text "one"]
    let scope := Scope.ofPairs [("count", forms)]
    let context : Context Id := ⟨[], .empty, fun _ _ => none, scope, "", [], 64⟩
    let selectors : List ResolvedSelector := [⟨forms, "other"⟩, ⟨.text "upper", "other"⟩]
    resolveSelect (descent 64) context select = pure (.choose selectors [few, one, rest]) ∧
    Selection.choose selectors [few, one, rest] = .choose selectors [one, rest] ∧
    (Selection.choose selectors ([one] ++ [rest])).pattern = some (pattern "One") ∧
    (Selection.choose selectors [one, rest]).note? "select_candidates" =
      some (.number (Float.ofNat 2)) ∧
    (Selection.choose selectors [one, rest]).note? "select_fallback" = some (.text "0") := by
  intro pattern few one rest select forms scope context selectors
  obtain ⟨resolved, choice⟩ := resolveSelect_firstMatch (descent 64) context select
  have values : select.selectors.mapM (fun selector =>
    selectorValue (descent 64) context selector.value) = pure [forms, .text "upper"] := rfl
  have matching : ∃ variant ∈ [one], variant.Matches selectors :=
    ⟨one, List.mem_singleton_self one, by decide⟩
  obtain ⟨first, -, -⟩ := choice selectors [one, rest]
  refine ⟨?_, (choice selectors [one, rest]).2.1 _ rfl, ?_, ?_, ?_⟩
  · rw [resolved, values]
    rfl
  · rw [(choice selectors [one]).2.2 matching]
    rfl
  · rw [first.candidates]
    rfl
  · rfl

end selects

end Phrasebook
