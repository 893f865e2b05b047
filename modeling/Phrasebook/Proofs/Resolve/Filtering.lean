import Phrasebook.Resolve.Options

namespace Phrasebook

section reading

/-- What an operand says where an option of a type is expected. A text is read by the type: as a truth
value where these are expected, as a number where numbers are. Otherwise it stands for itself. -/
inductive OptionType.Reads (scope : Scope) : OptionType → Operand → Value → Prop
  | affirmed : Reads scope .boolean (.literal "true" metadata) (.bool true)
  | denied : Reads scope .boolean (.literal "false" metadata) (.bool false)
  | number (read : readNumber? text = some value) :
      Reads scope .number (.literal text metadata) value
  | text (truthless : type = .boolean → text ≠ "true" ∧ text ≠ "false")
      (numberless : type = .number → readNumber? text = none) :
      Reads scope type (.literal text metadata) (.text text)
  | binding (followed : scope.follow? path = some value) :
      Reads scope type (.variable path metadata) value

namespace OptionType

variable {scope : Scope} {type : OptionType} {text : String} {metadata : Option Metadata}
  {value : Value}

theorem reads_valueOf (scope : Scope) (type : OptionType) (text : String)
    (metadata : Option Metadata) :
    type.Reads scope (.literal text metadata) (type.valueOf text) := by
  cases type with
  | boolean =>
    by_cases affirmed : text = "true"
    · subst affirmed
      exact .affirmed
    · by_cases denied : text = "false"
      · subst denied
        exact .denied
      · rw [valueOf, if_neg affirmed, if_neg denied]
        exact .text (fun _ => ⟨affirmed, denied⟩) nofun
  | number =>
    rw [valueOf]
    cases read : readNumber? text with
    | none => exact .text nofun fun _ => read
    | some value => exact .number read
  | _ => exact .text nofun nofun

private theorem eq_valueOf_of_reads (reads : type.Reads scope (.literal text metadata) value) :
    value = type.valueOf text := by
  cases reads with
  | affirmed => rfl
  | denied => rfl
  | number read => rw [valueOf, read, Option.getD_some]
  | text truthless numberless =>
    cases type with
    | boolean =>
      obtain ⟨affirmed, denied⟩ := truthless rfl
      rw [valueOf, if_neg affirmed, if_neg denied]
    | number => rw [valueOf, numberless rfl, Option.getD_none]
    | _ => rfl

theorem reads_literal_iff :
    type.Reads scope (.literal text metadata) value ↔ type.valueOf text = value := by
  constructor
  · exact fun reads => (eq_valueOf_of_reads reads).symm
  · rintro rfl
    exact reads_valueOf ..

theorem reads_variable_iff {path : List Operand} :
    type.Reads scope (.variable path metadata) value ↔ scope.follow? path = some value :=
  ⟨fun | .binding followed => followed, .binding⟩

end OptionType

/-- An option has a value if it is taken and its operand says something that the type accepts. -/
theorem resolveOption?_eq_some_iff {schema : OptionSchema} {scope : Scope} {name : String}
    {operand : Operand} {value : Value} :
    resolveOption? schema scope name operand = some value ↔
      ∃ type, schema.expected? name = some type ∧ type.Reads scope operand value ∧
        type.accepts value := by
  cases operand with
  | literal text metadata =>
    simp only [OptionType.reads_literal_iff, resolveOption?, Option.bind_eq_bind,
      Option.bind_eq_some_iff, Option.some.injEq, Option.ite_none_right_eq_some]
    grind
  | «variable» path metadata =>
    simp only [OptionType.reads_variable_iff, resolveOption?, Option.bind_eq_bind,
      Option.bind_eq_some_iff, Option.ite_none_right_eq_some, Option.some.injEq]
    grind

end reading

section filtering

variable {pairs : List (String × Operand)} {schema : OptionSchema} {scope : Scope} {name : String}
  {value : Value}

/-- The operand is the last one that is given for the name. -/
def Options.LastGiven (pairs : List (String × Operand)) (name : String) (operand : Operand) : Prop :=
  ∃ before after, pairs = before ++ (name, operand) :: after ∧ ∀ pair ∈ after, pair.1 ≠ name

theorem Options.lookup_reverse_eq_some_iff {operand : Operand} :
    pairs.reverse.lookup name = some operand ↔ LastGiven pairs name operand := by
  rw [List.lookup_eq_some_iff]
  constructor
  · rintro ⟨after, before, split, others⟩
    refine ⟨before.reverse, after.reverse, ?_, fun pair member => ?_⟩
    · simpa using congrArg List.reverse split
    · exact Ne.symm (bne_iff_ne.mp (others pair (List.mem_reverse.mp member)))
  · rintro ⟨before, after, rfl, others⟩
    refine ⟨after.reverse, before.reverse, by simp, fun pair member => ?_⟩
    exact bne_iff_ne.mpr (Ne.symm (others pair (List.mem_reverse.mp member)))

private theorem lookup_resolveOptions {options : Options} (distinct : (options.map Prod.fst).Nodup)
    (schema : OptionSchema) (scope : Scope) (name : String) :
    (resolveOptions options schema scope).lookup name =
      (options.lookup name).bind (resolveOption? schema scope name) := by
  let resolved (entry : String × Operand) : Option (String × Value) :=
    (resolveOption? schema scope entry.1 entry.2).map fun value => (entry.1, value)
  have kept : ((options.filterMap resolved).reverse.map Prod.fst).Nodup := by
    rw [List.map_reverse, List.Nodup, List.pairwise_reverse]
    refine List.pairwise_map.mpr ((List.pairwise_map.mp distinct).filterMap resolved ?_)
    intro entry other different pair same pair' same'
    obtain ⟨value, -, rfl⟩ := Option.map_eq_some_iff.mp same
    obtain ⟨value', -, rfl⟩ := Option.map_eq_some_iff.mp same'
    exact different.symm
  ext value
  rw [resolveOptions, Keyed.lookup_sortedOfPairs, ← Keyed.mem_iff_lookup kept, List.mem_reverse,
    List.mem_filterMap, Option.bind_eq_some_iff]
  constructor
  · rintro ⟨entry, listed, same⟩
    obtain ⟨value, found, ⟨⟩⟩ := Option.map_eq_some_iff.mp same
    exact ⟨entry.2, (Keyed.mem_iff_lookup distinct).mp listed, found⟩
  · rintro ⟨operand, found, value⟩
    exact ⟨(name, operand), (Keyed.mem_iff_lookup distinct).mpr found,
      Option.map_eq_some_iff.mpr ⟨_, value, rfl⟩⟩

/-- Of options that are given one after the other, the last one for a name is resolved. -/
theorem lookup_resolveOptions_ofPairs (pairs : List (String × Operand)) (schema : OptionSchema)
    (scope : Scope) (name : String) :
    (resolveOptions (.ofPairs pairs) schema scope).lookup name =
      (pairs.reverse.lookup name).bind (resolveOption? schema scope name) := by
  rw [Options.ofPairs, lookup_resolveOptions (Keyed.nodup_keys_ofPairs pairs), Keyed.lookup_ofPairs]

theorem ascending_resolveOptions (options : Options) (schema : OptionSchema) (scope : Scope) :
    Keyed.Ascending (resolveOptions options schema scope) := Keyed.ascending_sortedOfPairs _

private theorem resolveOptions_of_filter_eq {others : List (String × Operand)}
    (same : ∀ name, others.filter (fun pair => pair.1 = name) = pairs.filter (fun pair => pair.1 = name)) :
    resolveOptions (.ofPairs others) schema scope = resolveOptions (.ofPairs pairs) schema scope := by
  have last (pairs : List (String × Operand)) (name : String) :
      pairs.reverse.lookup name =
        (pairs.filter fun pair => pair.1 = name).reverse.lookup name := by
    rw [← List.filter_reverse, Keyed.lookup_filter_self]
  refine (ascending_resolveOptions ..).eq_of_lookup (ascending_resolveOptions ..) fun name => ?_
  rw [lookup_resolveOptions_ofPairs, lookup_resolveOptions_ofPairs, last, same, ← last]

/-- Options are taken name by name. Of what is given for a name, the last operand counts: it has to
say something that the type for the name accepts, and if it does not, nothing that was given before
comes in for it. So every value that a function is given has its type, and the order of operands for
different names has no effect. -/
theorem resolveOptions_lastGiven (pairs : List (String × Operand)) (schema : OptionSchema)
    (scope : Scope) :
    Keyed.Ascending (resolveOptions (.ofPairs pairs) schema scope) ∧
    (∀ name value, (resolveOptions (.ofPairs pairs) schema scope).lookup name = some value ↔
      ∃ operand type, Options.LastGiven pairs name operand ∧ schema.expected? name = some type ∧
        type.Reads scope operand value ∧ type.accepts value) ∧
    (∀ name value, (name, value) ∈ resolveOptions (.ofPairs pairs) schema scope →
      ∃ type, schema.expected? name = some type ∧ type.accepts value) ∧
    (∀ others : List (String × Operand),
      (∀ name, others.filter (fun pair => pair.1 = name) =
        pairs.filter (fun pair => pair.1 = name)) →
      resolveOptions (.ofPairs others) schema scope =
        resolveOptions (.ofPairs pairs) schema scope) ∧
    (∀ name operand, Options.LastGiven pairs name operand →
      (∀ type value, schema.expected? name = some type → type.Reads scope operand value →
        type.accepts value = false) →
      (resolveOptions (.ofPairs pairs) schema scope).lookup name = none) := by
  have found (name : String) (value : Value) :
      (resolveOptions (.ofPairs pairs) schema scope).lookup name = some value ↔
        ∃ operand type, Options.LastGiven pairs name operand ∧ schema.expected? name = some type ∧
          type.Reads scope operand value ∧ type.accepts value := by
    simp only [lookup_resolveOptions_ofPairs, Option.bind_eq_some_iff,
      Options.lookup_reverse_eq_some_iff, resolveOption?_eq_some_iff, exists_and_left]
  have ascending := ascending_resolveOptions (.ofPairs pairs) schema scope
  refine ⟨ascending, found, ?_, fun others => resolveOptions_of_filter_eq, ?_⟩
  · intro name value member
    obtain ⟨operand, type, -, expected, -, accepted⟩ :=
      (found name value).mp ((Keyed.mem_iff_lookup ascending.nodup).mp member)
    exact ⟨type, expected, accepted⟩
  · intro name operand last refused
    rw [lookup_resolveOptions_ofPairs, Options.lookup_reverse_eq_some_iff.mpr last, Option.bind_some,
      Option.eq_none_iff_forall_ne_some]
    intro value resolved
    obtain ⟨type, expected, reads, accepted⟩ := resolveOption?_eq_some_iff.mp resolved
    rw [refused type value expected reads] at accepted
    cases accepted

/-- A number that is given twice, the second time as a text that is none, and a truth value between. -/
theorem resolveOptions_lastGiven_digits :
    let given (text : String) : Operand := .literal text none
    let pairs := [("digits", given "2"), ("grouped", given "true"), ("digits", given "two")]
    let others := [("grouped", given "true"), ("digits", given "2"), ("digits", given "two")]
    let schema : OptionSchema := .each [("digits", .number), ("grouped", .boolean)]
    (resolveOptions (.ofPairs pairs) schema .empty).lookup "grouped" = some (.bool true) ∧
    (resolveOptions (.ofPairs pairs) schema .empty).lookup "digits" = none ∧
    resolveOptions (.ofPairs others) schema .empty = resolveOptions (.ofPairs pairs) schema .empty := by
  intro given pairs others schema
  obtain ⟨-, found, -, moved, dropped⟩ := resolveOptions_lastGiven pairs schema .empty
  have grouped : Options.LastGiven pairs "grouped" (given "true") :=
    ⟨pairs.take 1, pairs.drop 2, rfl, by decide⟩
  have digits : Options.LastGiven pairs "digits" (given "two") :=
    ⟨pairs.take 2, [], rfl, List.forall_mem_nil _⟩
  refine ⟨(found _ _).mpr ⟨_, _, grouped, rfl, .affirmed, rfl⟩, dropped _ _ digits ?_, moved others ?_⟩
  · intro type value expected reads
    obtain rfl : OptionType.number = type := Option.some.inj expected
    have word : OptionType.number.valueOf "two" = .text "two" := rfl
    rw [← OptionType.reads_literal_iff.mp reads, word]
    rfl
  · intro name
    by_cases same : "grouped" = name
    · subst same
      rfl
    · simp [others, pairs, List.filter_cons, same]

end filtering

end Phrasebook
