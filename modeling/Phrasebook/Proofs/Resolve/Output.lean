import Phrasebook.Proofs.Resolve.Reference

namespace Phrasebook

section pieces

variable {locales : List Locale}

theorem Value.localized_text (text : String) : (Value.text text).localized locales = text := by
  simp only [Value.localized, Value.display]

/-- The value of a piece is written as the piece is, unless the piece is a fallback, or a message that
reads otherwise for no locales. -/
theorem Piece.value_localized_iff (piece : Piece) :
    piece.value.localized locales = piece.localized locales ↔
      (∀ source bag, piece ≠ .fallback source bag) ∧
      ∀ pieces bag, piece = .message pieces bag → render [] pieces = render locales pieces := by
  cases piece with
  | literal text bag => simp [value, localized, Value.localized_text]
  | dynamic value bag => simp [Piece.value, localized]
  | fallback source bag =>
    have braced : source ≠ "\x7b" ++ source ++ "\x7d" := by
      intro same
      have longer := congrArg String.length same
      simp only [String.length_append] at longer
      have brace : "\x7b".length = 1 := rfl
      omega
    simp [value, localized, Value.localized_text, braced]
  | message pieces bag => simp [value, localized, Value.localized_text]

@[simp] theorem Piece.render_singleton (piece : Piece) :
    render locales [piece] = piece.localized locales := by
  simp only [render, String.append_empty]

end pieces

section outputs

variable {formatter : Formatter Id} {message : Message} {scope : Scope} {pieces : List Piece}

/-- The text of a message is that of its pieces. Its value is written in the same way, unless it is
that of a single fallback, or of a single nested message whose pieces read otherwise for no locales
than for those of the formatter: that value is their text for no locales. -/
theorem value_reads_as_text_iff (resolved : CanEnd (formatter.pieces message scope) (.ok pieces)) :
    CanEnd (formatter.format message scope) (.ok (Piece.render formatter.locales pieces)) ∧
    ∃ value, CanEnd (formatter.value message scope) (.ok value) ∧
      (value.localized formatter.locales = Piece.render formatter.locales pieces ↔
        (∀ source bag, pieces ≠ [.fallback source bag]) ∧
        ∀ inner bag, pieces = [.message inner bag] →
          Piece.render [] inner = Piece.render formatter.locales inner) ∧
      ∀ inner bag, pieces = [.message inner bag] → value = .text (Piece.render [] inner) := by
  simp only [Formatter.format, Formatter.value, eq_pure_of_canEnd resolved, pure_bind]
  refine ⟨rfl, ?_⟩
  split
  · next piece =>
    refine ⟨piece.value, rfl, by simp [Piece.value_localized_iff], ?_⟩
    intro inner bag only
    obtain rfl := List.head_eq_of_cons_eq only
    rfl
  · next several =>
    refine ⟨.text (Piece.render formatter.locales pieces), rfl, ?_, ?_⟩
    · refine iff_of_true (Value.localized_text _) ⟨?_, ?_⟩
      · exact fun source bag only => several _ only
      · exact fun inner bag only => absurd only (several _)
    · exact fun inner bag only => absurd only (several _)

end outputs

section prices

/-- A total, for cards or, with a star for the key, for everything. -/
def Message.total (key : VariantKey) : Message :=
  .ofSelect ⟨[], [⟨.literal "card" none, none⟩],
    [⟨[key], .ofParts [.literal "Total: " none, .variable [.literal "price" none] none]⟩]⟩

/-- A value that is written with the locales that it is written for. -/
def HostValue.price : HostValue :=
  ⟨0, "money", fun locales => "9@" ++ ",".intercalate (locales.map Locale.tag), none⟩

/-- Where the key is matched exactly, there are two pieces, and the value reads as the text. -/
theorem value_reads_as_text_iff_exact :
    let formatter : Formatter Id := ⟨[.english], .empty, .empty, "default", 64⟩
    let scope := Scope.ofPairs [("price", .host .price)]
    let pieces : List Piece := [.literal "Total: " .empty, .dynamic (.host .price) .empty]
    CanEnd (formatter.pieces (.total (.literal "card")) scope) (.ok pieces) ∧
    ∃ value, CanEnd (formatter.value (.total (.literal "card")) scope) (.ok value) ∧
      value.localized formatter.locales = "Total: 9@en" := by
  intro formatter scope pieces
  have resolved : CanEnd (formatter.pieces (.total (.literal "card")) scope) (.ok pieces) := rfl
  obtain ⟨-, value, ends, reads, -⟩ := value_reads_as_text_iff resolved
  have text : Piece.render formatter.locales pieces = "Total: 9@en" := rfl
  exact ⟨resolved, value, ends, text ▸ reads.mpr ⟨by simp [pieces], by simp [pieces]⟩⟩

/-- Where a star matches, the note on that wraps the pieces into one, and the value does not read as
the text: it has lost the locale. -/
theorem value_without_locale :
    let formatter : Formatter Id := ⟨[.english], .empty, .empty, "default", 64⟩
    let scope := Scope.ofPairs [("price", .host .price)]
    (∃ inner bag, CanEnd (formatter.pieces (.total .wildcard) scope) (.ok [.message inner bag])) ∧
    CanEnd (formatter.format (.total .wildcard) scope) (.ok "Total: 9@en") ∧
    CanEnd (formatter.value (.total .wildcard) scope) (.ok (.text "Total: 9@")) ∧
    (Value.text "Total: 9@").localized formatter.locales ≠ "Total: 9@en" := by
  intro formatter scope
  exact ⟨⟨_, _, rfl⟩, rfl, rfl, by decide⟩

end prices

end Phrasebook
