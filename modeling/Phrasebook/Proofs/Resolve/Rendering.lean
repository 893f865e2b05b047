import Phrasebook.Proofs.Resolve.Merging

namespace Phrasebook

section hosts

namespace Value

mutual

/-- The host values in a value, at any depth. -/
def hosts : Value → List HostValue
  | .bool _ => []
  | .number _ => []
  | .float _ => []
  | .text _ => []
  | .list items => hostsOfItems items
  | .map entries => hostsOfEntries entries
  | .markup _ _ options => hostsOfEntries options
  | .host value => [value]

def hostsOfItems : List Value → List HostValue
  | [] => []
  | item :: rest => hosts item ++ hostsOfItems rest

def hostsOfEntries : List (String × Value) → List HostValue
  | [] => []
  | (_, value) :: rest => hosts value ++ hostsOfEntries rest

end

end Value

namespace Piece

mutual

/-- The host values in a piece, at any depth. -/
def hosts : Piece → List HostValue
  | .literal .. => []
  | .dynamic value _ => value.hosts
  | .fallback .. => []
  | .message pieces _ => hostsOfPieces pieces

def hostsOfPieces : List Piece → List HostValue
  | [] => []
  | piece :: rest => hosts piece ++ hostsOfPieces rest

end

mutual

/-- The text of a piece with the plain texts of its values. -/
def plain : Piece → String
  | .literal text _ => text
  | .dynamic value _ => value.display
  | .fallback source _ => "\x7b" ++ source ++ "\x7d"
  | .message pieces _ => plainAll pieces

def plainAll : List Piece → String
  | [] => ""
  | piece :: rest => plain piece ++ plainAll rest

end

end Piece

/-- The host values have the same text for the locales as for none. -/
def Indifferent (locales : List Locale) (hosts : List HostValue) : Prop :=
  ∀ host ∈ hosts, host.render locales = host.render []

theorem indifferent_nil (hosts : List HostValue) : Indifferent [] hosts := fun _ _ => rfl

theorem indifferent_append {locales : List Locale} {hosts others : List HostValue} :
    Indifferent locales (hosts ++ others) ↔ Indifferent locales hosts ∧ Indifferent locales others :=
  List.forall_mem_append

end hosts

section rendering

variable {locales : List Locale}

namespace Value

mutual

/-- Locales get to host values in lists alone, which are the only ones that can tell. A map is written
plainly in any case. -/
theorem localized_eq_display :
    ∀ value : Value, Indifferent locales value.hosts → value.localized locales = value.display
  | .list items, same => by
    rw [localized, display, localizedItems_eq_displayItems items (by simpa only [hosts] using same)]
  | .host value, same => by
    rw [localized, display]
    exact same value (by simp only [hosts, List.mem_singleton])
  | .bool _, _ => by rw [localized]
  | .number _, _ => by rw [localized]
  | .float _, _ => by rw [localized]
  | .text _, _ => by rw [localized]
  | .map _, _ => by rw [localized]
  | .markup .., _ => by rw [localized]

theorem localizedItems_eq_displayItems : ∀ items : List Value,
    Indifferent locales (hostsOfItems items) → localizedItems locales items = displayItems items
  | [], _ => by rw [localizedItems, displayItems]
  | item :: rest, same => by
    rw [hostsOfItems, indifferent_append] at same
    rw [localizedItems, displayItems, localized_eq_display item same.1,
      localizedItems_eq_displayItems rest same.2]

end

end Value

namespace Piece

mutual

theorem localized_eq_plain :
    ∀ piece : Piece, Indifferent locales piece.hosts → piece.localized locales = piece.plain
  | .literal .., _ => by rw [localized, plain]
  | .dynamic value _, same => by
    rw [localized, plain, value.localized_eq_display (by simpa only [hosts] using same)]
  | .fallback .., _ => by rw [localized, plain]
  | .message pieces _, same => by
    rw [localized, plain, render_eq_plainAll pieces (by simpa only [hosts] using same)]

theorem render_eq_plainAll : ∀ pieces : List Piece,
    Indifferent locales (hostsOfPieces pieces) → render locales pieces = plainAll pieces
  | [], _ => by rw [render, plainAll]
  | piece :: rest, same => by
    rw [hostsOfPieces, indifferent_append] at same
    rw [render, plainAll, localized_eq_plain piece same.1, render_eq_plainAll rest same.2]

end

theorem display_eq_plain (piece : Piece) : piece.display = piece.plain :=
  localized_eq_plain piece (indifferent_nil _)

private theorem hostsOfPieces_eq_nil {pieces : List Piece} (free : ∀ piece ∈ pieces, piece.hosts = []) :
    hostsOfPieces pieces = [] := by
  induction pieces with
  | nil => rw [hostsOfPieces]
  | cons piece pieces ih =>
    obtain ⟨first, rest⟩ := List.forall_mem_cons.mp free
    rw [hostsOfPieces, first, ih rest, List.append_nil]

private theorem plainAll_eq_join (pieces : List Piece) : plainAll pieces = String.join (pieces.map display) := by
  rw [← render_eq_plainAll pieces (indifferent_nil _)]
  exact written_eq_join pieces []

end Piece

/-- Without locales, a value and a piece are written plainly; and for any locales too, if no host value is
in them. Pieces are written as each of them is, one after the other, and so are those of a message. -/
theorem renderings_agree (locales : List Locale) :
    (∀ value : Value, value.localized [] = value.display ∧
      (value.hosts = [] → value.localized locales = value.display)) ∧
    (∀ piece : Piece, piece.localized [] = piece.plain ∧ piece.display = piece.plain ∧
      (piece.hosts = [] → piece.localized locales = piece.display)) ∧
    ∀ pieces : List Piece,
      Piece.render locales pieces = String.join (pieces.map (Piece.localized locales)) ∧
      (∀ bag, (Piece.message pieces bag).localized locales = Piece.render locales pieces) ∧
      Piece.render [] pieces = String.join (pieces.map Piece.display) ∧
      ((∀ piece ∈ pieces, piece.hosts = []) →
        Piece.render locales pieces = String.join (pieces.map Piece.display)) := by
  have free {hosts : List HostValue} (hostless : hosts = []) : Indifferent locales hosts :=
    hostless ▸ List.forall_mem_nil _
  refine ⟨fun value => ⟨?_, fun hostless => ?_⟩, fun piece => ⟨?_, ?_, fun hostless => ?_⟩,
    fun pieces => ⟨?_, fun bag => ?_, ?_, fun hostless => ?_⟩⟩
  · exact value.localized_eq_display (indifferent_nil _)
  · exact value.localized_eq_display (free hostless)
  · exact piece.localized_eq_plain (indifferent_nil _)
  · exact piece.display_eq_plain
  · rw [piece.localized_eq_plain (free hostless), piece.display_eq_plain]
  · exact Piece.written_eq_join pieces locales
  · rw [Piece.localized]
  · exact Piece.written_eq_join pieces []
  · rw [Piece.render_eq_plainAll pieces (free (Piece.hostsOfPieces_eq_nil hostless)),
      Piece.plainAll_eq_join]

/-- A list in a map in a list, and pieces of a message in a message. -/
theorem renderings_agree_nested :
    let value : Value := .list [.map [("k", .list [.bool true, .number 7])], .text "é"]
    let inner : Piece := .message [.fallback "$n" .empty, .dynamic value .empty] .empty
    let piece : Piece := .message [.literal "a: " .empty, inner] .empty
    value.hosts = [] ∧ value.localized [.english] = value.display ∧
    value.display = "\x7bk: true, 7\x7d, é" ∧
    piece.hosts = [] ∧ piece.localized [.english] = piece.display ∧
    piece.display = "a: \x7b$n\x7d\x7bk: true, 7\x7d, é" ∧
    Piece.render [.english] [piece, inner] = String.join ([piece, inner].map Piece.display) := by
  intro value inner piece
  obtain ⟨values, pieces, rows⟩ := renderings_agree [.english]
  have free : inner.hosts = [] := rfl
  have each : ∀ piece' ∈ [piece, inner], piece'.hosts = [] := by
    simp only [List.forall_mem_cons]
    exact ⟨rfl, free, List.forall_mem_nil _⟩
  exact ⟨rfl, (values value).2 rfl, by rfl, rfl, (pieces piece).2.2 rfl, by rfl, (rows _).2.2.2 each⟩

/-- Locales get to a host value in a list, and not to one in a map. -/
example :
    let price : Value := .host ⟨0, "money", fun locales => if locales.isEmpty then "9" else "9 €", none⟩
    (Value.list [price, .map [("k", price)]]).localized [.english] = "9 €, \x7bk: 9\x7d" := by
  rfl

end rendering

end Phrasebook
