import Mathlib.Data.List.Induction
import Phrasebook.Proofs.Grammar.Position

namespace Phrasebook.Syntax

open Text (IsBoundary byteLength)

section bytes

/-- The bytes of a text in UTF-8. -/
def bytes (text : List Char) : List UInt8 := text.flatMap String.utf8EncodeChar

/-- The byte of a line feed. -/
def feed : UInt8 := 10

theorem bytes_cons (c : Char) (text : List Char) :
    bytes (c :: text) = String.utf8EncodeChar c ++ bytes text := List.flatMap_cons

theorem bytes_append (first second : List Char) :
    bytes (first ++ second) = bytes first ++ bytes second := List.flatMap_append

theorem length_bytes (text : List Char) : (bytes text).length = byteLength text := by
  induction text with
  | nil => rfl
  | cons c text ih =>
    rw [bytes_cons, List.length_append, String.length_utf8EncodeChar, ih, Text.byteLength_cons]

/-- A character is its own byte, or all of its bytes are over those of ASCII. -/
theorem toNat_of_mem_utf8EncodeChar (c : Char) :
    ∀ byte ∈ String.utf8EncodeChar c, byte.toNat = c.val.toNat ∨ 128 ≤ byte.toNat := by
  fun_cases String.utf8EncodeChar c with
  | case1 code ascii =>
    simp only [List.forall_mem_singleton, UInt8.toNat_ofNat']
    omega
  | case2 code =>
    simp only [List.forall_mem_cons, UInt8.toNat_ofNat']
    exact ⟨by omega, by omega, List.forall_mem_nil _⟩
  | case3 code =>
    simp only [List.forall_mem_cons, UInt8.toNat_ofNat']
    exact ⟨by omega, by omega, by omega, List.forall_mem_nil _⟩
  | case4 code =>
    simp only [List.forall_mem_cons, UInt8.toNat_ofNat']
    exact ⟨by omega, by omega, by omega, by omega, List.forall_mem_nil _⟩

theorem eq_newline_of_mem {c : Char} (member : feed ∈ String.utf8EncodeChar c) : c = '\n' := by
  have code : c.val.toNat = 10 :=
    (toNat_of_mem_utf8EncodeChar c feed member).elim Eq.symm fun high => absurd high (by decide)
  exact Char.ext (UInt32.toNat_inj.mp code)

private theorem feed_notMem_bytes {text : List Char} (free : '\n' ∉ text) : feed ∉ bytes text := by
  intro member
  obtain ⟨c, listed, inside⟩ := List.mem_flatMap.mp member
  exact free (eq_newline_of_mem inside ▸ listed)

private theorem count_bytes (text : List Char) : (bytes text).count feed = text.count '\n' := by
  induction text with
  | nil => rfl
  | cons c text ih =>
    rw [bytes_cons, List.count_append, ih, List.count_cons, Nat.add_comm]
    by_cases newline : c = '\n'
    · subst newline
      rfl
    · rw [List.count_eq_zero.mpr (mt eq_newline_of_mem newline), if_neg (by simpa using newline)]

/-- A character that an offset lies inside is no line feed, so none is among its bytes up to there. -/
theorem feed_notMem_take {text : List Char} {k : Nat}
    (inside : ∀ c ∈ text.head?, k < c.utf8Size) : feed ∉ (bytes text).take k := by
  intro member
  cases text with
  | nil => simp [bytes] at member
  | cons c text =>
    have short : k < c.utf8Size := inside c rfl
    rw [bytes_cons, List.take_append_of_le_length
      (by rw [String.length_utf8EncodeChar]; exact Nat.le_of_lt short)] at member
    obtain rfl := eq_newline_of_mem (List.mem_of_mem_take member)
    obtain rfl : k = 0 := Nat.lt_one_iff.mp short
    exact absurd member List.not_mem_nil

end bytes

section places

variable {offset : Nat}

/-- The spans of the characters of a text that begins at an offset. -/
def characterSpans (offset : Nat) : List Char → List Span
  | [] => []
  | c :: rest => ⟨offset, offset + c.utf8Size⟩ :: characterSpans (offset + c.utf8Size) rest

/-- Where the line of an offset begins: behind the last line feed before the offset, or with the source. -/
def lineStart (source : List Char) (offset : Nat) : Nat :=
  let front := (bytes source).take offset
  front.length - (front.reverse.takeWhile (· != feed)).length

/-- The position of an offset: the line feeds before it, and the characters between the beginning of
its line and the offset, of those that have ended by then. -/
def Position.located (source : List Char) (offset : Nat) : Position where
  line := ((bytes source).take offset).count feed + 1
  column := ((characterSpans 0 source).countP fun span =>
    lineStart source offset ≤ span.start ∧ span.stop ≤ offset) + 1

private theorem characterSpans_append (offset : Nat) (first second : List Char) :
    characterSpans offset (first ++ second) =
      characterSpans offset first ++ characterSpans (offset + byteLength first) second := by
  induction first generalizing offset with
  | nil => rfl
  | cons c first ih =>
    simp only [List.cons_append, characterSpans, ih, Text.byteLength_cons, Nat.add_assoc]

private theorem length_characterSpans (offset : Nat) (text : List Char) :
    (characterSpans offset text).length = text.length := by
  induction text generalizing offset with
  | nil => rfl
  | cons c text ih => rw [characterSpans, List.length_cons, List.length_cons, ih]

theorem between_of_mem_characterSpans {text : List Char} {span : Span}
    (member : span ∈ characterSpans offset text) :
    offset ≤ span.start ∧ span.start < span.stop ∧ span.stop ≤ offset + byteLength text := by
  induction text generalizing offset with
  | nil => exact absurd member List.not_mem_nil
  | cons c text ih =>
    have size := c.utf8Size_pos
    rw [Text.byteLength_cons]
    rcases List.mem_cons.mp member with rfl | later
    · simp only
      omega
    · have between := ih later
      omega

private theorem lt_stop_of_mem_characterSpans {text : List Char} {k : Nat} {span : Span}
    (inside : ∀ c ∈ text.head?, k < c.utf8Size) (member : span ∈ characterSpans offset text) :
    offset + k < span.stop := by
  cases text with
  | nil => exact absurd member List.not_mem_nil
  | cons c text =>
    have short : k < c.utf8Size := inside c rfl
    rcases List.mem_cons.mp member with rfl | later
    · exact Nat.add_lt_add_left short offset
    · have between := between_of_mem_characterSpans later
      omega

theorem takeWhile_reverse_append [BEq α] [LawfulBEq α] {separator : α} {front line : List α}
    (free : separator ∉ line) (ends : front = [] ∨ ∃ up, front = up ++ [separator]) :
    (front ++ line).reverse.takeWhile (· != separator) = line.reverse := by
  have passed : ∀ item ∈ line.reverse, (item != separator) = true := by
    intro item member
    refine bne_iff_ne.mpr fun same => free ?_
    exact same ▸ List.mem_reverse.mp member
  rw [List.reverse_append, List.takeWhile_append_of_pos passed]
  rcases ends with rfl | ⟨up, rfl⟩
  · exact List.append_nil _
  · rw [List.reverse_concat, List.takeWhile_cons_of_neg (by simp), List.append_nil]

private theorem exists_last_line (text : List Char) : ∃ front line, text = front ++ line ∧ '\n' ∉ line ∧
    (front = [] ∨ ∃ up, front = up ++ ['\n']) := by
  induction text using List.reverseRecOn with
  | nil => exact ⟨[], [], rfl, List.not_mem_nil, .inl rfl⟩
  | append_singleton text c ih =>
    by_cases newline : c = '\n'
    · subst newline
      exact ⟨text ++ ['\n'], [], (List.append_nil _).symm, List.not_mem_nil, .inr ⟨text, rfl⟩⟩
    · obtain ⟨front, line, rfl, free, ends⟩ := ih
      refine ⟨front, line ++ [c], List.append_assoc .., ?_, ends⟩
      simp [free, Ne.symm newline]

/-- The bytes up to an offset are those of the text before a place, and some of what follows it. -/
theorem take_bytes (before rest : List Char) (k : Nat) :
    (bytes (before ++ rest)).take (byteLength before + k) = bytes before ++ (bytes rest).take k := by
  rw [bytes_append, ← length_bytes, List.take_length_add_append]

private theorem lineStart_of_inside {front line rest : List Char} {k : Nat} (free : '\n' ∉ line)
    (ends : front = [] ∨ ∃ up, front = up ++ ['\n']) (inside : ∀ c ∈ rest.head?, k < c.utf8Size) :
    lineStart (front ++ line ++ rest) (byteLength (front ++ line) + k) = byteLength front := by
  have tail : feed ∉ bytes line ++ (bytes rest).take k := by
    rw [List.mem_append]
    exact fun member => member.elim (feed_notMem_bytes free) (feed_notMem_take inside)
  have head : bytes front = [] ∨ ∃ up, bytes front = up ++ [feed] := by
    rcases ends with rfl | ⟨up, rfl⟩
    · exact .inl rfl
    · exact .inr ⟨bytes up, bytes_append up ['\n']⟩
  rw [lineStart, take_bytes, bytes_append, List.append_assoc, takeWhile_reverse_append tail head,
    List.length_reverse, List.length_append, Nat.add_sub_cancel, length_bytes]

private theorem countP_characterSpans {front line rest : List Char} {k : Nat}
    (inside : ∀ c ∈ rest.head?, k < c.utf8Size) :
    (characterSpans 0 (front ++ line ++ rest)).countP (fun span =>
      byteLength front ≤ span.start ∧ span.stop ≤ byteLength (front ++ line) + k) = line.length := by
  rw [characterSpans_append, characterSpans_append, List.countP_append, List.countP_append,
    Nat.zero_add, Nat.zero_add]
  have earlier : (characterSpans 0 front).countP (fun span =>
      byteLength front ≤ span.start ∧ span.stop ≤ byteLength (front ++ line) + k) = 0 := by
    apply List.countP_eq_zero.mpr
    intro span member
    have between := between_of_mem_characterSpans member
    rw [decide_eq_true_iff]
    omega
  have present : (characterSpans (byteLength front) line).countP (fun span =>
      byteLength front ≤ span.start ∧ span.stop ≤ byteLength (front ++ line) + k) = line.length := by
    rw [← length_characterSpans (byteLength front) line]
    apply List.countP_eq_length.mpr
    intro span member
    have between := between_of_mem_characterSpans member
    rw [decide_eq_true_iff, Text.byteLength_append]
    omega
  have later : (characterSpans (byteLength (front ++ line)) rest).countP (fun span =>
      byteLength front ≤ span.start ∧ span.stop ≤ byteLength (front ++ line) + k) = 0 := by
    apply List.countP_eq_zero.mpr
    intro span member
    have behind := lt_stop_of_mem_characterSpans inside member
    rw [decide_eq_true_iff]
    omega
  rw [earlier, present, later, Nat.zero_add, Nat.add_zero]

/-- An offset inside a character, or before it, is at the position behind the text before. -/
theorem located_of_inside {before rest : List Char} {k : Nat}
    (inside : ∀ c ∈ rest.head?, k < c.utf8Size) :
    Position.located (before ++ rest) (byteLength before + k) = Position.after before := by
  obtain ⟨front, line, rfl, free, ends⟩ := exists_last_line before
  have lines : ((bytes (front ++ line ++ rest)).take (byteLength (front ++ line) + k)).count feed =
      (front ++ line).count '\n' := by
    rw [take_bytes, List.count_append, count_bytes, List.count_eq_zero.mpr (feed_notMem_take inside)]
    rfl
  rw [Position.located, lineStart_of_inside free ends inside, lines, countP_characterSpans inside,
    Position.after, takeWhile_reverse_append free ends, List.length_reverse]

private theorem exists_inside (source : List Char) (offset : Nat) : ∃ before rest k,
    source = before ++ rest ∧ offset = byteLength before + k ∧ ∀ c ∈ rest.head?, k < c.utf8Size := by
  induction source generalizing offset with
  | nil => exact ⟨[], [], offset, rfl, (Nat.zero_add _).symm, by simp⟩
  | cons c source ih =>
    by_cases short : offset < c.utf8Size
    · exact ⟨[], c :: source, offset, rfl, (Nat.zero_add _).symm, by simpa using short⟩
    · obtain ⟨before, rest, k, rfl, left, inside⟩ := ih (offset - c.utf8Size)
      refine ⟨c :: before, rest, k, rfl, ?_, inside⟩
      rw [Text.byteLength_cons]
      omega

end places

section boundaries

variable {source : List Char} {offset : Nat}

private theorem Position.ofOffset_of_not_boundary (apart : ¬ IsBoundary source offset) :
    ofOffset source offset = after source := by
  have uncut : Text.splitAtOffset? source offset = none := by
    cases cut : Text.splitAtOffset? source offset with
    | none => rfl
    | some parts =>
      obtain ⟨split, size⟩ := Text.eq_append_of_splitAtOffset? cut
      exact absurd ⟨parts.1, parts.2, split, size⟩ apart
  rw [ofOffset, uncut]
  rfl

private theorem Position.ofOffset_eq_located (boundary : IsBoundary source offset) :
    ofOffset source offset = located source offset := by
  obtain ⟨before, rest, rfl, rfl⟩ := boundary
  have inside : ∀ c ∈ rest.head?, 0 < c.utf8Size := fun c _ => c.utf8Size_pos
  rw [ofOffset_append]
  exact (located_of_inside inside).symm

private theorem Position.located_precedes (apart : ¬ IsBoundary source offset)
    (within : offset ≤ byteLength source) : (located source offset).Precedes (after source) := by
  obtain ⟨before, rest, k, rfl, rfl, inside⟩ := exists_inside source offset
  have more : rest ≠ [] := by
    rintro rfl
    rw [Text.byteLength_append, Text.byteLength_nil] at within
    obtain rfl : k = 0 := by omega
    exact apart ⟨before, [], rfl, rfl⟩
  rw [located_of_inside inside]
  exact after_precedes before more

end boundaries

section errors

variable {source : List Char} {start : Nat} {error : Error}

private theorem isBoundary_start_of_opens (opens : Opens source start)
    (reported : error ∈ (parsePlaceholder source start).2) : IsBoundary source error.start := by
  obtain ⟨before, after, rfl, rfl⟩ := opens
  have placed := placed_readPlaceholder (Text.Cursor.Within.of_append before ('{' :: after))
  rw [Grammar.parsePlaceholder_brace] at reported
  exact (placed.errors error reported).starts

theorem eq_malformed_of_not_opens (closed : ¬ Opens source start)
    (reported : error ∈ (parsePlaceholder source start).2) :
    error = .malformed ⟨min start (byteLength source), min start (byteLength source)⟩ := by
  rw [parsePlaceholder_of_not_opens closed] at reported
  exact List.mem_singleton.mp reported

private theorem Opens.isBoundary (opens : Opens source start) : IsBoundary source start := by
  obtain ⟨before, after, split, size⟩ := opens
  exact ⟨before, '{' :: after, split, size⟩

/-- An error of a placeholder starts between two characters, unless the placeholder was asked for inside
one. -/
theorem isBoundary_start (between : start < byteLength source → IsBoundary source start)
    (reported : error ∈ (parsePlaceholder source start).2) : IsBoundary source error.start := by
  by_cases opens : Opens source start
  · exact isBoundary_start_of_opens opens reported
  · rw [eq_malformed_of_not_opens opens reported]
    by_cases within : start < byteLength source
    · have same : min start (byteLength source) = start := Nat.min_eq_left (Nat.le_of_lt within)
      exact same.symm ▸ between within
    · have same : min start (byteLength source) = byteLength source :=
        Nat.min_eq_right (Nat.not_lt.mp within)
      exact same.symm ▸ ⟨source, [], (List.append_nil _).symm, rfl⟩

/-- The errors of a placeholder are at the lines and the columns where they start, except where the
placeholder was asked for inside a character: the one error of that starts there, and its position is
that of the end of the source. -/
theorem position_located_iff (reported : error ∈ (parsePlaceholder source start).2) :
    (error.position source = .located source error.start ↔
      (start < byteLength source → IsBoundary source start)) ∧
    (start < byteLength source → ¬ IsBoundary source start →
      error = .malformed ⟨start, start⟩ ∧ error.position source = .after source ∧
      (Position.located source start).Precedes (.after source)) := by
  have stray (within : start < byteLength source) (apart : ¬ IsBoundary source start) :
      error = .malformed ⟨start, start⟩ ∧ error.position source = .after source ∧
      (Position.located source start).Precedes (.after source) := by
    have closed : ¬ Opens source start := fun opens => apart opens.isBoundary
    obtain rfl : error = .malformed ⟨start, start⟩ := by
      rw [eq_malformed_of_not_opens closed reported, Nat.min_eq_left (Nat.le_of_lt within)]
    exact ⟨rfl, Position.ofOffset_of_not_boundary apart,
      Position.located_precedes apart (Nat.le_of_lt within)⟩
  refine ⟨⟨fun same within => ?_, fun between => ?_⟩, stray⟩
  · by_contra apart
    obtain ⟨rfl, behind, before⟩ := stray within apart
    rw [← behind, same] at before
    exact Position.not_precedes_self _ before
  · exact Position.ofOffset_eq_located (isBoundary_start between reported)

/-- A name that is missing on the second line, behind a letter of two bytes, and a placeholder that is
asked for inside such a letter on the first line. -/
theorem position_located_iff_letters :
    let source := "é\né\x7b$\x7d".toList
    let unnamed : Error := .emptyToken 7
    let stray : Error := .malformed ⟨1, 1⟩
    unnamed ∈ (parsePlaceholder source 5).2 ∧ IsBoundary source 5 ∧
    unnamed.position source = .located source 7 ∧ Position.located source 7 = ⟨2, 4⟩ ∧
    stray ∈ (parsePlaceholder source 1).2 ∧ 1 < byteLength source ∧ ¬ IsBoundary source 1 ∧
    stray.position source ≠ .located source 1 ∧ stray.position source = .after source := by
  intro source unnamed stray
  have reported : unnamed ∈ (parsePlaceholder source 5).2 := by decide +kernel
  have between : IsBoundary source 5 := ⟨"é\né".toList, "\x7b$\x7d".toList, by decide, by decide⟩
  have misplaced : stray ∈ (parsePlaceholder source 1).2 := by decide +kernel
  have within : 1 < byteLength source := by decide
  have apart : ¬ IsBoundary source 1 := by
    rintro ⟨before, after, split, size⟩
    have cut := Text.splitAtOffset?_append before after
    rw [← split, size] at cut
    exact absurd cut (by simp [show Text.splitAtOffset? source 1 = none by decide])
  obtain ⟨faithful, -⟩ := position_located_iff reported
  obtain ⟨exact, behind⟩ := position_located_iff misplaced
  exact ⟨reported, between, faithful.mpr fun _ => between, by decide +kernel, misplaced, within, apart,
    fun same => apart (exact.mp same within), (behind within apart).2.1⟩

/-- Inside the letter of the first line there is no placeholder, and the error of that is reported on the
second line. -/
theorem position_located_inside :
    let source := "é\nab".toList
    let error : Error := .malformed ⟨1, 1⟩
    (parsePlaceholder source 1).2 = [error] ∧ Position.located source error.start = ⟨1, 1⟩ ∧
    error.position source = ⟨2, 3⟩ := by
  decide +kernel

end errors

end Phrasebook.Syntax
