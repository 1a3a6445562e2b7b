/-
# Paths in file URIs

An index names a file by a URI, into which some exporter has encoded its path. Letters, digits and
a few marks may stand for themselves, as may the slashes, and an exporter that encodes more than it
has to is right as well. The first slash of the path always stands, for it ends the empty authority.

Such an encoding is printed, so nothing of it is cleaned away, and it holds no character that a URI
is cut at. The path is therefore all that follows the authority, and decoding recovers it, with the
percent signs, blanks, line breaks and further slashes that it may hold.
-/
import SymbolJump.Proofs.KindNumbers
import SymbolJump.Proofs.Requests
import SymbolJump.Proofs.WideTexts

namespace SymbolJump

open Text

namespace Uri

open OpenRequest (isGraphic_of_between plain_of_isEscapeChar)

/-- The characters that may stand for themselves in the path of a URI: the slash, and those that
need no encoding anywhere. -/
def isPathChar (c : Char) : Bool :=
  isAsciiLetter c || isAsciiDigit c || ['/', '-', '.', '_', '~'].contains c

/-- An absolute path and an encoding of it, in which its first slash stands for itself. -/
inductive EncodesPath : String → String → Prop
  | absolute {path encoded : List Char} (others : Percent.Encodes isPathChar path encoded) :
      EncodesPath (String.ofList ('/' :: path)) (String.ofList ('/' :: encoded))

/-- What a URI of a file starts with when it names no machine. -/
def filePrefix : String := "file://"

theorem isGraphic_of_isPathChar {c : Char} (stands : isPathChar c = true) : isGraphic c = true := by
  simp only [isPathChar, isAsciiLetter, isAsciiDigit, Bool.or_eq_true, Bool.and_eq_true,
    decide_eq_true_eq, List.contains_iff_mem] at stands
  rcases stands with ((small | large) | digit) | mark
  · exact isGraphic_of_between (by decide) (by decide) small.1 small.2
  · exact isGraphic_of_between (by decide) (by decide) large.1 large.2
  · exact isGraphic_of_between (by decide) (by decide) digit.1 digit.2
  · simp only [List.mem_cons, List.not_mem_nil, or_false] at mark
    rcases mark with rfl | rfl | rfl | rfl | rfl <;> decide

/-- What an encoded path is written with is printed and cuts no URI. -/
theorem plain_of_encodes {path encoded : List Char}
    (encodes : Percent.Encodes isPathChar path encoded) :
    ∀ c ∈ encoded, isGraphic c = true ∧ c ≠ '#' ∧ c ≠ '?' := by
  intro c member
  rcases Percent.mem_of_encodes encodes c member with stands | escape
  · refine ⟨isGraphic_of_isPathChar stands, ?_, ?_⟩ <;> rintro rfl <;> nomatch stands
  · obtain ⟨graphic, noHash, -⟩ := plain_of_isEscapeChar escape
    refine ⟨graphic, noHash, ?_⟩
    rintro rfl
    nomatch escape

/-- The path of a file's URI is all that follows the empty authority. -/
theorem split_file {encoded : List Char}
    (plain : ∀ c ∈ encoded, isGraphic c = true ∧ c ≠ '#' ∧ c ≠ '?') :
    split (filePrefix ++ String.ofList ('/' :: encoded)) =
      .ok { authority := [], path := '/' :: encoded, query := [] } := by
  have parts : (filePrefix ++ String.ofList ('/' :: encoded)).toList =
      "file".toList ++ ':' :: '/' :: '/' :: '/' :: encoded := by
    rw [String.toList_append, String.toList_ofList]
    rfl
  have graphic : ∀ c ∈ (filePrefix ++ String.ofList ('/' :: encoded)).toList,
      isGraphic c = true := by
    have own : ∀ c ∈ "file:///".toList, isGraphic c = true := List.all_eq_true.mp (by decide)
    rw [parts]
    intro c member
    rcases List.mem_append.mp (show c ∈ "file:///".toList ++ encoded from member) with here | there
    · exact own c here
    · exact (plain c there).1
  have cut : cutAuthority ('/' :: '/' :: '/' :: encoded) = ([], '/' :: encoded) := rfl
  have noHash : '#' ∉ '/' :: encoded := by
    intro member
    cases member with
    | tail _ there => exact (plain _ there).2.1 rfl
  have noMark : '?' ∉ '/' :: encoded := by
    intro member
    cases member with
    | tail _ there => exact (plain _ there).2.2 rfl
  have allowed : authorityError? [] = none := by decide
  rw [split, clean_of_graphic graphic, parts, dropScheme_append (by decide) (by decide), cut]
  dsimp only
  rw [allowed, cutAt_of_not_mem noHash]
  dsimp only
  rw [cutAt_of_not_mem noMark]
  rfl

/-- The path of a file's URI keeps its characters. -/
theorem filePath_file {encoded : List Char}
    (plain : ∀ c ∈ encoded, isGraphic c = true ∧ c ≠ '#' ∧ c ≠ '?') :
    filePath (wholes (filePrefix ++ String.ofList ('/' :: encoded))) =
      ('/' :: encoded).map .whole := by
  have parts : wholes (filePrefix ++ String.ofList ('/' :: encoded)) =
      ("file:".toList ++ '/' :: '/' :: '/' :: encoded).map .whole := by
    rw [wholes, String.toList_append, String.toList_ofList]
    rfl
  have kept : ∀ c ∈ "file:".toList ++ '/' :: '/' :: '/' :: encoded,
      decide (c ≠ '\t' ∧ c ≠ '\r' ∧ c ≠ '\n') = true := by
    have own : ∀ c ∈ "file:///".toList, decide (c ≠ '\t' ∧ c ≠ '\r' ∧ c ≠ '\n') = true :=
      List.all_eq_true.mp (by decide)
    intro c member
    rcases List.mem_append.mp (show c ∈ "file:///".toList ++ encoded from member) with here | there
    · exact own c here
    · have graphic := (plain c there).1
      refine decide_eq_true ⟨?_, ?_, ?_⟩ <;> rintro rfl <;> exact absurd graphic (by decide)
  have uncut : ∀ glyph ∈ ('/' :: encoded).map Glyph.whole,
      decide (glyph.char ≠ '#' ∧ glyph.char ≠ '?') = true := by
    intro glyph member
    obtain ⟨c, here, rfl⟩ := List.mem_map.mp member
    rcases List.mem_cons.mp here with rfl | there
    · decide
    · exact decide_eq_true (plain c there).2
  rw [filePath, parts, List.filter_eq_self.mpr]
  · exact List.takeWhile_eq_self_iff.mpr uncut
  · intro glyph member
    obtain ⟨c, here, rfl⟩ := List.mem_map.mp member
    exact kept c here

end Uri

namespace IndexEntry

open Uri Decimal

/-- A path is recovered from each URI that encodes it. -/
theorem pathOfUri_of_encodesPath {path encoded : String} (encodes : EncodesPath path encoded) :
    pathOfUri (wide (filePrefix ++ encoded)) = .ok (wholes path) := by
  obtain ⟨others⟩ := encodes
  rename_i path encoded
  have isFile : "file:".toList.isPrefixOf
      ((wholes (filePrefix ++ String.ofList ('/' :: encoded))).map Glyph.char) = true := by
    rw [wholes, String.toList_append, String.toList_ofList]
    rfl
  have unescaped (c : Char) (stands : isPathChar c = true) : c ≠ '%' := by
    rintro rfl
    exact absurd stands (by decide)
  have whole : Percent.Encodes isPathChar ('/' :: path) ('/' :: encoded) := .stand rfl others
  have plain := plain_of_encodes others
  rw [pathOfUri, glyphs_wide, if_pos isFile, mended_wholes, split_file plain]
  dsimp only
  rw [filePath_file plain, Percent.decodeGlyphs, eachRun, eachRunFrom_map_whole,
    List.reverse_nil, List.nil_append, Percent.decode_of_encodes unescaped whole, wholes,
    String.toList_ofList]

/-- One taken off a double that counts a kind leaves a double that counts from zero. -/
theorem toInt?_addInt_of_counts {x : Double} {code : Nat} (small : code < 26)
    (whole : x.signedUnits = (code + 1 : Nat) * unitsPerOne) :
    (Floating.addInt (-1) (.finite x)).toInt? = some (code : Int) := by
  have difference : x.signedUnits + -1 * unitsPerOne = code * unitsPerOne := by
    rw [whole]
    push_cast
    ring
  have each : ∀ code : Fin 26,
      (Floating.ofUnits ((code.val : Int) * unitsPerOne)).toInt? = some (code.val : Int) := by
    decide +kernel
  rw [Floating.addInt, difference]
  exact each ⟨code, small⟩

/-- Every number that counts a kind is read as the kind that it counts. -/
theorem kindOf_of_countsKind {number : Json Wide} (counts : CountsKind number) :
    ∃ kind, kindOf number = .ok kind := by
  obtain ⟨count, least, most, whole⟩ := counts
  obtain ⟨code, rfl⟩ : ∃ code, count = code + 1 := ⟨count - 1, by omega⟩
  have small : code < Kind.all.length := show code < 26 by omega
  have less : ∃ other, number.addInt? (-1) = some other ∧ other.asInt? = some (Int.ofNat code) := by
    rcases whole with rfl | ⟨x, rfl, whole⟩
    · exact ⟨_, rfl, congrArg some (by simp)⟩
    · exact ⟨_, rfl, toInt?_addInt_of_counts small whole⟩
  obtain ⟨other, less, value⟩ := less
  have named : kindOfCode? other = some Kind.all[code] := by
    rw [kindOfCode?, value]
    exact List.getElem?_eq_getElem small
  refine ⟨Kind.all[code], ?_⟩
  rw [kindOf, less]
  dsimp only
  rw [named]

/-- The fields of an entry in the shape that is asked of it: a name, the number of a kind, and a
location with a URI. The place inside the file may be left out. -/
structure IsWellFormed (fields : Fields Wide) (uri name : String) : Prop where
  named : fields.get? "name" = some (.text (wide name))
  counted : ∃ number, fields.get? "kind" = some number ∧ CountsKind number
  located : ∃ location range start : Fields Wide,
    fields.get? "location" = some (.object location) ∧
      location.get? "uri" = some (.text (wide uri)) ∧
      location.getOr "range" (.object []) = .object range ∧
      range.getOr "start" (.object []) = .object start

/-- An entry in the right shape is read as soon as its URI names a path. -/
theorem ofJson_of_isWellFormed {fields : Fields Wide} {uri name : String} {path : List Glyph}
    (shape : IsWellFormed fields uri name) (leads : pathOfUri (wide uri) = .ok path) :
    ∃ entry, ofJson (.object fields) = .ok entry ∧ entry.name = .text (wide name) ∧
      entry.path = path := by
  obtain ⟨number, numbered, counts⟩ := shape.counted
  obtain ⟨location, range, start, inside, addressed, ranged, started⟩ := shape.located
  obtain ⟨kind, reads⟩ := kindOf_of_countsKind counts
  have uriRead : uriText (location.getOr "uri" (.text (wide ""))) = .ok (wide uri) := by
    rw [Fields.getOr, addressed]
    rfl
  have rangeRead : fieldsOf (location.getOr "range" (.object [])) = .ok range := by
    rw [ranged]
    rfl
  have startRead : fieldsOf (range.getOr "start" (.object [])) = .ok start := by
    rw [started]
    rfl
  have nameRead : required fields "name" = .ok (.text (wide name)) := by
    rw [required, shape.named]
  have kindRead : required fields "kind" >>= kindOf = .ok kind := by
    rw [required, numbered]
    exact reads
  have locationRead : fields.getOrNull "location" = .object location := by
    rw [Fields.getOrNull, inside]
    rfl
  rw [ofJson, locationRead]
  dsimp only
  rw [uriRead, rangeRead, nameRead, kindRead]
  dsimp only [bind, Except.bind]
  rw [leads]
  dsimp only
  rw [startRead]
  exact ⟨_, rfl, rfl, rfl⟩

/-- An entry in the right shape whose URI encodes the path of a file becomes a candidate in this
file, whatever characters the path holds and whichever of them were encoded. -/
theorem candidate_path_of_file_uri {fields : Fields Wide} {path encoded name : String}
    (encodes : EncodesPath path encoded)
    (shape : IsWellFormed fields (filePrefix ++ encoded) name) :
    ∃ candidate, (ofJson (.object fields)).map toCandidate? = .ok (some candidate) ∧
      candidate.name = name ∧ candidate.location.path = path := by
  obtain ⟨entry, read, named, placed⟩ :=
    ofJson_of_isWellFormed shape (pathOfUri_of_encodesPath encodes)
  have become : entry.toCandidate? = some {
      name
      kind := entry.kind
      location := ⟨path, entry.line.mended, entry.column.mended⟩
      container := entry.container.mended } := by
    rw [toCandidate?, named, placed]
    simp only [Json.asText?, Option.map_some, glyphs_wide, mended_wholes]
  exact ⟨_, by rw [read]; exact congrArg Except.ok become, rfl, rfl⟩

/-- A folder below two slashes whose name would end the path, start a query, stand for a byte and
spread over two lines. -/
theorem candidate_path_of_file_uri_of_separators :
    let path : List Char := "/R&D; #1?/%41+é\n~/a.lean".toList
    let encoded := String.ofList ('/' :: Percent.encode isPathChar path)
    let fields : Fields Wide := [("name", .text (wide "f")), ("kind", .int 12),
      ("location", .object [("uri", .text (wide (filePrefix ++ encoded)))])]
    ∃ candidate, (ofJson (.object fields)).map toCandidate? = .ok (some candidate) ∧
      candidate.name = "f" ∧
      candidate.location.path = "//R&D; #1?/%41+é\n~/a.lean" := by
  intro path encoded fields
  have counts : CountsKind (.int 12) := ⟨12, by decide, by decide, .inl rfl⟩
  have shape : IsWellFormed fields (filePrefix ++ encoded) "f" :=
    ⟨rfl, ⟨_, rfl, counts⟩, _, [], [], rfl, rfl, rfl, rfl⟩
  exact candidate_path_of_file_uri (.absolute (Percent.encodes_encode isPathChar path)) shape

end IndexEntry

end SymbolJump
