/-
# Requests in URIs

A request is written into the query of a URI as the fields of a form: each key and value is
percent-encoded, with a plus sign for a blank if the writer likes, and fields are joined in any
order. A launcher may encode the query once more as a whole. What is said here is for every such
writer and launcher: the request that is read is the one that was written.

Decoding undoes the outer encoding, which gives back the query with its separators. Whatever of
the request looks like a separator is still encoded at that point, so cutting finds the fields that
were joined, and decoding each undoes the inner encoding.
-/
import SymbolJump.OpenRequest
import SymbolJump.Proofs.Cuts
import SymbolJump.Proofs.Escapes

namespace SymbolJump

open Text

/-! ## Writing a request -/

/-- Whether a character is printed in ASCII and is no blank. -/
def isGraphic (c : Char) : Bool :=
  0x21 ≤ c.toNat && c.toNat ≤ 0x7e

/-- The characters that may stand for themselves in a query that is encoded as a whole: all that are
printed but the percent sign, and the one that would end the query. -/
def Uri.isQueryChar (c : Char) : Bool :=
  isGraphic c && c != '%' && c != '#'

namespace OpenRequest

/-- The characters that may stand for themselves in the key or the value of a field. -/
def isFieldChar (c : Char) : Bool :=
  Uri.isQueryChar c && c != '&' && c != '=' && c != '+'

/-- A text and its encoding in a form, where a plus sign may stand for a blank. -/
inductive FormEncodes : List Char → List Char → Prop
  | nil : FormEncodes [] []
  | stand {c : Char} {text encoded : List Char} (plain : isFieldChar c = true)
      (others : FormEncodes text encoded) : FormEncodes (c :: text) (c :: encoded)
  | blank {text encoded : List Char} (others : FormEncodes text encoded) :
      FormEncodes (' ' :: text) ('+' :: encoded)
  | escape {c : Char} {text escaped encoded : List Char}
      (escapes : Percent.Escapes (String.utf8EncodeChar c) escaped)
      (others : FormEncodes text encoded) : FormEncodes (c :: text) (escaped ++ encoded)

/-- A field and what is written for it. -/
inductive FieldEncodes : String × String → List Char → Prop
  | pair {key value : String} {left right : List Char} (ofKey : FormEncodes key.toList left)
      (ofValue : FormEncodes value.toList right) :
      FieldEncodes (key, value) (left ++ '=' :: right)

/-- Fields and a query that has them in this order. -/
inductive QueryEncodes : List (String × String) → List Char → Prop
  | joined {given : List (String × String)} {pieces : List (List Char)}
      (each : List.Forall₂ FieldEncodes given pieces) :
      QueryEncodes given (['&'].intercalate pieces)

/-- The fields of a request: those that it has. -/
def parameters (request : OpenRequest) : List (String × String) :=
  (request.symbol.map ("symbol", ·)).toList ++ (request.project.map ("cwd", ·)).toList ++
    (request.kind.map ("kind", ·)).toList

/-! ## A query for every request -/

/-- The text of a key or a value as a form has it, with plus signs for blanks if so wished. -/
def writeField (plus : Bool) (text : List Char) : List Char :=
  text.flatMap fun c =>
    if isFieldChar c then [c]
    else if plus && c = ' ' then ['+']
    else (String.utf8EncodeChar c).flatMap Percent.escapeByte

/-- The query that has fields in their order. -/
def writeQuery (plus : Bool) (given : List (String × String)) : List Char :=
  ['&'].intercalate (given.map fun field =>
    writeField plus field.1.toList ++ '=' :: writeField plus field.2.toList)

theorem formEncodes_writeField (plus : Bool) (text : List Char) :
    FormEncodes text (writeField plus text) := by
  induction text with
  | nil => exact .nil
  | cons c text ih =>
      rw [writeField, List.flatMap_cons]
      split
      · next plain => exact .stand plain ih
      split
      · next blank =>
        obtain ⟨-, same⟩ := Bool.and_eq_true_iff.mp blank
        rw [of_decide_eq_true same]
        exact .blank ih
      · exact .escape (Percent.escapes_flatMap_escapeByte _) ih

theorem queryEncodes_writeQuery (plus : Bool) (given : List (String × String)) :
    QueryEncodes given (writeQuery plus given) := by
  refine .joined ?_
  induction given with
  | nil => exact .nil
  | cons field rest ih =>
      exact .cons (.pair (formEncodes_writeField _ _) (formEncodes_writeField _ _)) ih

/-- The blank between words is written as a plus sign, the plus sign by its number. -/
example : writeQuery true [("symbol", "a b+c"), ("cwd", "/é")] =
    "symbol=a+b%2Bc&cwd=/%C3%A9".toList := by decide

/-! ## Characters of a query -/

theorem isGraphic_of_between {low high c : Char} (lower : 0x21 ≤ low.toNat)
    (upper : high.toNat ≤ 0x7e) (least : low ≤ c) (most : c ≤ high) : isGraphic c = true := by
  have above := UInt32.le_iff_toNat_le.mp (Char.le_def.mp least)
  have below := UInt32.le_iff_toNat_le.mp (Char.le_def.mp most)
  apply Bool.and_eq_true_iff.mpr
  constructor
  · exact decide_eq_true (lower.trans above)
  · exact decide_eq_true (below.trans upper)

theorem isGraphic_of_hexValue? {c : Char} {value : Nat} (digit : hexValue? c = some value) :
    isGraphic c = true := by
  unfold hexValue? at digit
  split at digit
  · next range => exact isGraphic_of_between (by decide) (by decide) range.1 range.2
  split at digit
  · next range => exact isGraphic_of_between (by decide) (by decide) range.1 range.2
  split at digit
  · next range => exact isGraphic_of_between (by decide) (by decide) range.1 range.2
  · nomatch digit

/-- Escapes are written with printed characters and without separators. -/
theorem plain_of_isEscapeChar {c : Char} (escape : Percent.isEscapeChar c = true) :
    isGraphic c = true ∧ c ≠ '#' ∧ c ≠ '&' ∧ c ≠ '=' ∧ c ≠ '+' := by
  have graphic : isGraphic c = true := by
    rcases Bool.or_eq_true_iff.mp escape with percent | digit
    · rw [beq_iff_eq.mp percent]
      rfl
    · obtain ⟨value, digit⟩ := Option.isSome_iff_exists.mp digit
      exact isGraphic_of_hexValue? digit
  refine ⟨graphic, ?_, ?_, ?_, ?_⟩ <;> rintro rfl <;> nomatch escape

theorem mem_of_formEncodes {text encoded : List Char} (encodes : FormEncodes text encoded) :
    ∀ c ∈ encoded, isFieldChar c = true ∨ c = '+' ∨ Percent.isEscapeChar c = true := by
  induction encodes with
  | nil => exact fun _ member => nomatch member
  | stand plain others ih => exact List.forall_mem_cons.mpr ⟨.inl plain, ih⟩
  | blank others ih => exact List.forall_mem_cons.mpr ⟨.inr (.inl rfl), ih⟩
  | escape escapes others ih =>
      intro c member
      rcases List.mem_append.mp member with here | there
      · exact .inr (.inr (Percent.isEscapeChar_of_escapes escapes c here))
      · exact ih c there

/-- What is written for the text of a field holds neither separator of fields. -/
theorem not_mem_of_formEncodes {text encoded : List Char} (encodes : FormEncodes text encoded) :
    '&' ∉ encoded ∧ '=' ∉ encoded := by
  constructor
  · intro member
    rcases mem_of_formEncodes encodes _ member with plain | same | escape
    · nomatch plain
    · nomatch same
    · exact (plain_of_isEscapeChar escape).2.2.1 rfl
  · intro member
    rcases mem_of_formEncodes encodes _ member with plain | same | escape
    · nomatch plain
    · nomatch same
    · exact (plain_of_isEscapeChar escape).2.2.2.1 rfl

/-- What is written for a form is printed, and does not end the query. -/
theorem plain_of_formEncodes {text encoded : List Char} (encodes : FormEncodes text encoded) :
    ∀ c ∈ encoded, isGraphic c = true ∧ c ≠ '#' := by
  intro c member
  rcases mem_of_formEncodes encodes c member with plain | rfl | escape
  · simp only [isFieldChar, Uri.isQueryChar, Bool.and_eq_true, bne_iff_ne] at plain
    exact ⟨plain.1.1.1.1.1, plain.1.1.1.2⟩
  · decide
  · exact ⟨(plain_of_isEscapeChar escape).1, (plain_of_isEscapeChar escape).2.1⟩

theorem plain_of_queryEncodes {given : List (String × String)} {query : List Char}
    (encodes : QueryEncodes given query) : ∀ c ∈ query, isGraphic c = true ∧ c ≠ '#' := by
  obtain ⟨each⟩ := encodes
  rename_i pieces
  have plain : ∀ piece ∈ pieces, ∀ c ∈ piece, isGraphic c = true ∧ c ≠ '#' := by
    induction each with
    | nil => exact fun _ member => nomatch member
    | cons field others ih =>
        refine List.forall_mem_cons.mpr ⟨?_, ih⟩
        obtain ⟨ofKey, ofValue⟩ := field
        intro c member
        rcases List.mem_append.mp member with key | rest
        · exact plain_of_formEncodes ofKey c key
        rcases List.mem_cons.mp rest with rfl | value
        · decide
        · exact plain_of_formEncodes ofValue c value
  intro c member
  rcases mem_of_mem_intercalate member with rfl | ⟨piece, among, inside⟩
  · decide
  · exact plain piece among c inside

/-! ## Reading a form -/

/-- A character of a field as it stands for decoding. -/
def plusToBlank (c : Char) : Char :=
  if c = '+' then ' ' else c

theorem map_plusToBlank_of_escapes {bytes : List UInt8} {escaped : List Char}
    (escapes : Percent.Escapes bytes escaped) : escaped.map plusToBlank = escaped := by
  refine (List.map_congr_left fun c member => ?_).trans (List.map_id escaped)
  have escape := Percent.isEscapeChar_of_escapes escapes c member
  exact if_neg (plain_of_isEscapeChar escape).2.2.2.2

/-- With blanks for plus signs, the encoding of a form is a plain one. -/
theorem encodes_of_formEncodes {text encoded : List Char} (encodes : FormEncodes text encoded) :
    Percent.Encodes (· != '%') text (encoded.map plusToBlank) := by
  induction encodes with
  | nil => exact .nil
  | @stand c text encoded plain others ih =>
      have noPlus : c ≠ '+' := by
        rintro rfl
        nomatch plain
      have noPercent : (c != '%') = true := by
        rw [bne_iff_ne]
        rintro rfl
        nomatch plain
      rw [List.map_cons, plusToBlank, if_neg noPlus]
      exact .stand noPercent ih
  | blank others ih => exact .stand rfl ih
  | escape escapes others ih =>
      rw [List.map_append, map_plusToBlank_of_escapes escapes]
      exact .escape escapes ih

/-- A field's text is recovered from its encoding. -/
theorem decodeField_of_formEncodes {text : String} {encoded : List Char}
    (encodes : FormEncodes text.toList encoded) : decodeField encoded = text := by
  have plain (c : Char) (stands : (c != '%') = true) : c ≠ '%' := bne_iff_ne.mp stands
  rw [decodeField]
  exact (congrArg String.ofList (Percent.decode_of_encodes plain
    (encodes_of_formEncodes encodes))).trans String.ofList_toList

theorem decodePair_of_fieldEncodes {field : String × String} {piece : List Char}
    (encodes : FieldEncodes field piece) : decodePair piece = field := by
  obtain ⟨ofKey, ofValue⟩ := encodes
  rw [decodePair, cutAt_append_cons (not_mem_of_formEncodes ofKey).2]
  exact Prod.ext (decodeField_of_formEncodes ofKey) (decodeField_of_formEncodes ofValue)

theorem plain_of_fieldEncodes {field : String × String} {piece : List Char}
    (encodes : FieldEncodes field piece) : '&' ∉ piece ∧ piece ≠ [] := by
  obtain ⟨ofKey, ofValue⟩ := encodes
  refine ⟨?_, by simp⟩
  simp [(not_mem_of_formEncodes ofKey).1, (not_mem_of_formEncodes ofValue).1]

/-- Joined pieces that hold no separator are read each on its own. -/
theorem fields_intercalate {pieces : List (List Char)}
    (plain : ∀ piece ∈ pieces, '&' ∉ piece ∧ piece ≠ []) :
    fields (['&'].intercalate pieces) = pieces.map decodePair := by
  have kept : (pieces.filter fun piece => !piece.isEmpty) = pieces := by
    refine List.filter_eq_self.mpr fun piece member => ?_
    simpa using (plain piece member).2
  rw [fields]
  by_cases none : pieces = []
  · rw [none]
    rfl
  · rw [splitOn_intercalate none fun piece member => (plain piece member).1, kept]

/-- The fields of a query are those that were written into it. -/
theorem fields_of_queryEncodes {given : List (String × String)} {query : List Char}
    (encodes : QueryEncodes given query) : fields query = given := by
  obtain ⟨each⟩ := encodes
  rw [fields_intercalate]
  · induction each with
    | nil => rfl
    | cons field others ih => rw [List.map_cons, decodePair_of_fieldEncodes field, ih]
  · induction each with
    | nil => exact fun _ member => nomatch member
    | cons field others ih => exact List.forall_mem_cons.mpr ⟨plain_of_fieldEncodes field, ih⟩

/-! ## Reading a request -/

/-- A request that could have been meant: what it has is not empty. -/
def IsGiven (request : OpenRequest) : Prop :=
  request.symbol ≠ some "" ∧ request.project ≠ some "" ∧ request.kind ≠ some ""

instance (request : OpenRequest) : Decidable request.IsGiven :=
  inferInstanceAs (Decidable (_ ∧ _))

theorem field?_eq {given : List (String × String)} (distinct : (given.map Prod.fst).Nodup)
    {key : String} {value : Option String} (filled : value ≠ some "")
    (fields : ∀ text, (key, text) ∈ given ↔ value = some text) : field? given key = value := by
  have distinct' : (given.reverse.map Prod.fst).Nodup := by
    rw [List.map_reverse]
    exact List.nodup_reverse.mpr distinct
  have found : given.reverse.lookup key = value := by
    ext text
    rw [lookup_eq_some_iff_mem distinct', List.mem_reverse, fields]
  rw [field?, found]
  rcases value with _ | value
  · rfl
  · split
    · next empty => exact absurd empty filled
    · next none => nomatch none
    · next same => rw [same]

theorem mem_parameters {request : OpenRequest} {key text : String} :
    (key, text) ∈ request.parameters ↔
      (key = "symbol" ∧ request.symbol = some text) ∨ (key = "cwd" ∧ request.project = some text) ∨
        (key = "kind" ∧ request.kind = some text) := by
  obtain ⟨symbol, project, kind⟩ := request
  cases symbol <;> cases project <;> cases kind <;> simp [parameters, eq_comm, and_comm]

theorem nodup_parameters (request : OpenRequest) : (request.parameters.map Prod.fst).Nodup := by
  obtain ⟨symbol, project, kind⟩ := request
  cases symbol <;> cases project <;> cases kind <;> simp [parameters]

/-- A request is read off its fields, in whatever order they come. -/
theorem request_of_fields {request : OpenRequest} (filled : request.IsGiven)
    {given : List (String × String)} (order : given.Perm request.parameters) :
    (⟨field? given "symbol", field? given "cwd", field? given "kind"⟩ : OpenRequest) =
      request := by
  have distinct : (given.map Prod.fst).Nodup :=
    ((order.map _).nodup_iff).mpr (nodup_parameters request)
  have member (key text : String) : (key, text) ∈ given ↔ _ := order.mem_iff.trans mem_parameters
  obtain ⟨symbol, project, kind⟩ := request
  obtain ⟨named, placed, meant⟩ := filled
  congr 1
  · exact field?_eq distinct named fun text => by simp [member]
  · exact field?_eq distinct placed fun text => by simp [member]
  · exact field?_eq distinct meant fun text => by simp [member]

end OpenRequest

/-! ## The query of a URI -/

namespace Uri

/-- What every URI of a request starts with. -/
def requestPrefix : String := "symbol-opener://open?"

/-- Nothing is cleaned away from printed characters. -/
theorem clean_of_graphic {text : List Char} (graphic : ∀ c ∈ text, isGraphic c = true) :
    clean text = text := by
  have front : (text.dropWhile fun c => c.toNat ≤ 0x20) = text := by
    cases text with
    | nil => rfl
    | cons c rest =>
        have printed := graphic c List.mem_cons_self
        simp only [isGraphic, Bool.and_eq_true, decide_eq_true_eq] at printed
        exact List.dropWhile_cons_of_neg (by simp; omega)
  rw [clean, front]
  refine List.filter_eq_self.mpr fun c member => ?_
  have printed := graphic c member
  rw [decide_eq_true_eq]
  refine ⟨?_, ?_, ?_⟩ <;> rintro rfl <;> nomatch printed

/-- A scheme is dropped up to its colon. -/
theorem dropScheme_append {scheme : List Char} (noColon : ':' ∉ scheme)
    (isScheme : ((scheme.head?.map isAsciiLetter).getD false && scheme.all isSchemeChar) = true)
    (rest : List Char) : dropScheme (scheme ++ ':' :: rest) = rest := by
  rw [dropScheme, cutAt_append_cons noColon]
  exact if_pos isScheme

theorem cutAuthority_request (query : List Char) :
    cutAuthority ('/' :: '/' :: ("open".toList ++ '?' :: query)) =
      ("open".toList, '?' :: query) := by
  rfl

/-- A query of printed characters is found behind its prefix as it stands. -/
theorem split_request {query : List Char} (plain : ∀ c ∈ query, isGraphic c = true ∧ c ≠ '#') :
    split (requestPrefix ++ String.ofList query) =
      .ok { authority := "open".toList, path := [], query } := by
  have parts : (requestPrefix ++ String.ofList query).toList =
      "symbol-opener".toList ++ ':' :: '/' :: '/' :: ("open".toList ++ '?' :: query) := by
    rw [String.toList_append, String.toList_ofList]
    rfl
  have graphic : ∀ c ∈ (requestPrefix ++ String.ofList query).toList, isGraphic c = true := by
    have own : ∀ c ∈ requestPrefix.toList, isGraphic c = true :=
      List.all_eq_true.mp (by decide)
    rw [String.toList_append, String.toList_ofList]
    intro c member
    rcases List.mem_append.mp member with here | there
    · exact own c here
    · exact (plain c there).1
  have noHash : '#' ∉ '?' :: query := by
    intro member
    rcases List.mem_cons.mp member with same | there
    · nomatch same
    · exact (plain _ there).2 rfl
  have allowed : authorityError? "open".toList = none := by decide
  rw [split, clean_of_graphic graphic, parts, dropScheme_append (by decide) (by decide),
    cutAuthority_request]
  dsimp only
  rw [allowed, cutAt_of_not_mem noHash]
  rfl

end Uri

namespace OpenRequest

/-- A request written into the query of a URI is read back, when the query was encoded once more
as a whole: whatever the writer and the launcher let stand for itself, and in whatever order the
parameters came. -/
theorem ofUri_of_encoded_twice {request : OpenRequest} (filled : request.IsGiven)
    {given : List (String × String)} (order : given.Perm request.parameters)
    {query encoded : List Char} (once : QueryEncodes given query)
    (twice : Percent.Encodes Uri.isQueryChar query encoded) :
    ofUri (Uri.requestPrefix ++ String.ofList encoded) = .ok request := by
  have standing (c : Char) (stands : Uri.isQueryChar c = true) :
      isGraphic c = true ∧ c ≠ '%' ∧ c ≠ '#' := by
    simpa [Uri.isQueryChar, and_assoc] using stands
  have plain (c : Char) (member : c ∈ encoded) : isGraphic c = true ∧ c ≠ '#' := by
    rcases Percent.mem_of_encodes twice c member with stands | escape
    · exact ⟨(standing c stands).1, (standing c stands).2.2⟩
    · exact ⟨(plain_of_isEscapeChar escape).1, (plain_of_isEscapeChar escape).2.1⟩
  have decoded : Percent.decode encoded = query :=
    Percent.decode_of_encodes (fun c stands => (standing c stands).2.1) twice
  rw [ofUri, Uri.split_request plain]
  refine congrArg Except.ok ?_
  unfold ofQuery
  dsimp only
  rw [decoded, fields_of_queryEncodes once]
  exact request_of_fields filled order

/-- An operator in a project whose path holds separators, a percent sign and blanks. The parameters
come in reverse, and the blanks are written by plus signs. -/
theorem ofUri_of_operator_encoded_twice :
    let request : OpenRequest := ⟨some "operator+=", some "/R&D = #100%;\n", some "Method"⟩
    let query := writeQuery true request.parameters.reverse
    ofUri (Uri.requestPrefix ++ String.ofList (Percent.encode Uri.isQueryChar query)) =
      .ok request := by
  intro request query
  have filled : request.IsGiven := by decide
  exact ofUri_of_encoded_twice filled (List.reverse_perm _) (queryEncodes_writeQuery true _)
    (Percent.encodes_encode _ _)

end OpenRequest

end SymbolJump
