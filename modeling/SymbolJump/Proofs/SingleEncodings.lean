/-
# Requests in URIs that are encoded once

A query is decoded as a whole before it is cut, whether or not a launcher encoded it as a whole.
When none did, the values of a request stand in it as they are by the time that it is cut, with plus
signs for blanks where the writer put them, and are decoded once more. So a request is read back
exactly when none of its values holds a separator of fields, a plus sign, or something that looks
like an escape. That it is not read back otherwise is a matter of counting: nothing that is read is
longer than what it was read from, so to fill the fields again every piece of the query has to be
one of those that were joined, and none may have become shorter.
-/
import Mathlib.Algebra.Order.BigOperators.Group.List
import Mathlib.Algebra.Order.Ring.Nat
import SymbolJump.Proofs.Requests
import SymbolJump.Proofs.Unescaped

namespace SymbolJump

open Text

namespace Text

/-- Pieces are as long as the text without its separators. -/
theorem sum_length_splitOn (separator : Char) (text : List Char) :
    ((splitOn separator text).map List.length).sum + text.count separator = text.length := by
  induction text with
  | nil => rfl
  | cons c text ih =>
      obtain ⟨piece, pieces, pieced⟩ := List.exists_cons_of_ne_nil (splitOn_ne_nil separator text)
      rw [pieced, List.map_cons, List.sum_cons] at ih
      rw [splitOn, pieced]
      by_cases same : c = separator
      · subst same
        simp only [if_true, List.map_cons, List.sum_cons, List.count_cons_self, List.length_cons,
          List.length_nil]
        omega
      · simp only [if_neg same, List.map_cons, List.sum_cons, List.count_cons_of_ne same,
          List.length_cons]
        omega

end Text

namespace Text.Percent

theorem Encodes.append {mayStand : Char → Bool} {a b a' b' : List Char}
    (first : Encodes mayStand a a') (second : Encodes mayStand b b') :
    Encodes mayStand (a ++ b) (a' ++ b') := by
  induction first with
  | nil => exact second
  | stand plain others ih => exact .stand plain ih
  | escape escapes others ih =>
      rw [List.append_assoc]
      exact .escape escapes ih

end Text.Percent

namespace OpenRequest

/-! ## A query after it was decoded -/

/-- A text, and how it shows in a query that was decoded: plus signs may stand for its blanks. -/
def Shows (text shown : List Char) : Prop :=
  List.Forall₂ (fun c d => d = c ∨ (c = ' ' ∧ d = '+')) text shown

/-- A field, and how it shows in a query that was decoded. -/
inductive ShowsField : String × String → List Char → Prop
  | pair {key value : String} {left right : List Char} (ofKey : Shows key.toList left)
      (ofValue : Shows value.toList right) : ShowsField (key, value) (left ++ '=' :: right)

theorem exists_shows {text encoded : List Char} (encodes : FormEncodes text encoded) :
    ∃ shown, Shows text shown ∧ Percent.Encodes (· != '%') shown encoded := by
  induction encodes with
  | nil => exact ⟨[], .nil, .nil⟩
  | @stand c text encoded plain others ih =>
      obtain ⟨shown, shows, inner⟩ := ih
      have noPercent : (c != '%') = true := by
        rw [bne_iff_ne]
        rintro rfl
        nomatch plain
      exact ⟨c :: shown, .cons (.inl rfl) shows, .stand noPercent inner⟩
  | blank others ih =>
      obtain ⟨shown, shows, inner⟩ := ih
      exact ⟨'+' :: shown, .cons (.inr ⟨rfl, rfl⟩) shows, .stand rfl inner⟩
  | @escape c text escaped encoded escapes others ih =>
      obtain ⟨shown, shows, inner⟩ := ih
      exact ⟨c :: shown, .cons (.inl rfl) shows, .escape escapes inner⟩

theorem exists_showsField {field : String × String} {piece : List Char}
    (encodes : FieldEncodes field piece) :
    ∃ shown, ShowsField field shown ∧ Percent.Encodes (· != '%') shown piece := by
  obtain ⟨ofKey, ofValue⟩ := encodes
  obtain ⟨left, showsKey, innerKey⟩ := exists_shows ofKey
  obtain ⟨right, showsValue, innerValue⟩ := exists_shows ofValue
  exact ⟨_, .pair showsKey showsValue, innerKey.append (.stand rfl innerValue)⟩

theorem exists_showsFields {given : List (String × String)} {pieces : List (List Char)}
    (each : List.Forall₂ FieldEncodes given pieces) :
    ∃ shown, List.Forall₂ ShowsField given shown ∧
      Percent.Encodes (· != '%') (['&'].intercalate shown) (['&'].intercalate pieces) := by
  induction each with
  | nil => exact ⟨[], .nil, .nil⟩
  | cons field others ih =>
      obtain ⟨first, showsFirst, innerFirst⟩ := exists_showsField field
      obtain ⟨shown, showsOthers, inner⟩ := ih
      refine ⟨first :: shown, .cons showsFirst showsOthers, ?_⟩
      cases others with
      | nil =>
          cases showsOthers
          simpa using innerFirst
      | cons =>
          cases showsOthers
          rw [List.intercalate_cons_cons, List.intercalate_cons_cons, List.append_assoc,
            List.append_assoc]
          exact innerFirst.append (.stand rfl inner)

/-- What is cut is the fields as they show, joined. -/
theorem exists_decode_eq {given : List (String × String)} {query : List Char}
    (encodes : QueryEncodes given query) :
    ∃ shown, List.Forall₂ ShowsField given shown ∧
      Percent.decode query = ['&'].intercalate shown := by
  obtain ⟨each⟩ := encodes
  obtain ⟨shown, shows, inner⟩ := exists_showsFields each
  exact ⟨shown, shows, Percent.decode_of_encodes (fun _ stands => bne_iff_ne.mp stands) inner⟩

/-! ## What is read back -/

/-- A text that decoding once more leaves as it is: it holds no separator of fields, no plus sign
and nothing that looks like an escape. -/
def IsStable (text : String) : Prop :=
  '&' ∉ text.toList ∧ '+' ∉ text.toList ∧ Percent.hasEscape text.toList = false

section Shown

variable {text shown : List Char}

theorem Shows.length_eq (shows : Shows text shown) : shown.length = text.length :=
  (List.Forall₂.length_eq shows).symm

theorem Shows.mem_iff (shows : Shows text shown) {c : Char} (noBlank : c ≠ ' ') (noPlus : c ≠ '+') :
    c ∈ shown ↔ c ∈ text := by
  induction shows with
  | nil => rfl
  | @cons a b text shown here others ih =>
      have same : c = b ↔ c = a := by
        rcases here with rfl | ⟨rfl, rfl⟩
        · rfl
        · exact ⟨fun plus => absurd plus noPlus, fun blank => absurd blank noBlank⟩
      rw [List.mem_cons, List.mem_cons, ih, same]

theorem Shows.map_plusToBlank (shows : Shows text shown) (noPlus : '+' ∉ text) :
    shown.map plusToBlank = text := by
  induction shows with
  | nil => rfl
  | @cons a b text shown here others ih =>
      obtain ⟨differ, later⟩ := not_or.mp (List.mem_cons.not.mp noPlus)
      have same : plusToBlank b = a := by
        rcases here with rfl | ⟨rfl, rfl⟩
        · exact if_neg (Ne.symm differ)
        · rfl
      rw [List.map_cons, same, ih later]

/-- A stable text is read back. -/
theorem decodeField_of_isStable {text : String} (stable : IsStable text)
    (shows : Shows text.toList shown) : decodeField shown = text := by
  obtain ⟨_, noPlus, plain⟩ := stable
  have read : decodeField shown = String.ofList (Percent.decode (shown.map plusToBlank)) := rfl
  rw [read, shows.map_plusToBlank noPlus, Percent.decode_of_not_hasEscape plain,
    String.ofList_toList]

/-- A text that is read back is stable, if it holds no separator. -/
theorem isStable_of_decodeField {text : String} (shows : Shows text.toList shown)
    (whole : '&' ∉ shown) (read : decodeField shown = text) : IsStable text := by
  have same : Percent.decode (shown.map plusToBlank) = text.toList := by
    rw [← read]
    exact String.toList_ofList.symm
  have plain : Percent.hasEscape (shown.map plusToBlank) = false := by
    apply Percent.not_hasEscape_of_length
    rw [same, List.length_map, shows.length_eq]
  rw [Percent.decode_of_not_hasEscape plain] at same
  rw [IsStable, ← shows.mem_iff (by decide) (by decide), ← same]
  refine ⟨whole, fun plus => ?_, plain⟩
  obtain ⟨c, _, here⟩ := List.mem_map.mp plus
  rw [plusToBlank] at here
  split_ifs at here with isPlus
  · exact absurd here (by decide)
  · exact isPlus here

end Shown

/-- The keys of requests are read back, and their fields are cut behind them. -/
structure IsKey (key : String) : Prop where
  stable : IsStable key
  whole : '=' ∉ key.toList

theorem isKey_of_mem {request : OpenRequest} {key text : String}
    (member : (key, text) ∈ request.parameters) : IsKey key := by
  have known : IsKey "symbol" ∧ IsKey "cwd" ∧ IsKey "kind" := by
    refine ⟨⟨?_, by decide⟩, ⟨?_, by decide⟩, ⟨?_, by decide⟩⟩ <;>
      exact ⟨by decide, by decide, rfl⟩
  rcases mem_parameters.mp member with ⟨rfl, _⟩ | ⟨rfl, _⟩ | ⟨rfl, _⟩
  · exact known.1
  · exact known.2.1
  · exact known.2.2

/-- A piece is cut into its key and its value. -/
theorem decodePair_of_showsField {key value : String} {piece : List Char} (isKey : IsKey key)
    (shows : ShowsField (key, value) piece) :
    ∃ right, Shows value.toList right ∧ decodePair piece = (key, decodeField right) ∧
      ('&' ∈ piece ↔ '&' ∈ right) := by
  obtain ⟨ofKey, ofValue⟩ := shows
  rename_i left right
  have noEquals : '=' ∉ left := by
    rw [ofKey.mem_iff (by decide) (by decide)]
    exact isKey.whole
  have noAnd : '&' ∉ left := by
    rw [ofKey.mem_iff (by decide) (by decide)]
    exact isKey.stable.1
  refine ⟨right, ofValue, ?_, by simp [noAnd]⟩
  rw [decodePair, cutAt_append_cons noEquals]
  exact Prod.ext (decodeField_of_isStable isKey.stable ofKey) rfl

/-! ## Counting -/

/-- The characters that a field takes in a query at the least. -/
def width (field : String × String) : Nat :=
  field.1.length + if field.2 = "" then 0 else field.2.length + 1

theorem length_decodeField_le (text : List Char) : (decodeField text).length ≤ text.length := by
  have shorter := Percent.length_decode_le (text.map plusToBlank)
  rw [List.length_map] at shorter
  have read : decodeField text = String.ofList (Percent.decode (text.map plusToBlank)) := rfl
  rw [read, String.length_ofList]
  omega

/-- A field is no wider than what it was read from. -/
theorem width_decodePair_le (piece : List Char) : width (decodePair piece) ≤ piece.length := by
  have whole := length_cutAt '=' piece
  rw [decodePair]
  generalize cutAt '=' piece = cut at whole
  obtain ⟨key, value⟩ := cut
  have keyShorter := length_decodeField_le key
  cases value with
  | none =>
      have none : decodeField [] = "" := by decide
      simp only [Option.elim_none] at whole
      simp only [width, Option.getD_none, none, if_true]
      omega
  | some value =>
      have valueShorter := length_decodeField_le value
      simp only [Option.elim_some] at whole
      simp only [width, Option.getD_some]
      split_ifs <;> omega

theorem sum_width_fields_le (query : List Char) :
    ((fields query).map width).sum ≤ ((splitOn '&' query).map List.length).sum := by
  rw [fields, List.map_map]
  calc
    _ ≤ (((splitOn '&' query).filter fun piece => !piece.isEmpty).map List.length).sum :=
      List.sum_le_sum fun piece _ => width_decodePair_le piece
    _ ≤ _ := (List.filter_sublist.map _).sum_le_sum fun _ _ => Nat.zero_le _

/-- A field of a request takes its width. -/
theorem length_of_showsField {key value : String} {piece : List Char} (filled : value ≠ "")
    (shows : ShowsField (key, value) piece) : piece.length = width (key, value) := by
  obtain ⟨ofKey, ofValue⟩ := shows
  rw [width, if_neg filled, List.length_append, List.length_cons, ofKey.length_eq,
    ofValue.length_eq]
  rfl

theorem sum_length_flatMap_splitOn (pieces : List (List Char)) :
    ((pieces.flatMap (splitOn '&')).map List.length).sum + (pieces.map (List.count '&')).sum =
      (pieces.map List.length).sum := by
  induction pieces with
  | nil => rfl
  | cons piece pieces ih =>
      have here := sum_length_splitOn '&' piece
      simp only [List.flatMap_cons, List.map_append, List.sum_append, List.map_cons, List.sum_cons]
      omega

theorem sum_length_of_showsField {given : List (String × String)} {shown : List (List Char)}
    (filled : ∀ field ∈ given, field.2 ≠ "") (shows : List.Forall₂ ShowsField given shown) :
    (shown.map List.length).sum = (given.map width).sum := by
  induction shows with
  | nil => rfl
  | cons field others ih =>
      obtain ⟨here, later⟩ := List.forall_mem_cons.mp filled
      rw [List.map_cons, List.map_cons, List.sum_cons, List.sum_cons, ih later,
        length_of_showsField here field]

/-- Where all fields that were written are read, no piece of the query holds a separator. -/
theorem not_mem_of_fields {given : List (String × String)} {shown : List (List Char)}
    (distinct : given.Nodup) (filled : ∀ field ∈ given, field.2 ≠ "")
    (shows : List.Forall₂ ShowsField given shown)
    (read : given ⊆ fields (['&'].intercalate shown)) : ∀ piece ∈ shown, '&' ∉ piece := by
  by_cases some : shown = []
  · rw [some]
    exact List.forall_mem_nil _
  obtain ⟨chosen, perm, sub⟩ := List.subperm_of_subset distinct read
  have wide := sum_length_of_showsField filled shows
  have counted : (given.map width).sum ≤ ((shown.flatMap (splitOn '&')).map List.length).sum := by
    rw [← splitOn_intercalate_flatMap some, ← (perm.map width).sum_eq]
    exact ((sub.map width).sum_le_sum fun _ _ => Nat.zero_le _).trans (sum_width_fields_le _)
  have none : (shown.map (List.count '&')).sum = 0 := by
    have whole := sum_length_flatMap_splitOn shown
    omega
  intro piece member
  rw [← List.count_eq_zero]
  exact List.sum_eq_zero_iff.mp none _ (List.mem_map_of_mem member)

/-! ## What is read is what was written -/

section Fields

variable {given : List (String × String)} {shown : List (List Char)}

theorem exists_shown_of_mem {field : String × String} (shows : List.Forall₂ ShowsField given shown)
    (member : field ∈ given) : ∃ piece ∈ shown, ShowsField field piece := by
  induction shows with
  | nil => exact nomatch member
  | cons here others ih =>
      rcases List.mem_cons.mp member with rfl | later
      · exact ⟨_, List.mem_cons_self, here⟩
      · obtain ⟨piece, among, inside⟩ := ih later
        exact ⟨piece, List.mem_cons_of_mem _ among, inside⟩

/-- Without separators in them, the pieces that show are the ones that are read. -/
theorem fields_of_showsFields (shows : List.Forall₂ ShowsField given shown)
    (whole : ∀ piece ∈ shown, '&' ∉ piece) :
    fields (['&'].intercalate shown) = shown.map decodePair := by
  refine fields_intercalate fun piece member => ⟨whole piece member, ?_⟩
  clear whole
  induction shows with
  | nil => exact nomatch member
  | cons here others ih =>
      rcases List.mem_cons.mp member with rfl | later
      · obtain ⟨_, _⟩ := here
        simp
      · exact ih later

/-- Stable values are read as they were written. -/
theorem fields_of_isStable (keys : ∀ field ∈ given, IsKey field.1)
    (stable : ∀ field ∈ given, IsStable field.2)
    (shows : List.Forall₂ ShowsField given shown) :
    fields (['&'].intercalate shown) = given := by
  have each : ∀ {field : String × String} {piece : List Char}, IsKey field.1 → IsStable field.2 →
      ShowsField field piece → decodePair piece = field ∧ '&' ∉ piece := by
    rintro ⟨key, value⟩ piece isKey stable here
    obtain ⟨right, ofValue, pair, separators⟩ := decodePair_of_showsField isKey here
    rw [pair, separators, ofValue.mem_iff (by decide) (by decide),
      decodeField_of_isStable stable ofValue]
    exact ⟨rfl, stable.1⟩
  have whole : ∀ piece ∈ shown, '&' ∉ piece := by
    induction shows with
    | nil => exact List.forall_mem_nil _
    | cons here others ih =>
        obtain ⟨isKey, keys⟩ := List.forall_mem_cons.mp keys
        obtain ⟨stableHere, stable⟩ := List.forall_mem_cons.mp stable
        exact List.forall_mem_cons.mpr ⟨(each isKey stableHere here).2, ih keys stable⟩
  rw [fields_of_showsFields shows whole]
  clear whole
  induction shows with
  | nil => rfl
  | cons here others ih =>
      obtain ⟨isKey, keys⟩ := List.forall_mem_cons.mp keys
      obtain ⟨stableHere, stable⟩ := List.forall_mem_cons.mp stable
      rw [List.map_cons, (each isKey stableHere here).1, ih keys stable]

theorem keys_of_showsFields (keys : ∀ field ∈ given, IsKey field.1)
    (shows : List.Forall₂ ShowsField given shown) :
    (shown.map decodePair).map Prod.fst = given.map Prod.fst := by
  induction shows with
  | nil => rfl
  | @cons field piece _ _ here others ih =>
      obtain ⟨isKey, keys⟩ := List.forall_mem_cons.mp keys
      obtain ⟨right, _, pair, _⟩ := decodePair_of_showsField isKey here
      rw [List.map_cons, List.map_cons, List.map_cons, ih keys, pair]

/-- Values that are all read as they were written are stable. -/
theorem isStable_of_subset_fields (keys : ∀ field ∈ given, IsKey field.1)
    (distinct : (given.map Prod.fst).Nodup) (filled : ∀ field ∈ given, field.2 ≠ "")
    (shows : List.Forall₂ ShowsField given shown)
    (read : given ⊆ fields (['&'].intercalate shown)) : ∀ field ∈ given, IsStable field.2 := by
  have whole := not_mem_of_fields (distinct.of_map _) filled shows read
  rw [fields_of_showsFields shows whole] at read
  have readOnce : ((shown.map decodePair).map Prod.fst).Nodup := by
    rwa [keys_of_showsFields keys shows]
  rintro ⟨key, value⟩ member
  obtain ⟨piece, among, shows⟩ := exists_shown_of_mem shows member
  obtain ⟨right, ofValue, pair, separators⟩ := decodePair_of_showsField (keys _ member) shows
  have there : (key, decodeField right) ∈ shown.map decodePair :=
    pair ▸ List.mem_map_of_mem among
  have same : decodeField right = value := by
    have first := (lookup_eq_some_iff_mem readOnce).mpr there
    have second := (lookup_eq_some_iff_mem readOnce).mpr (read member)
    exact Option.some.inj (first.symm.trans second)
  exact isStable_of_decodeField ofValue (separators.not.mp (whole piece among)) same

end Fields

theorem mem_of_field? {fields : List (String × String)} {key value : String}
    (found : field? fields key = some value) : (key, value) ∈ fields := by
  have looked : fields.reverse.lookup key = some value := by
    rw [field?] at found
    split at found
    · cases found
    · cases found
    · next here => rw [here, ← found]
  obtain ⟨before, after, split, _⟩ := List.lookup_eq_some_iff.mp looked
  rw [← List.mem_reverse, split]
  simp

/-- What is read as the request holds all its fields. -/
theorem parameters_subset_of_ofQuery {request : OpenRequest} {query : List Char}
    (read : ofQuery query = request) :
    request.parameters ⊆ fields (Percent.decode query) := by
  obtain ⟨symbol, project, kind⟩ := request
  rw [ofQuery, OpenRequest.mk.injEq] at read
  obtain ⟨named, placed, meant⟩ := read
  rintro ⟨key, text⟩ member
  rcases mem_parameters.mp member with ⟨rfl, given⟩ | ⟨rfl, given⟩ | ⟨rfl, given⟩
  · exact mem_of_field? (named.trans given)
  · exact mem_of_field? (placed.trans given)
  · exact mem_of_field? (meant.trans given)

theorem filled_of_mem {request : OpenRequest} (filled : request.IsGiven) {field : String × String}
    (member : field ∈ request.parameters) : field.2 ≠ "" := by
  obtain ⟨key, text⟩ := field
  obtain ⟨named, placed, meant⟩ := filled
  rintro rfl
  rcases mem_parameters.mp member with ⟨_, here⟩ | ⟨_, here⟩ | ⟨_, here⟩
  · exact named here
  · exact placed here
  · exact meant here

/-- A request that is written into the query of a URI and not encoded once more is read back exactly
when all that it has is stable. -/
theorem ofUri_of_encoded_once_iff {request : OpenRequest} (filled : request.IsGiven)
    {given : List (String × String)} (order : given.Perm request.parameters) {query : List Char}
    (once : QueryEncodes given query) :
    ofUri (Uri.requestPrefix ++ String.ofList query) = .ok request ↔
      ∀ field ∈ request.parameters, IsStable field.2 := by
  have read : ofUri (Uri.requestPrefix ++ String.ofList query) = .ok (ofQuery query) := by
    rw [ofUri, Uri.split_request (plain_of_queryEncodes once)]
    rfl
  obtain ⟨shown, shows, decoded⟩ := exists_decode_eq once
  have keys : ∀ field ∈ given, IsKey field.1 :=
    fun _ member => isKey_of_mem (order.mem_iff.mp member)
  rw [read, Except.ok.injEq]
  constructor
  · intro same field member
    have subset := parameters_subset_of_ofQuery same
    rw [decoded] at subset
    refine isStable_of_subset_fields keys ?_ (fun _ member => ?_) shows
      (fun _ member => subset (order.mem_iff.mp member)) field (order.mem_iff.mpr member)
    · exact (order.map _).nodup_iff.mpr (nodup_parameters request)
    · exact filled_of_mem filled (order.mem_iff.mp member)
  · intro stable
    rw [ofQuery, decoded, fields_of_isStable keys
      (fun field member => stable field (order.mem_iff.mp member)) shows]
    exact request_of_fields filled order

/-- A path with blanks, which are written as plus signs, and a percent sign. -/
theorem ofUri_of_path_encoded_once :
    let request : OpenRequest := ⟨some "operator==", some "/my project/100%é", none⟩
    ofUri (Uri.requestPrefix ++ String.ofList (writeQuery true request.parameters)) =
      .ok request := by
  intro request
  have filled : request.IsGiven := by decide
  refine (ofUri_of_encoded_once_iff filled (List.Perm.refl _)
    (queryEncodes_writeQuery true _)).mpr ?_
  simp [request, parameters, IsStable]
  decide

/-- The plus signs of an operator and of a path are read as blanks. -/
theorem not_ofUri_of_plus_encoded_once :
    let request : OpenRequest := ⟨some "operator+", some "/src/c++", none⟩
    let query := writeQuery true request.parameters
    request.IsGiven ∧ QueryEncodes request.parameters query ∧
      query = "symbol=operator%2B&cwd=/src/c%2B%2B".toList ∧
      ofUri (Uri.requestPrefix ++ String.ofList query) =
        .ok ⟨some "operator ", some "/src/c  ", none⟩ :=
  ⟨by decide, queryEncodes_writeQuery true _, by decide +kernel, by decide +kernel⟩

end OpenRequest

end SymbolJump
