/-
# URIs that cannot be read

A URI comes from outside and may be any text. Whatever stands in its query, a request is read off
it, and one that lacks a part is reported like any other. Its authority is looked at too, although a
request does not need it: an authority with stray brackets, with brackets around something else than
an address, or with a character that would turn into a separator is refused. This is found out
before faults are caught, so handling such a URI fails, and neither the user nor the window is told.
-/
import SymbolJump.Proofs.Cuts
import SymbolJump.Proofs.Events

namespace SymbolJump

open Text

namespace Uri

/-- A host is an address of the sixth version of the protocol or of a later one. -/
def IsAddress (host : List Char) : Prop :=
  isVersionSix host = true ∨ isLaterVersion host = true

/-- The parts of an address begin as the address does. -/
theorem addressParts_cons {c : Char} {rest : List Char} {parts : List (List Char)}
    (differ : c ≠ ':') (parted : addressParts (c :: rest) = some parts) :
    ∃ first others, parts = (c :: first) :: others := by
  obtain ⟨first, others, pieced⟩ := splitOn_cons_of_ne differ rest
  simp only [addressParts, pieced] at parted
  split at parted
  · nomatch parted
  next long =>
  split at parted
  · split at parted
    · cases parted
      cases others with
      | nil => simp at long
      | cons next others => exact ⟨first, _, rfl⟩
    · nomatch parted
  · cases parted
    exact ⟨first, others, rfl⟩

theorem arePartsOfAddress_cons {part : List Char} {others : List (List Char)}
    (filled : part ≠ []) (address : arePartsOfAddress (part :: others) = true) :
    isGroup part = true := by
  unfold arePartsOfAddress at address
  dsimp only at address
  split at address
  · simp only [Bool.and_eq_true, List.all_cons] at address
    exact address.2.1
  · simp only [List.take_succ_cons, Bool.and_eq_true] at address
    have side := address.1.1
    simp only [isSide, Bool.or_eq_true, beq_iff_eq, List.all_cons, Bool.and_eq_true] at side
    rcases side with empty | groups
    · exact absurd (List.cons.inj empty).1 filled
    · exact groups.1
  · nomatch address

/-- No address of the sixth version begins as the announcement of a later one does. -/
theorem not_isVersionSix_of_announced (rest : List Char) : ¬ isVersionSix ('v' :: rest) = true := by
  intro six
  have cut : cutAt '%' ('v' :: rest) = ('v' :: (cutAt '%' rest).1, (cutAt '%' rest).2) := rfl
  rw [isVersionSix, cut] at six
  obtain ⟨-, parted⟩ := Bool.and_eq_true_iff.mp six
  split at parted
  · nomatch parted
  next parts pieced =>
  obtain ⟨first, others, rfl⟩ := addressParts_cons (by decide) pieced
  obtain ⟨-, address⟩ := Bool.and_eq_true_iff.mp parted
  have group := arePartsOfAddress_cons (List.cons_ne_nil _ _) address
  simp [isGroup, hexValue?] at group

/-- An address of the sixth version holds colons, and one of the fourth does not. -/
theorem not_isVersionSix_of_isVersionFour {host : List Char} (four : isVersionFour host = true) :
    ¬ isVersionSix host = true := by
  intro six
  have digits : ∀ piece ∈ splitOn '.' host, ':' ∉ piece := by
    intro piece among member
    have octets := List.all_eq_true.mp (Bool.and_eq_true_iff.mp four).2
    have octet := octets piece among
    simp only [isOctet, Bool.and_eq_true, List.all_eq_true] at octet
    nomatch octet.1.1.1.1 _ member
  have noColon : ':' ∉ (cutAt '%' host).1 := by
    intro member
    have inside := (cutAt_fst_isPrefix '%' host).mem member
    rw [← intercalate_splitOn '.' host] at inside
    rcases mem_of_mem_intercalate inside with same | ⟨piece, among, here⟩
    · nomatch same
    · exact digits piece among here
  rw [isVersionSix] at six
  obtain ⟨-, parted⟩ := Bool.and_eq_true_iff.mp six
  rw [addressParts, splitOn_of_not_mem noColon] at parted
  nomatch parted

theorem hostError?_eq_none_iff {host : List Char} : hostError? host = none ↔ IsAddress host := by
  unfold hostError? IsAddress
  split
  · next announced =>
    obtain ⟨rest, rfl⟩ := List.head?_eq_some_iff.mp announced
    have notSix := not_isVersionSix_of_announced rest
    simp [notSix]
  next plain =>
  have notLater : ¬ isLaterVersion host = true := by
    intro later
    unfold isLaterVersion at later
    split at later
    · exact plain rfl
    · nomatch later
  split
  · next four => simp [not_isVersionSix_of_isVersionFour four, notLater]
  · split
    · next six => simp [six]
    · next other => simp [other, notLater]

/-- What stands behind the login of an authority with brackets: an address in brackets, or one in
front of them without a colon, and perhaps a port. A bracket is not closed when only the login holds
a closing one. -/
inductive HoldsAddress : List Char → Prop
  | closed {host port : List Char} (inside : ']' ∉ host) (address : IsAddress host)
      (behind : port = [] ∨ ∃ digits, port = ':' :: digits) :
      HoldsAddress ('[' :: (host ++ ']' :: port))
  | unclosed {host : List Char} (inside : ']' ∉ host) (address : IsAddress host) :
      HoldsAddress ('[' :: host)
  | bare {host : List Char} (noBracket : '[' ∉ host) (address : IsAddress (cutAt ':' host).1) :
      HoldsAddress host

/-- An authority can be read: it holds no disguised separator, and brackets only around the address
that it names. -/
structure IsReadable (authority : List Char) : Prop where
  paired : '[' ∈ authority ↔ ']' ∈ authority
  address : '[' ∈ authority → HoldsAddress (afterLast '@' authority)
  undisguised : ∀ c ∈ authority, inRanges disguisedRanges c = false

theorem isPort_iff {port : List Char} :
    (port.head?.all (· = ':')) = true ↔ port = [] ∨ ∃ digits, port = ':' :: digits := by
  cases port with
  | nil => simp
  | cons c digits => simp

theorem placeError?_eq_none_iff {place : List Char} :
    placeError? place = none ↔ HoldsAddress place := by
  constructor
  · intro accepted
    by_cases opened : '[' ∈ place
    · obtain ⟨before, bracketed, rfl, without⟩ := List.eq_append_cons_of_mem opened
      rw [placeError?, cutAt_append_cons without] at accepted
      dsimp only at accepted
      split at accepted
      case isFalse => nomatch accepted
      next fits =>
      obtain ⟨front, isPort⟩ := Bool.and_eq_true_iff.mp fits
      obtain rfl := List.isEmpty_iff.mp front
      have address := hostError?_eq_none_iff.mp accepted
      by_cases closed : ']' ∈ bracketed
      · obtain ⟨host, port, rfl, inside⟩ := List.eq_append_cons_of_mem closed
        rw [cutAt_append_cons inside] at isPort address
        exact .closed inside address (isPort_iff.mp isPort)
      · rw [cutAt_of_not_mem closed] at address
        exact .unclosed closed address
    · rw [placeError?, cutAt_of_not_mem opened] at accepted
      exact .bare opened (hostError?_eq_none_iff.mp accepted)
  · intro holds
    have cut (bracketed : List Char) : cutAt '[' ('[' :: bracketed) = ([], some bracketed) := rfl
    cases holds with
    | closed inside address behind =>
        rw [placeError?, cut]
        dsimp only
        rw [cutAt_append_cons inside]
        refine (if_pos ?_).trans (hostError?_eq_none_iff.mpr address)
        exact isPort_iff.mpr behind
    | unclosed inside address =>
        rw [placeError?, cut]
        dsimp only
        rw [cutAt_of_not_mem inside]
        exact hostError?_eq_none_iff.mpr address
    | bare noBracket address =>
        rw [placeError?, cutAt_of_not_mem noBracket]
        exact hostError?_eq_none_iff.mpr address

theorem bracketError?_eq_none_iff {authority : List Char} :
    bracketError? authority = none ↔ ('[' ∈ authority ↔ ']' ∈ authority) ∧
      ('[' ∈ authority → HoldsAddress (afterLast '@' authority)) := by
  rw [← placeError?_eq_none_iff, ← List.contains_iff_mem, ← List.contains_iff_mem]
  unfold bracketError?
  cases authority.contains '[' <;> cases authority.contains ']' <;> simp

theorem authorityError?_eq_none_iff {authority : List Char} :
    authorityError? authority = none ↔ IsReadable authority := by
  unfold authorityError?
  constructor
  · intro accepted
    split at accepted
    case h_1 => nomatch accepted
    next brackets =>
    obtain ⟨paired, address⟩ := bracketError?_eq_none_iff.mp brackets
    split at accepted
    case isTrue => nomatch accepted
    next plain =>
    exact ⟨paired, address, by simpa using plain⟩
  · intro ⟨paired, address, undisguised⟩
    have plain : ¬ authority.any (inRanges disguisedRanges) = true := by simpa using undisguised
    rw [bracketError?_eq_none_iff.mpr ⟨paired, address⟩]
    exact if_neg plain

/-- The authority of a URI. -/
def authorityOf (uri : String) : List Char :=
  (cutAuthority (dropScheme (clean uri.toList))).1

/-- A URI is cut into its parts when its authority can be read, and refused otherwise. -/
theorem split_cases (uri : String) :
    (IsReadable (authorityOf uri) ∧ ∃ parts, split uri = .ok parts) ∨
      (¬ IsReadable (authorityOf uri) ∧ ∃ error, split uri = .error error) := by
  unfold split authorityOf
  rw [← authorityError?_eq_none_iff]
  rcases cutAuthority (dropScheme (clean uri.toList)) with ⟨authority, rest⟩
  dsimp only
  cases authorityError? authority with
  | none => exact .inl ⟨rfl, _, rfl⟩
  | some error => exact .inr ⟨nofun, error, rfl⟩

end Uri

namespace Opener

open Act Bench

variable {η : Type} (host : Host η) (uri : String)

/-- A symbol and a project can be read from a URI, and neither is empty. -/
def IsFilled : Prop :=
  ∃ request, OpenRequest.ofUri uri = .ok request ∧ IsGiven request.symbol ∧ IsGiven request.project

/-- Handling a URI in a window tells the user that a part is missing, and remembers it. That is the
only call, nothing is written, and nothing fails but the telling itself. -/
def TellsMissing (window : Window (Bench η)) : Prop :=
  let message := RequestError.missingParameters.message
  let shown := (host.showError message).start window.world.host
  ∃ lines, (handleUri (environment host) uri).start window =
    (shown.1.map fun _ => none, { window with
      world := { window.world with
        host := shown.2
        calls := window.world.calls ++ [.showError message]
        lines }
      lastError := some .missingParameters })

/-- What is owed to a URI whatever its text is: a request is read off it, and when a part of it is
missing the user is told so. -/
structure Heeds : Prop where
  reads : ∃ request, OpenRequest.ofUri uri = .ok request
  tells : ¬ IsFilled uri → ∀ window, TellsMissing host uri window

theorem tellsMissing_of_read {request : OpenRequest} (read : OpenRequest.ofUri uri = .ok request)
    (missing : ¬ IsFilled uri) (window : Window (Bench η)) : TellsMissing host uri window := by
  have notGiven : ¬ (IsGiven request.symbol ∧ IsGiven request.project) := by
    intro given
    exact missing ⟨request, read, given⟩
  obtain ⟨before, begun⟩ := start_handleUri_of_read host window read
  obtain ⟨lines, course⟩ := start_handleRequest_of_missing host
    { window with world := { window.world with lines := before } } request.kind none notGiven
  refine ⟨lines, ?_⟩
  rw [begun, course]
  dsimp only [aftermath]
  rcases (host.showError RequestError.missingParameters.message).start window.world.host
    with ⟨fault | shown, state⟩
  · rfl
  · rfl

/-- A URI is heeded exactly when its authority can be read. When it cannot, handling the URI fails
in every window: the user is not told, nothing is remembered, and nothing is done. -/
theorem uri_heeded_iff :
    (Heeds host uri ↔ Uri.IsReadable (Uri.authorityOf uri)) ∧
      (¬ Uri.IsReadable (Uri.authorityOf uri) → ∀ window : Window (Bench η), ∃ error lines,
        (handleUri (environment host) uri).start window =
          (.error (.refusal (.authority error)),
            { window with world := { window.world with lines } })) := by
  rcases Uri.split_cases uri with ⟨readable, parts, cut⟩ | ⟨unreadable, error, refused⟩
  · have read : OpenRequest.ofUri uri = .ok (OpenRequest.ofQuery parts.query) := by
      rw [OpenRequest.ofUri, cut]
      rfl
    constructor
    · constructor
      · intro _
        exact readable
      · intro _
        exact ⟨⟨_, read⟩, tellsMissing_of_read host uri read⟩
    · intro unreadable
      exact absurd readable unreadable
  · have notRead : OpenRequest.ofUri uri = .error error := by
      rw [OpenRequest.ofUri, refused]
      rfl
    constructor
    · constructor
      · intro heeds
        obtain ⟨request, read⟩ := heeds.reads
        rw [notRead] at read
        nomatch read
      · intro readable
        exact absurd readable unreadable
    · intro _ window
      exact ⟨error, start_handleUri_of_refused host window notRead⟩

/-- A bracket too many in the authority, although the URI asks for nothing. -/
theorem not_heeds_of_stray_bracket : ¬ Heeds Script.host "symbol-opener://[open" := by
  intro heeds
  obtain ⟨request, read⟩ := heeds.reads
  have refused : OpenRequest.ofUri "symbol-opener://[open" = .error .misplacedBracket := by
    decide
  rw [refused] at read
  nomatch read

end Opener

end SymbolJump
