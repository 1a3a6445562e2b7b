/-
# Open projects and what lies under their roots

A project is open if its normal form is that of a root, and a candidate is preferred if its path
goes on from the text of a root. The two agree only where the text of the root without its trailing
separators is how the project is spelled, up to a slash or to its end. A dot, a slash too many, a
detour or a third slash in front keeps a root the root of the project and loses what is in it, and
so does a backslash at the end of a name, which is dropped as if it were a separator.

For a project that is spelled as its normal form, and a root without backslashes, only the project
itself with slashes behind it will do: every other spelling of the root that has the project for
its normal form is longer than the normal form up to its last slash, or starts otherwise.
-/
import SymbolJump.Proofs.Containment
import SymbolJump.Proofs.NormalForms
import SymbolJump.Proofs.Preference

namespace SymbolJump

open Text

namespace Path

/-- A path is in a project: it is the project's own, or stands behind it. -/
def IsInside (project path : String) : Prop :=
  path = project ∨ ∃ rest, path = project ++ "/" ++ rest

/-- All that is in a project lies under a root. -/
def Holds (root project : String) : Prop :=
  ∀ path, IsInside project path → isUnder path root

/-- A project is spelled from a root: the components of the root without its trailing separators
are the first of the project's, or nothing is left of the root and the project starts with a
separator. -/
def IsSpelledFrom (root project : String) : Prop :=
  if bareRoot root.toList = [] then StartsApart project.toList
  else splitOn '/' (bareRoot root.toList) <+: splitOn '/' project.toList

section Inside

variable {root project path : String}

theorem IsInside.goesOnFrom (inside : IsInside project path) :
    GoesOnFrom project.toList path.toList := by
  rcases inside with rfl | ⟨rest, rfl⟩
  · exact .inl rfl
  · right
    rw [String.toList_append, String.toList_append]
    exact List.prefix_append _ _

theorem isUnder_iff_isSpelledFrom : isUnder project root ↔ IsSpelledFrom root project := by
  unfold IsSpelledFrom isUnder
  split
  · next none => exact isUnderChars_of_nil none
  · next some => rw [isUnderChars_of_ne_nil some, goesOnFrom_iff]

/-- What stands behind a path is under the roots that the path is under. -/
theorem isUnder_of_isInside (inside : IsInside project path) (under : isUnder project root) :
    isUnder path root := by
  unfold isUnder at under ⊢
  have behind := inside.goesOnFrom
  by_cases none : bareRoot root.toList = []
  · rw [isUnderChars_of_nil none] at under ⊢
    have some : project.toList ≠ [] := by
      intro empty
      rw [empty] at under
      obtain ⟨c, first, -⟩ := under
      exact nomatch first
    exact (StartsApart.of_prefix some behind.isPrefix).mpr under
  · rw [isUnderChars_of_ne_nil none] at under ⊢
    exact under.trans behind

/-- A root holds a project just when the project is spelled from it. -/
theorem holds_iff : Holds root project ↔ IsSpelledFrom root project := by
  rw [← isUnder_iff_isSpelledFrom]
  constructor
  · intro holds
    exact holds project (.inl rfl)
  · intro under path inside
    exact isUnder_of_isInside inside under

end Inside

/-- A number of slashes. -/
def slashes (count : ℕ) : String :=
  String.ofList (List.replicate count '/')

section Slashes

variable {project root front : String}

theorem toList_slashes (count : ℕ) : (slashes count).toList = List.replicate count '/' :=
  String.toList_ofList

theorem dropTrailing_replicate (count : ℕ) :
    dropTrailing (· = '/') (List.replicate count '/') = [] :=
  dropTrailing_eq_nil_iff.mpr fun _ member => decide_eq_true (List.eq_of_mem_replicate member)

/-- A text is what is left without its trailing slashes, and slashes. -/
theorem exists_slashes (text : String) :
    ∃ front count, text = front ++ slashes count ∧
      front.toList = dropTrailing (· = '/') text.toList := by
  obtain ⟨back, cut, dropped⟩ := exists_dropTrailing (· = '/') text.toList
  have only : back = List.replicate back.length '/' :=
    List.eq_replicate_iff.mpr ⟨rfl, fun c member => of_decide_eq_true (dropped c member)⟩
  refine ⟨String.ofList (dropTrailing (· = '/') text.toList), back.length, ?_,
    String.toList_ofList⟩
  rw [← String.toList_inj, String.toList_append, String.toList_ofList, toList_slashes, ← only]
  exact cut

/-- What is left without trailing slashes is nothing, or holds another character. -/
theorem exists_other_of_dropTrailing {text : List Char} (left : dropTrailing (· = '/') text ≠ []) :
    ∃ c ∈ dropTrailing (· = '/') text, c ≠ '/' := by
  by_contra none
  push Not at none
  apply left
  rw [← dropTrailing_dropTrailing, dropTrailing_eq_nil_iff]
  exact fun c member => decide_eq_true (none c member)

theorem slashes_eq_empty_iff (count : ℕ) : slashes count = "" ↔ count = 0 := by
  rw [slashes, String.ofList_eq_empty_iff, List.replicate_eq_nil_iff]

theorem leadingSlashes_replicate_eq_zero_iff (count : ℕ) :
    leadingSlashes (List.replicate count '/') = 0 ↔ count = 0 := by
  rw [leadingSlashes_eq, slashesInFront, List.takeWhile_replicate, if_pos (decide_eq_true rfl),
    List.length_replicate]
  split_ifs <;> simp_all

theorem foldl_splitOn_replicate (absolute : Bool) (done : List (List Char)) (count : ℕ) :
    (splitOn '/' (List.replicate count '/')).foldl (takeComponent absolute) done = done := by
  have idle : takeComponent absolute done [] = done := takeComponent_of_isIdle done (.inl rfl)
  induction count with
  | zero => exact idle
  | succ count ih =>
      rw [List.replicate_succ, splitOn, if_pos rfl, List.foldl_cons, idle]
      exact ih

/-- The normal form of slashes alone is the slashes of them that count. -/
theorem normalText_slashes {count : ℕ} (some : count ≠ 0) :
    normalText (slashes count) = slashes (leadingSlashes (List.replicate count '/')) := by
  have filled : slashes count ≠ "" := mt (slashes_eq_empty_iff count).mp some
  have none : normalComponents (List.replicate count '/') = [] :=
    congrArg List.reverse (foldl_splitOn_replicate _ [] count)
  have anchored : slashes (leadingSlashes (List.replicate count '/')) ≠ "" := by
    rw [ne_eq, slashes_eq_empty_iff, leadingSlashes_replicate_eq_zero_iff]
    exact some
  rw [normalText_of_ne filled, toList_slashes, none]
  exact (if_neg fun empty => anchored empty.1).trans String.append_empty

/-- Slashes alone are their normal form with slashes behind it. -/
theorem exists_slashes_behind {count : ℕ} (some : count ≠ 0) :
    ∃ more, slashes count = normalText (slashes count) ++ slashes more := by
  obtain ⟨rest, cut⟩ := exists_behind_slashes (List.replicate count '/')
  have only : rest = List.replicate rest.length '/' := by
    refine List.eq_replicate_iff.mpr ⟨rfl, fun c member => ?_⟩
    have among : c ∈ List.replicate count '/' := cut ▸ List.mem_append_right _ member
    exact List.eq_of_mem_replicate among
  refine ⟨rest.length, ?_⟩
  rw [normalText_slashes some, ← String.toList_inj, String.toList_append, toList_slashes,
    toList_slashes, toList_slashes, ← only]
  exact cut

/-- Slashes behind a text are dropped together with its own. -/
theorem dropTrailing_append_slashes (front : String) (count : ℕ) :
    dropTrailing (· = '/') (front ++ slashes count).toList =
      dropTrailing (· = '/') front.toList := by
  obtain ⟨bare, own, shape, kept⟩ := exists_slashes front
  have trimmed : dropTrailing (· = '/') bare.toList = bare.toList := by
    rw [kept]
    exact dropTrailing_dropTrailing _ _
  rw [← kept, shape, String.append_assoc, String.toList_append, dropTrailing_append trimmed,
    String.toList_append, toList_slashes, toList_slashes, List.replicate_append_replicate,
    dropTrailing_replicate, List.append_nil]

/-- A project is spelled from the roots that are the project with slashes behind it. -/
theorem isSpelledFrom_append_slashes {count : ℕ} (some : project ≠ "")
    (plain : '\\' ∉ (project ++ slashes count).toList) :
    IsSpelledFrom (project ++ slashes count) project := by
  obtain ⟨front, own, shape, kept⟩ := exists_slashes project
  rw [IsSpelledFrom, bareRoot_of_not_mem plain, dropTrailing_append_slashes, ← kept,
    ← goesOnFrom_iff]
  split
  · next none =>
    rw [String.toList_eq_nil_iff.mp none, String.empty_append] at shape
    cases own with
    | zero => exact absurd shape some
    | succ own => exact ⟨'/', by rw [shape, toList_slashes]; rfl, rfl⟩
  · rw [shape, String.toList_append, toList_slashes, goesOnFrom_append_iff]
    cases own with
    | zero => exact .inl rfl
    | succ own => exact .inr (List.prefix_append ['/'] _)

/-- The normal form of a root is spelled from it only if it is the root, but for slashes at its
end. -/
theorem exists_slashes_of_isSpelledFrom (some : root ≠ "") (plain : '\\' ∉ root.toList)
    (spelled : IsSpelledFrom root (normalText root)) :
    ∃ count, root = normalText root ++ slashes count := by
  obtain ⟨front, count, shape, kept⟩ := exists_slashes root
  rw [IsSpelledFrom, bareRoot_of_not_mem plain, ← goesOnFrom_iff, ← kept] at spelled
  split at spelled
  · next none =>
    rw [String.toList_eq_nil_iff.mp none, String.empty_append] at shape
    have filled : count ≠ 0 := by
      rintro rfl
      exact some shape
    rw [shape]
    exact exists_slashes_behind filled
  · next left =>
    have other : ∃ c ∈ front.toList, c ≠ '/' := by
      rw [kept] at left ⊢
      exact exists_other_of_dropTrailing left
    have trimmed : normalText root = normalText front := by
      rw [← normal_eq_iff_text, shape]
      exact normal_append_slashes other count
    -- What goes on from a text is no shorter, and a normal form is no longer.
    have short : (normalText root).toList.length ≤ front.toList.length := by
      rw [trimmed]
      exact length_normalText_le (ne_empty_of_other other)
    have whole := spelled.isPrefix.eq_of_length_le short
    exact ⟨count, String.toList_inj.mp whole ▸ shape⟩

/-- A project that is its own normal form is spelled from the roots that are the project itself,
with slashes behind it, and from no others that it is open as. -/
theorem isSpelledFrom_iff_slashes (normalized : normalText project = project) (some : project ≠ "")
    (here : isOpenAmong project [root]) (plain : '\\' ∉ root.toList) :
    IsSpelledFrom root project ↔ ∃ count, root = project ++ slashes count := by
  obtain rfl : project = normalText root := by
    rw [isOpenAmong_singleton, normal_eq_iff_text, normalized] at here
    exact here
  constructor
  · exact exists_slashes_of_isSpelledFrom (mt normalText_eq_empty_iff.mpr some) plain
  · rintro ⟨count, shape⟩
    rw [shape] at plain
    have spelled := isSpelledFrom_append_slashes some plain
    rwa [← shape] at spelled

end Slashes

/-- Nothing lies under a root by an empty path. -/
theorem not_isUnder_empty (root : String) : ¬ isUnder "" root := by
  intro under
  rw [isUnder_iff_isSpelledFrom, IsSpelledFrom] at under
  split at under
  · obtain ⟨c, first, -⟩ := under
    exact nomatch first
  · next left =>
    rw [← goesOnFrom_iff] at under
    exact left (List.prefix_nil.mp under.isPrefix)

end Path

namespace Choice

open Act SymbolJump.Path

/-- Choosing by roots keeps to a project that is open as a root: where a candidate is in the
project, one is found that is in it or under a root that is no later. -/
def KeepsTo {σ : Type} (host : Host σ) (root project : String) : Prop :=
  ∀ (priority : Priority) (candidates : List Candidate) (state : σ) (before after : List String),
    host.roots state = before ++ root :: after →
    (∃ candidate ∈ candidates, IsInside project candidate.location.path) →
      ∃ chosen ∈ candidates,
        (IsInside project chosen.location.path ∨
          ∃ earlier ∈ before ++ [root], isUnder chosen.location.path earlier) ∧
        (select host priority .byRoot candidates).start state = (.ok (.found chosen), state)

section Choosing

variable {σ : Type} {host : Host σ} {priority : Priority} {candidates : List Candidate}
  {root project : String}

/-- Choosing by roots asks nothing and finds the first candidate under the earliest root with one,
and the first of all where there is none. -/
theorem start_select_byRoot {first : Candidate} {others : List Candidate}
    (sorted : sortByPriority priority candidates = first :: others) (state : σ) :
    (select host priority .byRoot candidates).start state =
      (.ok (.found ((firstUnderRoots? (first :: others) (host.roots state)).getD first)),
        state) := by
  unfold select
  rw [sorted]
  cases others with
  | cons next others => rfl
  | nil =>
      rcases under : firstUnderRoots? [first] (host.roots state) with _ | chosen
      · rfl
      · have only := List.mem_singleton.mp (mem_of_firstUnderRoots? under)
        rw [only]
        rfl

/-- Where a candidate is under a root, one is found that is under a root that is no later. -/
theorem exists_firstUnderRoots? {candidate : Candidate} (member : candidate ∈ candidates)
    (under : isUnder candidate.location.path root) (before after : List String) :
    ∃ chosen, firstUnderRoots? candidates (before ++ root :: after) = some chosen ∧
      ∃ earlier ∈ before ++ [root], isUnder chosen.location.path earlier := by
  have here : (firstUnderRoots? candidates (before ++ [root])).isSome := by
    rw [firstUnderRoots?, List.findSome?_isSome_iff]
    exact ⟨root, List.mem_append_right _ List.mem_cons_self,
      List.find?_isSome.mpr ⟨candidate, member, under⟩⟩
  obtain ⟨chosen, found⟩ := Option.isSome_iff_exists.mp here
  obtain ⟨earlier, among, scanned⟩ := List.exists_of_findSome?_eq_some found
  have prefers : isUnder chosen.location.path earlier := by
    simpa using List.find?_some scanned
  refine ⟨chosen, ?_, earlier, among, prefers⟩
  rw [firstUnderRoots?] at found ⊢
  rw [List.append_cons, List.findSome?_append, found]
  rfl

theorem keepsTo_of_holds (holds : Holds root project) : KeepsTo host root project := by
  intro priority candidates state before after roots inside
  obtain ⟨candidate, member, inside⟩ := inside
  have perm := sortByPriority_perm priority candidates
  have listed := perm.mem_iff.mpr member
  obtain ⟨chosen, found, earlier⟩ :=
    exists_firstUnderRoots? listed (holds _ inside) before after
  obtain ⟨first, others, sorted⟩ := List.exists_cons_of_ne_nil (List.ne_nil_of_mem listed)
  refine ⟨chosen, perm.mem_iff.mp (mem_of_firstUnderRoots? found), .inr earlier, ?_⟩
  rw [start_select_byRoot sorted, roots, ← sorted, found]
  rfl

/-- Of two candidates of one kind that are under no root the first is found. -/
theorem start_select_of_alike {first second : Candidate} {state : σ}
    (same : first.kind = second.kind)
    (none : firstUnderRoots? [first, second] (host.roots state) = none) :
    (select host priority .byRoot [first, second]).start state = (.ok (.found first), state) := by
  have sorted : sortByPriority priority [first, second] = [first, second] := by
    refine List.mergeSort_of_pairwise (List.pairwise_pair.mpr ?_)
    rw [same]
    exact decide_eq_true (Nat.le_refl _)
  rw [start_select_byRoot sorted, none]
  rfl

/-- Where choosing keeps to a project with every host, its root holds it: over a candidate with no
path and one in the project that is not under the root, the first would be found. -/
theorem holds_of_keepsTo (some : project ≠ "")
    (keeps : ∀ (σ : Type) (host : Host σ), KeepsTo host root project) : Holds root project := by
  intro path inside
  by_contra outside
  let pathless : Candidate := ⟨"", .function, { path := "" }, .null⟩
  let lost : Candidate := ⟨"", .function, { path }, .null⟩
  let start : Script := { roots := [root] }
  obtain ⟨chosen, -, preferred, course⟩ := keeps Script Script.host [] [pathless, lost] start [] []
    rfl ⟨lost, by simp, inside⟩
  have none : firstUnderRoots? [pathless, lost] [root] = none := by
    simp [firstUnderRoots?, pathless, lost, not_isUnder_empty, outside]
  have course := (start_select_of_alike (show pathless.kind = lost.kind from rfl) none).symm.trans
    course
  obtain rfl : pathless = chosen := by
    simpa using course
  rcases preferred with inner | ⟨earlier, -, under⟩
  · exact some (String.toList_eq_nil_iff.mp (List.prefix_nil.mp inner.goesOnFrom.isPrefix))
  · exact not_isUnder_empty earlier under

/-- The law of open roots. A root that a project is open as holds the project just when the project
is spelled from it; for a project that is its own normal form and a root without backslashes, just
when the root is the project with nothing but slashes behind it. And just then choosing by roots
keeps to the project, with every host. -/
theorem root_of_open_project_holds_iff {root project : String} (some : project ≠ "")
    (here : isOpenAmong project [root]) :
    (Holds root project ↔ IsSpelledFrom root project) ∧
    (normalText project = project → '\\' ∉ root.toList →
      (Holds root project ↔ ∃ count, root = project ++ slashes count)) ∧
    (Holds root project ↔ ∀ (σ : Type) (host : Host σ), KeepsTo host root project) := by
  refine ⟨holds_iff, fun normalized plain => ?_, fun holds _ _ => keepsTo_of_holds holds,
    holds_of_keepsTo some⟩
  rw [holds_iff]
  exact isSpelledFrom_iff_slashes normalized some here plain

/-- A project that is open with slashes behind it. -/
theorem root_of_open_project_holds_behind_slashes :
    isOpenAmong "/p/q" ["/p/q//"] ∧ Holds "/p/q//" "/p/q" ∧
      ∀ (σ : Type) (host : Host σ), KeepsTo host "/p/q//" "/p/q" := by
  have here : isOpenAmong "/p/q" ["/p/q//"] := by decide
  obtain ⟨-, slashed, keeps⟩ := root_of_open_project_holds_iff (by decide) here
  have holds := (slashed (by decide) (by decide)).mpr ⟨2, by decide⟩
  exact ⟨here, holds, keeps.mp holds⟩

/-- A project that is open by a root with a dot behind it: neither the project nor what is in it
lies under the root, and a candidate from elsewhere is found before one that is in it. -/
theorem open_project_not_held_of_dot :
    let elsewhere : Candidate := ⟨"f", .function, { path := "/lib/f" }, .null⟩
    let inner : Candidate := ⟨"f", .function, { path := "/p/f" }, .null⟩
    let start : Script := { roots := ["/p/."] }
    isOpenAmong "/p" start.roots ∧ ¬ isUnder "/p" "/p/." ∧
      IsInside "/p" inner.location.path ∧ ¬ isUnder inner.location.path "/p/." ∧
      (select Script.host [] .byRoot [elsewhere, inner]).start start =
        (.ok (.found elsewhere), start) := by
  intro elsewhere inner start
  have none : firstUnderRoots? [elsewhere, inner] ["/p/."] = none := by decide
  exact ⟨by decide, by decide, .inr ⟨"f", by decide⟩, by decide, start_select_of_alike rfl none⟩

end Choosing

end Choice

end SymbolJump
