/-
# Which candidate is preferred

Among exact matches the one that is taken comes first in an order that is easy to state: by the
earliest open root that it lies under, where roots count, then by the rank of its kind, then by
its place in the answer of the index. The engine does not compare candidates in that order. It
sorts them by rank alone and scans the sorted list, once for every root.

Both come to the same. Sorting keeps the order of candidates of one rank, so the sorted list has
the candidates by rank and place; the first of them that meets a condition is then the least that
does; and the first root with a candidate under it is the earliest that any candidate lies under.

A list of names may name a kind twice. Only the first mention counts, and ranks are counted here
on the list of names itself.
-/
import Mathlib.Data.ENat.Basic
import Mathlib.Data.List.Basic
import Mathlib.Data.List.Induction
import Mathlib.Data.Prod.Lex
import SymbolJump.Proofs.Matches

namespace SymbolJump

open Act Dialogue

namespace Priority

/-- The rank of a kind by a list of names: its place among the names, each counted once, and
infinity when it is not named. -/
def rankIn (names : List String) (kind : Kind) : ℕ∞ :=
  if kind.name ∈ names then (names.eraseDups.idxOf kind.name : ℕ) else ⊤

/-- One more name adds its kind. -/
theorem ofNames_concat {names : List String} {name : String} {priority : Priority}
    (described : ofNames (names ++ [name]) = .ok priority) :
    ∃ earlier kind, ofNames names = .ok earlier ∧ kind.name = name ∧
      priority = earlier.add kind := by
  unfold ofNames at described
  rw [List.foldlM_append] at described
  change (ofNames names >>= _) = _ at described
  rcases before : ofNames names with error | earlier
  · rw [before] at described
    nomatch described
  rcases found : Kind.ofName? name with _ | kind
  · simp [before, bind, Except.bind, found] at described
  have same : kind.name = name := by
    simpa using List.find?_some found
  simp only [before, bind, Except.bind, List.foldlM_cons, List.foldlM_nil, found, pure,
    Except.pure, Except.ok.injEq] at described
  exact ⟨earlier, kind, rfl, same, described.symm⟩

theorem name_mem_map_iff (priority : Priority) (kind : Kind) :
    kind.name ∈ priority.map Kind.name ↔ kind ∈ priority := by
  simp [Kind.name_inj]

theorem idxOf_name (priority : Priority) (kind : Kind) :
    (priority.map Kind.name).idxOf kind.name = priority.rank kind := by
  unfold rank
  induction priority with
  | nil => rfl
  | cons other rest ih =>
      by_cases same : other = kind
      · simp [same]
      · have differ : other.name ≠ kind.name := fun named => same (Kind.name_inj.mp named)
        rw [List.map_cons, List.idxOf_cons_ne _ differ, List.idxOf_cons_ne _ same, ih]

/-- A priority has the names that describe it, each at its first mention. -/
theorem map_name_eq_eraseDups {names : List String} {priority : Priority}
    (described : ofNames names = .ok priority) : priority.map Kind.name = names.eraseDups := by
  induction names using List.reverseRecOn generalizing priority with
  | nil =>
      rw [← Except.ok.inj described]
      rfl
  | append_singleton names name ih =>
      obtain ⟨earlier, kind, before, rfl, rfl⟩ := ofNames_concat described
      have mention : kind ∈ earlier ↔ kind.name ∈ names := by
        rw [← name_mem_map_iff, ih before, List.mem_eraseDups]
      rw [List.eraseDups_append, ← ih before, add]
      by_cases member : kind ∈ earlier
      · simp [member, mention.mp member, List.removeAll]
      · simp [member, mt mention.mpr member, List.removeAll, List.eraseDups_cons]

/-- A rank by a list of names is the place in the priority that the list describes. -/
theorem rankIn_eq {names : List String} {priority : Priority}
    (described : ofNames names = .ok priority) (kind : Kind) :
    rankIn names kind = if kind ∈ priority then (priority.rank kind : ℕ∞) else ⊤ := by
  have named := map_name_eq_eraseDups described
  have mention : kind.name ∈ names ↔ kind ∈ priority := by
    rw [← List.mem_eraseDups, ← named, name_mem_map_iff]
  rw [rankIn, ← named, idxOf_name]
  simp only [mention]

/-- Ranks by a list of names compare as places in the priority that it describes. -/
theorem rankIn_le_rankIn_iff {names : List String} {priority : Priority}
    (described : ofNames names = .ok priority) (first second : Kind) :
    rankIn names first ≤ rankIn names second ↔ priority.rank first ≤ priority.rank second := by
  have bound := rank_lt_length_iff priority
  have outside (kind : Kind) (absent : kind ∉ priority) : priority.rank kind = priority.length :=
    List.idxOf_eq_length absent
  rw [rankIn_eq described, rankIn_eq described]
  by_cases here : first ∈ priority <;> by_cases there : second ∈ priority
  · simp [here, there]
  · have less := (bound first).mpr here
    simp [here, there, outside second there, less.le]
  · have less := (bound second).mpr there
    simp [here, there, outside first here, less]
  · simp [here, there, outside first here, outside second there]

end Priority

namespace Choice

/-- A candidate of a list with its place in it. -/
abbrev Entry := Candidate × Nat

/-- A candidate comes first in a list by a key, and among those of one key by its place. -/
def IsFirstBy {κ : Type} [LinearOrder κ] (key : Candidate → κ) (candidates : List Candidate)
    (chosen : Candidate) : Prop :=
  ∃ place, (chosen, place) ∈ candidates.zipIdx ∧ ∀ other ∈ candidates.zipIdx,
    toLex (key chosen, place) ≤ toLex (key other.1, other.2)

/-- A list in the order of a key, in which candidates of one key keep the order that they were
given in. -/
structure IsStableSort {κ : Type} [LinearOrder κ] (key : Candidate → κ)
    (given sorted : List Candidate) : Prop where
  perm : sorted.Perm given
  ordered : sorted.Pairwise fun first second => key first ≤ key second
  stable : ∀ value, (sorted.filter fun candidate => key candidate = value) =
    given.filter fun candidate => key candidate = value

/-- The rank of a candidate is that of its kind. -/
def rankOf (names : List String) (candidate : Candidate) : ℕ∞ :=
  Priority.rankIn names candidate.kind

/-- The number of the first root that a candidate lies under, and infinity when there is none. -/
def rootOf (roots : List String) (candidate : Candidate) : ℕ∞ :=
  match roots.findIdx? (Path.isUnder candidate.location.path) with
  | some number => number
  | none => ⊤

section Sorting

variable {names : List String} {priority : Priority}
  (described : Priority.ofNames names = .ok priority) (candidates : List Candidate)

/-- Whether a candidate goes before another one when sorting. -/
def goesBefore (priority : Priority) (first second : Candidate) : Bool :=
  decide (priority.rank first.kind ≤ priority.rank second.kind)

theorem goesBefore_trans (first second third : Candidate)
    (here : goesBefore priority first second) (there : goesBefore priority second third) :
    goesBefore priority first third := by
  simp only [goesBefore, decide_eq_true_eq] at *
  exact here.trans there

theorem goesBefore_total (first second : Candidate) :
    goesBefore priority first second || goesBefore priority second first := by
  simpa [goesBefore] using Nat.le_total _ _

include described in
theorem goesBefore_iff {first second : Candidate} :
    goesBefore priority first second = true ↔ rankOf names first ≤ rankOf names second := by
  rw [rankOf, rankOf, Priority.rankIn_le_rankIn_iff described]
  exact decide_eq_true_iff

include described in
theorem isStableSort_sortByPriority :
    IsStableSort (rankOf names) candidates (sortByPriority priority candidates) := by
  have perm := sortByPriority_perm priority candidates
  have ordered : (sortByPriority priority candidates).Pairwise (goesBefore priority · ·) :=
    List.pairwise_mergeSort goesBefore_trans goesBefore_total candidates
  refine ⟨perm, ordered.imp (goesBefore_iff described).mp, fun value => ?_⟩
  -- The candidates of one rank are a sorted part of the list, which sorting leaves in order.
  have level : (candidates.filter fun candidate => rankOf names candidate = value).Pairwise
      (goesBefore priority · ·) := by
    refine List.pairwise_of_forall_mem_list fun first here second there =>
      (goesBefore_iff described).mpr ?_
    rw [of_decide_eq_true (List.mem_filter.mp here).2,
      of_decide_eq_true (List.mem_filter.mp there).2]
  have kept := (List.sublist_mergeSort goesBefore_trans goesBefore_total level
    List.filter_sublist).filter fun candidate => rankOf names candidate = value
  rw [List.filter_filter] at kept
  simp only [Bool.and_self] at kept
  exact (kept.eq_of_length (perm.filter _).length_eq.symm).symm

include described in
/-- The sorted list has the candidates in order of rank and place. -/
theorem exists_sorted_entries :
    ∃ entries : List Entry, entries.Perm candidates.zipIdx ∧
      entries.map Prod.fst = sortByPriority priority candidates ∧
      entries.Pairwise fun first second =>
        toLex (rankOf names first.1, first.2) ≤ toLex (rankOf names second.1, second.2) := by
  refine ⟨candidates.zipIdx.mergeSort (List.zipIdxLE (goesBefore priority)),
    List.mergeSort_perm _ _, List.mergeSort_zipIdx, ?_⟩
  refine (List.pairwise_mergeSort (List.zipIdxLE_trans goesBefore_trans)
    (List.zipIdxLE_total goesBefore_total) _).imp fun {first second} before => ?_
  have forth : goesBefore priority first.1 second.1 = true := by
    by_contra missing
    simp [List.zipIdxLE, missing] at before
  rw [Prod.Lex.toLex_le_toLex]
  rcases ((goesBefore_iff described).mp forth).lt_or_eq with less | same
  · exact .inl less
  · have back : goesBefore priority second.1 first.1 = true :=
      (goesBefore_iff described).mpr same.ge
    simp only [List.zipIdxLE, forth, back, if_true, decide_eq_true_eq] at before
    exact .inr ⟨same, before⟩

end Sorting

section Scanning

variable {κ : Type} [LinearOrder κ] {key : Candidate → κ} {entries : List Entry}
  (ordered : entries.Pairwise fun first second =>
    toLex (key first.1, first.2) ≤ toLex (key second.1, second.2))

include ordered in
/-- The first entry of a sorted list that meets a condition is the least that does. -/
theorem least_of_find? {meets : Candidate → Bool} {chosen : Candidate}
    (found : (entries.map Prod.fst).find? meets = some chosen) :
    ∃ place, (chosen, place) ∈ entries ∧ meets chosen = true ∧
      ∀ other ∈ entries, meets other.1 = true →
        toLex (key chosen, place) ≤ toLex (key other.1, other.2) := by
  induction entries with
  | nil => nomatch found
  | cons entry rest ih =>
      obtain ⟨least, later⟩ := List.pairwise_cons.mp ordered
      rw [List.map_cons, List.find?_cons] at found
      by_cases here : meets entry.1 = true
      · simp only [here, Option.some.injEq] at found
        subst found
        refine ⟨entry.2, List.mem_cons_self, here, fun other member _ => ?_⟩
        rcases List.mem_cons.mp member with rfl | member
        · exact le_refl _
        · exact least other member
      · simp only [here] at found
        obtain ⟨place, member, met, first⟩ := ih later found
        refine ⟨place, List.mem_cons_of_mem _ member, met, fun other there meeting => ?_⟩
        rcases List.mem_cons.mp there with rfl | there
        · exact absurd meeting here
        · exact first other there meeting

end Scanning

/-- Where no earlier root counts, a candidate comes first by roots just when it lies under the
next one. -/
theorem rootOf_of_earlier {before : List String} {candidate : Candidate} (root : String)
    (after : List String)
    (earlier : ∀ root ∈ before, Path.isUnder candidate.location.path root = false) :
    (before.length : ℕ∞) ≤ rootOf (before ++ root :: after) candidate ∧
      (rootOf (before ++ root :: after) candidate = before.length ↔
        Path.isUnder candidate.location.path root = true) := by
  have none : before.findIdx? (Path.isUnder candidate.location.path) = none :=
    List.findIdx?_eq_none_iff.mpr earlier
  rw [rootOf, List.findIdx?_append, none, Option.none_or, List.findIdx?_cons]
  by_cases under : Path.isUnder candidate.location.path root = true
  · simp [under]
  rcases later : after.findIdx? (Path.isUnder candidate.location.path) with _ | number
  · simp [under]
  · simp only [under, Bool.false_eq_true, if_false, Option.map_some, iff_false, Nat.cast_inj,
      Nat.cast_le]
    omega

section Choosing

variable {names : List String} {priority : Priority}
  (described : Priority.ofNames names = .ok priority) {candidates : List Candidate}

include described in
/-- The head of the sorted list is first by rank. -/
theorem isFirstBy_rank {first : Candidate} {others : List Candidate}
    (sorted : sortByPriority priority candidates = first :: others) :
    IsFirstBy (rankOf names) candidates first := by
  obtain ⟨entries, perm, projected, ordered⟩ := exists_sorted_entries described candidates
  have found : (entries.map Prod.fst).find? (fun _ => true) = some first := by
    rw [projected, sorted]
    rfl
  obtain ⟨place, member, -, least⟩ := least_of_find? ordered found
  exact ⟨place, perm.subset member, fun other there => least other (perm.symm.subset there) rfl⟩

include described in
/-- Scanning the sorted list root by root finds the first candidate by root and rank. -/
theorem isFirstBy_root {roots : List String} {chosen : Candidate}
    (found : firstUnderRoots? (sortByPriority priority candidates) roots = some chosen) :
    IsFirstBy (fun candidate => toLex (rootOf roots candidate, rankOf names candidate))
      candidates chosen := by
  obtain ⟨entries, perm, projected, ordered⟩ := exists_sorted_entries described candidates
  obtain ⟨before, root, after, rfl, here, none⟩ := List.findSome?_eq_some_iff.mp found
  rw [← projected] at here none
  obtain ⟨place, member, under, least⟩ := least_of_find? ordered here
  have earlier (entry : Entry) (member : entry ∈ entries) :
      ∀ root ∈ before, Path.isUnder entry.1.location.path root = false := by
    intro root between
    have missing := List.find?_eq_none.mp (none root between) entry.1 (List.mem_map_of_mem member)
    simpa using missing
  have first : rootOf (before ++ root :: after) chosen = before.length :=
    (rootOf_of_earlier root after (earlier _ member)).2.mpr under
  refine ⟨place, perm.subset member, fun other there => ?_⟩
  have there := perm.symm.subset there
  obtain ⟨bound, tie⟩ := rootOf_of_earlier root after (earlier other there)
  dsimp only
  rw [first]
  rcases bound.lt_or_eq with later | same
  · exact (Prod.Lex.toLex_lt_toLex.mpr (.inl (Prod.Lex.toLex_lt_toLex.mpr (.inl later)))).le
  rw [← same]
  rcases Prod.Lex.toLex_le_toLex.mp (least other there (tie.mp same.symm)) with less | ⟨level, le⟩
  · exact Prod.Lex.toLex_le_toLex.mpr (.inl (Prod.Lex.toLex_lt_toLex.mpr (.inr ⟨rfl, less⟩)))
  · exact Prod.Lex.toLex_le_toLex.mpr (.inr ⟨congrArg (fun rank => toLex (_, rank)) level, le⟩)

/-- The scan finds a candidate just when one lies under a root. -/
theorem firstUnderRoots?_isSome (priority : Priority) (candidates : List Candidate)
    (roots : List String) :
    (firstUnderRoots? (sortByPriority priority candidates) roots).isSome ↔
      ∃ candidate ∈ candidates, ∃ root ∈ roots, Path.isUnder candidate.location.path root := by
  have same (candidate : Candidate) :
      candidate ∈ sortByPriority priority candidates ↔ candidate ∈ candidates :=
    (sortByPriority_perm priority candidates).mem_iff
  simp only [firstUnderRoots?, List.findSome?_isSome_iff, List.find?_isSome, same]
  tauto

variable {η : Type} (host : Host η)

/-- A choice without a call takes the first candidate by a key. -/
def Takes {κ : Type} [LinearOrder κ] (key : Candidate → κ) (candidates : List Candidate)
    (dialogue : Dialogue η) (course : Except Fault Outcome × Dialogue η) : Prop :=
  ∃ chosen, IsFirstBy key candidates chosen ∧ course = (.ok (.found chosen), dialogue)

/-- The law of choosing. By the names of a priority the exact matches are sorted stably; a single
one, and under the policy of the first any number of them, are settled by rank; by roots the
first under the earliest root with one under it is taken, and by rank where there is no such root;
and a picker shows all of them once, as they are sorted. -/
theorem choice_is_first_by_root_and_rank {names : List String} {candidates : List Candidate}
    (known : ∀ name ∈ names, ∃ kind : Kind, kind.name = name) (some : candidates ≠ [])
    (policy : ManyPolicy) (dialogue : Dialogue η) :
    ∃ priority, Priority.ofNames names = .ok priority ∧
      let sorted := sortByPriority priority candidates
      let roots := host.roots dialogue.host
      let course := (select (Dialogue.hostOf host) priority policy candidates).start dialogue
      IsStableSort (rankOf names) candidates sorted ∧
      (policy = .first ∨ candidates.length = 1 →
        Takes (rankOf names) candidates dialogue course) ∧
      (policy = .byRoot → 1 < candidates.length →
        ((∃ candidate ∈ candidates, ∃ root ∈ roots, Path.isUnder candidate.location.path root) →
          Takes (fun candidate => toLex (rootOf roots candidate, rankOf names candidate))
            candidates dialogue course) ∧
        (¬ (∃ candidate ∈ candidates, ∃ root ∈ roots,
            Path.isUnder candidate.location.path root) →
          Takes (rankOf names) candidates dialogue course)) ∧
      (policy = .pick → 1 < candidates.length →
        course = (((host.pick exactPrompt sorted).start dialogue.host).1.map outcomeOf,
          dialogue.extend [picking host exactPrompt sorted dialogue.host])) := by
  obtain ⟨priority, described⟩ := Resolution.exists_ofNames known
  refine ⟨priority, described, isStableSort_sortByPriority described candidates, ?_⟩
  have length : (sortByPriority priority candidates).length = candidates.length :=
    (sortByPriority_perm priority candidates).length_eq
  have scan := firstUnderRoots?_isSome priority candidates (host.roots dialogue.host)
  have byRoot {chosen : Candidate} := @isFirstBy_root names priority described candidates
    (host.roots dialogue.host) chosen
  unfold select
  rcases sorted : sortByPriority priority candidates with _ | ⟨first, _ | ⟨next, others⟩⟩
  · rw [sorted] at length
    exact absurd (List.length_eq_zero_iff.mp length.symm) some
  · rw [sorted] at length
    have one : ¬ 1 < candidates.length := by
      rw [← length]
      exact lt_irrefl 1
    exact ⟨fun _ => ⟨first, isFirstBy_rank described sorted, rfl⟩,
      fun _ several => absurd several one, fun _ several => absurd several one⟩
  have several : candidates.length ≠ 1 := by
    rw [← length, sorted]
    exact Nat.succ_succ_ne_one _
  have head := isFirstBy_rank described sorted
  rw [sorted] at scan byRoot
  cases policy with
  | first => exact ⟨fun _ => ⟨first, head, rfl⟩, nofun, nofun⟩
  | pick =>
      refine ⟨fun alone => ?_, nofun, fun _ _ => start_pick host _ _ dialogue⟩
      exact absurd (alone.resolve_left nofun) several
  | byRoot =>
      refine ⟨fun alone => absurd (alone.resolve_left nofun) several, fun _ _ => ?_, nofun⟩
      rw [← scan]
      have course := start_bind_of_ok (start_get dialogue) fun state =>
        (pure (.found ((firstUnderRoots? (first :: next :: others)
          (host.roots state.host)).getD first)) : Act (Dialogue η) Outcome)
      refine ⟨fun here => ?_, fun nowhere => ?_⟩
      · obtain ⟨chosen, found⟩ := Option.isSome_iff_exists.mp here
        refine ⟨chosen, byRoot found, course.trans ?_⟩
        rw [found]
        rfl
      · refine ⟨first, head, course.trans ?_⟩
        rw [Option.not_isSome_iff_eq_none.mp nowhere]
        rfl

/-- The law of choosing by roots, where the first root lies inside the second, a kind is named
twice, and one candidate is outside of both. -/
theorem choice_is_first_of_nested_roots :
    let candidates : List Candidate :=
      [⟨"f", .function, { path := "/lib/f" }, .null⟩,
        ⟨"a.f()", .function, { path := "/p/a" }, .null⟩,
        ⟨"f", .method, { path := "/p/q/m" }, .null⟩, ⟨"f", .classType, { path := "/p/c" }, .null⟩]
    let names := ["Class", "Method", "Class", "Function"]
    let start : Script := { roots := ["/p/q/", "/p"] }
    ∃ priority, Priority.ofNames names = .ok priority ∧
      Takes (fun candidate => toLex (rootOf start.roots candidate, rankOf names candidate))
        candidates { host := start }
        ((select (Dialogue.hostOf Script.host) priority .byRoot candidates).start
          { host := start }) := by
  intro candidates names start
  have known : ∀ name ∈ names, ∃ kind : Kind, kind.name = name := by
    simp only [names, List.forall_mem_cons, List.not_mem_nil, false_imp_iff, implies_true, and_true]
    exact ⟨⟨.classType, rfl⟩, ⟨.method, rfl⟩, ⟨.classType, rfl⟩, ⟨.function, rfl⟩⟩
  obtain ⟨priority, described, -, -, byRoot, -⟩ := choice_is_first_by_root_and_rank Script.host
    known (List.cons_ne_nil _ _) .byRoot { host := start }
  refine ⟨priority, described, (byRoot rfl (by decide)).1 ?_⟩
  exact ⟨⟨"f", .method, { path := "/p/q/m" }, .null⟩, by decide, "/p", by decide, by decide⟩

end Choosing

end Choice

end SymbolJump
