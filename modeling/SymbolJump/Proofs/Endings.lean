/-
# How patterns end

What stands at the end of a pattern in plain characters stands at the end of every path that it
means. So the endings of the paths that a pattern matches are read off the patterns it stands for.

Most patterns for source files end, behind the last slash, in a star, a dot and a tail. Replacing
the first group leaves that ending alone when the group is closed in front of the last slash, and
takes the group away when it is in the tail. When it opens in front of the last slash and is closed
in the tail, one of its options reaches over both, and with that option in its place the pattern
ends in the same form, with less of the tail.
-/
import SymbolJump.Proofs.Alternatives
import SymbolJump.Proofs.Cuts

namespace SymbolJump.Glob

open Text

/-! ## Plain endings -/

/-- A character that stands for itself. -/
def IsPlain (c : Char) : Prop :=
  c ≠ '*' ∧ c ≠ '?'

instance (c : Char) : Decidable (IsPlain c) :=
  inferInstanceAs (Decidable (_ ∧ _))

section Plain

variable {pattern path letters : List Char}

theorem eq_of_means (means : Means pattern path) (plain : ∀ c ∈ pattern, IsPlain c) :
    path = pattern := by
  induction means with
  | done => rfl
  | noFolder | folders | anything | inComponent =>
      exact absurd rfl (plain '*' List.mem_cons_self).1
  | oneChar => exact absurd rfl (plain '?' List.mem_cons_self).2
  | char _ _ _ ih => rw [ih fun c member => plain c (List.mem_cons_of_mem _ member)]

/-- A path ends as the pattern does, from a dot on that only plain characters follow. -/
theorem suffix_of_means (means : Means pattern path) (plain : ∀ c ∈ letters, IsPlain c)
    (ends : '.' :: letters <:+ pattern) : '.' :: letters <:+ path := by
  have within {c : Char} {rest : List Char} (ends : '.' :: letters <:+ c :: rest)
      (other : '.' ≠ c) : '.' :: letters <:+ rest :=
    (List.suffix_cons_iff.mp ends).resolve_left fun same => other (List.cons.inj same).1
  induction means with
  | done => exact ends
  | noFolder _ ih =>
      exact ih (within (within (within ends (by decide)) (by decide)) (by decide))
  | folders _ _ _ ih =>
      exact List.suffix_append_of_suffix
        (ih (within (within (within ends (by decide)) (by decide)) (by decide)))
  | anything _ _ _ ih =>
      exact List.suffix_append_of_suffix (ih (within (within ends (by decide)) (by decide)))
  | inComponent _ _ _ ih => exact List.suffix_append_of_suffix (ih (within ends (by decide)))
  | oneChar _ _ ih => exact (ih (within ends (by decide))).trans (List.suffix_cons _ _)
  | char _ _ later ih =>
      rcases List.suffix_cons_iff.mp ends with same | inside
      · obtain ⟨rfl, rfl⟩ := List.cons.inj same
        rw [eq_of_means later plain]
      · exact (ih inside).trans (List.suffix_cons _ _)

end Plain

/-! ## A path for every pattern -/

/-- Put a comma in the place of a wildcard. -/
def fill (c : Char) : Char :=
  if IsPlain c then c else ','

theorem fill_of_isPlain {c : Char} (plain : IsPlain c) : fill c = c :=
  if_pos plain

theorem isPlain_of_fill {c : Char} (filled : fill c ≠ ',') : IsPlain c := by
  by_contra wild
  exact filled (if_neg wild)

theorem fill_eq_iff {c separator : Char} (plain : IsPlain separator) (other : separator ≠ ',') :
    fill c = separator ↔ c = separator := by
  constructor
  · rintro rfl
    exact (fill_of_isPlain (isPlain_of_fill other)).symm
  · rintro rfl
    exact fill_of_isPlain plain

/-- A pattern means the path that has a comma in the place of each wildcard. -/
theorem means_fill (pattern : List Char) : Means pattern (pattern.map fill) := by
  apply means_of_makeUp
  fun_induction parts pattern with
  | case1 => exact .nil
  | case2 rest ih =>
      have oneLine : IsOneLine [',', ',', '/'] := by simp [IsOneLine]
      exact @MakeUp.cons .folders _ _ _ (.inr ⟨oneLine, rfl⟩) ih
  | case3 rest _ ih =>
      have oneLine : IsOneLine [',', ','] := by simp [IsOneLine]
      exact @MakeUp.cons .anything _ _ _ oneLine ih
  | case4 rest _ _ ih =>
      have inside : '/' ∉ [','] := by simp
      exact @MakeUp.cons .inComponent _ _ _ inside ih
  | case5 rest ih => exact @MakeUp.cons .oneChar _ [','] _ ⟨',', by decide, rfl⟩ ih
  | case6 c rest _ _ noStar noMark ih =>
      rw [List.map_cons, fill_of_isPlain ⟨noStar, noMark⟩]
      exact @MakeUp.cons (.char c) _ [c] _ rfl ih

/-! ## Where a group lies -/

section Group

variable {left right tail pattern before inside after : List Char}

/-- When a pattern is cut in two, its first group lies in front of the cut, behind it or across
it. -/
theorem cut_firstGroup? (found : firstGroup? (left ++ right) = some (before, inside, after)) :
    (∃ more, left = before ++ '\x7b' :: (inside ++ '\x7d' :: more) ∧ after = more ++ right) ∨
    (∃ more, right = more ++ '\x7b' :: (inside ++ '\x7d' :: after) ∧ before = left ++ more) ∨
    ∃ opened closed, left = before ++ '\x7b' :: opened ∧ inside = opened ++ closed ∧
      right = closed ++ '\x7d' :: after := by
  rcases List.append_eq_append_iff.mp (eq_of_firstGroup? found).1 with
    ⟨more, ahead, cut⟩ | ⟨more, ahead, cut⟩
  · exact .inr (.inl ⟨more, cut, ahead⟩)
  cases more with
  | nil => exact .inr (.inl ⟨[], cut.symm, by rw [ahead]; simp⟩)
  | cons c more =>
      rw [List.cons_append] at cut
      obtain ⟨rfl, same⟩ := List.cons.inj cut
      rcases List.append_eq_append_iff.mp same with ⟨rest, within, cut⟩ | ⟨rest, within, cut⟩
      · cases rest with
        | nil => exact .inr (.inr ⟨more, [], ahead, by simpa using within.symm, cut.symm⟩)
        | cons c rest =>
            obtain ⟨rfl, behind⟩ := List.cons.inj cut
            exact .inl ⟨rest, by rw [ahead, within], behind⟩
      · exact .inr (.inr ⟨more, rest, ahead, within, cut⟩)

/-- A pattern ends, in any folder, in a star, a dot and a tail. -/
def EndsBy (tail pattern : List Char) : Prop :=
  ∃ front, ClosedBy '/' front ∧ pattern = front ++ '*' :: '.' :: tail

/-- Where the first group of such a pattern lies, and how the pattern ends when the group is
replaced. -/
theorem EndsBy.cases_firstGroup? (ends : EndsBy tail pattern)
    (found : firstGroup? pattern = some (before, inside, after)) :
    (∀ option, EndsBy tail (before ++ option ++ after)) ∨
    (∃ more, tail = more ++ '\x7b' :: (inside ++ '\x7d' :: after) ∧ EndsBy more before) ∨
    ∃ back, tail = back ++ '\x7d' :: after ∧ (∀ c ∈ back, isBrace c = false) ∧
      ∃ option ∈ splitOn ',' inside,
        EndsBy (back.takeWhile (· ≠ ',') ++ after) (before ++ option ++ after) := by
  obtain ⟨front, closed, rfl⟩ := ends
  have plain := (eq_of_firstGroup? found).2
  rcases cut_firstGroup? found with
    ⟨more, rfl, rfl⟩ | ⟨more, cut, rfl⟩ | ⟨opened, rest, rfl, rfl, cut⟩
  · refine .inl fun option => ⟨before ++ option ++ more, .inr ?_, by simp⟩
    rw [← List.cons_append, ← List.append_assoc] at closed
    obtain ⟨outer, rfl⟩ := closed.exists_concat (by decide)
    exact ⟨before ++ option ++ outer, by simp⟩
  · rcases more with _ | ⟨c, _ | ⟨d, more⟩⟩
    · nomatch cut
    · nomatch cut
    · cases cut
      exact .inr (.inl ⟨more, rfl, front, closed, rfl⟩)
  · rcases rest with _ | ⟨c, _ | ⟨d, back⟩⟩
    · nomatch cut
    · nomatch cut
    · cases cut
      have unbraced : ∀ c ∈ back, isBrace c = false := fun c member => plain c (by simp [member])
      have option := append_mem_splitOn ',' opened ('*' :: '.' :: back)
      refine .inr (.inr ⟨back, rfl, unbraced, _, option, before ++ afterLast ',' opened, .inr ?_,
        ?_⟩)
      · obtain ⟨outer, rfl⟩ := closed.exists_concat (by decide)
        rw [afterLast_append_of_not_mem _ (by decide)]
        exact ⟨before ++ afterLast ',' outer, by simp⟩
      · simp

end Group

/-! ## Endings of expansions -/

section Expansion

variable {tail pattern : List Char}

theorem ExpandsTo.ne_nil {texts : List (List Char)} (expands : ExpandsTo pattern texts) :
    texts ≠ [] := by
  induction expands with
  | done => exact List.cons_ne_nil _ _
  | @replace _ _ inside _ _ _ _ ih =>
      obtain ⟨option, member⟩ := List.exists_mem_of_ne_nil _ (splitOn_ne_nil ',' inside)
      intro none
      exact ih option member (List.flatMap_eq_nil_iff.mp none option member)

/-- When its tail opens no group, either all that a pattern stands for ends by the tail, or
something ends by less of it. -/
theorem EndsBy.expandsTo {texts : List (List Char)} (ends : EndsBy tail pattern)
    (expands : ExpandsTo pattern texts) (unopened : '\x7b' ∉ tail) :
    (∀ text ∈ texts, EndsBy tail text) ∨
      ∃ text ∈ texts, ∃ less, EndsBy less text ∧ less ⊆ tail ∧ less.length < tail.length := by
  induction expands generalizing tail with
  | done => exact .inl (List.forall_mem_singleton.mpr ends)
  | @replace _ before inside after results found each ih =>
      have reach {option text : List Char} (member : option ∈ splitOn ',' inside)
          (there : text ∈ results option) : text ∈ (splitOn ',' inside).flatMap results :=
        List.mem_flatMap.mpr ⟨option, member, there⟩
      rcases ends.cases_firstGroup? found with
        stay | ⟨more, rfl, -⟩ | ⟨back, rfl, -, option, member, shorter⟩
      · by_cases all : ∀ option ∈ splitOn ',' inside, ∀ text ∈ results option, EndsBy tail text
        · refine .inl fun text among => ?_
          obtain ⟨option, member, there⟩ := List.mem_flatMap.mp among
          exact all option member text there
        · push Not at all
          obtain ⟨option, member, other, among, differs⟩ := all
          obtain ⟨text, there, found⟩ := (ih option member (stay option) unopened).resolve_left
            fun same => differs (same other among)
          exact .inr ⟨text, reach member there, found⟩
      · exact absurd (by simp) unopened
      · have part := List.takeWhile_prefix (· ≠ ',') (l := back)
        have within : back.takeWhile (· ≠ ',') ++ after ⊆ back ++ '\x7d' :: after := by
          intro c inside
          rcases List.mem_append.mp inside with inside | inside
          · exact List.mem_append_left _ (part.subset inside)
          · exact List.mem_append_right _ (List.mem_cons_of_mem _ inside)
        have short : (back.takeWhile (· ≠ ',') ++ after).length <
            (back ++ '\x7d' :: after).length := by
          have bound := part.length_le
          simp only [List.length_append, List.length_cons]
          omega
        rcases ih option member shorter fun opens => unopened (within opens) with
          all | ⟨text, there, less, ends, among, fewer⟩
        · obtain ⟨text, there⟩ := List.exists_mem_of_ne_nil _ (each option member).ne_nil
          exact .inr ⟨text, reach member there, _, all text there, within, short⟩
        · exact .inr ⟨text, reach member there, less, ends, List.Subset.trans among within,
            fewer.trans short⟩

theorem isBrace_of_mem_splitOn {inside option : List Char} (plain : ∀ c ∈ inside, isBrace c = false)
    (member : option ∈ splitOn ',' inside) : ∀ c ∈ option, isBrace c = false := by
  intro c among
  by_cases comma : c = ','
  · rw [comma]
    rfl
  · exact plain c ((Path.mem_iff_mem_splitOn comma inside).mpr ⟨option, member, among⟩)

/-- A pattern ends by a group, or by one of the options in its place. -/
def EndsByGroup (inside pattern : List Char) : Prop :=
  EndsBy ('\x7b' :: (inside ++ ['\x7d'])) pattern ∨
    ∃ option ∈ splitOn ',' inside, EndsBy option pattern

/-- When the first group is replaced, the group at the end stays or gives way to an option, and an
option stays. -/
theorem EndsByGroup.replace {inside within before after option : List Char}
    (plain : ∀ c ∈ inside, isBrace c = false) (ends : EndsByGroup inside pattern)
    (found : firstGroup? pattern = some (before, within, after))
    (among : option ∈ splitOn ',' within) : EndsByGroup inside (before ++ option ++ after) := by
  have whole {text : List Char} (plain : ∀ c ∈ text, isBrace c = false) : '\x7d' ∉ text :=
    fun closes => nomatch plain _ closes
  rcases ends with ends | ⟨tail, member, ends⟩
  · rcases ends.cases_firstGroup? found with stay | ⟨more, cut, here⟩ | ⟨back, cut, unbraced, -⟩
    · exact .inl (stay option)
    · cases more with
      | nil =>
          have same := congrArg (cutAt '\x7d') (List.cons.inj cut).2
          rw [cutAt_append_cons (whole plain),
            cutAt_append_cons (whole (eq_of_firstGroup? found).2)] at same
          cases same
          obtain ⟨front, closed, rfl⟩ := here
          exact .inr ⟨option, among, front, closed, by simp⟩
      | cons c more =>
          have opens : '\x7b' ∈ inside ++ ['\x7d'] := by
            rw [(List.cons.inj cut).2]
            simp
          rcases List.mem_append.mp opens with opens | opens
          · nomatch plain _ opens
          · simp at opens
    · cases back with
      | nil => nomatch cut
      | cons c back =>
          rw [List.cons_append] at cut
          obtain ⟨rfl, -⟩ := List.cons.inj cut
          nomatch unbraced _ List.mem_cons_self
  · have unbraced := isBrace_of_mem_splitOn plain member
    rcases ends.cases_firstGroup? found with stay | ⟨more, rfl, -⟩ | ⟨back, rfl, -⟩
    · exact .inr ⟨tail, member, stay option⟩
    · nomatch unbraced '\x7b' (by simp)
    · nomatch unbraced '\x7d' (by simp)

/-- When its tail is one group, each pattern that a pattern stands for ends by one of the
options. -/
theorem EndsBy.of_mem_expandChars {inside alternative : List Char}
    (ends : EndsBy ('\x7b' :: (inside ++ ['\x7d'])) pattern)
    (plain : ∀ c ∈ inside, isBrace c = false) (member : alternative ∈ expandChars pattern) :
    ∃ option ∈ splitOn ',' inside, EndsBy option alternative := by
  have replaced : EndsByGroup inside alternative :=
    forall_mem_expandChars (fun _ _ _ _ _ found among ends => ends.replace plain found among)
      (.inl ends) alternative member
  refine replaced.resolve_left ?_
  rintro ⟨front, -, rfl⟩
  exact (expandsTo_expandChars pattern).not_holdsGroup _ member
    ⟨front ++ ['*', '.'], inside, [], by simp, plain⟩

end Expansion

end SymbolJump.Glob
