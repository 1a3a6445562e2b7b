/-
# What patterns mean

A pattern without groups is read from left to right, and what it means is said here by a relation
between patterns and paths, without a machine that decides it. The machine marks the ends of a
path, from the last part of the pattern to the first. A row of marks tells which ends have a
property, and each part turns a row that is right for the parts after it into one that is right
from this part on. So a pattern matches a path exactly when one of the patterns it stands for
means the path.
-/
import SymbolJump.Glob.Pattern

namespace SymbolJump.Glob

/-- A text without a line feed. -/
def IsOneLine (text : List Char) : Prop :=
  '\n' ∉ text

/-- A pattern without groups means a path. Two stars and a slash are taken before two stars, and
these before a single character. -/
inductive Means : (pattern path : List Char) → Prop
  | done : Means [] []
  | noFolder {rest path : List Char} (later : Means rest path) :
      Means ('*' :: '*' :: '/' :: rest) path
  | folders {rest text path : List Char} (oneLine : IsOneLine text)
      (closed : text.getLast? = some '/') (later : Means rest path) :
      Means ('*' :: '*' :: '/' :: rest) (text ++ path)
  | anything {rest text path : List Char} (noSlash : rest.head? ≠ some '/')
      (oneLine : IsOneLine text) (later : Means rest path) :
      Means ('*' :: '*' :: rest) (text ++ path)
  | inComponent {rest text path : List Char} (noStar : rest.head? ≠ some '*')
      (inside : '/' ∉ text) (later : Means rest path) : Means ('*' :: rest) (text ++ path)
  | oneChar {c : Char} {rest path : List Char} (inside : c ≠ '/') (later : Means rest path) :
      Means ('?' :: rest) (c :: path)
  | char {c : Char} {rest path : List Char} (noStar : c ≠ '*') (noMark : c ≠ '?')
      (later : Means rest path) : Means (c :: rest) (c :: path)

/-- The texts that a part of a pattern stands for. -/
def Part.StandsFor : Part → List Char → Prop
  | folders, text => text = [] ∨ IsOneLine text ∧ text.getLast? = some '/'
  | anything, text => IsOneLine text
  | inComponent, text => '/' ∉ text
  | oneChar, text => ∃ c, c ≠ '/' ∧ text = [c]
  | char c, text => text = [c]

/-- Parts make up a path: each stands for a text, and these in a row are the path. -/
inductive MakeUp : List Part → List Char → Prop
  | nil : MakeUp [] []
  | cons {part : Part} {parts : List Part} {text path : List Char} (stands : part.StandsFor text)
      (later : MakeUp parts path) : MakeUp (part :: parts) (text ++ path)

section Parts

variable {rest : List Char}

theorem parts_anything (noSlash : rest.head? ≠ some '/') :
    parts ('*' :: '*' :: rest) = .anything :: parts rest := by
  cases rest with
  | nil => rfl
  | cons c rest =>
      have differ : c ≠ '/' := by simpa using noSlash
      simp [parts, differ]

theorem parts_inComponent (noStar : rest.head? ≠ some '*') :
    parts ('*' :: rest) = .inComponent :: parts rest := by
  cases rest with
  | nil => rfl
  | cons c rest =>
      have differ : c ≠ '*' := by simpa using noStar
      simp [parts, differ]

theorem parts_char {c : Char} (noStar : c ≠ '*') (noMark : c ≠ '?') :
    parts (c :: rest) = .char c :: parts rest := by
  simp [parts, noStar]

end Parts

theorem makeUp_of_means {pattern path : List Char} (means : Means pattern path) :
    MakeUp (parts pattern) path := by
  induction means with
  | done => exact .nil
  | noFolder later ih => exact @MakeUp.cons _ _ [] _ (.inl rfl) ih
  | folders oneLine closed later ih => exact .cons (.inr ⟨oneLine, closed⟩) ih
  | anything noSlash oneLine later ih =>
      rw [parts_anything noSlash]
      exact .cons oneLine ih
  | inComponent noStar inside later ih =>
      rw [parts_inComponent noStar]
      exact .cons inside ih
  | @oneChar c rest path inside later ih => exact @MakeUp.cons _ _ [c] _ ⟨c, inside, rfl⟩ ih
  | @char c rest path noStar noMark later ih =>
      rw [parts_char noStar noMark]
      exact @MakeUp.cons _ _ [c] _ rfl ih

theorem means_of_makeUp {pattern path : List Char} (made : MakeUp (parts pattern) path) :
    Means pattern path := by
  fun_induction parts pattern generalizing path with
  | case1 =>
      cases made
      exact .done
  | case2 rest ih =>
      cases made with
      | cons stands later =>
          rcases stands with rfl | ⟨oneLine, closed⟩
          · exact .noFolder (ih later)
          · exact .folders oneLine closed (ih later)
  | case3 rest noSlash ih =>
      cases made with
      | cons oneLine later =>
          apply Means.anything _ oneLine (ih later)
          intro slash
          obtain ⟨after, rfl⟩ := List.head?_eq_some_iff.mp slash
          exact noSlash after rfl
  | case4 rest _ noStar ih =>
      cases made with
      | cons inside later =>
          apply Means.inComponent _ inside (ih later)
          intro star
          obtain ⟨after, rfl⟩ := List.head?_eq_some_iff.mp star
          exact noStar after rfl
  | case5 rest ih =>
      cases made with
      | cons stands later =>
          obtain ⟨c, inside, rfl⟩ := stands
          exact .oneChar inside (ih later)
  | case6 c rest _ _ noStar noMark ih =>
      cases made with
      | cons same later =>
          cases same
          exact .char noStar noMark (ih later)

/-- A row of marks tells of each end of a path whether it has a property. -/
inductive Tells (p : List Char → Prop) : (path : List Char) → (marks : List Bool) → Prop
  | nil {mark : Bool} (tells : mark = true ↔ p []) : Tells p [] [mark]
  | cons {c : Char} {path : List Char} {mark : Bool} {marks : List Bool}
      (tells : mark = true ↔ p (c :: path)) (later : Tells p path marks) :
      Tells p (c :: path) (mark :: marks)

/-- A text that passes a test, and then an end with a property. -/
def Behind (passes p : List Char → Prop) (path : List Char) : Prop :=
  ∃ text rest, path = text ++ rest ∧ passes text ∧ p rest

namespace Tells

variable {p q passes : List Char → Prop} {test : Char → Bool} {path : List Char}
  {marks others : List Bool}

theorem headD_iff (told : Tells p path marks) : marks.headD false = true ↔ p path := by
  cases told <;> assumption

theorem congr (told : Tells p path marks) (same : ∀ rest, p rest ↔ q rest) :
    Tells q path marks := by
  induction told with
  | nil tells => exact .nil (tells.trans (same _))
  | cons tells _ ih => exact .cons (tells.trans (same _)) ih

theorem or (told : Tells p path marks) (other : Tells q path others) :
    Tells (fun rest => p rest ∨ q rest) path (marks.zipWith (· || ·) others) := by
  induction told generalizing others with
  | nil tells =>
      cases other with
      | nil also => exact .nil (by rw [Bool.or_eq_true, tells, also])
  | cons tells _ ih =>
      cases other with
      | cons also further => exact .cons (by rw [Bool.or_eq_true, tells, also]) (ih further)

theorem oneBefore (told : Tells p path marks) :
    Tells (Behind (fun text => ∃ c, test c = true ∧ text = [c]) p) path
      (markOneBefore test path marks) := by
  induction told with
  | nil => exact .nil (by simp [Behind])
  | @cons c path mark marks _ later ih =>
      apply Tells.cons _ ih
      rw [Bool.and_eq_true, later.headD_iff]
      constructor
      · rintro ⟨passes, holds⟩
        exact ⟨[c], path, rfl, ⟨c, passes, rfl⟩, holds⟩
      · rintro ⟨_, rest, cut, ⟨d, passes, rfl⟩, holds⟩
        obtain ⟨rfl, rfl⟩ := List.cons.inj cut
        exact ⟨passes, holds⟩

theorem anyBefore (told : Tells p path marks) :
    Tells (Behind (fun text => ∀ c ∈ text, test c = true) p) path
      (markAnyBefore test path marks) := by
  induction told with
  | nil tells =>
      apply Tells.nil
      rw [tells]
      constructor
      · exact fun holds => ⟨[], [], rfl, List.forall_mem_nil _, holds⟩
      · rintro ⟨text, rest, cut, -, holds⟩
        rwa [(List.append_eq_nil_iff.mp cut.symm).2] at holds
  | @cons c path mark marks tells _ ih =>
      apply Tells.cons _ ih
      rw [Bool.or_eq_true, Bool.and_eq_true, tells, ih.headD_iff]
      constructor
      · rintro (holds | ⟨passes, text, rest, rfl, all, holds⟩)
        · exact ⟨[], _, rfl, List.forall_mem_nil _, holds⟩
        · exact ⟨c :: text, rest, rfl, List.forall_mem_cons.mpr ⟨passes, all⟩, holds⟩
      · rintro ⟨text, rest, cut, all, holds⟩
        cases text with
        | nil => exact .inl (by rwa [cut])
        | cons d text =>
            obtain ⟨rfl, rfl⟩ := List.cons.inj cut
            obtain ⟨passes, others⟩ := List.forall_mem_cons.mp all
            exact .inr ⟨passes, text, rest, rfl, others, holds⟩

/-- Texts that end in a slash are any texts with one more slash. -/
theorem behind_folders_iff (path : List Char) :
    Behind Part.folders.StandsFor p path ↔ p path ∨ Behind (fun text => ∀ c ∈ text, c ≠ '\n')
      (Behind (fun text => ∃ c, c = '/' ∧ text = [c]) p) path := by
  constructor
  · rintro ⟨text, rest, rfl, rfl | ⟨oneLine, closed⟩, holds⟩
    · exact .inl holds
    · obtain ⟨front, rfl⟩ := List.getLast?_eq_some_iff.mp closed
      refine .inr ⟨front, '/' :: rest, by simp, ?_, ['/'], rest, rfl, ⟨_, rfl, rfl⟩, holds⟩
      rintro c member rfl
      exact oneLine (List.mem_append_left _ member)
  · rintro (holds | ⟨front, _, rfl, oneLine, _, rest, rfl, ⟨_, rfl, rfl⟩, holds⟩)
    · exact ⟨[], path, rfl, .inl rfl, holds⟩
    · refine ⟨front ++ ['/'], rest, by simp, .inr ⟨?_, by simp⟩, holds⟩
      intro member
      rcases List.mem_append.mp member with inside | slash
      · exact oneLine _ inside rfl
      · simp at slash

/-- A part turns a row of marks for the parts after it into one that takes it in. -/
theorem before (told : Tells p path marks) (part : Part) :
    Tells (Behind part.StandsFor p) path (part.markBefore path marks) := by
  cases part with
  | folders =>
      apply (told.or told.oneBefore.anyBefore).congr
      intro rest
      simp [behind_folders_iff]
  | anything =>
      apply told.anyBefore.congr
      intro rest
      have same (text : List Char) : (∀ c ∈ text, c ≠ '\n') ↔ IsOneLine text := by
        rw [IsOneLine, List.forall_mem_ne']
      simp [Behind, Part.StandsFor, ← same]
  | inComponent =>
      apply told.anyBefore.congr
      intro rest
      have same (text : List Char) : (∀ c ∈ text, c ≠ '/') ↔ '/' ∉ text := List.forall_mem_ne'
      simp [Behind, Part.StandsFor, ← same]
  | oneChar =>
      apply told.oneBefore.congr
      intro rest
      simp [Behind, Part.StandsFor]
  | char c =>
      apply told.oneBefore.congr
      intro rest
      simp [Behind, Part.StandsFor]

end Tells

theorem tells_ends (path : List Char) :
    Tells (MakeUp []) path ((ends path).map List.isEmpty) := by
  have empty (path : List Char) : MakeUp [] path ↔ path = [] := by
    constructor
    · rintro ⟨⟩
      rfl
    · rintro rfl
      exact .nil
  induction path with
  | nil => exact .nil (by simp [empty])
  | cons c path ih => exact .cons (by simp [empty]) ih

theorem makeUp_cons_iff (part : Part) (parts : List Part) (path : List Char) :
    MakeUp (part :: parts) path ↔ Behind part.StandsFor (MakeUp parts) path := by
  constructor
  · rintro ⟨⟩
    exact ⟨_, _, rfl, ‹_›, ‹_›⟩
  · rintro ⟨text, rest, rfl, stands, later⟩
    exact .cons stands later

/-- The marks of a pattern are right at each end of a path. -/
theorem tells_endsMatched (parts : List Part) (path : List Char) :
    Tells (MakeUp parts) path (endsMatched parts path) := by
  induction parts with
  | nil => exact tells_ends path
  | cons part parts ih =>
      apply (ih.before part).congr
      intro rest
      exact (makeUp_cons_iff part parts rest).symm

theorem matchesParts_iff (pattern path : List Char) :
    matchesParts (parts pattern) path = true ↔ Means pattern path :=
  (tells_endsMatched (parts pattern) path).headD_iff.trans ⟨means_of_makeUp, makeUp_of_means⟩

theorem matchesChars_iff (pattern path : List Char) :
    matchesChars pattern path = true ↔
      ∃ alternative ∈ expandChars pattern, Means alternative path := by
  simp only [matchesChars, List.any_eq_true, matchesParts_iff]

/-- A pattern matches a path exactly when one of the patterns without groups that it stands for
means the whole path. -/
theorem isMatch_iff_means (pattern path : String) :
    isMatch pattern path = true ↔
      ∃ alternative ∈ expand pattern, Means alternative.toList path.toList := by
  rw [isMatch, matchesChars_iff]
  constructor
  · rintro ⟨alternative, member, means⟩
    exact ⟨_, List.mem_map_of_mem member, by rwa [String.toList_ofList]⟩
  · rintro ⟨_, member, means⟩
    obtain ⟨alternative, there, rfl⟩ := List.mem_map.mp member
    exact ⟨alternative, there, by rwa [String.toList_ofList] at means⟩

end SymbolJump.Glob
