/-
# Plain names

A raw name is a qualifier, a plain name and perhaps a call suffix, and the plain name holds no dot.
Read the other way round, a raw name matches a query exactly when it is a decorated form of it: the
query has no dot, in front of it stands nothing or a text that ends with a dot, and behind it stands
a call suffix, which is missing only where the query does not end with one itself.

Only one call suffix is dropped. So a plain name is plain itself just as long as the raw name does
not end with two of them; otherwise taking the plain name once more drops the second.
-/
import SymbolJump.Proofs.Cuts
import SymbolJump.Proofs.Matches

namespace SymbolJump

namespace Name

open Text

/-- What an index puts in front of a plain name. -/
def qualifier (raw : String) : List Char :=
  throughLast '.' (dropEnding callSuffix raw.toList)

theorem closedBy_qualifier (raw : String) : ClosedBy '.' (qualifier raw) :=
  closedBy_throughLast '.' _

theorem qualifier_append_plain (raw : String) :
    qualifier raw ++ (plain raw).toList = dropEnding callSuffix raw.toList := by
  rw [plain, String.toList_ofList, plainChars, qualifier, throughLast_append_afterLast]

theorem not_mem_plain (raw : String) : '.' ∉ (plain raw).toList := by
  rw [plain, String.toList_ofList]
  exact not_mem_afterLast '.' _

/-- A raw name is a qualifier, a plain name and perhaps a call suffix. -/
theorem exists_toList_eq (raw : String) :
    ∃ ending, raw.toList = qualifier raw ++ (plain raw).toList ++ ending ∧
      (ending = [] ∨ ending = callSuffix) := by
  rw [qualifier_append_plain]
  rcases dropEnding_cases callSuffix raw.toList with ends | ⟨-, same⟩
  · exact ⟨callSuffix, ends, .inr rfl⟩
  · exact ⟨[], by rw [same, List.append_nil], .inl rfl⟩

section Qualified

variable {front name : List Char}

/-- No call suffix reaches into a qualifier. -/
theorem suffix_qualified_iff (qualifies : ClosedBy '.' front) :
    callSuffix <:+ front ++ name ↔ callSuffix <:+ name := by
  refine ⟨fun ends => ?_, List.suffix_append_of_suffix⟩
  rcases List.suffix_or_suffix_of_suffix ends (List.suffix_append front name) with
    within | ⟨more, cut⟩
  · exact within
  rw [← cut] at ends ⊢
  have reaches : more <:+ front := ((List.suffix_append_inj_of_length_eq rfl).mp ends).1
  rcases qualifies with rfl | ⟨owner, rfl⟩
  · rw [List.suffix_nil.mp reaches]
    exact List.suffix_rfl
  · rcases List.suffix_concat_iff.mp reaches with rfl | ⟨others, rfl, -⟩
    · exact List.suffix_rfl
    · have dot : '.' ∈ callSuffix := by
        rw [← cut]
        simp
      exact absurd dot (by decide)

end Qualified

/-- A raw name is a decorated form of a name: behind a qualifier it has the name with a call suffix,
or the name alone if that does not end with one. -/
def IsDecorated (raw name : String) : Prop :=
  '.' ∉ name.toList ∧ ∃ front : String, ClosedBy '.' front.toList ∧
    (raw = front ++ name ++ "()" ∨ raw = front ++ name ∧ ¬ callSuffix <:+ name.toList)

theorem isDecorated_plain (raw : String) : IsDecorated raw (plain raw) := by
  have qualifies := closedBy_qualifier raw
  have whole := qualifier_append_plain raw
  refine ⟨not_mem_plain raw, String.ofList (qualifier raw), by rwa [String.toList_ofList], ?_⟩
  simp only [← String.toList_inj, String.toList_append, String.toList_ofList, whole]
  rcases dropEnding_cases callSuffix raw.toList with ends | ⟨bare, same⟩
  · exact .inl ends
  · rw [same] at whole ⊢
    refine .inr ⟨rfl, ?_⟩
    rwa [← suffix_qualified_iff qualifies, whole]

theorem plain_of_isDecorated {raw name : String} (decorated : IsDecorated raw name) :
    plain raw = name := by
  obtain ⟨whole, front, qualifies, cut⟩ := decorated
  have dropped : dropEnding callSuffix raw.toList = front.toList ++ name.toList := by
    rcases cut with rfl | ⟨rfl, bare⟩
    · rw [String.toList_append, String.toList_append]
      exact dropEnding_append callSuffix _
    · rw [← suffix_qualified_iff qualifies, ← String.toList_append] at bare
      rw [← String.toList_append]
      exact ((dropEnding_cases callSuffix _).resolve_left fun ends => bare ⟨_, ends.symm⟩).2
  rw [plain, plainChars, dropped, qualifies.afterLast_append whole, String.ofList_toList]

/-- A raw name matches a query exactly when it is a decorated form of it. A query with a dot has no
exact match, whatever the index answers. -/
theorem isExact_iff_isDecorated (raw query : String) :
    (isExact raw query = true ↔ IsDecorated raw query) ∧
      ∀ (hint : Option String) (symbols : List Candidate), '.' ∈ query.toList →
        Query.exact ⟨query, hint⟩ symbols = [] := by
  rw [isExact_eq_true_iff]
  refine ⟨⟨?_, plain_of_isDecorated⟩, fun hint symbols dot => ?_⟩
  · rintro rfl
    exact isDecorated_plain raw
  · refine List.filter_eq_nil_iff.mpr fun candidate _ same => ?_
    have plainly : plain candidate.name = query := beq_iff_eq.mp same
    rw [← plainly] at dot
    exact not_mem_plain _ dot

/-- A method is an exact match for its plain name, and none for its name with the class. -/
theorem isExact_of_method :
    isExact "Linker.build()" "build" = true ∧ '.' ∈ "Linker.build".toList ∧
      Query.exact ⟨"Linker.build", none⟩
        [⟨"Linker.build", .method, { path := "/p/linker.go" }, .null⟩] = [] := by
  have decorated : IsDecorated "Linker.build()" "build" :=
    ⟨by decide, "Linker.", .inr ⟨"Linker".toList, by decide⟩, .inl (by decide)⟩
  have dot : '.' ∈ "Linker.build".toList := by decide
  exact ⟨(isExact_iff_isDecorated _ _).1.mpr decorated, dot,
    (isExact_iff_isDecorated "" _).2 none _ dot⟩

/-- The plain name of a plain name lacks its call suffix, if it has one. -/
theorem plain_plain (raw : String) :
    plain (plain raw) = String.ofList (dropEnding callSuffix (plain raw).toList) := by
  have without : '.' ∉ dropEnding callSuffix (plain raw).toList := by
    intro dot
    apply not_mem_plain raw
    rcases dropEnding_cases callSuffix (plain raw).toList with ends | ⟨-, same⟩
    · rw [ends]
      exact List.mem_append_left _ dot
    · rwa [← same]
  rw [plain, plainChars, afterLast_of_not_mem without]

/-- A plain name ends with a call suffix just when the raw name ends with two. -/
theorem suffix_plain_iff (raw : String) :
    callSuffix <:+ (plain raw).toList ↔ callSuffix ++ callSuffix <:+ raw.toList := by
  rw [← suffix_qualified_iff (closedBy_qualifier raw), qualifier_append_plain]
  rcases dropEnding_cases callSuffix raw.toList with ends | ⟨bare, same⟩
  · generalize dropEnding callSuffix raw.toList = front at ends
    rw [ends, List.suffix_append_inj_of_length_eq rfl, and_iff_left rfl]
  · rw [same]
    refine iff_of_false bare fun twice => bare ?_
    exact (List.suffix_append callSuffix callSuffix).trans twice

/-- A plain name is plain itself, and an exact match for itself, unless the raw name ends with two
call suffixes. Its own plain name lacks the second of these. -/
theorem plain_plain_eq_iff (raw : String) :
    (plain (plain raw) = plain raw ↔ ¬ callSuffix ++ callSuffix <:+ raw.toList) ∧
      (isExact (plain raw) (plain raw) = true ↔ ¬ callSuffix ++ callSuffix <:+ raw.toList) ∧
      plain (plain raw) = String.ofList (dropEnding callSuffix (plain raw).toList) := by
  have once : plain (plain raw) = plain raw ↔ ¬ callSuffix ++ callSuffix <:+ raw.toList := by
    rw [plain_plain, ← suffix_plain_iff, ← String.toList_inj, String.toList_ofList]
    rcases dropEnding_cases callSuffix (plain raw).toList with ends | ⟨bare, same⟩
    · refine iff_of_false (fun same => ?_) (not_not_intro ⟨_, ends.symm⟩)
      rw [same] at ends
      exact absurd ends (by simp [callSuffix])
    · exact iff_of_true same bare
  exact ⟨once, (isExact_eq_true_iff _ _).trans once, plain_plain raw⟩

/-- What is called twice keeps one of its call suffixes. -/
theorem plain_plain_ne_of_called_twice :
    plain "f()()" = "f()" ∧ plain (plain "f()()") = "f" ∧
      isExact (plain "f()()") (plain "f()()") = false := by
  exact ⟨by decide +kernel, by decide +kernel, by decide +kernel⟩

end Name

end SymbolJump
