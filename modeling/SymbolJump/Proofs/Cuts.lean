/-
# Cutting what was joined

Pieces that do not hold a separator are recovered from the text that joins them with it, and a
text is cut at the first separator in it. What is dropped from the ends of a text stood there.
Fields with different keys are found under their keys in any order, and there is one way to put them
in the order of their keys.
-/
import Mathlib.Data.List.DropRight
import Mathlib.Data.List.Nodup
import Mathlib.Data.List.Perm.Basic
import Mathlib.Data.List.TakeWhile
import Mathlib.Data.String.Basic
import SymbolJump.Text.Pieces

namespace SymbolJump.Text

variable {separator : Char}

theorem splitOn_of_not_mem {piece : List Char} (without : separator ∉ piece) :
    splitOn separator piece = [piece] := by
  induction piece with
  | nil => rfl
  | cons c rest ih =>
      have differ := List.ne_of_not_mem_cons without
      have without := List.not_mem_of_not_mem_cons without
      rw [splitOn, if_neg (Ne.symm differ), ih without]

theorem splitOn_cons_of_ne {separator c : Char} (differ : c ≠ separator) (text : List Char) :
    ∃ first others, splitOn separator (c :: text) = (c :: first) :: others := by
  obtain ⟨first, others, pieced⟩ := List.exists_cons_of_ne_nil (splitOn_ne_nil separator text)
  refine ⟨first, others, ?_⟩
  rw [splitOn, if_neg differ, pieced]

theorem splitOn_append_separator (separator : Char) (piece rest : List Char) :
    splitOn separator (piece ++ separator :: rest) =
      splitOn separator piece ++ splitOn separator rest := by
  induction piece with
  | nil => simp [splitOn]
  | cons c piece ih =>
      obtain ⟨first, others, pieced⟩ := List.exists_cons_of_ne_nil (splitOn_ne_nil separator piece)
      rw [List.cons_append, splitOn, splitOn, ih, pieced]
      split_ifs <;> rfl

/-- Cutting what was joined cuts every part of it. -/
theorem splitOn_intercalate_flatMap {pieces : List (List Char)} (some : pieces ≠ []) :
    splitOn separator ([separator].intercalate pieces) = pieces.flatMap (splitOn separator) := by
  induction pieces with
  | nil => exact absurd rfl some
  | cons piece pieces ih =>
      cases pieces with
      | nil => simp
      | cons next pieces =>
          rw [List.intercalate_cons_cons, List.append_assoc, List.singleton_append,
            splitOn_append_separator, ih (List.cons_ne_nil _ _)]
          rfl

/-- Pieces are recovered from the text that joins them. -/
theorem splitOn_intercalate {pieces : List (List Char)} (some : pieces ≠ [])
    (without : ∀ piece ∈ pieces, separator ∉ piece) :
    splitOn separator ([separator].intercalate pieces) = pieces := by
  rw [splitOn_intercalate_flatMap some]
  clear some
  induction pieces with
  | nil => rfl
  | cons piece pieces ih =>
      obtain ⟨here, later⟩ := List.forall_mem_cons.mp without
      rw [List.flatMap_cons, splitOn_of_not_mem here, ih later, List.singleton_append]

/-- The pieces of a text are joined to the text again. -/
theorem intercalate_splitOn (separator : Char) (text : List Char) :
    [separator].intercalate (splitOn separator text) = text := by
  induction text with
  | nil => rfl
  | cons c rest ih =>
      rw [splitOn]
      split
      · next same => rw [List.intercalate_cons_of_ne_nil (splitOn_ne_nil _ _), ih, same]; rfl
      · cases pieced : splitOn separator rest with
        | nil => exact absurd pieced (splitOn_ne_nil separator rest)
        | cons piece pieces =>
            rw [pieced] at ih
            rw [← ih]
            cases pieces with
            | nil => simp
            | cons next pieces => simp [List.intercalate_cons_cons]

theorem intercalate_append {pieces others : List (List Char)} (some : pieces ≠ [])
    (more : others ≠ []) :
    [separator].intercalate (pieces ++ others) =
      [separator].intercalate pieces ++ separator :: [separator].intercalate others := by
  induction pieces with
  | nil => exact absurd rfl some
  | cons piece pieces ih =>
      cases pieces with
      | nil => simp [List.intercalate_cons_of_ne_nil more]
      | cons next pieces =>
          rw [List.cons_append, List.cons_append, List.intercalate_cons_cons, ← List.cons_append,
            ih (List.cons_ne_nil _ _), List.intercalate_cons_cons]
          simp only [List.append_assoc]

theorem mem_of_mem_intercalate {pieces : List (List Char)} {c : Char}
    (member : c ∈ [separator].intercalate pieces) :
    c = separator ∨ ∃ piece ∈ pieces, c ∈ piece := by
  induction pieces with
  | nil => exact nomatch member
  | cons piece pieces ih =>
      cases pieces with
      | nil => exact .inr ⟨piece, List.mem_cons_self, by simpa using member⟩
      | cons next pieces =>
          rw [List.intercalate_cons_cons, List.append_assoc] at member
          rcases List.mem_append.mp member with here | rest
          · exact .inr ⟨piece, List.mem_cons_self, here⟩
          rcases List.mem_cons.mp rest with same | later
          · exact .inl same
          rcases ih later with same | ⟨other, among, inside⟩
          · exact .inl same
          · exact .inr ⟨other, List.mem_cons_of_mem _ among, inside⟩

theorem length_cutAt (separator : Char) (text : List Char) :
    (cutAt separator text).1.length + (cutAt separator text).2.elim 0 (·.length + 1) =
      text.length := by
  induction text with
  | nil => rfl
  | cons c text ih =>
      rw [cutAt]
      split_ifs
      · simp
      · simp only [List.length_cons]
        omega

theorem cutAt_of_not_mem {text : List Char} (without : separator ∉ text) :
    cutAt separator text = (text, none) := by
  induction text with
  | nil => rfl
  | cons c rest ih =>
      have differ := List.ne_of_not_mem_cons without
      have without := List.not_mem_of_not_mem_cons without
      rw [cutAt, if_neg (Ne.symm differ), ih without]

theorem cutAt_append_cons {before : List Char} (without : separator ∉ before)
    (after : List Char) :
    cutAt separator (before ++ separator :: after) = (before, some after) := by
  induction before with
  | nil => rw [List.nil_append, cutAt, if_pos rfl]
  | cons c before ih =>
      have differ := List.ne_of_not_mem_cons without
      have without := List.not_mem_of_not_mem_cons without
      rw [List.cons_append, cutAt, if_neg (Ne.symm differ), ih without]

theorem cutAt_fst_isPrefix (separator : Char) (text : List Char) :
    (cutAt separator text).1 <+: text := by
  induction text with
  | nil => exact List.prefix_refl []
  | cons c rest ih =>
      rw [cutAt]
      split
      · exact List.nil_prefix
      · exact List.cons_prefix_cons.mpr ⟨rfl, ih⟩

section Dropping

variable {p : Char → Bool}

theorem dropTrailing_isPrefix (p : Char → Bool) (text : List Char) : dropTrailing p text <+: text :=
  List.rdropWhile_prefix p text

theorem dropTrailing_dropTrailing (p : Char → Bool) (text : List Char) :
    dropTrailing p (dropTrailing p text) = dropTrailing p text :=
  List.rdropWhile_idempotent p text

theorem dropTrailing_eq_nil_iff {text : List Char} :
    dropTrailing p text = [] ↔ ∀ c ∈ text, p c = true :=
  List.rdropWhile_eq_nil_iff

theorem dropTrailing_congr {q : Char → Bool} {text : List Char}
    (same : ∀ c ∈ text, p c = q c) : dropTrailing p text = dropTrailing q text := by
  induction text using List.reverseRecOn with
  | nil => rfl
  | append_singleton front last ih =>
      have here := same last (List.mem_append_right _ (List.mem_singleton_self last))
      have before := ih fun c member => same c (List.mem_append_left _ member)
      have step (r : Char → Bool) := List.rdropWhile_concat (p := r) (l := front) last
      change List.rdropWhile p _ = List.rdropWhile q _
      rw [step p, step q, here]
      split
      · exact before
      · rfl

/-- Where a text ends with a character that is kept, dropping goes no further than there. -/
theorem dropTrailing_append {front : List Char} (kept : dropTrailing p front = front)
    (back : List Char) : dropTrailing p (front ++ back) = front ++ dropTrailing p back := by
  induction back using List.reverseRecOn with
  | nil => rw [List.append_nil, kept]; exact (List.append_nil front).symm
  | append_singleton back last ih =>
      rw [← List.append_assoc]
      change List.rdropWhile p _ = _ ++ List.rdropWhile p _
      rw [List.rdropWhile_concat, List.rdropWhile_concat]
      split
      · exact ih
      · exact List.append_assoc front back [last]

theorem exists_dropTrailing (p : Char → Bool) (text : List Char) :
    ∃ back, text = dropTrailing p text ++ back ∧ ∀ c ∈ back, p c = true :=
  ⟨text.rtakeWhile p, (List.rdropWhile_append_rtakeWhile (p := p) (l := text)).symm,
    fun _ => List.mem_rtakeWhile_imp⟩

/-- A text is what is left when it is trimmed, between characters that are dropped. -/
theorem exists_trimBoth (p : Char → Bool) (text : List Char) :
    ∃ front back, text = front ++ trimBoth p text ++ back ∧ ∀ c ∈ front ++ back, p c = true := by
  obtain ⟨back, cut, dropped⟩ := exists_dropTrailing p (text.dropWhile p)
  refine ⟨text.takeWhile p, back, ?_, ?_⟩
  · rw [List.append_assoc, trimBoth, ← cut]
    exact List.takeWhile_append_dropWhile.symm
  · intro c member
    rcases List.mem_append.mp member with before | behind
    · exact List.mem_takeWhile_imp before
    · exact dropped c behind

/-- What is left when a text is trimmed is the word in it of characters that are kept. -/
theorem trimBoth_append {front word back : List Char} (dropped : ∀ c ∈ front ++ back, p c = true)
    (some : word ≠ []) (kept : ∀ c ∈ word, p c = false) :
    trimBoth p (front ++ word ++ back) = word := by
  have whole : dropTrailing p word = word := by
    refine List.rdropWhile_eq_self_iff.mpr fun filled => ?_
    rw [kept _ (List.getLast_mem filled)]
    exact Bool.false_ne_true
  have nothing : dropTrailing p back = [] :=
    dropTrailing_eq_nil_iff.mpr fun c member => dropped c (List.mem_append_right front member)
  obtain ⟨c, rest, rfl⟩ := List.exists_cons_of_ne_nil some
  have first : ¬ p c = true := by
    rw [kept c List.mem_cons_self]
    exact Bool.false_ne_true
  have before : ∀ c ∈ front, p c = true := fun c member =>
    dropped c (List.mem_append_left back member)
  rw [trimBoth, List.append_assoc, List.dropWhile_append_of_pos before, List.cons_append,
    List.dropWhile_cons_of_neg first, ← List.cons_append, dropTrailing_append whole, nothing,
    List.append_nil]

theorem trimBoth_subset (p : Char → Bool) (text : List Char) : trimBoth p text ⊆ text := by
  obtain ⟨front, back, cut, -⟩ := exists_trimBoth p text
  intro c member
  rw [cut]
  exact List.mem_append_left _ (List.mem_append_right _ member)

end Dropping

theorem not_mem_afterLast (separator : Char) (text : List Char) :
    separator ∉ afterLast separator text := by
  intro member
  have passes := List.mem_takeWhile_imp (List.mem_reverse.mp member)
  simp at passes

theorem passes_of_not_mem {text : List Char} (without : separator ∉ text) :
    ∀ c ∈ text.reverse, decide (c ≠ separator) = true := by
  intro c member
  refine decide_eq_true ?_
  rintro rfl
  exact without (List.mem_reverse.mp member)

theorem afterLast_of_not_mem {text : List Char} (without : separator ∉ text) :
    afterLast separator text = text := by
  rw [afterLast, List.takeWhile_eq_self_iff.mpr (passes_of_not_mem without), List.reverse_reverse]

theorem afterLast_suffix (separator : Char) (text : List Char) :
    afterLast separator text <:+ text :=
  ⟨_, throughLast_append_afterLast separator text⟩

/-- Characters are exchanged behind the last separator as elsewhere, if separators stay what they
are. -/
theorem afterLast_map {change : Char → Char}
    (keeps : ∀ c, change c = separator ↔ c = separator) (text : List Char) :
    afterLast separator (text.map change) = (afterLast separator text).map change := by
  simp only [afterLast, ← List.map_reverse, List.takeWhile_map, Function.comp_def, ne_eq, keeps]

theorem afterLast_append_of_not_mem (front : List Char) {back : List Char}
    (without : separator ∉ back) :
    afterLast separator (front ++ back) = afterLast separator front ++ back := by
  unfold afterLast
  rw [List.reverse_append, List.takeWhile_append_of_pos (passes_of_not_mem without),
    List.reverse_append, List.reverse_reverse]

/-- What stands in front of a separator does not matter behind it. -/
theorem afterLast_append_cons (front back : List Char) :
    afterLast separator (front ++ separator :: back) = afterLast separator back := by
  unfold afterLast
  rw [List.reverse_append, List.reverse_cons, List.append_assoc, List.takeWhile_append]
  split
  · next all =>
    rw [(List.takeWhile_prefix _).eq_of_length all]
    simp
  · rfl

theorem afterLast_append {front back : List Char} (without : separator ∉ back) :
    afterLast separator (front ++ separator :: back) = back := by
  rw [afterLast_append_cons, afterLast_of_not_mem without]

theorem throughLast_append_cons (front back : List Char) :
    throughLast separator (front ++ separator :: back) =
      front ++ separator :: throughLast separator back := by
  have whole := throughLast_append_afterLast separator (front ++ separator :: back)
  rw [afterLast_append_cons] at whole
  have sum : (front ++ separator :: throughLast separator back) ++ afterLast separator back =
      front ++ separator :: back := by
    rw [List.append_assoc, List.cons_append, throughLast_append_afterLast]
  exact List.append_cancel_right (whole.trans sum.symm)

theorem throughLast_append {front back : List Char} (without : separator ∉ back) :
    throughLast separator (front ++ separator :: back) = front ++ [separator] := by
  have none : throughLast separator back = [] := by
    have whole := throughLast_append_afterLast separator back
    rw [afterLast_of_not_mem without] at whole
    exact List.append_left_eq_self.mp whole
  rw [throughLast_append_cons, none]

/-- Nothing, or a text that ends with a separator. -/
def ClosedBy (separator : Char) (text : List Char) : Prop :=
  text = [] ∨ ∃ front, text = front ++ [separator]

theorem closedBy_throughLast (separator : Char) (text : List Char) :
    ClosedBy separator (throughLast separator text) := by
  have stops := List.head?_dropWhile_not (· ≠ separator) text.reverse
  unfold throughLast
  cases behind : text.reverse.dropWhile (· ≠ separator) with
  | nil => exact .inl rfl
  | cons c rest =>
      rw [behind] at stops
      have same : c = separator := by simpa using stops
      exact .inr ⟨rest.reverse, by rw [List.reverse_cons, same]⟩

theorem suffix_of_mem {text : List Char} (member : separator ∈ text) :
    separator :: afterLast separator text <:+ text := by
  have whole := throughLast_append_afterLast separator text
  rcases closedBy_throughLast separator text with none | ⟨front, some⟩
  · rw [none, List.nil_append] at whole
    rw [← whole] at member
    exact absurd member (not_mem_afterLast separator text)
  · rw [some, List.append_assoc, List.singleton_append] at whole
    exact ⟨front, whole⟩

theorem ClosedBy.afterLast_append {front back : List Char} (closed : ClosedBy separator front)
    (without : separator ∉ back) : afterLast separator (front ++ back) = back := by
  rcases closed with rfl | ⟨outer, rfl⟩
  · exact afterLast_of_not_mem without
  · rw [List.append_assoc, List.singleton_append, Text.afterLast_append without]

theorem ClosedBy.exists_concat {front back : List Char} {c : Char}
    (closed : ClosedBy separator (front ++ c :: back)) (other : c ≠ separator) :
    ∃ outer, back = outer ++ [separator] := by
  obtain ⟨outer, cut⟩ := closed.resolve_left (by simp)
  rcases List.eq_nil_or_concat back with rfl | ⟨inner, last, rfl⟩
  · exact absurd (List.singleton_inj.mp (List.append_inj' cut rfl).2) other
  · rw [List.concat_eq_append, ← List.cons_append, ← List.append_assoc] at cut
    rw [List.concat_eq_append, (List.append_inj' cut rfl).2]
    exact ⟨inner, rfl⟩

theorem not_mem_takeWhile (separator : Char) (text : List Char) :
    separator ∉ text.takeWhile (· ≠ separator) := by
  intro member
  have passes := List.mem_takeWhile_imp member
  simp at passes

/-- The text before the first separator is the first piece. -/
theorem takeWhile_mem_splitOn (separator : Char) (text : List Char) :
    text.takeWhile (· ≠ separator) ∈ splitOn separator text := by
  have stops := List.head?_dropWhile_not (· ≠ separator) text
  have whole := List.takeWhile_append_dropWhile (p := (· ≠ separator)) (l := text)
  have without := not_mem_takeWhile separator text
  cases behind : text.dropWhile (· ≠ separator) with
  | nil =>
      rw [behind, List.append_nil] at whole
      rw [whole] at without ⊢
      rw [splitOn_of_not_mem without]
      exact List.mem_singleton_self text
  | cons c rest =>
      rw [behind] at stops whole
      obtain rfl : c = separator := by simpa using stops
      have pieces := splitOn_append_separator c (text.takeWhile (· ≠ c)) rest
      rw [whole, splitOn_of_not_mem without] at pieces
      rw [pieces]
      exact List.mem_cons_self

/-- One of the pieces reaches over the seam of two texts. -/
theorem append_mem_splitOn (separator : Char) (front back : List Char) :
    afterLast separator front ++ back.takeWhile (· ≠ separator) ∈
      splitOn separator (front ++ back) := by
  have passes := passes_of_not_mem (not_mem_afterLast separator front)
  have here := takeWhile_mem_splitOn separator (afterLast separator front ++ back)
  rw [List.takeWhile_append_of_pos fun c member => passes c (List.mem_reverse.mpr member)] at here
  have whole := throughLast_append_afterLast separator front
  rcases closedBy_throughLast separator front with none | ⟨outer, some⟩
  · rw [none, List.nil_append] at whole
    rwa [whole] at here ⊢
  · rw [some, List.append_assoc, List.singleton_append] at whole
    have moved : front ++ back = outer ++ separator :: (afterLast separator front ++ back) := by
      conv => lhs; rw [← whole, List.append_assoc, List.cons_append]
    rw [moved, splitOn_append_separator]
    exact List.mem_append_right _ here

/-- Either a text ends with a given ending, which is dropped, or it stays as it is. -/
theorem dropEnding_cases (ending text : List Char) :
    text = dropEnding ending text ++ ending ∨
      ¬ ending <:+ text ∧ dropEnding ending text = text := by
  by_cases ends : ending <:+ text
  · obtain ⟨front, rfl⟩ := ends
    exact .inl (by rw [dropEnding_append])
  · exact .inr ⟨ends, if_neg (mt List.isSuffixOf_iff_suffix.mp ends)⟩

section Lookup

variable {α β : Type} [DecidableEq α] {fields others : List (α × β)}

/-- A field is found under its key when no other field has it. -/
theorem lookup_eq_some_iff_mem (distinct : (fields.map Prod.fst).Nodup) {key : α} {value : β} :
    fields.lookup key = some value ↔ (key, value) ∈ fields := by
  induction fields with
  | nil => simp
  | cons field rest ih =>
      obtain ⟨fresh, distinct⟩ := List.nodup_cons.mp distinct
      rw [List.lookup_cons]
      by_cases same : key = field.1
      · subst same
        have here : (field.1, value) ∉ rest := fun member =>
          fresh (List.mem_map.mpr ⟨_, member, rfl⟩)
        simp only [beq_self_eq_true, List.mem_cons, here, or_false, Option.some.injEq]
        exact ⟨fun same => Prod.ext rfl same.symm, fun same => (congrArg Prod.snd same).symm⟩
      · have differ : (key, value) ≠ field := fun here => same (congrArg Prod.fst here)
        simp [beq_eq_false_iff_ne.mpr same, ih distinct, differ]

/-- The order of fields with different keys does not matter. -/
theorem lookup_of_perm (perm : fields.Perm others) (distinct : (fields.map Prod.fst).Nodup)
    (key : α) : fields.lookup key = others.lookup key := by
  have distinct' : (others.map Prod.fst).Nodup := (perm.map _).nodup_iff.mp distinct
  ext value
  rw [lookup_eq_some_iff_mem distinct, lookup_eq_some_iff_mem distinct', perm.mem_iff]

/-- Fields with different keys are the same, in some order, when the same is found under each
key. -/
theorem perm_of_lookup (distinct : (fields.map Prod.fst).Nodup)
    (distinct' : (others.map Prod.fst).Nodup)
    (same : ∀ key, fields.lookup key = others.lookup key) : fields.Perm others := by
  apply (List.perm_ext_iff_of_nodup distinct.of_map distinct'.of_map).mpr
  rintro ⟨key, value⟩
  rw [← lookup_eq_some_iff_mem distinct, ← lookup_eq_some_iff_mem distinct', same]

end Lookup

section Sorting

variable {κ α : Type} {before : κ → κ → Bool} {fields others : List (κ × α)}

/-- Fields with different keys are put in one order, whichever order they come in. -/
theorem mergeSort_eq_of_perm (trans : ∀ a b c, before a b → before b c → before a c)
    (total : ∀ a b, before a b || before b a) (antisymm : ∀ a b, before a b → before b a → a = b)
    (distinct : (fields.map Prod.fst).Nodup) (perm : fields.Perm others) :
    fields.mergeSort (fun a b => before a.1 b.1) = others.mergeSort fun a b => before a.1 b.1 := by
  have sorted (fields : List (κ × α)) : (fields.mergeSort fun a b => before a.1 b.1).Pairwise
      fun first second => before first.1 second.1 := by
    apply List.pairwise_mergeSort
    · exact fun first second third => trans _ _ _
    · exact fun first second => total _ _
  apply List.Perm.eq_of_pairwise _ (sorted fields) (sorted others)
  · exact (List.mergeSort_perm _ _).trans (perm.trans (List.mergeSort_perm _ _).symm)
  · intro first second here there firstBefore secondBefore
    have same := antisymm _ _ firstBefore secondBefore
    exact List.inj_on_of_nodup_map distinct (List.mem_mergeSort.mp here)
      (perm.mem_iff.mpr (List.mem_mergeSort.mp there)) same

/-- Different names ascend once they are in order. -/
theorem pairwise_mergeSort {fields : List (String × α)} (distinct : (fields.map Prod.fst).Nodup) :
    (fields.mergeSort fun a b => decide (a.1 ≤ b.1)).Pairwise fun first second =>
      first.1 < second.1 := by
  have sorted : (fields.mergeSort fun a b => decide (a.1 ≤ b.1)).Pairwise fun first second =>
      decide (first.1 ≤ second.1) = true := by
    apply List.pairwise_mergeSort
    · intro first second third before later
      exact decide_eq_true (le_trans (of_decide_eq_true before) (of_decide_eq_true later))
    · intro first second
      rcases le_total first.1 second.1 with before | later
      · simp [before]
      · simp [later]
  have apart : (fields.mergeSort fun a b => decide (a.1 ≤ b.1)).Pairwise fun first second =>
      first.1 ≠ second.1 := by
    have perm := (List.mergeSort_perm fields fun a b => decide (a.1 ≤ b.1)).map Prod.fst
    exact List.pairwise_map.mp (perm.nodup_iff.mpr distinct)
  apply sorted.imp₂ _ apart
  intro first second before differ
  exact lt_of_le_of_ne (of_decide_eq_true before) differ

end Sorting

end SymbolJump.Text
