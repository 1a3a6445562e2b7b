/-
# Groups within groups

A pattern whose braces pair up is the text of exactly one tree: characters and groups in a row, and
in each group options that are trees again. A comma separates options inside a group, and is a
character like any other outside. The tree is found from the end of the pattern, where a closing
brace begins a group that is still open to the left, and an opening brace completes the innermost
one. There is no other tree with this text, since where a tree ends is seen from what follows it.

A tree stands for texts, and these can be listed: for each group its options are chosen one after
the other, together with one text of each of the other options. That way some texts are listed
several times, and none is left out.
-/
import Mathlib.Data.List.Forall2
import Mathlib.Data.List.Infix
import SymbolJump.Glob.Braces

namespace SymbolJump.Glob

/-! ## Trees -/

/-- A character stands for itself: it is no brace, and inside a group it is no comma either. -/
def IsLiteral (inGroup : Bool) (c : Char) : Prop :=
  isBrace c = false ∧ (inGroup = true → c ≠ ',')

instance (inGroup : Bool) (c : Char) : Decidable (IsLiteral inGroup c) :=
  inferInstanceAs (Decidable (_ ∧ _))

mutual

/-- A pattern read as a tree: characters and groups in a row. -/
inductive Tree : (inGroup : Bool) → Type
  | nil {inGroup : Bool} : Tree inGroup
  | char {inGroup : Bool} (c : Char) (literal : IsLiteral inGroup c) (rest : Tree inGroup) :
      Tree inGroup
  | group {inGroup : Bool} (options : Options) (rest : Tree inGroup) : Tree inGroup

/-- The options of a group. There is at least one, which may be empty. -/
inductive Options : Type
  | last (option : Tree true)
  | more (option : Tree true) (others : Options)

end

namespace Options

/-- The options as a list. -/
def toList : Options → List (Tree true)
  | last option => [option]
  | more option others => option :: others.toList

theorem toList_ne_nil (options : Options) : options.toList ≠ [] := by
  cases options <;> simp [toList]

end Options

/-- What holds of the empty tree, and is kept when a character, or a group of options of which it
holds, is put in front, holds of all trees. -/
@[elab_as_elim]
theorem Tree.induction {p : ∀ inGroup, Tree inGroup → Prop}
    (nil : ∀ inGroup, p inGroup .nil)
    (char : ∀ inGroup c literal rest, p inGroup rest → p inGroup (.char c literal rest))
    (group : ∀ inGroup options rest, (∀ option ∈ options.toList, p true option) →
      p inGroup rest → p inGroup (.group options rest)) {inGroup : Bool}
    (tree : Tree inGroup) : p inGroup tree :=
  @Tree.rec p (fun options => ∀ option ∈ options.toList, p true option) @nil @char
    (fun options rest within later => group _ options rest within later)
    (fun _ here => List.forall_mem_singleton.mpr here)
    (fun _ _ here later => List.forall_mem_cons.mpr ⟨here, later⟩) inGroup tree

mutual

/-- The text that a tree is the reading of. -/
def Tree.text {inGroup : Bool} : Tree inGroup → List Char
  | .nil => []
  | .char c _ rest => c :: rest.text
  | .group options rest => '\x7b' :: (options.text ++ '\x7d' :: rest.text)

/-- The text of options, with commas between them. -/
def Options.text : Options → List Char
  | .last option => option.text
  | .more option others => option.text ++ ',' :: others.text

end

/-! ## Choices -/

/-- The ways to take one item from each list in turn. The choice from the first list varies
slowest. -/
def choices {α : Type} : List (List α) → List (List α)
  | [] => [[]]
  | first :: others => first.flatMap fun item => (choices others).map (item :: ·)

theorem flatMap_choices_cons {α β : Type} (first : List α) (others : List (List α))
    (f : List α → List β) :
    (choices (first :: others)).flatMap f =
      first.flatMap fun item => (choices others).flatMap fun choice => f (item :: choice) := by
  simp only [choices, List.flatMap_assoc, List.flatMap_map]

section Choices

variable {α : Type} {lists : List (List α)} {choice : List α} {item : α}

theorem mem_choices_iff : choice ∈ choices lists ↔ List.Forall₂ (· ∈ ·) choice lists := by
  induction lists generalizing choice with
  | nil => simp [choices]
  | cons first others ih =>
      simp only [choices, List.mem_flatMap, List.mem_map, ih]
      constructor
      · rintro ⟨item, member, rest, chosen, rfl⟩
        exact .cons member chosen
      · rintro (_ | ⟨member, chosen⟩)
        exact ⟨_, member, _, chosen, rfl⟩

theorem choices_ne_nil (some : ∀ list ∈ lists, list ≠ []) : choices lists ≠ [] := by
  induction lists with
  | nil => simp [choices]
  | cons first others ih =>
      obtain ⟨here, later⟩ := List.forall_mem_cons.mp some
      obtain ⟨item, member⟩ := List.exists_mem_of_ne_nil _ here
      obtain ⟨choice, chosen⟩ := List.exists_mem_of_ne_nil _ (ih later)
      exact List.ne_nil_of_mem
        (List.mem_flatMap.mpr ⟨item, member, List.mem_map_of_mem chosen⟩)

/-- Every item of every list is chosen at some time, when there is something in each list. -/
theorem mem_flatten_choices_iff (some : ∀ list ∈ lists, list ≠ []) :
    item ∈ (choices lists).flatten ↔ ∃ list ∈ lists, item ∈ list := by
  induction lists with
  | nil => simp [choices]
  | cons first others ih =>
      obtain ⟨here, later⟩ := List.forall_mem_cons.mp some
      rw [List.exists_mem_cons_iff, ← ih later, List.mem_flatten, List.mem_flatten]
      simp only [choices, List.mem_flatMap, List.mem_map]
      constructor
      · rintro ⟨_, ⟨chosen, member, rest, among, rfl⟩, inside⟩
        rcases List.mem_cons.mp inside with rfl | inside
        · exact .inl member
        · exact .inr ⟨rest, among, inside⟩
      · rintro (member | ⟨rest, among, inside⟩)
        · obtain ⟨rest, among⟩ := List.exists_mem_of_ne_nil _ (choices_ne_nil later)
          exact ⟨_, ⟨item, member, rest, among, rfl⟩, List.mem_cons_self⟩
        · obtain ⟨chosen, member⟩ := List.exists_mem_of_ne_nil _ here
          exact ⟨_, ⟨chosen, member, rest, among, rfl⟩, List.mem_cons_of_mem _ inside⟩

end Choices

/-! ## What a tree stands for -/

mutual

/-- The texts that a tree is expanded to, in order: with one alternative for each option of a group
chosen beforehand, one of these after the other takes the place of the group. -/
def Tree.alternatives {inGroup : Bool} : Tree inGroup → List (List Char)
  | .nil => [[]]
  | .char c _ rest => rest.alternatives.map (c :: ·)
  | .group options rest =>
      (choices options.alternatives).flatten.flatMap fun option =>
        rest.alternatives.map (option ++ ·)

/-- The texts that each option is expanded to. -/
def Options.alternatives : Options → List (List (List Char))
  | .last option => [option.alternatives]
  | .more option others => option.alternatives :: others.alternatives

end

/-- A tree stands for a text: a character for itself, a group for what one of its options stands
for, and a row for what its parts stand for one after the other. -/
inductive Tree.Denotes : {inGroup : Bool} → Tree inGroup → List Char → Prop
  | nil {inGroup : Bool} : Denotes (.nil : Tree inGroup) []
  | char {inGroup : Bool} {c : Char} {literal : IsLiteral inGroup c} {rest : Tree inGroup}
      {text : List Char} (later : Denotes rest text) :
      Denotes (.char c literal rest) (c :: text)
  | group {inGroup : Bool} {options : Options} {rest : Tree inGroup} {option : Tree true}
      {text more : List Char} (member : option ∈ options.toList) (here : Denotes option text)
      (later : Denotes rest more) : Denotes (.group options rest) (text ++ more)

/-! ## What a tree is expanded to -/

theorem Options.alternatives_eq (options : Options) :
    options.alternatives = options.toList.map Tree.alternatives := by
  cases options with
  | last option => rfl
  | more option others => simp [Options.alternatives, toList, others.alternatives_eq]

theorem IsLiteral.anywhere {inGroup : Bool} {c : Char} (literal : IsLiteral true c) :
    IsLiteral inGroup c :=
  ⟨literal.1, fun _ => literal.2 rfl⟩

section Alternatives

variable {inGroup : Bool} {tree : Tree inGroup} {options : Options} {text : List Char}

theorem Options.mem_flatten_choices_iff
    (some : ∀ option ∈ options.toList, option.alternatives ≠ []) :
    text ∈ (choices options.alternatives).flatten ↔
      ∃ option ∈ options.toList, text ∈ option.alternatives := by
  rw [options.alternatives_eq, Glob.mem_flatten_choices_iff (List.forall_mem_map.mpr some)]
  simp

theorem Tree.alternatives_ne_nil (tree : Tree inGroup) : tree.alternatives ≠ [] := by
  induction tree using Tree.induction with
  | nil => simp [alternatives]
  | char _ c literal rest ih => simpa [alternatives] using ih
  | group _ options rest within ih =>
      obtain ⟨option, member⟩ := List.exists_mem_of_ne_nil _ options.toList_ne_nil
      obtain ⟨text, here⟩ := List.exists_mem_of_ne_nil _ (within option member)
      obtain ⟨more, later⟩ := List.exists_mem_of_ne_nil _ ih
      have chosen := (Options.mem_flatten_choices_iff within).mpr ⟨option, member, here⟩
      exact List.ne_nil_of_mem (List.mem_flatMap.mpr ⟨text, chosen, List.mem_map_of_mem later⟩)

/-- A tree is expanded to what it stands for. -/
theorem Tree.mem_alternatives_iff : text ∈ tree.alternatives ↔ tree.Denotes text := by
  induction tree using Tree.induction generalizing text with
  | nil =>
      rw [alternatives, List.mem_singleton]
      constructor
      · rintro rfl
        exact .nil
      · rintro ⟨⟩
        rfl
  | char _ c literal rest ih =>
      rw [alternatives, List.mem_map]
      constructor
      · rintro ⟨text, member, rfl⟩
        exact .char (ih.mp member)
      · rintro ⟨⟩
        exact ⟨_, ih.mpr ‹_›, rfl⟩
  | group _ options rest within ih =>
      have chosen (text : List Char) : text ∈ (choices options.alternatives).flatten ↔
          ∃ option ∈ options.toList, text ∈ option.alternatives :=
        Options.mem_flatten_choices_iff fun option _ => option.alternatives_ne_nil
      simp only [alternatives, List.mem_flatMap, List.mem_map, chosen]
      constructor
      · rintro ⟨text, ⟨option, member, here⟩, more, later, rfl⟩
        exact .group member ((within option member).mp here) (ih.mp later)
      · intro denotes
        cases denotes with
        | group member here later =>
            exact ⟨_, ⟨_, member, (within _ member).mpr here⟩, _, ih.mpr later, rfl⟩

/-- What a tree is expanded to are characters that stand for themselves. -/
theorem Tree.isLiteral_of_mem_alternatives :
    ∀ text ∈ tree.alternatives, ∀ c ∈ text, IsLiteral inGroup c := by
  intro text member
  replace member := Tree.mem_alternatives_iff.mp member
  induction member with
  | nil => exact List.forall_mem_nil _
  | @char _ c literal _ _ _ ih => exact List.forall_mem_cons.mpr ⟨literal, ih⟩
  | group _ _ _ here later =>
      exact List.forall_mem_append.mpr ⟨fun c inside => (here c inside).anywhere, later⟩

end Alternatives

/-! ## Reading a pattern -/

/-- The braces of a pattern pair up. -/
structure IsBalanced (pattern : List Char) : Prop where
  /-- No brace is closed that was not opened before. -/
  opened : ∀ front, front <+: pattern → front.count '\x7d' ≤ front.count '\x7b'
  /-- Every brace is closed. -/
  closed : pattern.count '\x7b' = pattern.count '\x7d'

theorem isBalanced_iff (pattern : List Char) :
    IsBalanced pattern ↔
      (∀ front ∈ pattern.inits, front.count '\x7d' ≤ front.count '\x7b') ∧
        pattern.count '\x7b' = pattern.count '\x7d' := by
  simp only [List.mem_inits]
  exact ⟨fun balanced => ⟨balanced.opened, balanced.closed⟩, fun both => ⟨both.1, both.2⟩⟩

instance (pattern : List Char) : Decidable (IsBalanced pattern) :=
  decidable_of_iff _ (isBalanced_iff pattern).symm

/-- The text of groups that are still open to the left, the innermost first, and of a tree behind
them all. -/
def openText (levels : List Options) (tree : Tree false) : List Char :=
  levels.foldr (fun options text => options.text ++ '\x7d' :: text) tree.text

@[simp]
theorem openText_nil (tree : Tree false) : openText [] tree = tree.text :=
  rfl

@[simp]
theorem openText_cons (options : Options) (levels : List Options) (tree : Tree false) :
    openText (options :: levels) tree = options.text ++ '\x7d' :: openText levels tree :=
  rfl

/-- The options with something put in front of the first one. -/
def Options.extend (grow : Tree true → Tree true) : Options → Options
  | .last option => .last (grow option)
  | .more option others => .more (grow option) others

theorem Options.text_extend {grow : Tree true → Tree true} {front : List Char}
    (grows : ∀ tree, (grow tree).text = front ++ tree.text) (options : Options) :
    (options.extend grow).text = front ++ options.text := by
  cases options <;> simp [extend, text, grows]

/-- What may be put in front of every tree may be put in front of what is read so far. -/
theorem exists_openText_append (front : List Char) (levels : List Options) (tree : Tree false)
    (grow : ∀ {inGroup}, Tree inGroup → Tree inGroup)
    (grows : ∀ {inGroup} (tree : Tree inGroup), (grow tree).text = front ++ tree.text) :
    ∃ grown base, openText grown base = front ++ openText levels tree ∧
      grown.length = levels.length := by
  cases levels with
  | nil => exact ⟨[], grow tree, grows tree, rfl⟩
  | cons options levels =>
      refine ⟨options.extend grow :: levels, tree, ?_, rfl⟩
      simp [Options.text_extend grows]

/-- From its end, a pattern is read into the groups that are still open and a tree behind them. -/
theorem exists_openText (pattern : List Char)
    (closable : ∀ back, back <:+ pattern → back.count '\x7b' ≤ back.count '\x7d') :
    ∃ levels tree, openText levels tree = pattern ∧
      levels.length + pattern.count '\x7b' = pattern.count '\x7d' := by
  induction pattern with
  | nil => exact ⟨[], .nil, rfl, rfl⟩
  | cons c pattern ih =>
      obtain ⟨levels, tree, rfl, depth⟩ :=
        ih fun back suffix => closable back (suffix.trans (List.suffix_cons _ _))
      have enough := closable _ List.suffix_rfl
      rcases eq_or_ne c '\x7d' with rfl | notClosing
      · -- The group that is closed here has one option so far, which is empty.
        refine ⟨.last .nil :: levels, tree, rfl, ?_⟩
        rw [List.count_cons_self, List.count_cons_of_ne (by decide), ← depth, List.length_cons]
        omega
      rw [List.count_cons_of_ne notClosing, ← depth] at *
      rcases eq_or_ne c '\x7b' with rfl | notOpening
      · -- The innermost open group is opened here, and goes to the front of what is around it.
        rw [List.count_cons_self] at *
        cases levels with
        | nil => exact absurd enough (by simp)
        | cons options levels =>
            obtain ⟨grown, base, whole, same⟩ := exists_openText_append
              ('\x7b' :: (options.text ++ ['\x7d'])) levels tree (.group options)
              (fun tree => by simp [Tree.text])
            refine ⟨grown, base, by simp [whole], ?_⟩
            rw [same, List.length_cons]
            omega
      rw [List.count_cons_of_ne notOpening]
      have brace : isBrace c = false := by simp [isBrace, notClosing, notOpening]
      rcases eq_or_ne c ',' with rfl | notComma
      · cases levels with
        | nil => exact ⟨[], .char ',' ⟨rfl, nofun⟩ tree, rfl, rfl⟩
        | cons options levels => exact ⟨.more .nil options :: levels, tree, rfl, rfl⟩
      · obtain ⟨grown, base, whole, same⟩ := exists_openText_append [c] levels tree
          (.char c ⟨brace, fun _ => notComma⟩) (fun _ => rfl)
        exact ⟨grown, base, whole, by rw [same]⟩

/-- A pattern whose braces pair up is the text of a tree. -/
theorem IsBalanced.exists_text {pattern : List Char} (balanced : IsBalanced pattern) :
    ∃ tree : Tree false, tree.text = pattern := by
  obtain ⟨levels, tree, rfl, depth⟩ := exists_openText pattern <| by
    rintro back ⟨front, rfl⟩
    have opened := balanced.opened front (List.prefix_append _ _)
    have closed := balanced.closed
    rw [List.count_append, List.count_append] at closed
    omega
  have none : levels = [] := List.eq_nil_of_length_eq_zero (by have := balanced.closed; omega)
  exact ⟨tree, by rw [none, openText_nil]⟩

/-! ## One tree for a pattern -/

/-- A tree ends here: what follows is neither a further character of it nor a further group. -/
def Ends (inGroup : Bool) (back : List Char) : Prop :=
  ∀ c ∈ back.head?, c ≠ '\x7b' ∧ ¬ IsLiteral inGroup c

theorem ends_nil (inGroup : Bool) : Ends inGroup [] := by
  simp [Ends]

theorem ends_closing (inGroup : Bool) (back : List Char) : Ends inGroup ('\x7d' :: back) := by
  simp [Ends, IsLiteral, isBrace]

theorem ends_comma (back : List Char) : Ends true (',' :: back) := by
  simp [Ends, IsLiteral]

section Unique

variable {inGroup : Bool}

/-- When no option can be read in two ways, a group cannot either. -/
theorem Options.unique_text (options : Options)
    (each : ∀ option ∈ options.toList, ∀ other back back',
      option.text ++ back = other.text ++ back' → Ends true back → Ends true back' →
        option = other ∧ back = back')
    (other : Options) (back back' : List Char)
    (same : options.text ++ '\x7d' :: back = other.text ++ '\x7d' :: back') :
    options = other ∧ back = back' := by
  cases options with
  | last option =>
      have here := each option (by simp [toList])
      cases other with
      | last option' =>
          obtain ⟨rfl, closes⟩ := here _ _ _ same (ends_closing _ _) (ends_closing _ _)
          exact ⟨rfl, (List.cons.inj closes).2⟩
      | more option' others' =>
          rw [text, text, List.append_assoc, List.cons_append] at same
          obtain ⟨-, differ⟩ := here _ _ _ same (ends_closing _ _) (ends_comma _)
          nomatch differ
  | more option others =>
      obtain ⟨here, later⟩ := List.forall_mem_cons.mp each
      rw [text, List.append_assoc, List.cons_append] at same
      cases other with
      | last option' =>
          obtain ⟨-, differ⟩ := here _ _ _ same (ends_comma _) (ends_closing _ _)
          nomatch differ
      | more option' others' =>
          rw [text, List.append_assoc, List.cons_append] at same
          obtain ⟨rfl, separates⟩ := here _ _ _ same (ends_comma _) (ends_comma _)
          obtain ⟨rfl, further⟩ := others.unique_text later _ _ _ (List.cons.inj separates).2
          exact ⟨rfl, further⟩

/-- A tree and what follows it can be told from their text, where the tree ends. -/
theorem Tree.unique_text (tree other : Tree inGroup) (back back' : List Char)
    (same : tree.text ++ back = other.text ++ back') (ends : Ends inGroup back)
    (endsToo : Ends inGroup back') : tree = other ∧ back = back' := by
  induction tree using Tree.induction generalizing back back' with
  | nil =>
      cases other with
      | nil => exact ⟨rfl, same⟩
      | char c literal rest =>
          cases same
          exact absurd literal (ends c rfl).2
      | group options rest =>
          cases same
          exact absurd rfl (ends '\x7b' rfl).1
  | char _ c literal rest ih =>
      cases other with
      | nil =>
          cases same
          exact absurd literal (endsToo c rfl).2
      | char c' literal' rest' =>
          obtain ⟨rfl, further⟩ := List.cons.inj same
          obtain ⟨rfl, rfl⟩ := ih rest' back back' further ends endsToo
          exact ⟨rfl, rfl⟩
      | group options rest' =>
          obtain ⟨rfl, -⟩ := List.cons.inj same
          nomatch literal.1
  | group _ options rest within ih =>
      cases other with
      | nil =>
          cases same
          exact absurd rfl (endsToo '\x7b' rfl).1
      | char c literal rest' =>
          obtain ⟨rfl, -⟩ := List.cons.inj same
          nomatch literal.1
      | group options' rest' =>
          simp only [text, List.cons_append, List.append_assoc, List.cons.injEq, true_and] at same
          obtain ⟨rfl, further⟩ := options.unique_text within options' _ _ same
          obtain ⟨rfl, rfl⟩ := ih rest' back back' further ends endsToo
          exact ⟨rfl, rfl⟩

/-- A pattern is the text of one tree at most. -/
theorem Tree.eq_of_text_eq {tree other : Tree inGroup} (same : tree.text = other.text) :
    tree = other :=
  (tree.unique_text other [] [] (by rw [same]) (ends_nil _) (ends_nil _)).1

end Unique

end SymbolJump.Glob
