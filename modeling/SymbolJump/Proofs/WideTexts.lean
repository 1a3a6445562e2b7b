/-
# Wide texts and their glyphs

The units of a glyph can be told from it, so a wide text is found again from its glyphs and no two
wide texts have the same ones. A text of characters has just these characters as its glyphs: none of
their units can be taken as half of a pair with a neighbour. What is done to the glyphs of such a
text is therefore what is done to its characters.
-/
import Mathlib.Logic.Function.Basic
import SymbolJump.Text.Subsequence

namespace SymbolJump.Text

theorem toNat_ofNat {code : Nat} (valid : code.isValidChar) : (Char.ofNat code).toNat = code := by
  rw [Char.ofNat, dif_pos valid]
  rfl

namespace Glyph

/-- The units of a glyph. -/
def units : Glyph → Wide
  | whole c => unitsOf c
  | half place => [.ofNat (0xd800 + place.val)]

theorem units_ofUnit (unit : UInt16) : (ofUnit unit).units = [unit] := by
  have small := unit.toNat_lt
  unfold ofUnit
  split
  · next bounds =>
    rw [units, Nat.add_sub_cancel' bounds.1, UInt16.ofNat_toNat]
  · next bounds =>
    have code : (Char.ofNat unit.toNat).toNat = unit.toNat := by
      apply toNat_ofNat
      unfold Nat.isValidChar
      omega
    rw [units, unitsOf, code, if_pos small, UInt16.ofNat_toNat]

theorem units_ofPair {high low : UInt16} (isHigh : isHigh high) (isLow : isLow low) :
    (ofPair high low).units = [high, low] := by
  simp only [Text.isHigh, Text.isLow, Bool.and_eq_true, decide_eq_true_eq] at isHigh isLow
  have code : (Char.ofNat (0x10000 + (high.toNat - 0xd800) * 0x400 + (low.toNat - 0xdc00))).toNat =
      0x10000 + (high.toNat - 0xd800) * 0x400 + (low.toNat - 0xdc00) := by
    apply toNat_ofNat
    unfold Nat.isValidChar
    omega
  have first : 0xd800 + ((high.toNat - 0xd800) * 0x400 + (low.toNat - 0xdc00)) / 0x400 =
      high.toNat := by omega
  have second : 0xdc00 + ((high.toNat - 0xd800) * 0x400 + (low.toNat - 0xdc00)) % 0x400 =
      low.toNat := by omega
  rw [ofPair, units, unitsOf, code, if_neg (by omega), Nat.add_assoc, Nat.add_sub_cancel_left]
  dsimp only
  rw [first, second, UInt16.ofNat_toNat, UInt16.ofNat_toNat]

theorem code_injective : Function.Injective code := by
  intro a b same
  cases a with
  | whole a =>
      cases b with
      | whole b => exact congrArg whole (Char.toNat_inj.mp same)
      | half b =>
          have valid : a.toNat < 0xd800 ∨ 0xdfff < a.toNat ∧ a.toNat < 0x110000 := a.valid
          have := b.isLt
          simp only [code] at same
          omega
  | half a =>
      cases b with
      | whole b =>
          have valid : b.toNat < 0xd800 ∨ 0xdfff < b.toNat ∧ b.toNat < 0x110000 := b.valid
          have := a.isLt
          simp only [code] at same
          omega
      | half b => exact congrArg half (Fin.ext (Nat.add_left_cancel same))

end Glyph

/-- A wide text is found again from its glyphs. -/
theorem flatMap_units_glyphs (text : Wide) : (glyphs text).flatMap Glyph.units = text := by
  induction text using glyphs.induct with
  | case1 => rfl
  | case2 unit => rw [glyphs, List.flatMap_singleton, Glyph.units_ofUnit]
  | case3 high low rest pair ih =>
      obtain ⟨isHigh, isLow⟩ := Bool.and_eq_true_iff.mp pair
      rw [glyphs, if_pos pair, List.flatMap_cons, ih, Glyph.units_ofPair isHigh isLow]
      rfl
  | case4 high low rest apart ih =>
      rw [glyphs, if_neg apart, List.flatMap_cons, ih, Glyph.units_ofUnit]
      rfl

theorem glyphs_injective : Function.Injective glyphs :=
  Function.LeftInverse.injective flatMap_units_glyphs

section Order

variable {first second third : List Glyph}

theorem areInOrder_cons_cons {a b : Glyph} :
    areInOrder (a :: first) (b :: second) = true ↔
      a.code < b.code ∨ a = b ∧ areInOrder first second = true := by
  rw [areInOrder]
  split
  · next same =>
    subst same
    simp
  · next differ => simp [differ]

theorem areInOrder_trans (before : areInOrder first second = true)
    (later : areInOrder second third = true) : areInOrder first third = true := by
  induction first generalizing second third with
  | nil => rw [areInOrder]
  | cons a first ih =>
      cases second with
      | nil => nomatch before
      | cons b second =>
          cases third with
          | nil => nomatch later
          | cons c third =>
              rw [areInOrder_cons_cons] at before later ⊢
              rcases before with less | ⟨rfl, before⟩
              · rcases later with more | ⟨rfl, -⟩
                · exact .inl (Nat.lt_trans less more)
                · exact .inl less
              · exact later.imp_right fun ⟨same, later⟩ => ⟨same, ih before later⟩

theorem areInOrder_total (first second : List Glyph) :
    areInOrder first second = true ∨ areInOrder second first = true := by
  induction first generalizing second with
  | nil => exact .inl (by rw [areInOrder])
  | cons a first ih =>
      cases second with
      | nil => exact .inr (by rw [areInOrder])
      | cons b second =>
          rw [areInOrder_cons_cons, areInOrder_cons_cons]
          rcases Nat.lt_trichotomy a.code b.code with less | same | more
          · exact .inl (.inl less)
          · obtain rfl := Glyph.code_injective same
            exact (ih second).imp (.inr ⟨rfl, ·⟩) (.inr ⟨rfl, ·⟩)
          · exact .inr (.inl more)

theorem areInOrder_antisymm (before : areInOrder first second = true)
    (after : areInOrder second first = true) : first = second := by
  induction first generalizing second with
  | nil =>
      cases second with
      | nil => rfl
      | cons => nomatch after
  | cons a first ih =>
      cases second with
      | nil => nomatch before
      | cons b second =>
          rw [areInOrder_cons_cons] at before after
          rcases before with less | ⟨rfl, before⟩
          · rcases after with more | ⟨rfl, -⟩
            · exact absurd more (Nat.lt_asymm less)
            · exact absurd less (Nat.lt_irrefl _)
          · rcases after with more | ⟨-, after⟩
            · exact absurd more (Nat.lt_irrefl _)
            · rw [ih before after]

end Order

/-- The units of a character are read as the character, whatever follows. -/
theorem glyphs_unitsOf_append (c : Char) (rest : Wide) :
    glyphs (unitsOf c ++ rest) = .whole c :: glyphs rest := by
  have valid : c.toNat < 0xd800 ∨ 0xdfff < c.toNat ∧ c.toNat < 0x110000 := c.valid
  have back {code : Nat} (small : code < 0x10000) : (UInt16.ofNat code).toNat = code :=
    UInt16.toNat_ofNat_of_lt small
  unfold unitsOf
  split
  · next small =>
    have toNat := back small
    have glyph : Glyph.ofUnit (.ofNat c.toNat) = .whole c := by
      rw [Glyph.ofUnit, dif_neg (by omega), toNat, Char.ofNat_toNat]
    have apart : isHigh (.ofNat c.toNat) = false := by
      simp only [isHigh, toNat, Bool.and_eq_false_iff, decide_eq_false_iff_not]
      omega
    cases rest with
    | nil => exact congrArg (fun glyph => [glyph]) glyph
    | cons next rest =>
        rw [List.singleton_append, glyphs, apart, Bool.false_and, if_neg Bool.false_ne_true, glyph]
  · next large =>
    have high := back (show 0xd800 + (c.toNat - 0x10000) / 0x400 < 0x10000 by omega)
    have low := back (show 0xdc00 + (c.toNat - 0x10000) % 0x400 < 0x10000 by omega)
    have pair : (isHigh (.ofNat (0xd800 + (c.toNat - 0x10000) / 0x400)) &&
        isLow (.ofNat (0xdc00 + (c.toNat - 0x10000) % 0x400))) = true := by
      simp only [isHigh, isLow, high, low, Bool.and_eq_true, decide_eq_true_eq]
      omega
    have code : 0x10000 + (0xd800 + (c.toNat - 0x10000) / 0x400 - 0xd800) * 0x400 +
        (0xdc00 + (c.toNat - 0x10000) % 0x400 - 0xdc00) = c.toNat := by omega
    dsimp only
    rw [List.cons_append, List.singleton_append, glyphs, if_pos pair, Glyph.ofPair, high, low, code,
      Char.ofNat_toNat]

/-- A text of characters has its characters as glyphs. -/
@[simp]
theorem glyphs_wide (text : String) : glyphs (wide text) = wholes text := by
  rw [wide, wholes]
  induction text.toList with
  | nil => rfl
  | cons c rest ih => rw [List.flatMap_cons, glyphs_unitsOf_append, ih, List.map_cons]

@[simp]
theorem mended_wholes (text : String) : mended (wholes text) = text := by
  rw [mended, wholes, List.map_map, show Glyph.char ∘ Glyph.whole = id from rfl, List.map_id,
    String.ofList_toList]

theorem wide_injective : Function.Injective wide := by
  intro a b same
  rw [← mended_wholes a, ← mended_wholes b, ← glyphs_wide, ← glyphs_wide, same]

@[simp]
theorem wide_inj {a b : String} : wide a = wide b ↔ a = b :=
  wide_injective.eq_iff

theorem eachRunFrom_map_whole (change : List Char → List Char) (run text : List Char) :
    eachRunFrom change run (text.map .whole) = (change (run.reverse ++ text)).map .whole := by
  induction text generalizing run with
  | nil => rw [List.append_nil]; rfl
  | cons c text ih =>
      rw [List.map_cons, eachRunFrom, ih, List.reverse_cons, List.append_assoc,
        List.singleton_append]

theorem eachRun_wholes (change : List Char → List Char) (text : String) :
    eachRun change (wholes text) = (change text.toList).map .whole :=
  eachRunFrom_map_whole change [] text.toList

/-- Whether a query occurs in a name roughly is a matter of their characters. -/
@[simp]
theorem occursRoughly_wholes (query name : String) :
    occursRoughly (wholes query) (wholes name) = matchesRoughly query name := by
  rw [Bool.eq_iff_iff, occursRoughly, matchesRoughly, List.isSublist_iff_sublist,
    List.isSublist_iff_sublist, lowercaseGlyphs, lowercaseGlyphs, eachRun_wholes, eachRun_wholes]
  refine ⟨fun occurs => ?_, fun occurs => occurs.map _⟩
  obtain ⟨found, sublist, same⟩ := List.sublist_map_iff.mp occurs
  rwa [List.map_inj_right (fun _ _ => Glyph.whole.inj) |>.mp same]

end SymbolJump.Text
