/-
# Rough matches

A query matches a name roughly when its characters occur in the name in the same order, whatever
lies between them and whatever their case.
-/
import SymbolJump.Text.Lowercase

namespace SymbolJump.Text

/-- Whether the characters of a query occur in a name in order, in any case. Taking each at its
first place finds every such occurrence. -/
def matchesRoughly (query name : String) : Bool :=
  (lowercase query.toList).isSublist (lowercase name.toList)

/-- Whether the glyphs of a query occur in a name in order, in any case. -/
def occursRoughly (query name : List Glyph) : Bool :=
  (lowercaseGlyphs query).isSublist (lowercaseGlyphs name)

end SymbolJump.Text
