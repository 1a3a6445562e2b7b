import SymbolJump.Main
import SymbolJump.Proofs.AcceptedDocuments
import SymbolJump.Proofs.Alike
import SymbolJump.Proofs.Alternatives
import SymbolJump.Proofs.Benches
import SymbolJump.Proofs.Bytes
import SymbolJump.Proofs.Cancellation
import SymbolJump.Proofs.Conditions
import SymbolJump.Proofs.Containment
import SymbolJump.Proofs.Courses
import SymbolJump.Proofs.Cuts
import SymbolJump.Proofs.DamagedStates
import SymbolJump.Proofs.DerivedExtensions
import SymbolJump.Proofs.Detection
import SymbolJump.Proofs.Dialogue
import SymbolJump.Proofs.Dispatch
import SymbolJump.Proofs.Doubles
import SymbolJump.Proofs.Endings
import SymbolJump.Proofs.Escapes
import SymbolJump.Proofs.Events
import SymbolJump.Proofs.ExitStatuses
import SymbolJump.Proofs.FailedWakings
import SymbolJump.Proofs.Failures
import SymbolJump.Proofs.FilePaths
import SymbolJump.Proofs.Following
import SymbolJump.Proofs.GivenValues
import SymbolJump.Proofs.Groups
import SymbolJump.Proofs.Handover
import SymbolJump.Proofs.KeyOrder
import SymbolJump.Proofs.KeyPaths
import SymbolJump.Proofs.KindNames
import SymbolJump.Proofs.KindNumbers
import SymbolJump.Proofs.Limits
import SymbolJump.Proofs.LinkedFiles
import SymbolJump.Proofs.Listings
import SymbolJump.Proofs.LoadedSources
import SymbolJump.Proofs.Lowercasing
import SymbolJump.Proofs.Matches
import SymbolJump.Proofs.MergedDetectors
import SymbolJump.Proofs.Nesting
import SymbolJump.Proofs.NormalForms
import SymbolJump.Proofs.Numerals
import SymbolJump.Proofs.Openers
import SymbolJump.Proofs.OpenRoots
import SymbolJump.Proofs.Overwriting
import SymbolJump.Proofs.OwnProjects
import SymbolJump.Proofs.Patterns
import SymbolJump.Proofs.PlainNames
import SymbolJump.Proofs.Preference
import SymbolJump.Proofs.Presenting
import SymbolJump.Proofs.Pruning
import SymbolJump.Proofs.Reaching
import SymbolJump.Proofs.ReadValues
import SymbolJump.Proofs.RealPaths
import SymbolJump.Proofs.RefusedConfigurations
import SymbolJump.Proofs.Register
import SymbolJump.Proofs.RepeatedOverlays
import SymbolJump.Proofs.Replacing
import SymbolJump.Proofs.Replies
import SymbolJump.Proofs.Reports
import SymbolJump.Proofs.Requests
import SymbolJump.Proofs.Retries
import SymbolJump.Proofs.RoughMatches
import SymbolJump.Proofs.Rounds
import SymbolJump.Proofs.Searches
import SymbolJump.Proofs.Settling
import SymbolJump.Proofs.ShownHits
import SymbolJump.Proofs.SingleEncodings
import SymbolJump.Proofs.Slot
import SymbolJump.Proofs.Snapshots
import SymbolJump.Proofs.SortedValues
import SymbolJump.Proofs.SparedEntries
import SymbolJump.Proofs.Spelling
import SymbolJump.Proofs.Standings
import SymbolJump.Proofs.StateBindings
import SymbolJump.Proofs.StateFiles
import SymbolJump.Proofs.StateHistories
import SymbolJump.Proofs.StateTexts
import SymbolJump.Proofs.StateWrites
import SymbolJump.Proofs.Steps
import SymbolJump.Proofs.Trees
import SymbolJump.Proofs.TypedDetectors
import SymbolJump.Proofs.Unescaped
import SymbolJump.Proofs.UnreadableUris
import SymbolJump.Proofs.Verdicts
import SymbolJump.Proofs.Waits
import SymbolJump.Proofs.Waking
import SymbolJump.Proofs.WrittenTexts
import SymbolJump.Proofs.WrittenValues
