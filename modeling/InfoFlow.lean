import InfoFlow.Main
import InfoFlow.Saved.State
import InfoFlow.Proofs.ArgumentGroups
import InfoFlow.Proofs.Ascent
import InfoFlow.Proofs.Atomicity
import InfoFlow.Proofs.AuditTrail
import InfoFlow.Proofs.CachedReads
import InfoFlow.Proofs.CanonicalKeys
import InfoFlow.Proofs.CapabilityRecords
import InfoFlow.Proofs.CapabilityRuns
import InfoFlow.Proofs.Confinement
import InfoFlow.Proofs.Control
import InfoFlow.Proofs.DigestInput
import InfoFlow.Proofs.EventContexts
import InfoFlow.Proofs.FirstCome
import InfoFlow.Proofs.FunctionHandlers
import InfoFlow.Proofs.Hosts
import InfoFlow.Proofs.Isolation
import InfoFlow.Proofs.Json.Alike
import InfoFlow.Proofs.Json.Numbers
import InfoFlow.Proofs.Json.Strings
import InfoFlow.Proofs.Json.Texts
import InfoFlow.Proofs.Json.Whole
import InfoFlow.Proofs.LabelGrowth
import InfoFlow.Proofs.LabelLattice
import InfoFlow.Proofs.Locality
import InfoFlow.Proofs.Lockstep
import InfoFlow.Proofs.LoopArrivals
import InfoFlow.Proofs.LoopHeaders
import InfoFlow.Proofs.Merge
import InfoFlow.Proofs.Minting
import InfoFlow.Proofs.Mirror
import InfoFlow.Proofs.Nesting
import InfoFlow.Proofs.Openers
import InfoFlow.Proofs.OriginLabels
import InfoFlow.Proofs.PolicyAnswers
import InfoFlow.Proofs.PolicyOrigins
import InfoFlow.Proofs.Privilege
import InfoFlow.Proofs.Quiet
import InfoFlow.Proofs.Recording
import InfoFlow.Proofs.Refusals
import InfoFlow.Proofs.Replays
import InfoFlow.Proofs.Requests
import InfoFlow.Proofs.SavedContexts
import InfoFlow.Proofs.SavedForms
import InfoFlow.Proofs.SavedNodes
import InfoFlow.Proofs.SavedTraces
import InfoFlow.Proofs.ScriptFrames
import InfoFlow.Proofs.Seeding
import InfoFlow.Proofs.SlotOrder
import InfoFlow.Proofs.Slots
import InfoFlow.Proofs.Sources
import InfoFlow.Proofs.Spellings
import InfoFlow.Proofs.StackDiscipline
import InfoFlow.Proofs.StackMoves
import InfoFlow.Proofs.TableEvents
import InfoFlow.Proofs.Throws
import InfoFlow.Proofs.TrimmedTexts
import InfoFlow.Proofs.TrustLists
import InfoFlow.Proofs.WrittenLabels
