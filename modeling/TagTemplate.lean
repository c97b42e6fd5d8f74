import TagTemplate.Main
import TagTemplate.Proofs.Lockstep
import TagTemplate.Proofs.Lockstep.Host
import TagTemplate.Proofs.Lockstep.Content
import TagTemplate.Proofs.Lockstep.Page
import TagTemplate.Proofs.Fetching
import TagTemplate.Proofs.Inlining
import TagTemplate.Proofs.Filling
import TagTemplate.Proofs.References
import TagTemplate.Proofs.Validated
import TagTemplate.Proofs.Lockstep.Uniform
import TagTemplate.Proofs.History
import TagTemplate.Proofs.LayoutChain
import TagTemplate.Proofs.FetchedOnce
import TagTemplate.Proofs.Data
import TagTemplate.Proofs.Refetching
import TagTemplate.Proofs.Promise
import TagTemplate.Proofs.DataOnly
import TagTemplate.Proofs.Compiling
import TagTemplate.Proofs.NestingLimit
import TagTemplate.Proofs.ActiveIncludes
import TagTemplate.Proofs.Promise.Content
import TagTemplate.Proofs.Promise.Page
import TagTemplate.Proofs.Promise.Render
import TagTemplate.Proofs.Termination
import TagTemplate.Proofs.CleanOutput
import TagTemplate.Proofs.Tiling
import TagTemplate.Proofs.FreshCopies
import TagTemplate.Proofs.Listing
import TagTemplate.Proofs.Kinship
import TagTemplate.Proofs.Kinship.Render
import TagTemplate.Proofs.Kinship.Page
import TagTemplate.Proofs.MentionedNames
import TagTemplate.Proofs.DiscardedOutput
import TagTemplate.Proofs.JsonText
import TagTemplate.Proofs.LastValues
import TagTemplate.Proofs.Shifting
import TagTemplate.Proofs.TagNames
import TagTemplate.Proofs.Grammar
import TagTemplate.Proofs.Printing
import TagTemplate.Proofs.Storing
import TagTemplate.Proofs.AttributeOrder
import TagTemplate.Proofs.ErrorPositions
import TagTemplate.Proofs.NestedValues
import TagTemplate.Proofs.Appending
import TagTemplate.Proofs.DottedNames
import TagTemplate.Proofs.Replay
import TagTemplate.Proofs.Replay.Action
import TagTemplate.Proofs.Replay.Host
import TagTemplate.Proofs.Replay.Content
import TagTemplate.Proofs.Replay.Render
import TagTemplate.Proofs.Replay.Page
import TagTemplate.Proofs.Sessions
import TagTemplate.Proofs.Windows
import TagTemplate.Proofs.Tagless
import TagTemplate.Proofs.Finishing
import TagTemplate.Proofs.Negation
import TagTemplate.Proofs.Meaning
import TagTemplate.Proofs.Calling
import TagTemplate.Proofs.Elementwise
import TagTemplate.Proofs.PrintedLists
import TagTemplate.Proofs.SealedBodies
import TagTemplate.Proofs.MarkupProducers
import TagTemplate.Proofs.ComputedNames
import TagTemplate.Proofs.RepetitionEnds
import TagTemplate.Proofs.Rereading
import TagTemplate.Proofs.AbsentSubjects
import TagTemplate.Proofs.InsideRoot
import TagTemplate.Proofs.CheckReports
import TagTemplate.Proofs.Lockstep.Render
import TagTemplate.Proofs.Lockstep.Plain
import TagTemplate.Proofs.BlindFunctions
import TagTemplate.Proofs.HiddenItems
import TagTemplate.Proofs.ArrayWindows
import TagTemplate.Proofs.Escaping
import TagTemplate.Proofs.Separators
import TagTemplate.Proofs.Walking
import TagTemplate.Proofs.WrittenTags
import TagTemplate.Proofs.CanonicalTrees
