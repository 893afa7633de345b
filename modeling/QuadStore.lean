import QuadStore.Cache.Named
import QuadStore.Query.Render
import QuadStore.Config.Document
import QuadStore.Site
import QuadStore.Proofs.Outcome
import QuadStore.Proofs.Reading
import QuadStore.Proofs.StoredIds
import QuadStore.Proofs.Choices
import QuadStore.Proofs.CompiledTables
import QuadStore.Proofs.CompiledRows
import QuadStore.Proofs.CompiledAnswers
import QuadStore.Proofs.PatternAnswers
import QuadStore.Proofs.Evolution
import QuadStore.Proofs.Working
import QuadStore.Proofs.StatementWork
import QuadStore.Proofs.Listing
import QuadStore.Proofs.Identification
import QuadStore.Proofs.Account
import QuadStore.Proofs.Operations
import QuadStore.Proofs.Endings
import QuadStore.Proofs.OpenStores
import QuadStore.Proofs.Ledgers
import QuadStore.Proofs.RegistryOwners
import QuadStore.Proofs.StatementIds
import QuadStore.Proofs.SharedIds
import QuadStore.Proofs.StatementIdentity
import QuadStore.Proofs.Notifications
import QuadStore.Proofs.SiteRuns
import QuadStore.Proofs.RegistryIndex
import QuadStore.Proofs.Registrations
import QuadStore.Proofs.Bindings
import QuadStore.Proofs.SharedCaches
import QuadStore.Proofs.Undoing
import QuadStore.Proofs.LowerCasing
import QuadStore.Proofs.WrittenTables
import QuadStore.Proofs.Agreement
import QuadStore.Proofs.FaithfulCaches
import QuadStore.Proofs.CacheMisses
import QuadStore.Proofs.UncachedReading
import QuadStore.Proofs.UncachedNodes
import QuadStore.Proofs.UncachedStatements
import QuadStore.Proofs.UncachedOperations
import QuadStore.Proofs.UncachedCalls
import QuadStore.Proofs.AlikeStores
import QuadStore.Proofs.ClearedCaches
import QuadStore.Proofs.InterruptedRuns
import QuadStore.Proofs.ResourceIdentity
import QuadStore.Proofs.FreshLabels
import QuadStore.Proofs.SeenTables
import QuadStore.Proofs.ReferencedNodes
import QuadStore.Proofs.MissingNodes
import QuadStore.Proofs.NamespaceViews
import QuadStore.Proofs.AssignedIds
import QuadStore.Proofs.UndoneRemovals
import QuadStore.Proofs.RegistryEntries
import QuadStore.Proofs.RegistryLifetime
import QuadStore.Proofs.DeletedIds
import QuadStore.Proofs.CalendarDays
import QuadStore.Proofs.MomentTexts
import QuadStore.Proofs.ColumnOrder
import QuadStore.Proofs.RecordedNodes
import QuadStore.Proofs.RecordedWork
import QuadStore.Proofs.LiteralIdentity
import QuadStore.Proofs.AnsweredQueries
import QuadStore.Proofs.FoundStatements
import QuadStore.Proofs.NodeWork
import QuadStore.Proofs.Reopenings
import QuadStore.Proofs.LastingIds
import QuadStore.Proofs.RegistryLeftovers
import QuadStore.Proofs.SharedFiles
import QuadStore.Proofs.ToldResources
import QuadStore.Proofs.SharedNodes
import QuadStore.Proofs.Removals
import QuadStore.Proofs.Settlement
import QuadStore.Proofs.PatternOrder
import QuadStore.Proofs.ReadBack
import QuadStore.Proofs.ScopedQueries
import QuadStore.Proofs.NumberedTexts
import QuadStore.Proofs.RecoveredTexts
import QuadStore.Proofs.RecoveredQueries
import QuadStore.Proofs.RepeatedReading
import QuadStore.Proofs.DecodedNodes
import QuadStore.Proofs.SlotQueries
import QuadStore.Proofs.AgreeingReads
import QuadStore.Proofs.OrderedAnswers
import QuadStore.Proofs.LimitedAnswers
import QuadStore.Proofs.OrderedIntegers
import QuadStore.Proofs.CanonicalLiterals
import QuadStore.Proofs.KeptValues
import QuadStore.Proofs.InPlace
import QuadStore.Proofs.FailedWrites
import QuadStore.Proofs.StatementMarks
import QuadStore.Proofs.MintedCopies
import QuadStore.Proofs.SiteMarks
import QuadStore.Proofs.HeldStatements
import QuadStore.Proofs.DeletionTimes
import QuadStore.Proofs.QuotedContents
import QuadStore.Proofs.LiteralTexts
import QuadStore.Proofs.DatatypeChains
import QuadStore.Proofs.NamedHandles
import QuadStore.Proofs.HandleContents
import QuadStore.Proofs.NodeIdentity
