import ComplianceLoop.Audit.Binding
import ComplianceLoop.Audit.Tampering
import ComplianceLoop.Audit.Editing
import ComplianceLoop.Audit.RoundTrip
import ComplianceLoop.Transition.Runs
import ComplianceLoop.Transition.Sweep
import ComplianceLoop.Transition.Locks
import ComplianceLoop.Transition.Limit
import ComplianceLoop.Security.KeyCaches
import ComplianceLoop.Security.PanHandler
import ComplianceLoop.Security.SecretsLoader
import ComplianceLoop.Security.HmacRotation
import ComplianceLoop.Security.VaultKeys
import ComplianceLoop.Security.AesRotation
import ComplianceLoop.Dpdp.Application
import ComplianceLoop.Dpdp.RetentionEnforcer
import ComplianceLoop.Dpdp.DataSubjectHandler
import ComplianceLoop.Dpdp.WipeTransactions
import ComplianceLoop.Audit.RetryUploads
import ComplianceLoop.Dpdp.Storage
import ComplianceLoop.Dpdp.UploadedFlag
import ComplianceLoop.Dpdp.StorageLimitation
import ComplianceLoop.Db.BreakGlass
import ComplianceLoop.Dpdp.BreachFlags
import ComplianceLoop.Db.DemoRows
import ComplianceLoop.Dpdp.DemoWipes
import ComplianceLoop.Audit.DemoRetries
import ComplianceLoop.Dpdp.BreachResponse
import ComplianceLoop.Dpdp.BreachRepeat
import ComplianceLoop.Dpdp.DemoBreach
import ComplianceLoop.Dpdp.ConsentManager
import ComplianceLoop.Dpdp.ConsentActivation
import ComplianceLoop.Dpdp.ConsentWithdrawal
import ComplianceLoop.Audit.SignedColumns
import ComplianceLoop.Workers.NotificationWorker
import ComplianceLoop.Workers.Poll
import ComplianceLoop.Db.DemoInfluence
import ComplianceLoop.Retrieval.Reload
import ComplianceLoop.Workers.Outbox
import ComplianceLoop.Workers.AtMostOnce
import ComplianceLoop.Workers.Outstanding
import ComplianceLoop.Workers.Backoff
import ComplianceLoop.Retrieval.ChunkCoverage
import ComplianceLoop.Dpdp.WipeStatements
import ComplianceLoop.Security.ReloadFailure
import ComplianceLoop.Security.KeySeparation
import ComplianceLoop.Security.WeakKeys
import ComplianceLoop.Workers.SentFinal
import ComplianceLoop.Dpdp.SupersessionDates
import ComplianceLoop.Dpdp.BreachCount
import ComplianceLoop.Dpdp.BreachFreeze
import ComplianceLoop.Retrieval.SwapFailure
import ComplianceLoop.Retrieval.PreviousIndex
import ComplianceLoop.Retrieval.DefaultQuery
import ComplianceLoop.Retrieval.Batching
import ComplianceLoop.Transition.Sliding
import ComplianceLoop.Retrieval.ChunkBudget
import ComplianceLoop.Retrieval.ChunkOverlap
import ComplianceLoop.Retrieval.ChunkOffsets
import ComplianceLoop.Security.WireFormat
import ComplianceLoop.Security.RotationAgreement
import ComplianceLoop.Security.PanMatching
import ComplianceLoop.PyLib.Matching
import ComplianceLoop.Observability.LoggingConfig
import ComplianceLoop.Observability.Censoring
import ComplianceLoop.Dpdp.ErasureReport
import ComplianceLoop.Dpdp.RetentionExpiry
import ComplianceLoop.Dpdp.WipeLoop
import ComplianceLoop.PyLib.JsonValue
import ComplianceLoop.Security.CanonicalJson
import ComplianceLoop.Audit.Representation
import ComplianceLoop.Audit.SignedMessage
import ComplianceLoop.Retrieval.FindingsQuery
import ComplianceLoop.PyLib.Words
import ComplianceLoop.Retrieval.HtmlText
import ComplianceLoop.Retrieval.InlineMarkup
import ComplianceLoop.Transition.UniqueIndexes
import ComplianceLoop.Db.GuidelineIndexes
import ComplianceLoop.PyLib.Marks
import ComplianceLoop.Retrieval.Placeholders
import ComplianceLoop.Retrieval.SentenceSplit
import ComplianceLoop.PyLib.FirstMatch
import ComplianceLoop.PyLib.Tokens
import ComplianceLoop.PyLib.Backtracking
import ComplianceLoop.Retrieval.Preprocessor
import ComplianceLoop.PyLib.RunMaps
import ComplianceLoop.Retrieval.Acronyms
import ComplianceLoop.Retrieval.CleanText
import ComplianceLoop.Workers.Crashes
import ComplianceLoop.Workers.Recovery
import ComplianceLoop.Dpdp.AccessRequest
import ComplianceLoop.Db.Connections
import ComplianceLoop.Dpdp.ConsentSuccession
import ComplianceLoop.Retrieval.ReloadSignals
import ComplianceLoop.PyLib.GroupSubst
import ComplianceLoop.Retrieval.SectionNumbers
import ComplianceLoop.Retrieval.Provenance
import ComplianceLoop.PyLib.BrokenWords
import ComplianceLoop.Retrieval.PdfText
import ComplianceLoop.Security.PanDigests
import ComplianceLoop.Dpdp.Identity
