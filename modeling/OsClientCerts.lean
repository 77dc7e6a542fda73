import OsClientCerts.Resumption
import OsClientCerts.LocalAutomata
import OsClientCerts.FirstSeen
import OsClientCerts.BoundedWalk
import OsClientCerts.Paging
import OsClientCerts.RequestReply
import OsClientCerts.OctetStrings
import OsClientCerts.HeadedBlocks
import OsClientCerts.RegularExpressions
import OsClientCerts.PatternReadings
import OsClientCerts.Base64
import OsClientCerts.JsStrings
import OsClientCerts.Pkcs11
import OsClientCerts.Der
import OsClientCerts.DerReader
import OsClientCerts.IntegerPairs
import OsClientCerts.RsaPublicKeys
import OsClientCerts.MacosSigning
import OsClientCerts.CallerMemory
import OsClientCerts.Mechanism
import OsClientCerts.Backend
import OsClientCerts.WindowsBackend
import OsClientCerts.WindowsStores
import OsClientCerts.IssuerChains
import OsClientCerts.RootTrust
import OsClientCerts.KeyUsage
import OsClientCerts.Manager
import OsClientCerts.ManagerProxy
import OsClientCerts.ObjectRegistry
import OsClientCerts.OperationAutomata
import OsClientCerts.ObjectScans
import OsClientCerts.RegistryInvariant
import OsClientCerts.SessionInvariant
import OsClientCerts.ModuleState
import OsClientCerts.ProxyChannels
import OsClientCerts.Ffi
import OsClientCerts.OutputFunctions
import OsClientCerts.InputFunctions
import OsClientCerts.SequentialCalls
import OsClientCerts.SearchPaging
import OsClientCerts.SearchResults
import OsClientCerts.SearchedAttributes
import OsClientCerts.Threads
import OsClientCerts.AcceptedData
import OsClientCerts.FailedCalls
import OsClientCerts.Multipart
import OsClientCerts.SignMechanisms
import OsClientCerts.CipherMechanisms
import OsClientCerts.CallerBuffers
import OsClientCerts.FfiSafety
import OsClientCerts.OutputCapacity
import OsClientCerts.Deletions
import OsClientCerts.CertDatabase
import OsClientCerts.Profiles
import OsClientCerts.Cert9Cleanup
import OsClientCerts.CertCleanup
import OsClientCerts.MatchMeaning
import OsClientCerts.AttributeValues
import OsClientCerts.ActiveObjects
import OsClientCerts.TrustIds
import OsClientCerts.GuardedRuns
import OsClientCerts.SendHook
import OsClientCerts.VerifierReinit
import OsClientCerts.ForwardIntercept
import OsClientCerts.TextConversion
import OsClientCerts.HeaderUnfolding
import OsClientCerts.MimeParts
import OsClientCerts.AnnouncedTypes
import OsClientCerts.EncryptedForwards
import OsClientCerts.OneFlag
import OsClientCerts.RedirectedReplies
import OsClientCerts.AttachmentProvenance
import OsClientCerts.DecryptedFiles
import OsClientCerts.ReattachedFiles
import OsClientCerts.ComposeTabs
import OsClientCerts.OwnedResources
import OsClientCerts.WindowsHandles
import OsClientCerts.WindowsScans
import OsClientCerts.WindowsOwnership
import OsClientCerts.Linearization
import OsClientCerts.AtomicCalls
import OsClientCerts.EnvelopeGuard
import OsClientCerts.MarkupReadings
import OsClientCerts.RebuiltForwards
import OsClientCerts.HookLifecycle
import OsClientCerts.KeyCertificates
import OsClientCerts.InterleavedCleanups
import OsClientCerts.SerialTurns
import OsClientCerts.CleanupTurns
import OsClientCerts.SerialCleanups
import OsClientCerts.DecryptedExtraction
import OsClientCerts.ReplySubjects
import OsClientCerts.ReplyCleanup
import OsClientCerts.ForwardCalls
import OsClientCerts.ComposeDecisions
