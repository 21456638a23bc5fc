import Mipsorcu.Ledger.FirstFault
import Mipsorcu.Server.HashChainAgreement
import Mipsorcu.Server.ForbiddenKeys
import Mipsorcu.Audit.Resend
import Mipsorcu.Protocol.SiemForwarding
import Mipsorcu.Protocol.DigestGenerate
import Mipsorcu.Server.QuarterlyJobs
import Mipsorcu.Server.RateLimiter
import Mipsorcu.Server.Period
import Mipsorcu.Protocol.ArchiveQueue
import Mipsorcu.Protocol.IncidentDebounce
import Mipsorcu.Protocol.IncidentNotification
import Mipsorcu.Server.WriteRequests
import Mipsorcu.Protocol.IntegrityCheck
import Mipsorcu.Protocol.StoredVersions
import Mipsorcu.Protocol.AliasReference
import Mipsorcu.Protocol.WriteEvidence
