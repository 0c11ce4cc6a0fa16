import DocGuard.ArchiveBudgets
import DocGuard.ArchiveClosure
import DocGuard.ArchiveEvidence
import DocGuard.ArchiveFailures
import DocGuard.Capture
import DocGuard.CdrWorker
import DocGuard.Csrf
import DocGuard.DisplayNames
import DocGuard.FallbackScan
import DocGuard.HostNames
import DocGuard.MemberPaths
import DocGuard.OfficeBounds
import DocGuard.OfficeGate
import DocGuard.PdfActions
import DocGuard.Races
import DocGuard.Reconciliation
import DocGuard.Search
import DocGuard.Service
import DocGuard.Sessions
import DocGuard.Storage
import DocGuard.WideTexts
import DocGuard.Yara
import DocGuard.Downloads
import DocGuard.Releases
import DocGuard.Untouched
import DocGuard.Winners
