import RusAuthExample.Utf16Text
import RusAuthExample.OperationPrograms
import RusAuthExample.JournalRecords
import RusAuthExample.CallbackFilter
import RusAuthExample.JournalDates
import RusAuthExample.CallbackDelivery
import RusAuthExample.AuthFacade
import RusAuthExample.ExamplePages
import RusAuthExample.ApplicationRuns
import RusAuthExample.TaskHistories
import RusAuthExample.ConfirmationEvidence
import RusAuthExample.IssuedTransactions
import RusAuthExample.HonestService
import RusAuthExample.DeliveryOrder
import RusAuthExample.PhoneNumbers
import RusAuthExample.HeaderGrammar
import RusAuthExample.SecretMask
import RusAuthExample.KeyedProjection
import RusAuthExample.TransactionIsolation
import RusAuthExample.PageActions
import RusAuthExample.PageLifecycle
import RusAuthExample.CallbackUpdates
import RusAuthExample.UnsubscribedPages
import RusAuthExample.BusyGuard
import RusAuthExample.FacadeCalls
import RusAuthExample.TrackedTransactions
import RusAuthExample.ReportedSuccess
import RusAuthExample.RecordOrigins
import RusAuthExample.SessionOwnership
import RusAuthExample.RenderedPages
import RusAuthExample.LayoutBanners
import RusAuthExample.RenderedJournal
import RusAuthExample.ObservedRuns
import RusAuthExample.PageViews
import RusAuthExample.RefusedRequests
import RusAuthExample.FormValidation
import RusAuthExample.ValidRequests
import RusAuthExample.EventLoops
import RusAuthExample.ReconnectModal
import RusAuthExample.LateCommits
import RusAuthExample.AtomicCalls
import RusAuthExample.BusyPages
import RusAuthExample.AnsweredCallbacks
import RusAuthExample.OverlaidWrites
import RusAuthExample.OverwrittenCalls
import RusAuthExample.ReportedCauses
import RusAuthExample.Hosting
import RusAuthExample.RecordHistories
