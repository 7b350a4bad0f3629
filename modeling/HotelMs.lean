import HotelMs.Lib.Runs
import HotelMs.Lib.Allocation
import HotelMs.Frame
import HotelMs.OccupancyRuns
import HotelMs.Interleaving
import HotelMs.Money
import HotelMs.PaymentTask
import HotelMs.Ownership
import HotelMs.RoleGate
import HotelMs.HotelScope
import HotelMs.TokenBucket
import HotelMs.HotelIsolation
import HotelMs.Lifecycle
import HotelMs.DeskScope
import HotelMs.Escalation
import HotelMs.CacheRefill
import HotelMs.Sessions
import HotelMs.ReportScope
import HotelMs.Partitioning
import HotelMs.Checkout
import HotelMs.PushDelivery
import HotelMs.EmailVouching
import HotelMs.ProfileCache
import HotelMs.HotelCache
import HotelMs.Wishlist
import HotelMs.Nights
import HotelMs.Quotes
import HotelMs.PaymentEnds
import HotelMs.Payable
import HotelMs.CachedSearch
import HotelMs.ResetRace
import HotelMs.PasswordPolicy
import HotelMs.EmailForm
import HotelMs.Bans
import HotelMs.RouteLimits
import HotelMs.SocketHandler
import HotelMs.Loyalty
import HotelMs.GuestIntelligence
import HotelMs.ActivityLogs
import HotelMs.HotelPaging
import HotelMs.Exports
import HotelMs.SearchMeaning
import HotelMs.GuestFigures
import HotelMs.GuestExport
import HotelMs.OccupancyRate
import HotelMs.AvatarReferences
import HotelMs.RecommendRobust
import HotelMs.EmailTasks
import HotelMs.ReviewRace
import HotelMs.PaymentAnswers
import HotelMs.Snapshots
import HotelMs.DatePickers
import HotelMs.BookingPage
import HotelMs.PhoneMask
import HotelMs.AiScore
import HotelMs.SearchIndex
import HotelMs.ClientTokens
import HotelMs.ImageMigration
import HotelMs.ClientSocket
import HotelMs.ClientSession
import HotelMs.ActivityStats
import HotelMs.SearchResults
import HotelMs.BookingCalendar
import HotelMs.HotelsPage
import HotelMs.Concierge
import HotelMs.Lib.References
import HotelMs.Constraints
import HotelMs.Integrity
import HotelMs.AdminIntegrity
import HotelMs.IntegrityRuns
import HotelMs.Lib.CsvFiles
import HotelMs.LogExport
import HotelMs.Lib.Edits
import HotelMs.BookingBoard
import HotelMs.GuestAnswers
