import Xrc.Machine
import Xrc.OrderStatistics
import Xrc.Window
import Xrc.Types
import Xrc.Environment
import Xrc.RateSpec
import Xrc.Products
import Xrc.Prices
import Xrc.WindowCheck
import Xrc.Async
import Xrc.Lru
import Xrc.Cache
import Xrc.Exchanges
import Xrc.Listings
import Xrc.ListingSchedule
import Xrc.Stablecoin
import Xrc.Forex
import Xrc.Collector
import Xrc.Periodic
import Xrc.SourceCounts
import Xrc.ForexServing
import Xrc.State
import Xrc.Api
import Xrc.Outcalls
import Xrc.Tracking
import Xrc.Charging
import Xrc.ApiSpec
import Xrc.MinorityTolerance
import Xrc.CrossRates
import Xrc.Settlement
import Xrc.Supply
import Xrc.Validation
import Xrc.CacheTransparency
import Xrc.ThinRates
import Xrc.Canister
import Xrc.Terms
import Xrc.CacheInvariant
import Xrc.StoredDays
import Xrc.Answers
import Xrc.Accounting
import Xrc.Overlap
import Xrc.Exclusion
import Xrc.Rejections
import Xrc.Pending
import Xrc.ExactMedian
import Xrc.ForexLookup
import Xrc.StoreHistory
import Xrc.StablecoinChoice
import Xrc.UsableStablecoins
import Xrc.Basket
import Xrc.Uncertainty
import Xrc.SourceOrder
import Xrc.Mirror
import Xrc.FiatSymbols
import Xrc.Normalization
import Xrc.CollectorDays
import Xrc.Urls
import Xrc.Sampling
import Xrc.Drain
import Xrc.Bookkeeping
import Xrc.Scrape
import Xrc.ListingMetrics
import Xrc.ForexSchedule
import Xrc.Relay
import Xrc.Extraction
import Xrc.ForexSources
import Xrc.Publication
import Xrc.HttpOutcall
import Xrc.PublishedRates
import Xrc.PublishedAnswers
import Xrc.PublishedListings
import Xrc.Paging
import Xrc.DayCounts
import Xrc.Accepted
import Xrc.Availability
import Xrc.Outcomes
import Xrc.Dashboard
