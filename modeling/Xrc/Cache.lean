/-
`cache.rs`: the cache of crypto/USDT rates, over any least-recently-used cache.
-/
import Xrc.RateSpec
import Xrc.Lru

set_option autoImplicit false

namespace Xrc

/-- A key of the cache: an upper-case symbol and a timestamp. -/
abbrev CacheKey : Type := String × ℕ

/-- The cache of the rates against USDT. -/
structure ExchangeRateCache (L : Type) where
  lru_cache : L

/-- The cache as a list of its entries. -/
abbrev RecentRates : Type := RecencyList CacheKey QueriedExchangeRate

namespace ExchangeRateCache

variable [Unicode] {L : Type} [LruCache L CacheKey QueriedExchangeRate]

/-- `ExchangeRateCache::new`. -/
def new (capacity : ℕ) : ExchangeRateCache L := ⟨LruCache.new capacity⟩

/-- The condition under which `insert` caches a rate: it has rates, and it is that of a
cryptocurrency other than USDT against USDT. -/
def caches (rate : QueriedExchangeRate) : Bool :=
  !rate.rates.isEmpty && decide (to_uppercase rate.base_asset.symbol ≠ USDT)
    && decide (rate.base_asset.class' = .Cryptocurrency)
    && decide (rate.quote_asset = usdt_asset)

/-- `ExchangeRateCache::insert`. -/
def insert (self : ExchangeRateCache L) (rate : QueriedExchangeRate) : ExchangeRateCache L :=
  if caches rate then
    ⟨LruCache.put self.lru_cache (to_uppercase rate.base_asset.symbol, rate.timestamp) rate⟩
  else self

/-- `ExchangeRateCache::get`: the cached rate, or the unit rate for USDT. -/
def get (self : ExchangeRateCache L) (symbol : String) (timestamp : ℕ) :
    Option QueriedExchangeRate × ExchangeRateCache L :=
  if to_uppercase symbol = USDT then
    (some (QueriedExchangeRate.new usdt_asset usdt_asset timestamp [RATE_UNIT] 0 0 none), self)
  else
    let found := LruCache.get self.lru_cache (to_uppercase symbol, timestamp)
    (found.1, ⟨found.2⟩)

/-- What `get` answers, as a function of the contents alone. The handlers read through `get`,
which also counts as a use; their proofs read through `lookup`, which does not. -/
def lookup (self : ExchangeRateCache L) (symbol : String) (timestamp : ℕ) :
    Option QueriedExchangeRate :=
  if to_uppercase symbol = USDT then some (QueriedExchangeRate.usdt_unit timestamp)
  else LruCache.peek self.lru_cache (to_uppercase symbol, timestamp)

@[simp] theorem get_fst (self : ExchangeRateCache L) (symbol : String) (timestamp : ℕ) :
    (self.get symbol timestamp).1 = self.lookup symbol timestamp := by
  unfold get lookup
  split
  · rfl
  · exact LruCache.get_fst _ _

/-- Reading the cache does not change what it answers. -/
@[simp] theorem lookup_get (self : ExchangeRateCache L) (symbol : String) (timestamp : ℕ)
    (symbol' : String) (timestamp' : ℕ) :
    (self.get symbol timestamp).2.lookup symbol' timestamp' = self.lookup symbol' timestamp' := by
  unfold get lookup
  by_cases h : to_uppercase symbol = USDT
  · rw [if_pos h]
  · rw [if_neg h]
    simp only [LruCache.peek_get]

end ExchangeRateCache

end Xrc
