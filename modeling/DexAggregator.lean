import DexAggregator.WorkStack.Basic
import DexAggregator.Slippage
import DexAggregator.Accounts
import DexAggregator.HonestLedger
import DexAggregator.Destinations
import DexAggregator.Schemas
import DexAggregator.Wire
