import HopperBench.Library.LittleEndian
import HopperBench.Library.CheckedWord
import HopperBench.Library.Transactions
import HopperBench.Router.MockAmm
import HopperBench.Router.Slippage
import HopperBench.Router.Precedence
import HopperBench.Router.Venue
import HopperBench.Router.RouterBench
import HopperBench.Router.Refinement
import HopperBench.Router.OverflowSafety
import HopperBench.Vault.PinocchioVault
import HopperBench.Vault.Accounting
import HopperBench.Vault.AnchorVault
import HopperBench.Vault.WithdrawParity
import HopperBench.LazyDispatch.LazyDispatchVault
import HopperBench.LazyDispatch.DispatchAgreement
import HopperBench.Vault.WriteDiscipline
import HopperBench.Vault.WithdrawFailure
import HopperBench.Library.OrderedChecks
import HopperBench.Router.SwapContract
import HopperBench.Router.PanicFree
import HopperBench.Router.RouteRun
import HopperBench.Vault.CounterParity
import HopperBench.Library.FloorChain
import HopperBench.Router.Rounding
import HopperBench.Primitives.BenchProgram
import HopperBench.Primitives.Increments
import HopperBench.Library.DecimalText
import HopperBench.Primitives.BracketedDelta
import HopperBench.LazyDispatch.CivilFromDays
import HopperBench.Library.Metered
import HopperBench.Primitives.BenchInstructions
import HopperBench.Primitives.MeasuredBracket
import HopperBench.Library.Sweep
import HopperBench.Primitives.PrimitiveRun
import HopperBench.Primitives.MeterBudget
import HopperBench.Primitives.BenchWrites
import HopperBench.Library.Service
import HopperBench.Vault.AnchorProgram
import HopperBench.Vault.VaultContract
import HopperBench.Vault.VaultBank
import HopperBench.Vault.VaultRunner
import HopperBench.Library.Market
import HopperBench.Router.MarketRuns
import HopperBench.Router.RouterRunner
import HopperBench.LazyDispatch.DispatchBench
import HopperBench.Router.RouterReport
import HopperBench.Vault.VaultReport
import HopperBench.Library.Flags
import HopperBench.Solana.CommandLine
import HopperBench.Vault.VaultArgs
