import ZeroLGR.RingBuffer.Refinement
import ZeroLGR.Wal.Safety
import ZeroLGR.Wal.Resume
import ZeroLGR.Wal.Torn
import ZeroLGR.Wal.BitFlip
import ZeroLGR.Wal.Remainder
import ZeroLGR.Wal.Grammar
import ZeroLGR.Wal.FailedAppend
import ZeroLGR.Ledger.Accounting
import ZeroLGR.Ledger.RefinesLog
import ZeroLGR.Ledger.Idempotency
import ZeroLGR.Ledger.Overdraft
import ZeroLGR.Ledger.Overflow
import ZeroLGR.Ledger.Restart
import ZeroLGR.Ledger.Uniqueness
import ZeroLGR.Ledger.Certificate
import ZeroLGR.Ledger.Issued
import ZeroLGR.Ledger.Durable
import ZeroLGR.Ledger.Windows
import ZeroLGR.Ledger.WalRecord
import ZeroLGR.Ledger.Draining
import ZeroLGR.Server.Process
import ZeroLGR.Server.Counting
import ZeroLGR.Server.Bounds
import ZeroLGR.Server.Framing
import ZeroLGR.Gateway.Snapshot
import ZeroLGR.Gateway.Metrics
import ZeroLGR.Gateway.Reversal
import ZeroLGR.Gateway.Unreachable
import ZeroLGR.Gateway.Agreement
import ZeroLGR.Gateway.Correlation
import ZeroLGR.Gateway.Pending
import ZeroLGR.Gateway.Reports
import ZeroLGR.Gateway.Broadcast
import ZeroLGR.Gateway.Refunds
import ZeroLGR.Ledger.Linearizable
import ZeroLGR.Server.Stop
import ZeroLGR.Server.Serving
import ZeroLGR.Gateway.Deployment
import ZeroLGR.Server.Sequential
import ZeroLGR.Ledger.Recovery
import ZeroLGR.Server.Linearized
import ZeroLGR.Gateway.Dashboard
import ZeroLGR.Gateway.Benchmark
