import GxbCore.Lib.Outcome
import GxbCore.Lib.Patch
import GxbCore.Db.ObjectDatabase
import GxbCore.Db.UndoDatabase
import GxbCore.Db.UndoRecords
import GxbCore.Db.Restore
import GxbCore.Db.MergeRecords
import GxbCore.Db.Sessions
import GxbCore.Chain.Atomicity
import GxbCore.Chain.HeadAgreement
import GxbCore.Chain.Irreversibility
import GxbCore.Chain.LogAgreement
import GxbCore.Chain.UndoHistory
import GxbCore.Lib.Weigh
import GxbCore.Protocol.Authority
import GxbCore.Protocol.AuthorityCheck
import GxbCore.Contract.ApplyContext
import GxbCore.Contract.Effects
import GxbCore.Contract.Isolation
import GxbCore.Contract.Iterators
import GxbCore.Contract.RamAccounting
import GxbCore.Contract.RowCounts
import GxbCore.Contract.TableMap
import GxbCore.Contract.Traversal
import GxbCore.Ledger.Amounts
import GxbCore.Ledger.AssetOps
import GxbCore.Ledger.HolderOps
import GxbCore.Ledger.ProxyReplay
import GxbCore.Ledger.Staking
import GxbCore.Ledger.VoteWeights
import GxbCore.Proposal.Effects
import GxbCore.Proposal.Executions
import GxbCore.Proposal.ReviewPeriod
import GxbCore.Proposal.Termination
import GxbCore.Protocol.Accounts
import GxbCore.Protocol.ContractAccounts
import GxbCore.Lib.Memberships
import GxbCore.Members.MemberIndex
import GxbCore.Members.MemberRuns
import GxbCore.Chain.BlockDatabase
import GxbCore.Chain.Handshake
import GxbCore.Chain.PendingRestored
import GxbCore.Ledger.LockTerms
import GxbCore.Ledger.StakingTerms
import GxbCore.Ledger.TrustNodePledges
import GxbCore.Ledger.WithdrawPeriods
import GxbCore.Proposal.ApprovalIndex
import GxbCore.Voting.BufferRuns
import GxbCore.Chain.BlockProduction
import GxbCore.Chain.ProducedBlocks
import GxbCore.Chain.ReplayProtection
import GxbCore.DataMarket.DataTransactions
import GxbCore.DataMarket.PaymentShares
import GxbCore.History.AccountHistory
import GxbCore.History.HistoryLists
import GxbCore.History.HistoryRuns
import GxbCore.Ledger.AccountFees
import GxbCore.Ledger.AssetRestrictions
import GxbCore.Ledger.Budget
import GxbCore.Ledger.CoinDays
import GxbCore.Ledger.LinearVesting
import GxbCore.Ledger.RewardAmounts
import GxbCore.Ledger.RewardArithmetic
import GxbCore.Ledger.RewardOverflow
import GxbCore.Ledger.StakeExpiry
import GxbCore.Lib.OrderStatistics
import GxbCore.Protocol.SpecialAuthorities
import GxbCore.Protocol.VoteCounts
import GxbCore.Schedule.Confirmations
import GxbCore.Schedule.Participation
import GxbCore.Voting.ActiveSet
import GxbCore.Voting.EligibleVotes
import GxbCore.Abi.RoundTrip
import GxbCore.DataMarket.LeaguePayments
import GxbCore.Ledger.ContractFees
import GxbCore.Ledger.FbaDistribution
import GxbCore.Ledger.FeeDissemination
import GxbCore.Ledger.FeeRoom
import GxbCore.Ledger.ProxyAuthority
import GxbCore.Ledger.QuotedFees
import GxbCore.Lib.GreedyRemoval
import GxbCore.Protocol.RequiredSignatures
import GxbCore.Protocol.SignatureSearch
import GxbCore.Protocol.SuggestedSignatures
import GxbCore.Abi.Names
import GxbCore.Chain.ForkPoints
import GxbCore.Chain.Agreement
import GxbCore.Contract.InlineCalls
import GxbCore.Ledger.AmountText
import GxbCore.Lib.Codec
import GxbCore.Lib.PairTree
import GxbCore.Protocol.AccountNames
import GxbCore.Protocol.Extensions
import GxbCore.Protocol.MerkleRoot
import GxbCore.Proposal.Approvals
import GxbCore.Db.FailedModify
import GxbCore.Members.IndexedAccounts
import GxbCore.Execution.FailedProposals
import GxbCore.Ledger.SupplyBounds
import GxbCore.Ledger.Conservation
import GxbCore.Abi.Resolution
import GxbCore.Ledger.FeeFixpoint
import GxbCore.Chain.Tapos
